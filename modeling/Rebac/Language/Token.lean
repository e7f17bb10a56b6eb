import Rebac.Language.Location

/-
  This file defines the tokens of the model language.

  Key definitions include:
    * `Keyword`
    * `Keyword.ofWord?`
    * `Mark`
    * `TokenKind`
    * `TokenKind.name`
    * `Token`
-/

namespace Rebac

------------------------------------------------------------
-- Keywords
------------------------------------------------------------

/-
  The reserved words. `via` is the word `from`, which joins
  a relation to the relation that leads to its objects.
-/
inductive Keyword where
  | model
  | schema
  | type
  | relations
  | define
  | or
  | and
  | but
  | not
  | via
  deriving DecidableEq, Repr

namespace Keyword

/- All keywords in the order of their declaration. -/
def all : List Keyword :=
  [.model, .schema, .type, .relations, .define,
    .or, .and, .but, .not, .via]

/- The lower-case spelling of a keyword. -/
def spelling : Keyword → Bytes
  | .model => utf8 "model"
  | .schema => utf8 "schema"
  | .type => utf8 "type"
  | .relations => utf8 "relations"
  | .define => utf8 "define"
  | .or => utf8 "or"
  | .and => utf8 "and"
  | .but => utf8 "but"
  | .not => utf8 "not"
  | .via => utf8 "from"

/- The keyword that a word spells, in any letter case. -/
def ofWord? (word : Bytes) : Option Keyword :=
  all.find? fun keyword =>
    keyword.spelling = Bytes.lower word

end Keyword

------------------------------------------------------------
-- Tokens
------------------------------------------------------------

/- The marks of punctuation. -/
inductive Mark where
  | colon
  | openBracket
  | closeBracket
  | hash
  | arrow
  | comma
  | star
  deriving DecidableEq, Repr

namespace Mark

/- The bytes that a mark is written with. -/
def spelling : Mark → Bytes
  | .colon => utf8 ":"
  | .openBracket => utf8 "["
  | .closeBracket => utf8 "]"
  | .hash => utf8 "#"
  | .arrow => utf8 "->"
  | .comma => utf8 ","
  | .star => utf8 "*"

end Mark

/-
  The kinds of token. The last four carry the layout of a
  source: a line's end, the opening and the closing of an
  indented block, and the end of the source.
-/
inductive TokenKind where
  | keyword (word : Keyword)
  | mark (sign : Mark)
  | identifier
  | version
  | newline
  | openBlock
  | closeBlock
  | endOfSource
  deriving DecidableEq, Repr

namespace TokenKind

/- The name of a token kind in messages. -/
def name : TokenKind → Bytes
  | .keyword .model => utf8 "MODEL"
  | .keyword .schema => utf8 "SCHEMA"
  | .keyword .type => utf8 "TYPE"
  | .keyword .relations => utf8 "RELATIONS"
  | .keyword .define => utf8 "DEFINE"
  | .keyword .or => utf8 "OR"
  | .keyword .and => utf8 "AND"
  | .keyword .but => utf8 "BUT"
  | .keyword .not => utf8 "NOT"
  | .keyword .via => utf8 "FROM"
  | .mark .colon => utf8 "COLON"
  | .mark .openBracket => utf8 "LBRACKET"
  | .mark .closeBracket => utf8 "RBRACKET"
  | .mark .hash => utf8 "HASH"
  | .mark .arrow => utf8 "ARROW"
  | .mark .comma => utf8 "COMMA"
  | .mark .star => utf8 "STAR"
  | .identifier => utf8 "IDENTIFIER"
  | .version => utf8 "VERSION"
  | .newline => utf8 "NEWLINE"
  | .openBlock => utf8 "INDENT"
  | .closeBlock => utf8 "DEDENT"
  | .endOfSource => utf8 "EOF"

/- Whether a token kind carries layout and no source bytes. -/
def IsLayout : TokenKind → Prop
  | .newline => True
  | .openBlock => True
  | .closeBlock => True
  | .endOfSource => True
  | _ => False

instance (kind : TokenKind) : Decidable kind.IsLayout := by
  cases kind <;> unfold IsLayout <;> infer_instance

end TokenKind

/-
  A token, with the bytes it is written with. The letter
  case of a keyword is kept.
-/
structure Token where
  kind : TokenKind
  text : Bytes := []
  location : Location := {}
  deriving DecidableEq, Repr

namespace Token

/- What a reader sees behind the last token. -/
def endOfSource : Token :=
  { kind := .endOfSource }

/-
  A token as a message quotes it: its kind, followed by its
  text in double quotes if it has any.
-/
def described (token : Token) : Bytes :=
  if token.text = [] then
    token.kind.name
  else
    token.kind.name ++ utf8 " \"" ++ token.text ++ utf8 "\""

end Token

end Rebac
