import Rebac.Language.Layout

/-
  This file defines the division of a model source into
  tokens.

  A source is scanned line by line. A line that is blank or
  holds only a comment yields nothing. Any other line yields
  the changes of the open blocks, the lexemes of the line
  and a newline. At the end all open blocks are closed.

  Key definitions include:
    * `Lexeme.first?`
    * `Token.scanLine`
    * `Token.scanLines`
    * `Token.scan`
-/

namespace Rebac

------------------------------------------------------------
-- Lexemes
------------------------------------------------------------

namespace Lexeme

/- The kind of a word: a keyword, or else an identifier. -/
def wordKind (word : Bytes) : TokenKind :=
  match Keyword.ofWord? word with
  | some keyword => .keyword keyword
  | none => .identifier

/-
  The lexeme at the head of a text: its kind, and those of
  its bytes that follow the first.

  A run of digits and dots is a version if it has a dot.
  Without a dot it is the head of an identifier, which may
  go on with letters.
-/
def first?
    (first : UInt8)
    (rest : Bytes) : Option (TokenKind × Bytes) :=
  if first = 58 then
    some (.mark .colon, [])
  else if first = 91 then
    some (.mark .openBracket, [])
  else if first = 93 then
    some (.mark .closeBracket, [])
  else if first = 35 then
    some (.mark .hash, [])
  else if first = 44 then
    some (.mark .comma, [])
  else if first = 42 then
    some (.mark .star, [])
  else if first = 45 then
    if rest.head? = some 62 then
      some (.mark .arrow, [62])
    else
      none
  else if Bytes.isDigit first then
    let dotted := rest.takeWhile fun byte =>
      Bytes.isDigit byte || byte == 46
    if 46 ∈ dotted then
      some (.version, dotted)
    else
      some (.identifier, rest.takeWhile Bytes.isWord)
  else if Bytes.isLetter first || first == 95 then
    let more := rest.takeWhile Bytes.isWord
    some (wordKind (first :: more), more)
  else
    none

end Lexeme

------------------------------------------------------------
-- Lines
------------------------------------------------------------

namespace Token

/- Bytes that separate lexemes within a line. -/
def isBlank (byte : UInt8) : Bool :=
  byte == 32 || byte == 9 || byte == 13

/- Whether a text starts with the two slashes of a comment. -/
def opensComment : Bytes → Bool
  | 47 :: 47 :: _ => true
  | _ => false

/-
  The lexemes of a line behind its indentation. A comment
  runs to the end of the line.
-/
def scanLine
    (location : Location)
    (text : Bytes) : Except SourceError (List Token) :=
  match text with
  | [] => .ok []
  | first :: rest =>
      if isBlank first then
        scanLine (location.advance 1) rest
      else if opensComment (first :: rest) then
        .ok []
      else
        match Lexeme.first? first rest with
        | none =>
            .error
              { cause := .unexpectedByte first
                location := location }
        | some (kind, more) =>
            let token : Token :=
              { kind := kind
                text := first :: more
                location := location }
            let remaining := rest.drop more.length
            match
              scanLine
                (location.advance (more.length + 1))
                remaining with
            | .error error => .error error
            | .ok tokens => .ok (token :: tokens)
termination_by text.length
decreasing_by
  · simp only [List.length_cons]
    omega
  · simp only [List.length_drop, List.length_cons]
    omega

/- The tokens of a change of the open blocks. -/
def ofChange
    (location : Location) :
    Layout.Change → List Token
  | .same => []
  | .opened => [{ kind := .openBlock, location := location }]
  | .closed count =>
      List.replicate count
        { kind := .closeBlock, location := location }

------------------------------------------------------------
-- Sources
------------------------------------------------------------

/-
  The tokens of the lines of a source. The number is that of
  the first line and the offset that of its first byte.
-/
def scanLines
    (finish : Location)
    (number offset : Nat)
    (blocks : Layout.Blocks) :
    List Bytes → Except SourceError (List Token)
  | [] =>
      .ok
        (ofChange finish (.closed blocks.length) ++
          [{ kind := .endOfSource, location := finish }])
  | line :: others =>
      let (width, count, content) := Layout.indentation line
      let next := offset + line.length + 1
      if content = [] ∨ opensComment content then
        scanLines finish (number + 1) next blocks others
      else
        let start : Location :=
          { line := number
            column := width + 1
            offset := offset + count }
        match blocks.move? width with
        | none =>
            .error
              { cause := .inconsistentIndentation
                location := start }
        | some (change, kept) =>
            match scanLine start content with
            | .error error => .error error
            | .ok lexemes =>
                match
                  scanLines finish (number + 1) next kept
                    others with
                | .error error => .error error
                | .ok tokens =>
                    .ok
                      (ofChange start change ++ lexemes ++
                        { kind := .newline
                          location :=
                            start.advance content.length } ::
                          tokens)

/-
  The tokens of a source. The last of them, and no other,
  marks the end of the source; it stands in the first column
  of the last line.
-/
def scan (source : Bytes) : Except SourceError (List Token) :=
  let lines := Bytes.lines source
  let finish : Location :=
    { line := lines.length
      column := 1
      offset := source.length }
  scanLines finish 1 0 [] lines

end Token

end Rebac
