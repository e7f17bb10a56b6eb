import Rebac.Yaml.Flow

/-
  This file defines how a document is read: lines whose
  indentation says what belongs to what.

  Each line is a tree with the deeper lines behind it. A
  line is an item of a list, an entry of a map, or a value
  of its own. The items of a list may stand as deep as the
  key that the list belongs to.

  What is read is a part of the language only: one document
  of maps, of lists of scalars, and of lists and maps in
  brackets on one line, with comments. A text is quoted, or
  it is plain and has no colon before a blank. There are no
  directives, tags, anchors or aliases, no byte order marks,
  no tabs before a text, no keys that `?` marks and no texts
  of several lines. Items of a list stand on one line, and
  nothing else stands on a line with the mark `---`.

  Key definitions include:
    * `Yaml.Line`
    * `Yaml.Line.ofText?`
    * `Yaml.Tree`
    * `Yaml.Tree.nest`
    * `Yaml.readInline?`
    * `Yaml.splitKey?`
    * `Yaml.Siblings`
    * `Yaml.Tree.root?`
    * `Yaml.read?`
-/

namespace Rebac

namespace Yaml

------------------------------------------------------------
-- Lines
------------------------------------------------------------

/- A line with its indentation, and what stands behind it. -/
structure Line where
  indent : Nat
  text : Bytes
  deriving DecidableEq, Repr

/- Marks between documents. -/
def documentMark : Bytes :=
  utf8 "---"

/-
  The line of a text; void lines and marks between documents
  have none.
-/
def Line.ofText? (text : Bytes) : Option Line :=
  if isVoid text ∨
      trimEnd (dropComment true text) = documentMark then
    none
  else
    some
      { indent := (text.takeWhile (· == 32)).length
        text := trimEnd (text.dropWhile (· == 32)) }

/- A line with the deeper lines behind it. -/
inductive Tree where
  | node (line : Line) (children : List Tree)
  deriving Repr

namespace Tree

/- The indentation of a tree's first line. -/
def indent : Tree → Nat
  | .node line _ => line.indent

/- Nests lines by their indentation. -/
def nest (lines : List Line) : List Tree :=
  lines.foldr
    (fun line trees =>
      let deeper := fun tree : Tree => line.indent < tree.indent
      .node line (trees.takeWhile deeper) :: trees.dropWhile deeper)
    []

/- Whether trees have the same indentation. -/
def aligned (trees : List Tree) : Bool :=
  match trees with
  | [] => true
  | first :: others =>
      others.all fun tree => tree.indent == first.indent

end Tree

------------------------------------------------------------
-- Values on a Line
------------------------------------------------------------

/- Reads a value that stands on a line with nothing below. -/
def readInline? (text : Bytes) : Option Node :=
  let text := trimStart text
  match readQuoted? text with
  | some none => none
  | some (some (inner, behind)) =>
      if isVoid behind then some (.scalar inner) else none
  | none =>
      if text.head? = some 91 ∨ text.head? = some 123 then
        readFlow? text
      else
        some (Node.ofPlain (trim (dropComment true text)))

/- Whether a colon before this text separates a key. -/
def separates (rest : Bytes) : Bool :=
  match rest with
  | [] => true
  | byte :: _ => isBlank byte

/-
  Splits a text at the first colon that separates, unless a
  comment starts before it.
-/
def splitColon? :
    (afterBlank : Bool) → Bytes → Option (Bytes × Bytes)
  | _, [] => none
  | afterBlank, byte :: rest =>
      if afterBlank ∧ byte = 35 then
        none
      else if byte = 58 ∧ separates rest then
        some ([], rest)
      else
        (splitColon? (isBlank byte) rest).map
          fun (before, behind) => (byte :: before, behind)

/- The key of a line and what stands behind its colon. -/
def splitKey? (text : Bytes) : Option (Bytes × Bytes) :=
  match readQuoted? text with
  | some none => none
  | some (some (key, behind)) =>
      match trimStart behind with
      | 58 :: rest =>
          if separates rest then some (key, rest) else none
      | _ => none
  | none =>
      if text.head? = some 91 ∨ text.head? = some 123 then
        none
      else
        (splitColon? true text).map fun (key, rest) =>
          (trimEnd key, rest)

/- What stands behind the dash of an item. -/
def splitItem? : Bytes → Option Bytes
  | 45 :: rest => if separates rest then some rest else none
  | _ => none

------------------------------------------------------------
-- Trees
------------------------------------------------------------

/-
  What lines of the same indentation hold: items that are
  not yet part of a list, and entries of a map.
-/
structure Siblings where
  items : List Node := []
  entries : List (Bytes × Node) := []

/- Adds an item in front of the others. -/
def Siblings.item
    (siblings : Siblings)
    (node : Node) : Siblings :=
  { siblings with items := node :: siblings.items }

/-
  Adds an entry in front of the others. Items that follow
  the entry of a key without a value are that value.
-/
def Siblings.entry?
    (siblings : Siblings)
    (key : Bytes)
    (value : Option Node) : Option Siblings :=
  match value, siblings.items with
  | none, [] =>
      some { entries := (key, .null) :: siblings.entries }
  | none, items =>
      some { entries := (key, .list items) :: siblings.entries }
  | some node, [] =>
      some { entries := (key, node) :: siblings.entries }
  | some _, _ => none

/- The node that siblings make up. -/
def Siblings.node? (siblings : Siblings) : Option Node :=
  match siblings.items, siblings.entries with
  | [], [] => some .null
  | items, [] => some (.list items)
  | [], entries => some (.map entries)
  | _, _ => none

mutual

/- Adds a line to the siblings behind it. -/
def Tree.join? : Tree → Siblings → Option Siblings
  | .node line children, siblings =>
      match splitItem? line.text with
      | some rest =>
          if children.isEmpty then
            (readInline? rest).map siblings.item
          else
            none
      | none =>
          match splitKey? line.text with
          | none => none
          | some (key, rest) =>
              if isVoid rest then
                if children.isEmpty then
                  siblings.entry? key none
                else if Tree.aligned children then
                  match Tree.joinAll? children with
                  | none => none
                  | some inner =>
                      inner.node?.bind fun node =>
                        siblings.entry? key (some node)
                else
                  none
              else if children.isEmpty then
                (readInline? rest).bind fun node =>
                  siblings.entry? key (some node)
              else
                none

/- What lines of the same indentation hold. -/
def Tree.joinAll? : List Tree → Option Siblings
  | [] => some {}
  | tree :: others =>
      (Tree.joinAll? others).bind (Tree.join? tree)

end

/- Whether a line is a value of its own. -/
def isValue (text : Bytes) : Bool :=
  (splitItem? text).isNone && (splitKey? text).isNone

/- The node of a whole document. -/
def Tree.root? : List Tree → Option Node
  | [] => some .null
  | [.node line []] =>
      if isValue line.text then
        readInline? line.text
      else
        (Tree.joinAll? [.node line []]).bind Siblings.node?
  | trees =>
      if Tree.aligned trees then
        (Tree.joinAll? trees).bind Siblings.node?
      else
        none

/- Reads a document; the result is `none` if it is malformed. -/
def read? (text : Bytes) : Option Node :=
  Tree.root? (Tree.nest ((Bytes.lines text).filterMap Line.ofText?))

end Yaml

end Rebac
