import Rebac.Yaml.Node
import Rebac.Yaml.Scalar

/-
  This file defines lists and maps that are written on one
  line: `[a, b]` and `{a: b}`, one inside the other as deep
  as one likes.

  The line is first cut into tokens. The tokens are then
  read from left to right, with one frame for each bracket
  that is still open.

  Key definitions include:
    * `Yaml.FlowToken`
    * `Yaml.FlowToken.scan`
    * `Yaml.Frame`
    * `Yaml.Frame.put?`
    * `Yaml.Frame.closeList?`
    * `Yaml.Frame.closeMap?`
    * `Yaml.readFlow?`
-/

namespace Rebac

namespace Yaml

------------------------------------------------------------
-- Tokens
------------------------------------------------------------

/- What a line in brackets is made of. -/
inductive FlowToken where
  | openList
  | closeList
  | openMap
  | closeMap
  | comma
  | colon
  | plain (text : Bytes)
  | quoted (text : Bytes)
  deriving DecidableEq, Repr

namespace FlowToken

/- Signs that are tokens of their own. -/
def ofSign? (byte : UInt8) : Option FlowToken :=
  if byte = 91 then some .openList
  else if byte = 93 then some .closeList
  else if byte = 123 then some .openMap
  else if byte = 125 then some .closeMap
  else if byte = 44 then some .comma
  else none

/- Whether a colon separates when this is what follows it. -/
def endsKey (rest : Bytes) : Bool :=
  match rest with
  | [] => true
  | byte :: _ => isBlank byte || (ofSign? byte).isSome

/- Splits off a text without quotes. -/
def spanPlain : Bytes → Bytes × Bytes
  | [] => ([], [])
  | byte :: rest =>
      if (ofSign? byte).isSome || (byte == 58 && endsKey rest) then
        ([], byte :: rest)
      else
        let (text, behind) := spanPlain rest
        (byte :: text, behind)

theorem spanPlain_not_longer (text : Bytes) :
    (spanPlain text).2.length ≤ text.length := by
  fun_induction spanPlain text <;>
    simp_all only [List.length_cons, List.length_nil] <;> omega

theorem readSingle_not_longer
    {text inner behind : Bytes}
    (h : readSingle? text = some (inner, behind)) :
    behind.length ≤ text.length := by
  fun_induction readSingle? text generalizing inner behind
  all_goals simp_all
  all_goals grind

theorem readDouble_not_longer
    {text inner behind : Bytes}
    (h : readDouble? text = some (inner, behind)) :
    behind.length ≤ text.length := by
  fun_induction readDouble? text generalizing inner behind
  all_goals simp_all
  all_goals grind

theorem readQuoted_shorter
    {text inner behind : Bytes}
    (h : readQuoted? text = some (some (inner, behind))) :
    behind.length < text.length := by
  unfold readQuoted? at h
  split at h
  · have := readSingle_not_longer (Option.some.inj h)
    simp
    omega
  · have := readDouble_not_longer (Option.some.inj h)
    simp
    omega
  · simp at h

/- Cuts a line into tokens, up to its comment. -/
def scan (text : Bytes) : Option (List FlowToken) :=
  match text with
  | [] => some []
  | byte :: rest =>
      if isBlank byte then
        scan rest
      else if byte = 35 then
        some []
      else
        match ofSign? byte with
        | some token => (scan rest).map (token :: ·)
        | none =>
            if byte = 58 then
              (scan rest).map (.colon :: ·)
            else
              match _ : readQuoted? (byte :: rest) with
              | some none => none
              | some (some (inner, behind)) =>
                  (scan behind).map (.quoted inner :: ·)
              | none =>
                  let split := spanPlain rest
                  (scan split.2).map
                    (.plain (trimEnd (byte :: split.1)) :: ·)
termination_by text.length
decreasing_by
  all_goals simp_wf
  · have hBehind := readQuoted_shorter
      ‹readQuoted? (byte :: rest) = _›
    simpa using hBehind
  · have hRest := spanPlain_not_longer rest
    omega

end FlowToken

------------------------------------------------------------
-- Frames
------------------------------------------------------------

/-
  A bracket that is open, with what was read inside it. The
  last node is not yet in its place: in a map it may turn
  out to be a key.
-/
inductive Frame where
  | list (items : List Node) (last : Option Node)
  | map
      (entries : List (Bytes × Node))
      (key : Option Bytes)
      (last : Option Node)

namespace Frame

/- Puts a node where there is none yet. -/
def put? (frame : Frame) (node : Node) : Option Frame :=
  match frame with
  | .list items none => some (.list items (some node))
  | .map entries key none => some (.map entries key (some node))
  | _ => none

/- The text of a node that is used as a key. -/
def keyText? : Node → Option Bytes
  | .null => some (utf8 "null")
  | .scalar text => some text
  | _ => none

/- Makes the last node of a map the key of the next one. -/
def colon? : Frame → Option Frame
  | .map entries none (some node) =>
      (keyText? node).map fun key => .map entries (some key) none
  | _ => none

/- Moves the last node to its place. -/
def settle? : Frame → Option Frame
  | .list items (some node) => some (.list (items ++ [node]) none)
  | .list items none => some (.list items none)
  | .map entries none none => some (.map entries none none)
  | .map entries none (some node) =>
      (keyText? node).map fun key =>
        .map (entries ++ [(key, .null)]) none none
  | .map entries (some key) last =>
      some (.map (entries ++ [(key, last.getD .null)]) none none)

/- Begins a new element; there has to be one before it. -/
def comma? (frame : Frame) : Option Frame :=
  match frame with
  | .list _ none => none
  | .map _ none none => none
  | _ => frame.settle?

/- The node of a list whose bracket is closed. -/
def closeList? (frame : Frame) : Option Node :=
  match frame.settle? with
  | some (.list items _) => some (.list items)
  | _ => none

/- The node of a map whose bracket is closed. -/
def closeMap? (frame : Frame) : Option Node :=
  match frame.settle? with
  | some (.map entries _ _) => some (.map entries)
  | _ => none

end Frame

------------------------------------------------------------
-- Reading
------------------------------------------------------------

/-
  Reads tokens inside the given frames, the innermost first.
  The node is complete when the last frame is closed; then
  no token may be left.
-/
def readTokens? : List Frame → List FlowToken → Option Node
  | [], _ => none
  | _ :: _, [] => none
  | frame :: outer, token :: rest =>
      let change (changed : Option Frame) : Option Node :=
        match changed with
        | some changed => readTokens? (changed :: outer) rest
        | none => none
      let close (closed : Option Node) : Option Node :=
        match closed, outer with
        | none, _ => none
        | some node, [] => if rest.isEmpty then some node else none
        | some node, next :: others =>
            match next.put? node with
            | none => none
            | some next => readTokens? (next :: others) rest
      match token with
      | .openList =>
          readTokens? (.list [] none :: frame :: outer) rest
      | .openMap =>
          readTokens? (.map [] none none :: frame :: outer) rest
      | .closeList => close frame.closeList?
      | .closeMap => close frame.closeMap?
      | .comma => change frame.comma?
      | .colon => change frame.colon?
      | .plain text => change (frame.put? (Node.ofPlain text))
      | .quoted text => change (frame.put? (.scalar text))

/- Reads a list or a map that is written on one line. -/
def readFlow? (text : Bytes) : Option Node :=
  match FlowToken.scan text with
  | some (.openList :: rest) => readTokens? [.list [] none] rest
  | some (.openMap :: rest) => readTokens? [.map [] none none] rest
  | _ => none

end Yaml

end Rebac
