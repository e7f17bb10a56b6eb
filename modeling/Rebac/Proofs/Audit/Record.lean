import Rebac.Audit.Record
import Rebac.Proofs.Audit.Line
import Rebac.Proofs.Audit.Timestamp

/-
  This file proves that the line of a record tells what was
  recorded, and nothing else. The names of users and objects
  may hold quotes, newlines or lines of their own: they come
  back as they are, and two records have the same line only
  if they are the same.

  Key definitions include:
    * `AuditRecord.IsEntry`
    * `AuditRecord.allMembers`

  Key theorems include:
    * `Line.render_inj`
    * `AuditRecord.line_inj`
    * `AuditRecord.told_by_line`
-/

namespace Rebac

------------------------------------------------------------
-- Lines
------------------------------------------------------------

namespace Line

theorem Member.value_inj
    {first second : Member}
    (hSame : first.value = second.value) :
    first = second := by
  rcases first with ⟨name, content⟩
  rcases second with ⟨otherName, otherContent⟩
  rcases Prod.mk.inj hSame with ⟨hName, hContent⟩
  rw [Member.mk.injEq]
  refine ⟨hName, ?_⟩
  cases content with
  | text written =>
      cases otherContent with
      | text other => exact congrArg _ (Json.Value.text.inj hContent)
      | number other => cases hContent
  | number value =>
      cases otherContent with
      | text other => cases hContent
      | number other =>
          exact congrArg _
            (Int.cast_injective (Json.Value.number.inj hContent))

/- Lines are told apart by their members. -/
theorem render_inj
    {first second : List Member}
    (hFirst : (first.map Member.name).Nodup)
    (hSecond : (second.map Member.name).Nodup)
    (hSame : render first = render second) :
    first = second := by
  have hRead := Json.read?_render hFirst
  rw [hSame, Json.read?_render hSecond] at hRead
  have hValues := Json.Value.object.inj (Option.some.inj hRead)
  exact (List.map_inj_right fun _ _ => Member.value_inj).mp
    hValues.symm

end Line

------------------------------------------------------------
-- Records
------------------------------------------------------------

namespace AuditRecord

/- Everything but a note, which is written as it is. -/
def IsEntry : AuditRecord → Prop
  | .note _ _ => False
  | _ => True

/- The members of a record's line; a note has none. -/
def allMembers : AuditRecord → List Line.Member
  | .check entry => entry.members
  | .write entry => entry.members
  | .model entry => entry.members
  | .note _ _ => []

theorem line_eq_render
    {record : AuditRecord}
    (hEntry : record.IsEntry) :
    record.line = Line.render record.allMembers := by
  cases record with
  | note severity text => exact hEntry.elim
  | check entry => rfl
  | write entry => rfl
  | model entry => rfl

/- No name occurs twice in a line. -/
theorem nodup_names (record : AuditRecord) :
    (record.allMembers.map Line.Member.name).Nodup := by
  have hChecks :
      [utf8 "event", utf8 "user", utf8 "relation",
        utf8 "object", utf8 "decision", utf8 "reason",
        utf8 "cache_source", utf8 "txid", utf8 "expansions",
        utf8 "timestamp", utf8 "duration_us"].Nodup := by
    decide
  have hWrites :
      [utf8 "event", utf8 "txid", utf8 "written",
        utf8 "deleted", utf8 "timestamp"].Nodup := by
    decide
  have hModels :
      [utf8 "event", utf8 "model_id", utf8 "version_id",
        utf8 "error_count", utf8 "warning_count",
        utf8 "timestamp"].Nodup := by
    decide
  cases record with
  | check entry => exact hChecks
  | write entry => exact hWrites
  | model entry => exact hModels
  | note severity text => exact List.nodup_nil

/- A line is read as the object of its record. -/
theorem read?_line
    (record : AuditRecord)
    (hEntry : record.IsEntry) :
    Json.read? record.line =
      some (.object (record.allMembers.map Line.Member.value)) := by
  rw [line_eq_render hEntry]
  exact Json.read?_render (nodup_names record)

section Members

variable {name : String}

theorem textMember_inj {first second : Bytes} :
    textMember name first = textMember name second ↔
      first = second := by
  simp [textMember]

theorem numberMember_inj {first second : Int} :
    numberMember name first = numberMember name second ↔
      first = second := by
  simp [numberMember]

theorem timeMember_inj {first second : Int} :
    timeMember first = timeMember second ↔ first = second :=
  textMember_inj.trans Timestamp.text_inj

end Members

theorem Check.members_inj
    {first second : Check}
    (hSame : first.members = second.members) :
    first = second := by
  rcases first with ⟨⟩
  rcases second with ⟨⟩
  simp only [members, List.cons.injEq, textMember_inj,
    numberMember_inj, timeMember_inj, Int.natCast_inj] at hSame
  rcases hSame with
    ⟨-, rfl, rfl, rfl, rfl, rfl, rfl, rfl, rfl, rfl, rfl, -⟩
  rfl

theorem Write.members_inj
    {first second : Write}
    (hSame : first.members = second.members) :
    first = second := by
  rcases first with ⟨⟩
  rcases second with ⟨⟩
  simp only [members, List.cons.injEq, numberMember_inj,
    timeMember_inj, Int.natCast_inj] at hSame
  rcases hSame with ⟨-, rfl, rfl, rfl, rfl, -⟩
  rfl

theorem ModelEvent.members_inj
    {first second : ModelEvent}
    (hSame : first.members = second.members) :
    first = second := by
  rcases first with ⟨⟩
  rcases second with ⟨⟩
  simp only [members, List.cons.injEq, textMember_inj,
    numberMember_inj, timeMember_inj, Int.natCast_inj,
    List.append_cancel_left_eq] at hSame
  rcases hSame with ⟨rfl, rfl, rfl, rfl, rfl, rfl, -⟩
  rfl

/- Records of two kinds differ in the number of members. -/
theorem length_allMembers (record : AuditRecord) :
    record.allMembers.length =
      match record with
      | .check _ => 11
      | .write _ => 5
      | .model _ => 6
      | .note _ _ => 0 := by
  cases record <;> rfl

theorem allMembers_inj
    {first second : AuditRecord}
    (hFirst : first.IsEntry)
    (hSecond : second.IsEntry)
    (hSame : first.allMembers = second.allMembers) :
    first = second := by
  have hLength := congrArg List.length hSame
  rw [length_allMembers, length_allMembers] at hLength
  cases first with
  | note severity text => exact hFirst.elim
  | check entry =>
      cases second with
      | note severity text => exact hSecond.elim
      | check other => exact congrArg _ (Check.members_inj hSame)
      | write other => cases hLength
      | model other => cases hLength
  | write entry =>
      cases second with
      | note severity text => exact hSecond.elim
      | check other => cases hLength
      | write other => exact congrArg _ (Write.members_inj hSame)
      | model other => cases hLength
  | model entry =>
      cases second with
      | note severity text => exact hSecond.elim
      | check other => cases hLength
      | write other => cases hLength
      | model other =>
          exact congrArg _ (ModelEvent.members_inj hSame)

/- Records are told apart by their lines. -/
theorem line_inj
    {first second : AuditRecord}
    (hFirst : first.IsEntry)
    (hSecond : second.IsEntry) :
    first.line = second.line ↔ first = second := by
  constructor
  · intro hSame
    rw [line_eq_render hFirst, line_eq_render hSecond] at hSame
    exact allMembers_inj hFirst hSecond
      (Line.render_inj (nodup_names first) (nodup_names second)
        hSame)
  · exact congrArg line

/-
  The line of a check and the line of a model's event are
  single objects, which hold what was recorded under its name.
  Lines have no newline or other control character, and no two
  records have the same line.
-/
theorem told_by_line :
    (∀ entry : Check,
      Json.read? (check entry).line =
        some (.object
          [(utf8 "event", .text (utf8 "check")),
            (utf8 "user", .text entry.user),
            (utf8 "relation", .text entry.relation),
            (utf8 "object", .text entry.object),
            (utf8 "decision", .text entry.decision),
            (utf8 "reason", .text entry.reason),
            (utf8 "cache_source", .text entry.source),
            (utf8 "txid", .number entry.txid),
            (utf8 "expansions", .number entry.expansions),
            (utf8 "timestamp",
              .text (Timestamp.text entry.time)),
            (utf8 "duration_us", .number entry.duration)])) ∧
      (∀ entry : ModelEvent,
        Json.read? (model entry).line =
          some (.object
            [(utf8 "event",
                .text (utf8 "model_" ++ entry.event)),
              (utf8 "model_id", .text entry.model),
              (utf8 "version_id", .text entry.version),
              (utf8 "error_count", .number entry.errors),
              (utf8 "warning_count", .number entry.warnings),
              (utf8 "timestamp",
                .text (Timestamp.text entry.time))])) ∧
        ∀ first second : AuditRecord,
          first.IsEntry → second.IsEntry →
            (∀ byte ∈ first.line, 32 ≤ byte) ∧
              (first.line = second.line ↔ first = second) := by
  refine ⟨fun entry => ?_, fun entry => ?_, ?_⟩
  · rw [read?_line (check entry) trivial]
    rfl
  · exact read?_line (model entry) trivial
  · intro first second hFirst hSecond
    refine ⟨?_, line_inj hFirst hSecond⟩
    rw [line_eq_render hFirst]
    exact Line.printable_render _

------------------------------------------------------------
-- An Example
------------------------------------------------------------

/- A check of someone who was not allowed to read. -/
def refused : Check :=
  { user := utf8 "user:mallory"
    relation := utf8 "viewer"
    object := utf8 "doc:plan"
    decision := utf8 "denied"
    reason := []
    source := utf8 "none"
    txid := 7
    expansions := 1
    time := 1700000000000
    duration := 0 }

/-
  The same with a name that ends its text and the line, and
  begins another line that grants everything.
-/
def forged : Check :=
  { refused with
    user := utf8
      "user:mallory\",\"decision\":\"allowed\"\x7d\n\x7b\"user\":\"" }

/- The forged name stays on its line and is told from others. -/
theorem forged_told :
    (check forged).IsEntry ∧
      (check refused).IsEntry ∧
        10 ∈ forged.user ∧
          10 ∉ (check forged).line ∧
            (check forged).line ≠ (check refused).line := by
  have hTold :=
    told_by_line.2.2 (check forged) (check refused) trivial trivial
  refine ⟨trivial, trivial, by decide, ?_, ?_⟩
  · exact fun hNewline => absurd (hTold.1 10 hNewline) (by decide)
  · exact fun hSame => absurd (hTold.2.mp hSame) (by decide)

end AuditRecord

end Rebac
