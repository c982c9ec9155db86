import CartridgeRuntime.Engine.Checkpoint

/-!
# Valid events

The conditions under which an event passes its own check, the size of its document, and the event
that continues a journal: `nextEvent_succeeds`.
-/

namespace CartridgeRuntime.Engine

open Checked CartridgeRuntime.Core Encoding Codec Fields

variable [HexCodec] [Sha256] [Semver]

namespace EngineEvent

variable {event : EngineEvent}

omit [HexCodec] [Sha256] [Semver] in
theorem size_kind_le (kind : EngineEventKind) : EngineEventKind.codec.size kind ≤ 8 := by
  cases kind <;> decide

/-- The event is in order apart from the digest of its own document. -/
structure PartsValid (event : EngineEvent) : Prop where
  format : event.formatVersion = engineEventFormatVersion
  revision_pos : event.revision ≠ 0
  created_pos : event.createdAtMs ≠ 0
  stack_valid : validName event.stack
  first : event.revision = 1 → event.previousEventSha256 = ""
  later : event.revision > 1 → isDigest event.previousEventSha256
  plan : event.kind = .remove ∧ event.plan = none
    ∨ event.kind ≠ .remove ∧ ∃ plan, event.plan = some plan ∧ plan.validate = .ok ()
      ∧ plan.stack = event.stack
      ∧ (event.kind = .stop → ∀ planned ∈ plan.instances, planned.desired = .stopped)

omit [Semver] in
/-- The event with the digest of its own document. -/
def sealed (event : EngineEvent) : EngineEvent :=
  { event with eventSha256 := event.computedSha256 }

theorem PartsValid.validate_sealed (h : event.PartsValid) : event.sealed.validate = .ok () := by
  have hdigest : isDigest event.sealed.eventSha256 := isDigest_sha256Hex _
  have hidentity : ¬ (event.sealed.formatVersion ≠ engineEventFormatVersion
      ∨ event.sealed.revision = 0 ∨ event.sealed.createdAtMs = 0 ∨ ¬ validName event.sealed.stack
      ∨ (event.sealed.revision = 1 ∧ ¬ event.sealed.previousEventSha256.isEmpty)
      ∨ (event.sealed.revision > 1 ∧ ¬ isDigest event.sealed.previousEventSha256)
      ∨ ¬ isDigest event.sealed.eventSha256
      ∨ event.sealed.computedSha256 ≠ event.sealed.eventSha256) := by
    rintro (hno | hno | hno | hno | ⟨hrevision, hno⟩ | ⟨hrevision, hno⟩ | hno | hno)
    · exact hno h.format
    · exact h.revision_pos hno
    · exact h.created_pos hno
    · exact hno h.stack_valid
    · exact hno (by rw [show event.sealed.previousEventSha256 = "" from h.first hrevision]; rfl)
    · exact hno (h.later hrevision)
    · exact hno hdigest
    · exact hno rfl
  rw [validate, rejectIf_of_not _ hidentity, ok_bind]
  rcases h.plan with ⟨hkind, hplan⟩ | ⟨hkind, plan, hplan, hvalid, hstack, hstopped⟩
  · simp only [sealed, hkind, hplan]
    rfl
  · cases hevent : event.kind with
    | remove => exact absurd hevent hkind
    | apply =>
      simp only [sealed, hevent, requirePlan, hplan, okOr, ok_bind, hvalid]
      exact rejectIf_of_not _ (not_not.mpr hstack)
    | stop =>
      simp only [sealed, hevent, requirePlan, hplan, okOr, ok_bind, hvalid]
      refine rejectIf_of_not _ ?_
      rintro (hforeign | ⟨planned, hmem, hrunning⟩)
      · exact hforeign hstack
      · exact hrunning (hstopped hevent planned hmem)

theorem partsValid_of_validate (h : event.validate = .ok ()) :
    event.PartsValid ∧ isDigest event.eventSha256 := by
  have hplan := plan_of_validate h
  simp only [validate, bind_eq_ok, exists_unit] at h
  obtain ⟨hidentity, -⟩ := h
  rw [rejectIf_eq_ok] at hidentity
  simp only [not_or, not_not, not_and] at hidentity
  obtain ⟨hformat, hrevision, hcreated, hname, hfirst, hlater, hdigest, -⟩ := hidentity
  exact ⟨⟨hformat, hrevision, hcreated, hname, fun h => by simpa using hfirst h, hlater, hplan⟩,
    hdigest⟩

/-- The document of a valid event is hardly longer than that of its plan. -/
theorem length_encode_le (h : event.validate = .ok ()) :
    (encode event).length ≤ maxStackPlanBytes + 1024 := by
  obtain ⟨hparts, hdigest⟩ := partsValid_of_validate h
  have hprevious : string.size event.previousEventSha256 ≤ 66 := by
    by_cases hlater : event.revision > 1
    · exact size_isDigest_le (hparts.later hlater)
    · have hfirst : event.revision = 1 := by
        have hpos := hparts.revision_pos
        rw [gt_iff_lt, UInt64.not_lt, UInt64.le_iff_toNat_le] at hlater
        rw [Ne, ← UInt64.toNat_inj] at hpos
        rw [← UInt64.toNat_inj]
        simp only [UInt64.toNat_ofNat] at hpos hlater ⊢
        omega
      rw [hparts.first hfirst]
      decide
  have hplan : ∀ plan ∈ event.plan, StackPlan.codec.size plan ≤ maxStackPlanBytes + 64 := by
    intro plan hmem
    rcases hparts.plan with ⟨-, hnone⟩ | ⟨-, own, hown, hvalid, -⟩
    · rw [hnone] at hmem
      cases hmem
    · rw [hown] at hmem
      obtain rfl := Option.some.inj hmem
      exact (StackPlan.valid_of_validate hvalid).size_le
  rw [encode, Json.length_bytes]
  refine Nat.le_trans (size_record_le (size_member_le (size_natural_le (k := 1) (by omega) ?_) <|
    size_member_le (size_word_le _) <|
    size_member_le (size_validName_le hparts.stack_valid) <|
    size_member_le (size_kind_le _) <|
    size_member_le hprevious <|
    size_member_le (size_word_le _) <|
    size_member_le (size_nullable_le (k := maxStackPlanBytes + 64)
      (by decide) hplan) <|
    size_required_le (size_isDigest_le hdigest))) ?_
  · show event.formatVersion < 10 ^ 1
    rw [hparts.format]
    decide
  · decide +kernel

omit [Semver] in
/-- The first event of a journal, which applies a plan. -/
def firstApply (plan : StackPlan) : EngineEvent :=
  sealed
    { formatVersion := engineEventFormatVersion
      revision := 1
      stack := plan.stack
      kind := .apply
      previousEventSha256 := ""
      createdAtMs := 1
      plan := some plan
      eventSha256 := "" }

theorem firstApply_valid {plan : StackPlan} (h : plan.validate = .ok ()) :
    (firstApply plan).validate = .ok () :=
  PartsValid.validate_sealed
    { format := rfl
      revision_pos := (by decide : (1 : UInt64) ≠ 0)
      created_pos := (by decide : (1 : UInt64) ≠ 0)
      stack_valid := (StackPlan.valid_of_validate h).stack_valid
      first := fun _ => rfl
      later := fun hlater => absurd hlater (by decide : ¬ (1 : UInt64) > 1)
      plan := .inr ⟨(nomatch ·), plan, rfl, h, rfl, (nomatch ·)⟩ }

end EngineEvent

/-- The next event of a journal can be made when its plan is in order. -/
theorem nextEvent_succeeds {stack : String} {previous : Option EngineEvent}
    {kind : EngineEventKind} {plan : Option StackPlan} {clockMs : UInt64}
    (hclock : clockMs ≠ 0) (hname : validName stack)
    (hprevious : ∀ event ∈ previous,
      event.validate = .ok () ∧ event.stack = stack ∧ event.revision + 1 ≠ 0)
    (hplan : kind = .remove ∧ plan = none ∧ previous.isSome
      ∨ kind ≠ .remove ∧ ∃ own, plan = some own ∧ own.validate = .ok () ∧ own.stack = stack
        ∧ (kind = .stop → ∀ planned ∈ own.instances, planned.desired = .stopped)) :
    ∃ event, nextEvent previous kind plan clockMs = .ok event ∧ event.stack = stack := by
  have hstack : (plan.map StackPlan.stack).or (previous.map EngineEvent.stack) = some stack := by
    rcases hplan with ⟨-, rfl, hsome⟩ | ⟨-, own, rfl, -, hown, -⟩
    · obtain ⟨event, rfl⟩ := Option.isSome_iff_exists.mp hsome
      simp [(hprevious event rfl).2.1]
    · simp [hown]
  let unsigned : EngineEvent :=
    { formatVersion := engineEventFormatVersion
      revision := previous.elim 1 (·.revision + 1)
      stack
      kind
      previousEventSha256 := previous.elim "" EngineEvent.eventSha256
      createdAtMs := clockMs
      plan
      eventSha256 := "" }
  have hparts : unsigned.PartsValid :=
    { format := rfl
      revision_pos := by
        cases previous with
        | none => exact (by decide : (1 : UInt64) ≠ 0)
        | some event => exact (hprevious event rfl).2.2
      created_pos := hclock
      stack_valid := hname
      first := by
        cases previous with
        | none => exact fun _ => rfl
        | some event =>
          -- a revision after another one is at least 2
          intro hone
          have hpos := (EngineEvent.partsValid_of_validate (hprevious event rfl).1).1.revision_pos
          exact absurd (by simpa [unsigned] using hone : event.revision = 0) hpos
      later := by
        cases previous with
        | none => exact fun h => absurd h (by decide : ¬ (1 : UInt64) > 1)
        | some event =>
          exact fun _ => (EngineEvent.partsValid_of_validate (hprevious event rfl).1).2
      plan := by
        rcases hplan with ⟨hkind, hnone, -⟩ | ⟨hkind, own, hown, hvalid, hforeign, hstopped⟩
        · exact .inl ⟨hkind, hnone⟩
        · exact .inr ⟨hkind, own, hown, hvalid, hforeign, hstopped⟩ }
  refine ⟨unsigned.sealed, ?_, rfl⟩
  simp only [nextEvent, hstack, okOr, ok_bind, EngineEvent.new]
  rw [show ({ unsigned with eventSha256 := unsigned.computedSha256 } : EngineEvent).validate
    = .ok () from hparts.validate_sealed]
  rfl

end CartridgeRuntime.Engine
