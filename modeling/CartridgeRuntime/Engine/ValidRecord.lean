import CartridgeRuntime.Engine.Rollout
import CartridgeRuntime.Engine.ValidPlan

/-!
# Valid rollout records

The checks of a rollout record, taken apart: `RolloutRecord.validate_eq_ok`. A record whose parts
are valid fits its byte limit, so that `RolloutRecord.refresh` succeeds on it
(`RolloutRecord.refresh_eq_ok`).
-/

namespace CartridgeRuntime.Engine

open Checked CartridgeRuntime.Core Encoding Codec Fields

namespace RolloutRecord

variable [HexCodec] [Sha256] [Semver] {record : RolloutRecord}

/-- All checks of a record but those of its digest. -/
structure PartsValid (record : RolloutRecord) : Prop where
  candidate_valid : record.candidatePlan.validate = .ok ()
  format : record.formatVersion = engineRolloutFormatVersion
  rolloutId_digest : isDigest record.rolloutId
  stack_valid : validName record.stack
  candidate_stack : record.candidatePlan.stack = record.stack
  created_pos : record.createdAtMs ≠ 0
  created_le_updated : record.createdAtMs ≤ record.updatedAtMs
  rolloutId_eq : record.rolloutId = record.computedRolloutId
  previous_valid : record.validatePrevious = .ok ()
  phase_valid : record.validatePhase = .ok ()

theorem validate_eq_ok : record.validate = .ok () ↔ record.PartsValid
    ∧ isDigest record.recordSha256 ∧ record.computedSha256 = .ok record.recordSha256 := by
  simp only [validate, bind_eq_ok, exists_unit]
  constructor
  · rintro ⟨hcandidate, hidentity, digest, hcomputed, hdigest, hprevious, hphase⟩
    rw [rejectIf_eq_ok] at hidentity hdigest
    simp only [not_or, not_not, UInt64.not_lt] at hidentity hdigest
    obtain ⟨hformat, hid, hstack, hforeign, hcreated, hupdated, hcomputedId, hsha⟩ := hidentity
    exact ⟨⟨hcandidate, hformat, hid, hstack, hforeign, hcreated, hupdated, hcomputedId,
      hprevious, hphase⟩, hsha, hdigest ▸ hcomputed⟩
  · rintro ⟨h, hsha, hcomputed⟩
    refine ⟨h.candidate_valid, ?_, _, hcomputed, rejectIf_of_not _ (not_not.mpr rfl),
      h.previous_valid, h.phase_valid⟩
    rw [rejectIf_eq_ok]
    simp only [not_or, not_not, UInt64.not_lt]
    exact ⟨h.format, h.rolloutId_digest, h.stack_valid, h.candidate_stack, h.created_pos,
      h.created_le_updated, h.rolloutId_eq, hsha⟩

/-! ## Previous generation and phase -/

/-- The identity of the previous generation is whole or absent. -/
theorem previous_cases (h : record.validatePrevious = .ok ()) :
    (record.previousRevision = none ∧ record.previousGeneration = none
        ∧ record.previousState = none ∧ record.previousPlan = none)
      ∨ ∃ revision generation state, record.previousRevision = some revision
        ∧ record.previousGeneration = some generation ∧ record.previousState = some state
        ∧ revision > 0 ∧ isDigest generation
        ∧ (state = .removed ∧ record.previousPlan = none
          ∨ state ≠ .removed ∧ record.validatePreviousPlan state = .ok ()) := by
  unfold validatePrevious at h
  split at h
  · rename_i hrevision hgeneration hstate
    rw [rejectIf_eq_ok, Option.not_isSome_iff_eq_none] at h
    exact .inl ⟨hrevision, hgeneration, hstate, h⟩
  · rename_i revision generation state hrevision hgeneration hstate
    split_ifs at h with hpos
    refine .inr ⟨revision, generation, state, hrevision, hgeneration, hstate, hpos.1, hpos.2, ?_⟩
    cases state with
    | applied => exact .inr ⟨by simp, h⟩
    | stopped => exact .inr ⟨by simp, h⟩
    | removed =>
      rw [rejectIf_eq_ok, Option.not_isSome_iff_eq_none] at h
      exact .inl ⟨rfl, h⟩
  · cases h

theorem previousGeneration_digest (h : record.validatePrevious = .ok ()) :
    ∀ generation ∈ record.previousGeneration, isDigest generation := by
  rcases previous_cases h with ⟨-, hgeneration, -⟩ | ⟨_, _, _, -, hgeneration, -, -, hdigest, -⟩
  · simp [hgeneration]
  · simpa [hgeneration] using hdigest

theorem previousPlan_valid_stack (h : record.validatePrevious = .ok ()) :
    ∀ plan ∈ record.previousPlan, plan.validate = .ok () ∧ plan.stack = record.stack := by
  rcases previous_cases h with ⟨-, -, -, hplan⟩ | ⟨_, _, _, -, -, -, -, -, ⟨-, hplan⟩ | ⟨-, hplan⟩⟩
  · simp [hplan]
  · simp [hplan]
  · simp only [validatePreviousPlan, bind_eq_ok, okOr_eq_ok, exists_unit] at hplan
    obtain ⟨plan, hsome, hvalid, hmatches⟩ := hplan
    rw [rejectIf_eq_ok, not_or, not_not] at hmatches
    simpa [hsome] using ⟨hvalid, hmatches.1⟩

theorem previousPlan_valid (h : record.validatePrevious = .ok ()) :
    ∀ plan ∈ record.previousPlan, plan.validate = .ok () :=
  fun plan hmem => (previousPlan_valid_stack h plan hmem).1

omit [HexCodec] [Sha256] [Semver] in
theorem phase_digests (h : record.validatePhase = .ok ()) :
    (∀ generation ∈ record.activatedGeneration, isDigest generation)
      ∧ (∀ generation ∈ record.rollbackGeneration, isDigest generation)
      ∧ ∀ digest ∈ record.healthReportSha256, isDigest digest := by
  rw [validatePhase, rejectIf_eq_ok, not_not] at h
  simp only [Option.mem_def]
  cases hphase : record.phase <;>
    simp only [validPhaseFields, hphase, Bool.and_eq_true, Option.any_eq_true, Option.all_eq_true,
      Option.isNone_iff_eq_none] at h <;>
    grind

/-! ## The document of a record -/

section

omit [HexCodec] [Sha256] [Semver]

theorem size_phase_le (phase : RolloutPhase) : RolloutPhase.codec.size phase ≤ 16 := by
  cases phase <;> decide

theorem size_state_le (state : EngineStackState) : EngineStackState.codec.size state ≤ 16 := by
  cases state <;> decide

theorem size_revision_le (revision : Option UInt64) : nullableWord.size revision ≤ 20 :=
  size_nullable_le (by omega) fun _ _ => size_word_le _

theorem size_generation_le {generation : Option String}
    (h : ∀ digest ∈ generation, isDigest digest) : nullableString.size generation ≤ 66 :=
  size_nullable_le (by omega) fun digest hmem => size_isDigest_le (h digest hmem)

end

/-- A record with valid parts fits its limit: its two plans do. -/
theorem PartsValid.size_le_of_digest (h : record.PartsValid)
    (hdigest : string.size record.recordSha256 ≤ 66) : codec.size record ≤ maxRolloutBytes := by
  have hphase := phase_digests h.phase_valid
  refine Nat.le_trans (size_record_le (size_member_le (size_natural_le (k := 1) (by omega) ?_) <|
    size_member_le (size_isDigest_le h.rolloutId_digest) <|
    size_member_le (size_validName_le h.stack_valid) <|
    size_member_le (size_phase_le _) <|
    size_member_le (size_word_le _) <|
    size_member_le (size_word_le _) <|
    size_member_le (size_revision_le _) <|
    size_member_le (size_generation_le (previousGeneration_digest h.previous_valid)) <|
    size_member_le (size_nullable_le (k := 16) (by omega) fun _ _ => size_state_le _) <|
    size_member_le (size_nullable_le (k := maxStackPlanBytes + 64)
      (by decide) fun plan hmem =>
        (StackPlan.valid_of_validate (previousPlan_valid h.previous_valid plan hmem)).size_le) <|
    size_member_le (StackPlan.valid_of_validate h.candidate_valid).size_le <|
    size_member_le (size_revision_le _) <|
    size_member_le (size_generation_le hphase.1) <|
    size_member_le (size_revision_le _) <|
    size_member_le (size_generation_le hphase.2.1) <|
    size_member_le (size_generation_le hphase.2.2) <|
    size_required_le hdigest)) ?_
  · show record.formatVersion < 10 ^ 1
    rw [h.format]
    decide
  · decide +kernel

theorem PartsValid.size_le (h : record.PartsValid) :
    codec.size { record with recordSha256 := "" } ≤ maxRolloutBytes :=
  size_le_of_digest { h with } (by decide : string.size "" ≤ 66)

/-- The document of a valid record fits its limit. -/
theorem length_encode_le (h : record.validate = .ok ()) :
    (encode record).length ≤ maxRolloutBytes := by
  obtain ⟨hparts, hdigest, -⟩ := validate_eq_ok.mp h
  rw [encode, Json.length_bytes]
  exact hparts.size_le_of_digest (size_isDigest_le hdigest)

omit [Semver] in
/-- The record with the digest of its own document. -/
def sealed (record : RolloutRecord) : RolloutRecord :=
  { record with recordSha256 := sha256Hex (encode { record with recordSha256 := "" }) }

theorem PartsValid.sealed (h : record.PartsValid) : record.sealed.PartsValid :=
  { h with }

theorem PartsValid.computedSha256 (h : record.PartsValid) :
    record.computedSha256 = .ok record.sealed.recordSha256 := by
  have hsize : (encode { record with recordSha256 := "" }).length ≤ maxRolloutBytes := by
    rw [encode, Json.length_bytes]
    exact h.size_le
  rw [RolloutRecord.computedSha256, rejectIf_of_not _ (Nat.not_lt.mpr hsize), ok_bind, pure_eq_ok]
  rfl

theorem PartsValid.validate_sealed (h : record.PartsValid) : record.sealed.validate = .ok () :=
  validate_eq_ok.mpr ⟨h.sealed, isDigest_sha256Hex _, h.sealed.computedSha256⟩

/-- Refreshing a record succeeds exactly when its parts are valid. -/
theorem refresh_eq_ok {refreshed : RolloutRecord} :
    record.refresh = .ok refreshed ↔ record.PartsValid ∧ refreshed = record.sealed := by
  simp only [refresh, bind_eq_ok, exists_unit, pure_eq_ok, Except.ok.injEq]
  constructor
  · rintro ⟨digest, hdigest, hvalid, rfl⟩
    have hparts : record.PartsValid := { (validate_eq_ok.mp hvalid).1 with }
    have heq := Except.ok.inj (hdigest.symm.trans hparts.computedSha256)
    exact ⟨hparts, by rw [heq]; rfl⟩
  · rintro ⟨hparts, rfl⟩
    exact ⟨_, hparts.computedSha256, hparts.validate_sealed, rfl⟩

end RolloutRecord

end CartridgeRuntime.Engine
