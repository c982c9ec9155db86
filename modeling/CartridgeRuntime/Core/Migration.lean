import CartridgeRuntime.Core.Manifest
import CartridgeRuntime.Library.Sha2

/-!
# Migration plans

The migrations of a valid manifest increase the schema, start at different schemas and all lead to the
schema of the package. `migrationPlan_exact`: a plan exists exactly from the schema of the package and
from the start of a migration, it is the only chain of migrations from there to the schema of the
package, and the loops that follow chains end for every manifest.
-/

namespace CartridgeRuntime.Core

open Checked Encoding
open Std (ExtTreeMap)

def migrationPlanFormatVersion : Nat := 1

/-- The steps from a stored schema to that of the package. -/
structure MigrationPlan where
  formatVersion : Nat
  cartridgeId : String
  cartridgeVersion : String
  componentSha256 : String
  sourceSchema : Nat
  targetSchema : Nat
  steps : List StateMigration
deriving DecidableEq

/-- The migrations by the schema that they start at. -/
def migrationsBySource (migrations : List StateMigration) : ExtTreeMap Nat StateMigration :=
  ExtTreeMap.ofList (migrations.map fun migration => (migration.source, migration))

/-- The loop of a plan, for at most some turns. -/
def followMigrations (migrations : ExtTreeMap Nat StateMigration) (schema : Nat) (missing : String) :
    Nat → Nat → Except String (List StateMigration)
  | 0, current => if current < schema then .error missing else .ok []
  | turns + 1, current =>
    if current < schema then do
      let migration ← okOr migrations[current]? missing
      let steps ← followMigrations migrations schema missing turns migration.target
      return migration :: steps
    else .ok []

section

variable [SemverValues] [HexCodec] [Sha256]

/-- Each migration increases the schema, so that no more turns than the difference are made. -/
def PackageManifest.migrationPlan (manifest : PackageManifest) (sourceSchema : Nat) :
    Except String MigrationPlan := do
  manifest.validate
  rejectIf (sourceSchema > manifest.state.schema)
    (manifestError (s!"state schema {sourceSchema} is newer than package schema "
      ++ s!"{manifest.state.schema}"))
  let steps ← followMigrations (migrationsBySource manifest.state.migrations)
    manifest.state.schema
    (manifestError (s!"no migration path from state schema {sourceSchema} to "
      ++ s!"{manifest.state.schema}"))
    (manifest.state.schema - sourceSchema) sourceSchema
  return {
    formatVersion := migrationPlanFormatVersion
    cartridgeId := manifest.cartridge.id
    cartridgeVersion := manifest.cartridge.version
    componentSha256 := manifest.integrity.componentSha256
    sourceSchema, targetSchema := manifest.state.schema, steps }

end

/-! ## Chains -/

/-- Migrations one after the other, each increasing the schema and starting where the one before has
ended. -/
inductive Chain (migrations : List StateMigration) : Nat → Nat → List StateMigration → Prop
  | done (schema : Nat) : Chain migrations schema schema []
  | step {migration : StateMigration} {schema : Nat} {steps : List StateMigration}
      (hmem : migration ∈ migrations) (hincreases : migration.source < migration.target)
      (hrest : Chain migrations migration.target schema steps) :
      Chain migrations migration.source schema (migration :: steps)

/-- A turn of a loop that follows migrations: it is below the schema and finds a migration. -/
def Turn (find : Nat → Option StateMigration) (schema current next : Nat) : Prop :=
  current < schema ∧ ∃ migration, find current = some migration ∧ next = migration.target

/-- What the first loop of the check leaves of the migrations. -/
structure Increasing (migrations : List StateMigration) (schema : Nat) : Prop where
  increases : ∀ migration ∈ migrations, migration.source < migration.target
  bounded : ∀ migration ∈ migrations, migration.target ≤ schema
  sources : migrations.Pairwise fun first second => first.source ≠ second.source

theorem increasing_of_foldlM {schema : Nat} {migrations : List StateMigration}
    {scan result : Finset String × Finset Nat}
    (h : migrations.foldlM (validateMigration schema) scan = .ok result) :
    Increasing migrations schema ∧ ∀ migration ∈ migrations, migration.source ∉ scan.2 := by
  induction migrations generalizing scan with
  | nil => exact ⟨⟨nofun, nofun, .nil⟩, nofun⟩
  | cons migration migrations ih =>
    simp only [List.foldlM_cons, validateMigration, bind_eq_ok, exists_unit, rejectIf_eq_ok,
      pure_eq_ok, Except.ok.injEq] at h
    obtain ⟨_, ⟨-, -, hincreases, hbounded, hsource, rfl⟩, hrest⟩ := h
    obtain ⟨hvalid, hfresh⟩ := ih hrest
    simp only [Finset.mem_insert, not_or] at hfresh
    refine ⟨⟨?_, ?_, ?_⟩, ?_⟩
    · exact List.forall_mem_cons.mpr ⟨Nat.not_le.mp hincreases, hvalid.increases⟩
    · exact List.forall_mem_cons.mpr ⟨Nat.not_lt.mp hbounded, hvalid.bounded⟩
    · exact .cons (fun other hother heq => (hfresh other hother).1 heq.symm) hvalid.sources
    · exact List.forall_mem_cons.mpr ⟨hsource, fun other hother => (hfresh other hother).2⟩

variable {source : Nat} {steps : List StateMigration}

section

variable {migrations : List StateMigration} {schema : Nat}

theorem Increasing.getElem?_iff (h : Increasing migrations schema) {migration : StateMigration} :
    (migrationsBySource migrations)[source]? = some migration ↔
      migration ∈ migrations ∧ migration.source = source := by
  have hdistinct : (migrations.map fun migration => (migration.source, migration)).Pairwise
      fun first second => ¬ compare first.1 second.1 = .eq :=
    List.pairwise_map.mpr (h.sources.imp fun hne heq => hne (Std.compare_eq_iff_eq.mp heq))
  have hfound : ∀ other ∈ migrations,
      (migrationsBySource migrations)[other.source]? = some other := fun other hother =>
    ExtTreeMap.getElem?_ofList_of_mem Std.ReflCmp.compare_self hdistinct
      (List.mem_map.mpr ⟨other, hother, rfl⟩)
  constructor
  · intro hsome
    by_cases hany : ∃ other ∈ migrations, other.source = source
    · obtain ⟨other, hother, rfl⟩ := hany
      obtain rfl : other = migration := Option.some.inj ((hfound other hother).symm.trans hsome)
      exact ⟨hother, rfl⟩
    · rw [migrationsBySource, ExtTreeMap.getElem?_ofList_of_contains_eq_false] at hsome
      · cases hsome
      · simpa [Function.comp_def] using hany
  · rintro ⟨hmem, rfl⟩
    exact hfound migration hmem

/-- A loop over migrations that increase the schema ends. -/
theorem turn_accessible {find : Nat → Option StateMigration}
    (hfind : ∀ current migration, find current = some migration → current < migration.target)
    (current : Nat) : Acc (fun next current => Turn find schema current next) current := by
  -- what is left to the schema of the package decreases
  induction hleft : schema - current using Nat.strong_induction_on generalizing current with
  | _ left ih =>
    refine ⟨current, fun next hturn => ?_⟩
    obtain ⟨hbelow, migration, hmigration, rfl⟩ := hturn
    have hlt := hfind current migration hmigration
    exact ih (schema - migration.target) (by omega) migration.target rfl

theorem Increasing.find?_increases (h : Increasing migrations schema) (current : Nat)
    (migration : StateMigration) (hfind : migrations.find? (·.source = current) = some migration) :
    current < migration.target := by
  have hsource : migration.source = current := by simpa using List.find?_some hfind
  exact hsource ▸ h.increases migration (List.mem_of_find?_eq_some hfind)

theorem Increasing.getElem?_increases (h : Increasing migrations schema) (current : Nat)
    (migration : StateMigration)
    (hfind : (migrationsBySource migrations)[current]? = some migration) :
    current < migration.target := by
  obtain ⟨hmem, rfl⟩ := h.getElem?_iff.mp hfind
  exact h.increases migration hmem

/-! ## The loops follow chains -/

variable {turns current : Nat}

/-- A migration that leads to the schema starts a chain to it. -/
theorem Increasing.chain_of_leadsTo (h : Increasing migrations schema) (hcurrent : current ≤ schema)
    (hleads : leadsTo migrations schema turns current) :
    ∃ steps, Chain migrations current schema steps := by
  induction turns generalizing current with
  | zero =>
    obtain rfl : current = schema := le_antisymm hcurrent (by simpa [leadsTo] using hleads)
    exact ⟨[], .done _⟩
  | succ turns ih =>
    rw [leadsTo] at hleads
    split at hleads
    · split at hleads
      · cases hleads
      · rename_i next hnext
        have hmem := List.mem_of_find?_eq_some hnext
        have hsource : next.source = current := by simpa using List.find?_some hnext
        obtain ⟨steps, hsteps⟩ := ih (h.bounded next hmem) hleads
        exact ⟨next :: steps, hsource ▸ .step hmem (h.increases next hmem) hsteps⟩
    · obtain rfl : current = schema := le_antisymm hcurrent (by omega)
      exact ⟨[], .done _⟩

/-- The loop finds a chain, when it has enough turns. -/
theorem Increasing.follow_of_chain (h : Increasing migrations schema) (missing : String)
    (hchain : Chain migrations current schema steps) (hturns : schema - current ≤ turns) :
    followMigrations (migrationsBySource migrations) schema missing turns current = .ok steps := by
  induction hchain generalizing turns with
  | done schema => cases turns <;> rw [followMigrations, if_neg (Nat.lt_irrefl _)]
  | @step migration schema steps hmem hincreases hrest ih =>
    have hbound := h.bounded migration hmem
    cases turns with
    | zero => omega
    | succ turns =>
      rw [followMigrations, if_pos (by omega), h.getElem?_iff.mpr ⟨hmem, rfl⟩,
        okOr_eq_ok.mpr rfl, ok_bind, ih h (by omega)]
      rfl

/-- What the loop finds is a chain. -/
theorem Increasing.chain_of_follow (h : Increasing migrations schema) {missing : String}
    (hcurrent : current ≤ schema)
    (hfollow : followMigrations (migrationsBySource migrations) schema missing turns current
      = .ok steps) : Chain migrations current schema steps := by
  induction turns generalizing current steps with
  | zero =>
    rw [followMigrations] at hfollow
    split at hfollow
    · cases hfollow
    · cases hfollow
      obtain rfl : current = schema := le_antisymm hcurrent (by omega)
      exact .done _
  | succ turns ih =>
    rw [followMigrations] at hfollow
    split at hfollow
    · simp only [bind_eq_ok, okOr_eq_ok, pure_eq_ok, Except.ok.injEq] at hfollow
      obtain ⟨migration, hmigration, rest, hrest, rfl⟩ := hfollow
      obtain ⟨hmem, rfl⟩ := h.getElem?_iff.mp hmigration
      exact .step hmem (h.increases migration hmem) (ih (h.bounded migration hmem) hrest)
    · cases hfollow
      obtain rfl : current = schema := le_antisymm hcurrent (by omega)
      exact .done _

/-! ## More turns change nothing -/

theorem Increasing.leadsTo_add (h : Increasing migrations schema) (current extra : Nat) :
    leadsTo migrations schema (schema - current + extra) current
      = leadsTo migrations schema (schema - current) current := by
  -- both run out of turns only when the schema is reached
  suffices hall : ∀ turns turns' current, schema - current ≤ turns → schema - current ≤ turns' →
      leadsTo migrations schema turns current = leadsTo migrations schema turns' current from
    hall _ _ current (by omega) le_rfl
  intro turns
  induction turns with
  | zero =>
    intro turns' current hturns _
    cases turns' with
    | zero => rfl
    | succ turns' => rw [leadsTo, leadsTo, if_neg (by omega), decide_eq_true (by omega)]
  | succ turns ih =>
    intro turns' current hturns hturns'
    cases turns' with
    | zero => rw [leadsTo, leadsTo, if_neg (by omega), decide_eq_true (by omega)]
    | succ turns' =>
      rw [leadsTo, leadsTo]
      split
      · cases hfind : migrations.find? (·.source = current) with
        | none => rfl
        | some next =>
          have hlt := h.find?_increases current next hfind
          exact ih turns' next.target (by omega) (by omega)
      · rfl

theorem Increasing.follow_add (h : Increasing migrations schema) (missing : String)
    (current extra : Nat) :
    followMigrations (migrationsBySource migrations) schema missing (schema - current + extra) current
      = followMigrations (migrationsBySource migrations) schema missing (schema - current)
        current := by
  suffices hall : ∀ turns turns' current, schema - current ≤ turns → schema - current ≤ turns' →
      followMigrations (migrationsBySource migrations) schema missing turns current
        = followMigrations (migrationsBySource migrations) schema missing turns' current from
    hall _ _ current (by omega) le_rfl
  intro turns
  induction turns with
  | zero =>
    intro turns' current hturns _
    cases turns' with
    | zero => rfl
    | succ turns' => rw [followMigrations, followMigrations, if_neg (by omega), if_neg (by omega)]
  | succ turns ih =>
    intro turns' current hturns hturns'
    cases turns' with
    | zero => rw [followMigrations, followMigrations, if_neg (by omega), if_neg (by omega)]
    | succ turns' =>
      rw [followMigrations, followMigrations]
      split
      · cases hfind : (migrationsBySource migrations)[current]? with
        | none => rfl
        | some next =>
          have hlt := h.getElem?_increases current next hfind
          rw [okOr_eq_ok.mpr rfl, ok_bind, ok_bind,
            ih turns' next.target (by omega) (by omega)]
      · rfl

end

/-! ## Plans -/

section

variable [SemverValues] [HexCodec] [Sha256]

variable {manifest : PackageManifest}

/-- What a valid manifest promises of its migrations. -/
theorem increasing_of_validate (h : manifest.validate = .ok ()) :
    Increasing manifest.state.migrations manifest.state.schema ∧
      ∀ migration ∈ manifest.state.migrations, leadsTo manifest.state.migrations
        manifest.state.schema (manifest.state.schema - migration.target) migration.target := by
  simp only [PackageManifest.validate, validateState, bind_eq_ok, exists_unit, discard_eq_ok,
    forM_eq_ok, rejectIf_eq_ok, not_not] at h
  obtain ⟨-, -, -, -, -, -, -, -, -, ⟨-, -, ⟨scan, hscan⟩, hleads⟩, -⟩ := h
  exact ⟨(increasing_of_foldlM hscan).1, hleads⟩

theorem migrationPlan_eq_ok (h : manifest.validate = .ok ()) {plan : MigrationPlan}
    (hplan : manifest.migrationPlan source = .ok plan) :
    Chain manifest.state.migrations source manifest.state.schema plan.steps := by
  simp only [PackageManifest.migrationPlan, bind_eq_ok, exists_unit, rejectIf_eq_ok, Nat.not_lt,
    pure_eq_ok, Except.ok.injEq] at hplan
  obtain ⟨-, hsource, steps, hsteps, rfl⟩ := hplan
  exact (increasing_of_validate h).1.chain_of_follow hsource hsteps

/-- A plan exists when there is a chain. -/
theorem migrationPlan_of_chain (h : manifest.validate = .ok ())
    (hsource : source ≤ manifest.state.schema)
    (hchain : Chain manifest.state.migrations source manifest.state.schema steps) :
    ∃ plan, manifest.migrationPlan source = .ok plan ∧ plan.steps = steps := by
  have hfollow := fun missing =>
    (increasing_of_validate h).1.follow_of_chain missing hchain le_rfl
  rw [PackageManifest.migrationPlan, h, ok_bind, rejectIf_of_not _ (Nat.not_lt.mpr hsource), ok_bind,
    hfollow, ok_bind]
  exact ⟨_, rfl, rfl⟩

/-- Plans are exact, and the loops that follow migrations end for every manifest: the loop of the
check once the migrations have passed its first loop, and the loop of a plan once the manifest is
valid. -/
theorem migrationPlan_exact (manifest : PackageManifest) :
    (manifest.validate = .ok () → ∀ source,
      ((∃ plan, manifest.migrationPlan source = .ok plan) ↔ source = manifest.state.schema ∨
        ∃ migration ∈ manifest.state.migrations, migration.source = source) ∧
      ∀ plan, manifest.migrationPlan source = .ok plan →
        Chain manifest.state.migrations source manifest.state.schema plan.steps ∧
        ∀ steps, Chain manifest.state.migrations source manifest.state.schema steps →
          steps = plan.steps) ∧
    (∀ scan, manifest.state.migrations.foldlM (validateMigration manifest.state.schema) (∅, ∅)
        = .ok scan → ∀ current,
      Acc (fun next current => Turn
        (fun source => manifest.state.migrations.find? (·.source = source))
        manifest.state.schema current next) current ∧
      ∀ extra, leadsTo manifest.state.migrations manifest.state.schema
          (manifest.state.schema - current + extra) current
        = leadsTo manifest.state.migrations manifest.state.schema
          (manifest.state.schema - current) current) ∧
    (manifest.validate = .ok () → ∀ current,
      Acc (fun next current => Turn
        (fun source => (migrationsBySource manifest.state.migrations)[source]?)
        manifest.state.schema current next) current ∧
      ∀ missing extra, followMigrations (migrationsBySource manifest.state.migrations)
          manifest.state.schema missing (manifest.state.schema - current + extra) current
        = followMigrations (migrationsBySource manifest.state.migrations)
          manifest.state.schema missing (manifest.state.schema - current) current) := by
  refine ⟨fun h source => ?_, fun scan hscan current => ?_, fun h current => ?_⟩
  · obtain ⟨hincreasing, hleads⟩ := increasing_of_validate h
    refine ⟨⟨?_, ?_⟩, fun plan hplan => ⟨migrationPlan_eq_ok h hplan, fun steps hsteps => ?_⟩⟩
    · rintro ⟨plan, hplan⟩
      have hchain := migrationPlan_eq_ok h hplan
      generalize plan.steps = steps at hchain
      cases hchain with
      | done => exact .inl rfl
      | step hmem => exact .inr ⟨_, hmem, rfl⟩
    · rintro (rfl | ⟨migration, hmem, rfl⟩)
      · obtain ⟨plan, hplan, -⟩ := migrationPlan_of_chain h le_rfl (.done _)
        exact ⟨plan, hplan⟩
      · have hbound := hincreasing.bounded migration hmem
        have hlt := hincreasing.increases migration hmem
        obtain ⟨steps, hsteps⟩ := hincreasing.chain_of_leadsTo hbound (hleads migration hmem)
        obtain ⟨plan, hplan, -⟩ :=
          migrationPlan_of_chain h (hlt.le.trans hbound) (.step hmem hlt hsteps)
        exact ⟨plan, hplan⟩
    · -- the loop finds every chain, so there is only one
      have hfirst := hincreasing.follow_of_chain "" hsteps le_rfl
      have hsecond :=
        hincreasing.follow_of_chain "" (migrationPlan_eq_ok h hplan) le_rfl
      exact Except.ok.inj (hfirst.symm.trans hsecond)
  · have hincreasing := (increasing_of_foldlM hscan).1
    exact ⟨turn_accessible hincreasing.find?_increases current, hincreasing.leadsTo_add current⟩
  · have hincreasing := (increasing_of_validate h).1
    exact ⟨turn_accessible hincreasing.getElem?_increases current,
      fun missing => hincreasing.follow_add missing current⟩

end

/-- A package of schema 2 with a migration from schema 1. -/
def migratingManifest : PackageManifest where
  cartridge := { id := "dev.example.app", name := "App", version := "1.0.0" }
  permissions := { storage := true }
  state := { schema := 2, migrations := [⟨"upgrade-settings", 1, 2⟩] }

section

attribute [local instance] semver2Values nibbleCodec Sha2.sha256

theorem migratingManifest_valid : migratingManifest.validate = .ok () := by
  decide +kernel

/-- There is a plan from schema 1, and none from schema 0. -/
theorem migrationPlan_exact_case :
    (∃ plan, migratingManifest.migrationPlan 1 = .ok plan) ∧
      ¬ ∃ plan, migratingManifest.migrationPlan 0 = .ok plan := by
  have hexact := (migrationPlan_exact migratingManifest).1 migratingManifest_valid
  refine ⟨(hexact 1).1.mpr (.inr ⟨_, List.mem_singleton_self _, rfl⟩), fun hplan => ?_⟩
  exact absurd ((hexact 0).1.mp hplan) (by decide)

end

end CartridgeRuntime.Core
