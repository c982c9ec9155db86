import CartridgeRuntime.Library.TreeMap
import CartridgeRuntime.Library.Word

/-!
# The replay cache of the daemon

Every request of the daemon channel names the time of its issue. The cache refuses a request that is
too old or too new and one whose identifier it still remembers, and it forgets identifiers by the time
of their receipt. `replay_protected` says that the two windows fit: over every history, with clock
readings that do not go back, no request is accepted twice.
-/

namespace CartridgeRuntime.Daemon

open Checked Std

/-! ## The cache -/

def requestMaxSkewMs : UInt64 := 30000
def replayRetentionMs : UInt64 := 60000
def maxReplayIds : Nat := 4096

/-- The identifiers that are remembered, with the times of their receipt. -/
abbrev ReplayCache := ExtTreeMap String UInt64

/-- A request as the cache sees it. -/
structure Arrival where
  requestId : String
  issuedAtMs : UInt64
  nowMs : UInt64
deriving DecidableEq, Repr

/-- The distance of two times. -/
def absDiff (a b : UInt64) : UInt64 :=
  if a ≤ b then b - a else a - b

namespace ReplayCache

/-- The entries that are not too old at a time. -/
def retain (cache : ReplayCache) (nowMs : UInt64) : ReplayCache :=
  cache.filter fun _ seenAt => saturatingSub nowMs replayRetentionMs ≤ seenAt

/-- Accept a fresh request once. -/
def accept (cache : ReplayCache) (arrival : Arrival) : Except String Unit × ReplayCache :=
  if absDiff arrival.nowMs arrival.issuedAtMs > requestMaxSkewMs then
    (.error "daemon request is outside the freshness window", cache)
  else
    let kept := cache.retain arrival.nowMs
    if kept.contains arrival.requestId then (.error "daemon request was already used", kept)
    else if kept.size ≥ maxReplayIds then (.error "daemon replay cache is full", kept)
    else (.ok (), kept.insert arrival.requestId arrival.nowMs)

/-- The cache after some arrivals. -/
def run (cache : ReplayCache) (arrivals : List Arrival) : ReplayCache :=
  arrivals.foldl (fun cache arrival => (cache.accept arrival).2) cache

/-- What is answered to some arrivals. -/
def outcomes (cache : ReplayCache) : List Arrival → List (Except String Unit)
  | [] => []
  | arrival :: arrivals =>
    (cache.accept arrival).1 :: outcomes (cache.accept arrival).2 arrivals

/-- The requests that are accepted among some arrivals: their identifiers and times of issue. -/
def accepted (cache : ReplayCache) : List Arrival → List (String × UInt64)
  | [] => []
  | arrival :: arrivals =>
    let rest := accepted (cache.accept arrival).2 arrivals
    match (cache.accept arrival).1 with
    | .ok () => (arrival.requestId, arrival.issuedAtMs) :: rest
    | .error _ => rest

/-! ## One arrival -/

variable {cache other : ReplayCache} {arrival : Arrival} {id : String}

theorem getElem?_retain (nowMs : UInt64) :
    (cache.retain nowMs)[id]?
      = cache[id]?.filter fun seenAt => saturatingSub nowMs replayRetentionMs ≤ seenAt :=
  ExtTreeMap.getElem?_filter'

/-- What an arrival can do: a stale one changes nothing, one that is refused only makes the cache
forget, and one that is accepted is new and fresh. -/
theorem accept_cases (cache : ReplayCache) (arrival : Arrival) :
    (requestMaxSkewMs < absDiff arrival.nowMs arrival.issuedAtMs
      ∧ ∃ message, cache.accept arrival = (.error message, cache))
    ∨ (absDiff arrival.nowMs arrival.issuedAtMs ≤ requestMaxSkewMs
      ∧ ∃ message, cache.accept arrival = (.error message, cache.retain arrival.nowMs))
    ∨ (absDiff arrival.nowMs arrival.issuedAtMs ≤ requestMaxSkewMs
      ∧ (cache.retain arrival.nowMs)[arrival.requestId]? = none
      ∧ (cache.retain arrival.nowMs).size < maxReplayIds
      ∧ cache.accept arrival
        = (.ok (), (cache.retain arrival.nowMs).insert arrival.requestId arrival.nowMs)) := by
  rw [accept]
  split
  · rename_i hstale
    exact .inl ⟨hstale, _, rfl⟩
  · rename_i hfresh
    have hfresh := UInt64.not_lt.mp hfresh
    dsimp only
    split
    · exact .inr (.inl ⟨hfresh, _, rfl⟩)
    · rename_i hnew
      split
      · exact .inr (.inl ⟨hfresh, _, rfl⟩)
      · rename_i hroom
        refine .inr (.inr ⟨hfresh, ?_, Nat.not_le.mp hroom, rfl⟩)
        rw [ExtTreeMap.contains_eq_isSome_getElem?] at hnew
        exact Option.not_isSome_iff_eq_none.mp hnew

theorem size_accept_le (h : cache.size ≤ maxReplayIds) (arrival : Arrival) :
    (cache.accept arrival).2.size ≤ maxReplayIds := by
  have hretain : (cache.retain arrival.nowMs).size ≤ maxReplayIds :=
    ExtTreeMap.size_filter_le_size.trans h
  rcases accept_cases cache arrival with ⟨-, _, hrun⟩ | ⟨-, _, hrun⟩ | ⟨-, -, hroom, hrun⟩
  · rwa [hrun]
  · rwa [hrun]
  · rw [hrun]
    exact ExtTreeMap.size_insert_le.trans hroom

/-! ## Requests that are remembered -/

/-- Whenever a request is fresh again after a time, the cache still remembers its identifier. -/
def Remembers (cache : ReplayCache) (id : String) (issuedAtMs sinceMs : UInt64) : Prop :=
  ∀ nowMs, sinceMs ≤ nowMs → absDiff nowMs issuedAtMs ≤ requestMaxSkewMs →
    ∃ seenAt, cache[id]? = some seenAt ∧ saturatingSub nowMs replayRetentionMs ≤ seenAt

theorem toNat_absDiff (a b : UInt64) :
    (absDiff a b).toNat = (a.toNat - b.toNat) + (b.toNat - a.toNat) := by
  rw [absDiff]
  split
  · rename_i hle
    have hle' := UInt64.le_iff_toNat_le.mp hle
    rw [UInt64.toNat_sub_of_le _ _ hle]
    omega
  · rename_i hlt
    have hle := UInt64.le_of_lt (UInt64.not_le.mp hlt)
    have hle' := UInt64.le_iff_toNat_le.mp hle
    rw [UInt64.toNat_sub_of_le _ _ hle]
    omega

/-- An entry outlives the freshness of the request that made it: both were within the skew of its time
of issue, and the retention is twice the skew. -/
theorem remembers_insert (h : absDiff arrival.nowMs arrival.issuedAtMs ≤ requestMaxSkewMs) :
    Remembers (cache.insert arrival.requestId arrival.nowMs) arrival.requestId arrival.issuedAtMs
      arrival.nowMs := by
  intro nowMs _ hfresh
  refine ⟨arrival.nowMs, ExtTreeMap.getElem?_insert_self, ?_⟩
  rw [UInt64.le_iff_toNat_le, toNat_absDiff] at h hfresh
  rw [UInt64.le_iff_toNat_le, toNat_saturatingSub]
  have hskew : requestMaxSkewMs.toNat = 30000 := rfl
  have hretention : replayRetentionMs.toNat = 60000 := rfl
  omega

variable {sinceMs : UInt64} {arrivals : List Arrival}

/-- A later arrival does not make the cache forget what is still fresh. -/
theorem Remembers.accept {issuedAtMs : UInt64} (h : Remembers cache id issuedAtMs sinceMs)
    (hclock : sinceMs ≤ arrival.nowMs) :
    Remembers (cache.accept arrival).2 id issuedAtMs arrival.nowMs := by
  -- the cutoff of the arrival is not after that of a later moment
  have hkept : Remembers (cache.retain arrival.nowMs) id issuedAtMs arrival.nowMs := by
    intro nowMs hlater hfresh
    obtain ⟨seenAt, hseen, hcutoff⟩ := h nowMs (UInt64.le_trans hclock hlater) hfresh
    refine ⟨seenAt, ?_, hcutoff⟩
    rw [getElem?_retain, hseen, Option.filter_some, if_pos]
    rw [UInt64.le_iff_toNat_le] at hlater
    rw [UInt64.le_iff_toNat_le, toNat_saturatingSub] at hcutoff
    simp only [decide_eq_true_eq, UInt64.le_iff_toNat_le, toNat_saturatingSub]
    omega
  rcases accept_cases cache arrival with ⟨-, _, hrun⟩ | ⟨-, _, hrun⟩ | ⟨-, hnew, -, hrun⟩
  · rw [hrun]
    exact fun nowMs hlater => h nowMs (UInt64.le_trans hclock hlater)
  · rw [hrun]
    exact hkept
  · rw [hrun]
    intro nowMs hlater hfresh
    obtain ⟨seenAt, hseen, hcutoff⟩ := hkept nowMs hlater hfresh
    have hne : arrival.requestId ≠ id := by
      rintro rfl
      rw [hnew] at hseen
      cases hseen
    refine ⟨seenAt, ?_, hcutoff⟩
    rw [ExtTreeMap.getElem?_insert, if_neg (by simpa using hne)]
    exact hseen

/-- A request that is remembered is not accepted. -/
theorem Remembers.ne_ok (h : Remembers cache arrival.requestId arrival.issuedAtMs sinceMs)
    (hclock : sinceMs ≤ arrival.nowMs) : (cache.accept arrival).1 ≠ .ok () := by
  rcases accept_cases cache arrival with ⟨-, _, hrun⟩ | ⟨-, _, hrun⟩ | ⟨hfresh, hnew, -, hrun⟩
  · simp [hrun]
  · simp [hrun]
  · obtain ⟨seenAt, hseen, hcutoff⟩ := h arrival.nowMs hclock hfresh
    rw [getElem?_retain, hseen, Option.filter_some, if_pos (by simpa using hcutoff)] at hnew
    cases hnew

/-! ## Whole histories -/

/-- A request that is remembered is not accepted among later arrivals. -/
theorem Remembers.notMem_accepted {issuedAtMs : UInt64} (h : Remembers cache id issuedAtMs sinceMs)
    (hsince : ∀ arrival ∈ arrivals, sinceMs ≤ arrival.nowMs)
    (hclock : arrivals.Pairwise (·.nowMs ≤ ·.nowMs)) :
    (id, issuedAtMs) ∉ cache.accepted arrivals := by
  induction arrivals generalizing cache sinceMs with
  | nil => exact List.not_mem_nil
  | cons arrival arrivals ih =>
    obtain ⟨hlater, hclock⟩ := List.pairwise_cons.mp hclock
    have hnow := hsince arrival List.mem_cons_self
    have hrest := ih (h.accept hnow) hlater hclock
    rw [accepted]
    split
    · rename_i hok
      refine fun hmem => (List.mem_cons.mp hmem).elim (fun heq => ?_) hrest
      obtain ⟨rfl, rfl⟩ := Prod.mk.inj heq
      exact h.ne_ok hnow hok
    · exact hrest

/-- No request is accepted twice. -/
theorem nodup_accepted (cache : ReplayCache) (hclock : arrivals.Pairwise (·.nowMs ≤ ·.nowMs)) :
    (cache.accepted arrivals).Nodup := by
  induction arrivals generalizing cache with
  | nil => exact List.nodup_nil
  | cons arrival arrivals ih =>
    obtain ⟨hlater, hclock⟩ := List.pairwise_cons.mp hclock
    have hrest := ih (cache.accept arrival).2 hclock
    rw [accepted]
    split
    · rename_i hok
      refine List.nodup_cons.mpr ⟨?_, hrest⟩
      rcases accept_cases cache arrival with ⟨-, _, hrun⟩ | ⟨-, _, hrun⟩ | ⟨hfresh, -, -, hrun⟩
      · simp [hrun] at hok
      · simp [hrun] at hok
      · rw [hrun]
        exact (remembers_insert hfresh).notMem_accepted hlater hclock
    · exact hrest

theorem size_run_le (arrivals : List Arrival) (h : cache.size ≤ maxReplayIds) :
    (cache.run arrivals).size ≤ maxReplayIds := by
  induction arrivals generalizing cache with
  | nil => exact h
  | cons arrival arrivals ih => exact ih (size_accept_le h arrival)

/-! ## Arrivals that are refused -/

/-- Two caches remember the same from a time on. -/
def Same (cache other : ReplayCache) (sinceMs : UInt64) : Prop :=
  ∀ nowMs, sinceMs ≤ nowMs → cache.retain nowMs = other.retain nowMs

theorem Same.later {nowMs : UInt64} (h : Same cache other sinceMs) (hlater : sinceMs ≤ nowMs) :
    Same cache other nowMs :=
  fun time htime => h time (UInt64.le_trans hlater htime)

/-- Forgetting at a time changes nothing for later times. -/
theorem same_retain (cache : ReplayCache) (sinceMs : UInt64) :
    Same (cache.retain sinceMs) cache sinceMs := by
  intro nowMs hlater
  refine ExtTreeMap.ext_getElem? fun id => ?_
  rw [getElem?_retain, getElem?_retain, getElem?_retain, Option.filter_filter]
  congr 1
  funext seenAt
  rw [UInt64.le_iff_toNat_le] at hlater
  rw [Bool.eq_iff_iff]
  simp only [Bool.and_eq_true, decide_eq_true_eq, UInt64.le_iff_toNat_le, toNat_saturatingSub]
  omega

/-- Caches that remember the same answer the same. -/
theorem Same.accept (h : Same cache other arrival.nowMs) :
    (cache.accept arrival).1 = (other.accept arrival).1
      ∧ Same (cache.accept arrival).2 (other.accept arrival).2 arrival.nowMs := by
  rw [ReplayCache.accept, ReplayCache.accept, h arrival.nowMs (UInt64.le_refl _)]
  split
  · exact ⟨rfl, h⟩
  · exact ⟨rfl, fun _ _ => rfl⟩

theorem Same.outcomes (h : Same cache other sinceMs)
    (hsince : ∀ arrival ∈ arrivals, sinceMs ≤ arrival.nowMs)
    (hclock : arrivals.Pairwise (·.nowMs ≤ ·.nowMs)) :
    cache.outcomes arrivals = other.outcomes arrivals := by
  induction arrivals generalizing cache other sinceMs with
  | nil => rfl
  | cons arrival arrivals ih =>
    obtain ⟨hlater, hclock⟩ := List.pairwise_cons.mp hclock
    obtain ⟨hanswer, hsame⟩ := (h.later (hsince arrival List.mem_cons_self)).accept
    rw [ReplayCache.outcomes, ReplayCache.outcomes, hanswer, ih hsame hlater hclock]

/-- A cache after an arrival that it has refused remembers what it did before. -/
theorem same_of_refused (h : (cache.accept arrival).1 ≠ .ok ()) :
    Same (cache.accept arrival).2 cache arrival.nowMs := by
  rcases accept_cases cache arrival with ⟨-, _, hrun⟩ | ⟨-, _, hrun⟩ | ⟨-, -, -, hrun⟩
  · rw [hrun]
    exact fun _ _ => rfl
  · rw [hrun]
    exact same_retain cache arrival.nowMs
  · exact absurd (congrArg Prod.fst hrun) h

end ReplayCache

/-- Over every history with clock readings that do not go back: no request is accepted twice, the
cache never holds too many identifiers, and a request that is refused changes no later answer, so that
it makes nothing acceptable again. -/
theorem replay_protected (arrivals : List Arrival)
    (hclock : arrivals.Pairwise (·.nowMs ≤ ·.nowMs)) :
    (ReplayCache.accepted ∅ arrivals).Nodup
      ∧ (∀ earlier, earlier <+: arrivals → (ReplayCache.run ∅ earlier).size ≤ maxReplayIds)
      ∧ ∀ earlier arrival later, arrivals = earlier ++ arrival :: later →
        ((ReplayCache.run ∅ earlier).accept arrival).1 ≠ .ok () →
        (ReplayCache.run ∅ (earlier ++ [arrival])).outcomes later
          = (ReplayCache.run ∅ earlier).outcomes later := by
  refine ⟨ReplayCache.nodup_accepted ∅ hclock, fun earlier _ => ?_, ?_⟩
  · exact ReplayCache.size_run_le earlier (by simp)
  · rintro earlier arrival later rfl hrefused
    obtain ⟨-, hclock, -⟩ := List.pairwise_append.mp hclock
    obtain ⟨hlater, hclock⟩ := List.pairwise_cons.mp hclock
    have hsame := ReplayCache.same_of_refused hrefused
    rw [ReplayCache.run, List.foldl_append]
    exact hsame.outcomes hlater hclock

/-- A request that comes again at the end of both windows is refused, while its identifier is still
remembered, and its identifier may be used anew afterwards. -/
theorem replay_protected_at_limits :
    ReplayCache.outcomes ∅ [⟨"a", 30000, 0⟩, ⟨"a", 30000, 60000⟩, ⟨"a", 60001, 60001⟩]
        = [.ok (), .error "daemon request was already used", .ok ()]
      ∧ (ReplayCache.accepted ∅
        [⟨"a", 30000, 0⟩, ⟨"a", 30000, 60000⟩, ⟨"a", 60001, 60001⟩]).Nodup :=
  ⟨by decide +kernel, (replay_protected _ (by decide)).1⟩

end CartridgeRuntime.Daemon
