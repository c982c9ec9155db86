import CartridgeRuntime.Network.SharedDocument
import Mathlib.Data.Finset.Card

/-!
# Rollback datagrams

Peers of a rollback session repeat their datagrams, and a `RollbackWindow` tells the new ones from
those that were seen before. It forgets what is more than `maxRollbackTicks` older than the newest
tick, and refuses such datagrams as well: `accept_once_and_fresh` says that therefore no datagram is
accepted twice and that every fresh one is accepted while there is room.
-/

namespace CartridgeRuntime.Network

open Checked

def maxRollbackDatagrams : Nat := 65536

/-- A datagram of a tick. -/
structure RollbackDatagram where
  tick : UInt64
  sequence : UInt64
  payload : List UInt8 := []

/-- What makes two datagrams the same. -/
def RollbackDatagram.key (packet : RollbackDatagram) : UInt64 × UInt64 :=
  (packet.tick, packet.sequence)

/-- The newest tick, and the datagrams that were accepted. -/
structure RollbackWindow where
  newestTick : UInt64
  maxRollbackTicks : UInt64
  seen : Finset (UInt64 × UInt64)

namespace RollbackWindow

/-- A window before its first datagram. -/
def new (maxRollbackTicks : UInt64) : Except String RollbackWindow := do
  rejectIf (maxRollbackTicks = 0 ∨ maxRollbackTicks > 10000) "rollback window is invalid"
  pure { newestTick := 0, maxRollbackTicks, seen := ∅ }

/-- The answer to a datagram, and the window after it. A full window has moved as well. -/
def accept (window : RollbackWindow) (packet : RollbackDatagram) :
    Except String Bool × RollbackWindow :=
  if packet.payload.length > maxMessageBytes then (.error "datagram exceeds its byte limit", window)
  else if saturatingAdd packet.tick window.maxRollbackTicks < window.newestTick then
    (.ok false, window)
  else
    let newestTick := max window.newestTick packet.tick
    let oldest := saturatingSub newestTick window.maxRollbackTicks
    let seen := window.seen.filter fun pair => pair.1 ≥ oldest
    if seen.card ≥ maxRollbackDatagrams then
      (.error "rollback datagram window is full", { window with newestTick, seen })
    else
      (.ok (packet.key ∉ seen), { window with newestTick, seen := insert packet.key seen })

/-- One call of a run; the state is the datagrams that were accepted, the last one first, and the
window. -/
def call (state : List (UInt64 × UInt64) × RollbackWindow) (packet : RollbackDatagram) :
    List (UInt64 × UInt64) × RollbackWindow :=
  let (result, window) := state.2.accept packet
  (if result = .ok true then packet.key :: state.1 else state.1, window)

/-- The window after some datagrams, with those accepted. -/
def run (window : RollbackWindow) (packets : List RollbackDatagram) :
    List (UInt64 × UInt64) × RollbackWindow :=
  packets.foldl call ([], window)

/-- The greatest tick of the datagrams whose payload is admissible. -/
def greatestTick (packets : List RollbackDatagram) : Nat :=
  ((packets.filter fun packet => packet.payload.length ≤ maxMessageBytes).map
    (·.tick.toNat)).foldl max 0

/-- The pairs that a window holds and that a tick does not make too old. -/
def held (window : RollbackWindow) (newest : Nat) : Finset (UInt64 × UInt64) :=
  window.seen.filter fun pair => newest ≤ pair.1.toNat + window.maxRollbackTicks.toNat

section

variable {window : RollbackWindow} {packet : RollbackDatagram}

theorem accept_of_oversized (h : maxMessageBytes < packet.payload.length) :
    window.accept packet = (.error "datagram exceeds its byte limit", window) :=
  if_pos h

/-- Saturation makes no difference: no tick is greater than the largest word. -/
theorem accept_of_old (hsize : packet.payload.length ≤ maxMessageBytes)
    (h : packet.tick.toNat + window.maxRollbackTicks.toNat < window.newestTick.toNat) :
    window.accept packet = (.ok false, window) := by
  have hnewest := window.newestTick.toNat_lt
  rw [accept, if_neg (Nat.not_lt.mpr hsize), if_pos]
  rw [UInt64.lt_iff_toNat_lt, toNat_saturatingAdd, wordMax]
  omega

theorem accept_of_current (hsize : packet.payload.length ≤ maxMessageBytes)
    (h : window.newestTick.toNat ≤ packet.tick.toNat + window.maxRollbackTicks.toNat) :
    let newest := max window.newestTick packet.tick
    let seen := window.held newest.toNat
    window.accept packet
      = if seen.card ≥ maxRollbackDatagrams then
          (.error "rollback datagram window is full", { window with newestTick := newest, seen })
        else (.ok (packet.key ∉ seen),
          { window with newestTick := newest, seen := insert packet.key seen }) := by
  intro newest seen
  have hnewest := window.newestTick.toNat_lt
  have hseen : (window.seen.filter fun pair => pair.1 ≥ saturatingSub newest window.maxRollbackTicks)
      = seen := by
    refine Finset.filter_congr fun pair _ => ?_
    rw [ge_iff_le, UInt64.le_iff_toNat_le, toNat_saturatingSub]
    omega
  rw [accept, if_neg (Nat.not_lt.mpr hsize), if_neg]
  · simp only [hseen, newest]
  · rw [UInt64.lt_iff_toNat_lt, toNat_saturatingAdd, wordMax]
    omega

end

theorem toNat_max (a b : UInt64) : (max a b).toNat = max a.toNat b.toNat := by
  show (if a ≤ b then b else a).toNat = _
  simp only [UInt64.le_iff_toNat_le]
  split <;> omega

theorem greatestTick_concat (packets : List RollbackDatagram) (packet : RollbackDatagram) :
    greatestTick (packets ++ [packet])
      = if packet.payload.length ≤ maxMessageBytes then max (greatestTick packets) packet.tick.toNat
        else greatestTick packets := by
  unfold greatestTick
  rw [List.filter_append]
  by_cases h : packet.payload.length ≤ maxMessageBytes <;> simp [h]

/-- What a window knows of the calls so far: exactly the accepted pairs that are not too old. -/
structure Tracks (maxTicks : UInt64) (packets : List RollbackDatagram)
    (state : List (UInt64 × UInt64) × RollbackWindow) : Prop where
  maxTicks_eq : state.2.maxRollbackTicks = maxTicks
  newest : state.2.newestTick.toNat = greatestTick packets
  nodup : state.1.Nodup
  accepted : ∀ pair ∈ state.2.seen, pair ∈ state.1
  kept : ∀ pair ∈ state.1, greatestTick packets ≤ pair.1.toNat + maxTicks.toNat → pair ∈ state.2.seen
  card_le : state.2.seen.card ≤ maxRollbackDatagrams

theorem mem_held {window : RollbackWindow} {newest : Nat} {pair : UInt64 × UInt64} :
    pair ∈ window.held newest
      ↔ pair ∈ window.seen ∧ newest ≤ pair.1.toNat + window.maxRollbackTicks.toNat :=
  Finset.mem_filter

/-- The window moves: a pair that is still in it was not forgotten before. -/
theorem Tracks.kept_held {maxTicks : UInt64} {packets : List RollbackDatagram}
    {state : List (UInt64 × UInt64) × RollbackWindow} (h : Tracks maxTicks packets state)
    {newest : Nat} (hnewest : greatestTick packets ≤ newest) {pair : UInt64 × UInt64}
    (hpair : pair ∈ state.1) (hrecent : newest ≤ pair.1.toNat + maxTicks.toNat) :
    pair ∈ state.2.held newest :=
  mem_held.mpr ⟨h.kept pair hpair (hnewest.trans hrecent), by rwa [h.maxTicks_eq]⟩

theorem Tracks.call {maxTicks : UInt64} {packets : List RollbackDatagram}
    {state : List (UInt64 × UInt64) × RollbackWindow} (h : Tracks maxTicks packets state)
    (packet : RollbackDatagram) : Tracks maxTicks (packets ++ [packet]) (call state packet) := by
  obtain ⟨accepted, window⟩ := state
  have hgreatest := greatestTick_concat packets packet
  by_cases hsize : packet.payload.length ≤ maxMessageBytes
  · rw [if_pos hsize] at hgreatest
    rcases Nat.lt_or_ge (packet.tick.toNat + window.maxRollbackTicks.toNat) window.newestTick.toNat
      with hold | hcurrent
    · -- an old datagram is not newer than the newest one
      have hsame : greatestTick (packets ++ [packet]) = greatestTick packets := by
        have := h.newest
        dsimp only at this
        omega
      rw [RollbackWindow.call, accept_of_old hsize hold]
      exact ⟨h.maxTicks_eq, hsame ▸ h.newest, h.nodup, h.accepted, hsame ▸ h.kept, h.card_le⟩
    · have hnewest : (max window.newestTick packet.tick).toNat = greatestTick (packets ++ [packet]) := by
        rw [toNat_max, h.newest, hgreatest]
      have hkept : ∀ pair ∈ accepted,
          greatestTick (packets ++ [packet]) ≤ pair.1.toNat + maxTicks.toNat →
          pair ∈ window.held (greatestTick (packets ++ [packet])) :=
        fun pair => h.kept_held (by omega)
      have haccepted : ∀ pair ∈ window.held (greatestTick (packets ++ [packet])), pair ∈ accepted :=
        fun pair hpair => h.accepted pair (mem_held.mp hpair).1
      have hless : (window.held (greatestTick (packets ++ [packet]))).card ≤ maxRollbackDatagrams :=
        (Finset.card_filter_le _ _).trans h.card_le
      rw [RollbackWindow.call, accept_of_current hsize hcurrent, hnewest]
      generalize window.held _ = held at hkept haccepted hless ⊢
      dsimp only
      split
      · exact ⟨h.maxTicks_eq, hnewest, by simpa using h.nodup, by simpa using haccepted,
          by simpa using hkept, hless⟩
      · have hcard := Finset.card_insert_le packet.key held
        by_cases hseen : packet.key ∈ held
        · -- it was accepted before
          rw [if_neg (by simpa using hseen)]
          exact ⟨h.maxTicks_eq, hnewest, h.nodup, by simpa [hseen] using haccepted,
            by simpa [hseen] using hkept, by dsimp only; omega⟩
        · rw [if_pos (by simpa using hseen)]
          refine ⟨h.maxTicks_eq, hnewest, ?_, ?_, ?_, by dsimp only; omega⟩
          · refine List.nodup_cons.mpr ⟨fun hagain => hseen (hkept _ hagain ?_), h.nodup⟩
            rw [hgreatest, ← h.newest, ← h.maxTicks_eq]
            exact max_le hcurrent (Nat.le_add_right _ _)
          · intro pair hpair
            exact List.mem_cons.mpr ((Finset.mem_insert.mp hpair).imp_right (haccepted pair))
          · intro pair hpair hrecent
            exact Finset.mem_insert.mpr
              ((List.mem_cons.mp hpair).imp_right fun hbefore => hkept pair hbefore hrecent)
  · rw [if_neg hsize] at hgreatest
    rw [RollbackWindow.call, accept_of_oversized (Nat.not_le.mp hsize)]
    exact ⟨h.maxTicks_eq, hgreatest ▸ h.newest, h.nodup, h.accepted, hgreatest ▸ h.kept, h.card_le⟩

theorem tracks_run {maxTicks : UInt64} {window : RollbackWindow} (h : new maxTicks = .ok window)
    (packets : List RollbackDatagram) : Tracks maxTicks packets (run window packets) := by
  simp only [new, bind_eq_ok, exists_unit, pure_eq_ok, Except.ok.injEq] at h
  obtain ⟨-, rfl⟩ := h
  induction packets using List.reverseRecOn with
  | nil => exact ⟨rfl, rfl, .nil, by simp [run], by simp [run], Nat.zero_le _⟩
  | append_singleton packets packet ih =>
    rw [run, List.foldl_append]
    exact ih.call packet

/-- In every run: no datagram is accepted twice, the window never holds too much, a datagram that is
accepted is not too old, and a fresh one that is not too old is accepted while the window has room. -/
theorem accept_once_and_fresh {maxTicks : UInt64} {window : RollbackWindow}
    (h : new maxTicks = .ok window) (packets : List RollbackDatagram) :
    (run window packets).1.Nodup
      ∧ (run window packets).2.seen.card ≤ maxRollbackDatagrams
      ∧ ∀ packet : RollbackDatagram,
        (((run window packets).2.accept packet).1 = .ok true →
          greatestTick packets ≤ packet.tick.toNat + maxTicks.toNat)
        ∧ (packet.payload.length ≤ maxMessageBytes → packet.key ∉ (run window packets).1 →
          greatestTick packets ≤ packet.tick.toNat + maxTicks.toNat →
          ((run window packets).2.held (greatestTick (packets ++ [packet]))).card
            < maxRollbackDatagrams →
          ((run window packets).2.accept packet).1 = .ok true) := by
  have htracks := tracks_run h packets
  generalize run window packets = state at htracks
  obtain ⟨accepted, after⟩ := state
  refine ⟨htracks.nodup, htracks.card_le, fun packet => ⟨fun haccept => ?_, ?_⟩⟩
  · by_contra hold
    by_cases hsize : packet.payload.length ≤ maxMessageBytes
    · rw [accept_of_old hsize (by rw [htracks.newest, htracks.maxTicks_eq]; omega)] at haccept
      cases haccept
    · rw [accept_of_oversized (Nat.not_le.mp hsize)] at haccept
      cases haccept
  · intro hsize hfresh hrecent hroom
    rw [greatestTick_concat, if_pos hsize] at hroom
    rw [accept_of_current hsize (by rw [htracks.newest, htracks.maxTicks_eq]; omega), toNat_max,
      htracks.newest, if_neg (Nat.not_le.mpr hroom)]
    simp only [Except.ok.injEq, decide_eq_true_eq]
    exact fun hmem => hfresh (htracks.accepted _ (mem_held.mp hmem).1)

/-- A datagram is accepted after another one was sent twice. -/
theorem accept_after_repeated :
    ∃ window, new 10 = .ok window
      ∧ (run window [⟨5, 1, []⟩, ⟨5, 1, []⟩]).1.Nodup
      ∧ ((run window [⟨5, 1, []⟩, ⟨5, 1, []⟩]).2.accept ⟨6, 1, []⟩).1 = .ok true := by
  obtain ⟨hnodup, -, haccept⟩ := accept_once_and_fresh (rfl : new 10 = .ok _) [⟨5, 1, []⟩, ⟨5, 1, []⟩]
  exact ⟨_, rfl, hnodup, (haccept ⟨6, 1, []⟩).2 (by decide) (by decide) (by decide)
    (by decide +kernel)⟩

end RollbackWindow

end CartridgeRuntime.Network
