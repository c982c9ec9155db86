import CartridgeRuntime.Library.Transition
import CartridgeRuntime.Media.Audio
import Mathlib.Data.Nat.ModEq

/-!
# The realtime buffer

One producer and one consumer share a ring of samples. Between any two accesses of one of them to
the shared variables the other may take any number of steps, so `push` and `fillCallback` are
machines with one step for each access. `realtimeBuffer_fifo`: in every interleaving the delivered
samples are a prefix of those that were counted as written.

The invariant is `Queue`: the counted samples that were not taken are in their cells.
-/

namespace CartridgeRuntime.Media

open Checked Transition

/-- The shared variables. Indices and counters are machine words. -/
structure RealtimeBuffer where
  samples : List Int32
  read : UInt64 := 0
  write : UInt64 := 0
  underruns : UInt64 := 0
  overruns : UInt64 := 0
  peakFill : UInt64 := 0

def isPowerOfTwo (n : Nat) : Prop := 2 ^ n.log2 = n

instance (n : Nat) : Decidable (isPowerOfTwo n) := inferInstanceAs (Decidable (_ = _))

namespace RealtimeBuffer

/-- An empty buffer. -/
def new (capacity : Nat) : Except MediaError RealtimeBuffer := do
  rejectIf (capacity < 2 ∨ ¬ isPowerOfTwo capacity ∨ capacity > 2 ^ 22)
    (.limit "realtime buffer capacity must be a power of two between 2 and 4194304")
  pure { samples := List.replicate capacity 0 }

/-- Turns a position into an index. -/
def mask (buffer : RealtimeBuffer) : UInt64 := .ofNat (buffer.samples.length - 1)

/-- The index after an index. -/
def following (buffer : RealtimeBuffer) (index : UInt64) : UInt64 := (index + 1) &&& buffer.mask

/-- The number of samples between two indices. -/
def between (buffer : RealtimeBuffer) (write read : UInt64) : UInt64 := (write - read) &&& buffer.mask

/-- The fill level that the telemetry reports. -/
def fill (buffer : RealtimeBuffer) : UInt64 := buffer.between buffer.write buffer.read

end RealtimeBuffer

/-! ## The producer -/

/-- A call of `push`: its samples and how many of them it has counted as written. -/
structure Push where
  samples : List Int16
  written : Nat := 0

/-- The place of a call of `push`, with its variables: the access to a shared variable that comes
next. `rest` are the samples after the current one. -/
inductive PushPoint where
  | loadWrite (rest : List Int16)
  | loadRead (sample : Int16) (rest : List Int16) (write : UInt64)
  | addOverrun
  | storeSample (sample : Int16) (rest : List Int16) (write next : UInt64)
  | storeWrite (sample : Int16) (rest : List Int16) (next : UInt64)
  | loadFill (rest : List Int16) (next : UInt64)
  | maxPeak (rest : List Int16) (fill : UInt64)

/-- The calls of `push` so far, and the one that is running. -/
structure Producer where
  finished : List Push := []
  running : Option (Push × PushPoint) := none

/-- The samples that some calls have counted as written. -/
def written (calls : List Push) : List Int16 :=
  calls.flatMap fun push => push.samples.take push.written

/-- The samples counted as written so far. -/
def Producer.counted (producer : Producer) : List Int16 :=
  written producer.finished
    ++ (producer.running.elim [] fun (push, _) => push.samples.take push.written)

/-- The call returns. -/
def Producer.finish (producer : Producer) (push : Push) : Producer :=
  { finished := producer.finished ++ [push] }

/-- The call goes on at a place. -/
def Producer.goOn (producer : Producer) (push : Push) (point : PushPoint) : Producer :=
  { producer with running := some (push, point) }

/-! ## The consumer -/

/-- An output sample, and whether it was written for lack of a sample in the buffer. -/
structure Slot where
  value : Int16
  underrun : Bool

/-- The place of a call of `fillCallback`. `rest` is the number of output samples after the current
one. -/
inductive FillPoint where
  | loadRead (rest : Nat)
  | loadWrite (rest : Nat) (read : UInt64)
  | addUnderrun (rest : Nat)
  | loadSample (rest : Nat) (read : UInt64)
  | storeRead (rest : Nat) (read : UInt64)

/-- The output of all calls of `fillCallback` so far, and the one that is running. -/
structure Consumer where
  output : List Slot := []
  running : Option FillPoint := none

/-- The samples that were delivered without underrun. -/
def Consumer.delivered (consumer : Consumer) : List Int16 :=
  (consumer.output.filter fun slot => !slot.underrun).map Slot.value

/-- The number of underruns in the output. -/
def Consumer.underruns (consumer : Consumer) : Nat :=
  consumer.output.countP Slot.underrun

/-! ## The system -/

/-- The buffer and its two parties. -/
structure Shared where
  buffer : RealtimeBuffer
  producer : Producer := {}
  consumer : Consumer := {}

namespace Shared

/-- One access of the producer. There is no next state if it is outside of the buffer. -/
def produce (s : Shared) : Option Shared :=
  let buffer := s.buffer
  match s.producer.running with
  | none => some s
  | some (push, .loadWrite []) => some { s with producer := s.producer.finish push }
  | some (push, .loadWrite (sample :: rest)) =>
    some { s with producer := s.producer.goOn push (.loadRead sample rest buffer.write) }
  | some (push, .loadRead sample rest write) =>
    let next := buffer.following write
    if next = buffer.read then some { s with producer := s.producer.goOn push .addOverrun }
    else some { s with producer := s.producer.goOn push (.storeSample sample rest write next) }
  | some (push, .addOverrun) =>
    some { s with
      buffer := { buffer with overruns := buffer.overruns + 1 }
      producer := s.producer.finish push }
  | some (push, .storeSample sample rest write next) =>
    if write.toNat < buffer.samples.length then
      some { s with
        buffer := { buffer with samples := buffer.samples.set write.toNat sample.toInt32 }
        producer := s.producer.goOn push (.storeWrite sample rest next) }
    else none
  | some (push, .storeWrite _ rest next) =>
    some { s with
      buffer := { buffer with write := next }
      producer := s.producer.goOn { push with written := push.written + 1 } (.loadFill rest next) }
  | some (push, .loadFill rest next) =>
    some { s with
      producer := s.producer.goOn push (.maxPeak rest (buffer.between next buffer.read)) }
  | some (push, .maxPeak rest fill) =>
    some { s with
      buffer := { buffer with
        peakFill := if buffer.peakFill < fill then fill else buffer.peakFill }
      producer := s.producer.goOn push (.loadWrite rest) }

/-- The consumer goes on to the next output sample or returns. -/
def nextSlot : Nat → Option FillPoint
  | 0 => none
  | rest + 1 => some (.loadRead rest)

/-- One access of the consumer. There is no next state if it is outside of the buffer. -/
def consume (s : Shared) : Option Shared :=
  let buffer := s.buffer
  let consumer := s.consumer
  match consumer.running with
  | none => some s
  | some (.loadRead rest) =>
    some { s with consumer := { consumer with running := some (.loadWrite rest buffer.read) } }
  | some (.loadWrite rest read) =>
    if read = buffer.write then
      some { s with consumer := { consumer with running := some (.addUnderrun rest) } }
    else some { s with consumer := { consumer with running := some (.loadSample rest read) } }
  | some (.addUnderrun rest) =>
    some { s with
      buffer := { buffer with underruns := buffer.underruns + 1 }
      consumer := ⟨consumer.output ++ [⟨0, true⟩], nextSlot rest⟩ }
  | some (.loadSample rest read) => do
    let value ← buffer.samples[read.toNat]?
    some { s with
      consumer := ⟨consumer.output ++ [⟨value.toInt16, false⟩], some (.storeRead rest read)⟩ }
  | some (.storeRead rest read) =>
    some { s with
      buffer := { buffer with read := buffer.following read }
      consumer := { consumer with running := nextSlot rest } }

/-- What can happen: a call begins, or one of the two goes one access further. -/
inductive Action where
  | push (samples : List Int16)
  | fillCallback (length : Nat)
  | produce
  | consume

/-- A party begins a call when it has returned from the one before. -/
def step (s : Shared) : Action → Option Shared
  | .push samples =>
    if s.producer.running.isNone then
      some { s with producer := s.producer.goOn { samples := samples } (.loadWrite samples) }
    else none
  | .fillCallback length =>
    if s.consumer.running.isNone then
      some { s with consumer := { s.consumer with running := nextSlot length } }
    else none
  | .produce => s.produce
  | .consume => s.consume

end Shared

/-- All interleavings of the two parties over a buffer. -/
def interleavings (buffer : RealtimeBuffer) : System Shared Shared.Action where
  start := { buffer := buffer }
  step := Shared.step

/-! ## Arithmetic of the ring -/

/-- Numbers that are less than the capacity apart have different cells. -/
theorem eq_of_mod_eq {i j n : Nat} (h : i % n = j % n) (hle : i ≤ j) (hlt : j < i + n) : i = j := by
  have hdvd : n ∣ j - i := (Nat.modEq_iff_dvd' hle).mp h
  have hzero : j - i = 0 := Nat.eq_zero_of_dvd_of_lt hdvd (by omega)
  omega

/-- A capacity that `new` accepts. -/
structure Capacity (capacity : Nat) : Prop where
  two_le : 2 ≤ capacity
  power : ∃ k ≤ 22, capacity = 2 ^ k

variable {capacity count taken delivered : Nat} {buffer : RealtimeBuffer} {point : Option FillPoint}
    {s : Shared}

/-- The mask takes the remainder. -/
theorem Capacity.toNat_and_mask (h : Capacity capacity) (hlength : buffer.samples.length = capacity)
    (index : UInt64) : (index &&& buffer.mask).toNat = index.toNat % capacity := by
  obtain ⟨k, hk, rfl⟩ := h.power
  have hlt : 2 ^ k ≤ 2 ^ 22 := Nat.pow_le_pow_right (by decide) hk
  rw [UInt64.toNat_and, RealtimeBuffer.mask, hlength, UInt64.toNat_ofNat_of_lt' (lt_of_le_of_lt (by omega : 2 ^ k - 1 ≤ 2 ^ 22) (by decide)),
    Nat.and_two_pow_sub_one_eq_mod]

/-- The index after the cell of a number is the cell of the next number. -/
theorem Capacity.toNat_following (h : Capacity capacity)
    (hlength : buffer.samples.length = capacity) {index : UInt64} {i : Nat}
    (hindex : index.toNat = i % capacity) :
    (buffer.following index).toNat = (i + 1) % capacity := by
  obtain ⟨k, hk, hpower⟩ := h.power
  have hlt : 2 ^ k ≤ 2 ^ 22 := Nat.pow_le_pow_right (by decide) hk
  have hmod : i % capacity < capacity := Nat.mod_lt _ (Nat.lt_of_lt_of_le Nat.two_pos h.two_le)
  have hone : (index + 1).toNat = i % capacity + 1 := by
    rw [UInt64.toNat_add, hindex]
    exact Nat.mod_eq_of_lt (by simp; omega)
  rw [RealtimeBuffer.following, h.toNat_and_mask hlength, hone, Nat.mod_add_mod]

theorem Capacity.toNat_between_lt (h : Capacity capacity)
    (hlength : buffer.samples.length = capacity) (write read : UInt64) :
    (buffer.between write read).toNat < capacity := by
  rw [RealtimeBuffer.between, h.toNat_and_mask hlength]
  exact Nat.mod_lt _ (Nat.lt_of_lt_of_le Nat.two_pos h.two_le)

/-! ## The invariant -/

/-- The place of the producer, with `count` samples counted as written and `taken` samples taken. -/
def ProducerAt (capacity count taken : Nat) (cells : List Int32) :
    Option (Push × PushPoint) → Prop
  | none | some (_, .addOverrun) => True
  | some (push, .loadWrite rest) | some (push, .loadFill rest _) =>
    push.samples.drop push.written = rest
  | some (push, .loadRead sample rest write) =>
    push.samples.drop push.written = sample :: rest ∧ write.toNat = count % capacity
  | some (push, .storeSample sample rest write next) =>
    push.samples.drop push.written = sample :: rest ∧ write.toNat = count % capacity
      ∧ next.toNat = (count + 1) % capacity ∧ count + 1 < taken + capacity
  | some (push, .storeWrite sample rest next) =>
    push.samples.drop push.written = sample :: rest ∧ next.toNat = (count + 1) % capacity
      ∧ count + 1 < taken + capacity ∧ cells[count % capacity]? = some sample.toInt32
  | some (push, .maxPeak rest fill) =>
    push.samples.drop push.written = rest ∧ fill.toNat < capacity

/-- The place of the consumer. A sample is delivered before it is taken. -/
def ConsumerAt (capacity count taken delivered : Nat) : Option FillPoint → Prop
  | none | some (.loadRead _) | some (.addUnderrun _) => delivered = taken
  | some (.loadWrite _ read) => delivered = taken ∧ read.toNat = taken % capacity
  | some (.loadSample _ read) =>
    delivered = taken ∧ read.toNat = taken % capacity ∧ taken < count
  | some (.storeRead _ read) =>
    delivered = taken + 1 ∧ read.toNat = taken % capacity ∧ taken < count

/-- The consumer only needs that there is no less to take. -/
theorem ConsumerAt.mono {count' : Nat} (h : ConsumerAt capacity count taken delivered point)
    (hle : count ≤ count') : ConsumerAt capacity count' taken delivered point := by
  cases point with
  | none => exact h
  | some point =>
    cases point with
    | loadRead => exact h
    | addUnderrun => exact h
    | loadWrite => exact h
    | loadSample => exact ⟨h.1, h.2.1, h.2.2.trans_le hle⟩
    | storeRead => exact ⟨h.1, h.2.1, h.2.2.trans_le hle⟩

/-- The counted samples from `taken` on are in their cells, fewer than the capacity. -/
structure Queue (capacity taken : Nat) (s : Shared) : Prop where
  length : s.buffer.samples.length = capacity
  read : s.buffer.read.toNat = taken % capacity
  write : s.buffer.write.toNat = s.producer.counted.length % capacity
  taken_le : taken ≤ s.producer.counted.length
  room : s.producer.counted.length < taken + capacity
  cells : ∀ index value, taken ≤ index → s.producer.counted[index]? = some value →
    s.buffer.samples[index % capacity]? = some value.toInt32
  fifo : s.consumer.delivered <+: s.producer.counted
  producer : ProducerAt capacity s.producer.counted.length taken s.buffer.samples
    s.producer.running
  consumer : ConsumerAt capacity s.producer.counted.length taken s.consumer.delivered.length
    s.consumer.running
  silent : ∀ slot ∈ s.consumer.output, slot.underrun = true → slot.value = 0
  underruns : s.buffer.underruns = .ofNat s.consumer.underruns
  peak : s.buffer.peakFill.toNat < capacity

/-! ## Steps of the producer -/

/-- The sample that is counted next is the first that is left. -/
theorem take_written_succ {samples rest : List Int16} {written : Nat} {sample : Int16}
    (h : samples.drop written = sample :: rest) :
    samples.take (written + 1) = samples.take written ++ [sample]
      ∧ samples.drop (written + 1) = rest := by
  have hsome : samples[written]? = some sample := by
    rw [← List.head?_drop, h]
    rfl
  refine ⟨by rw [List.take_add_one, hsome]; rfl, ?_⟩
  rw [← List.drop_drop, h]
  rfl

theorem counted_finish (finished : List Push) (push : Push) (point : PushPoint) :
    (Producer.finish ⟨finished, some (push, point)⟩ push).counted
      = (⟨finished, some (push, point)⟩ : Producer).counted := by
  simp [Producer.finish, Producer.counted, written]

/-- Storing a sample in the cell after the queue leaves the queue as it is. -/
theorem Queue.cells_set (h : Queue capacity taken s) {write : UInt64}
    (hwrite : write.toNat = s.producer.counted.length % capacity) (sample : Int32) (index : Nat)
    (value : Int16) (hle : taken ≤ index) (hvalue : s.producer.counted[index]? = some value) :
    (s.buffer.samples.set write.toNat sample)[index % capacity]? = some value.toInt32 := by
  have hlt : index < s.producer.counted.length := (List.getElem?_eq_some_iff.mp hvalue).1
  have hroom := h.room
  have hne : write.toNat ≠ index % capacity := by
    rw [hwrite]
    intro heq
    have := eq_of_mod_eq heq.symm hlt.le (by omega)
    omega
  rw [List.getElem?_set_ne hne]
  exact h.cells index value hle hvalue

/-- The producer goes on without a change of what it has counted. -/
theorem Queue.withProducer (h : Queue capacity taken s) {producer : Producer}
    (hcounted : producer.counted = s.producer.counted)
    (hat : ProducerAt capacity s.producer.counted.length taken s.buffer.samples producer.running) :
    Queue capacity taken { s with producer := producer } where
  length := h.length
  read := h.read
  write := hcounted ▸ h.write
  taken_le := hcounted ▸ h.taken_le
  room := hcounted ▸ h.room
  cells := hcounted ▸ h.cells
  fifo := hcounted ▸ h.fifo
  producer := hcounted ▸ hat
  consumer := hcounted ▸ h.consumer
  silent := h.silent
  underruns := h.underruns
  peak := h.peak

/-- The next sample is counted: the queue is longer by its cell. -/
theorem Queue.storeWrite (h : Queue capacity taken s) {producer : Producer} {sample : Int16}
    {next : UInt64} (hcounted : producer.counted = s.producer.counted ++ [sample])
    (hnext : next.toNat = (s.producer.counted.length + 1) % capacity)
    (hroom : s.producer.counted.length + 1 < taken + capacity)
    (hcell : s.buffer.samples[s.producer.counted.length % capacity]? = some sample.toInt32)
    (hat : ProducerAt capacity producer.counted.length taken s.buffer.samples producer.running) :
    Queue capacity taken
      { s with buffer := { s.buffer with write := next }, producer := producer } := by
  have hlength : producer.counted.length = s.producer.counted.length + 1 := by
    rw [hcounted, List.length_append, List.length_singleton]
  have htaken := h.taken_le
  constructor
  case length => exact h.length
  case read => exact h.read
  case write => exact hlength ▸ hnext
  case taken_le => exact hlength ▸ htaken.trans (Nat.le_succ _)
  case room => exact hlength ▸ hroom
  case cells =>
    intro index value hle hvalue
    rw [hcounted] at hvalue
    rcases Nat.lt_or_ge index s.producer.counted.length with hlt | hge
    · rw [List.getElem?_append_left hlt] at hvalue
      exact h.cells index value hle hvalue
    · obtain rfl : index = s.producer.counted.length := by
        have hbound := (List.getElem?_eq_some_iff.mp hvalue).1
        rw [List.length_append, List.length_singleton] at hbound
        omega
      rw [List.getElem?_append_right (Nat.le_refl _), Nat.sub_self] at hvalue
      exact Option.some.inj hvalue ▸ hcell
  case fifo => exact hcounted ▸ h.fifo.trans (List.prefix_append _ _)
  case producer => exact hat
  case consumer =>
    rw [hlength]
    exact h.consumer.mono (Nat.le_succ _)
  case silent => exact h.silent
  case underruns => exact h.underruns
  case peak => exact h.peak

/-- An access of the producer is inside of the buffer and keeps the invariant. -/
theorem Queue.exists_produce (hcapacity : Capacity capacity) (h : Queue capacity taken s) :
    ∃ s', s.produce = some s' ∧ Queue capacity taken s' := by
  obtain ⟨buffer, ⟨finished, running⟩, consumer⟩ := s
  have hat := h.producer
  cases running with
  | none => exact ⟨_, rfl, h⟩
  | some call =>
    obtain ⟨push, point⟩ := call
    cases point with
    | loadWrite rest =>
      cases rest with
      | nil => exact ⟨_, rfl, h.withProducer (counted_finish _ _ _) trivial⟩
      | cons sample rest => exact ⟨_, rfl, h.withProducer rfl ⟨hat, h.write⟩⟩
    | loadRead sample rest write =>
      obtain ⟨hrest, hwrite⟩ := hat
      have hnext := hcapacity.toNat_following h.length hwrite
      by_cases hfull : buffer.following write = buffer.read
      · refine ⟨_, if_pos hfull, ?_⟩
        exact h.withProducer rfl trivial
      · refine ⟨_, if_neg hfull, ?_⟩
        refine h.withProducer rfl ⟨hrest, hwrite, hnext, lt_of_le_of_ne h.room ?_⟩
        intro heq
        apply hfull
        rw [← UInt64.toNat_inj, hnext, h.read, heq, Nat.add_mod_right]
    | addOverrun =>
      have hreturn := h.withProducer (counted_finish finished push .addOverrun) trivial
      exact ⟨_, rfl, { hreturn with }⟩
    | storeSample sample rest write next =>
      obtain ⟨hrest, hwrite, hnext, hroom⟩ := hat
      have hinside : write.toNat < buffer.samples.length := by
        rw [hwrite, h.length]
        exact Nat.mod_lt _ (Nat.lt_of_lt_of_le Nat.two_pos hcapacity.two_le)
      have hcell : (buffer.samples.set write.toNat sample.toInt32)[write.toNat]?
          = some sample.toInt32 := List.getElem?_set_self hinside
      nth_rewrite 2 [hwrite] at hcell
      exact ⟨_, if_pos hinside, { h with
        length := (List.length_set ..).trans h.length
        cells := h.cells_set hwrite _
        producer := ⟨hrest, hnext, hroom, hcell⟩ }⟩
    | storeWrite sample rest next =>
      obtain ⟨hrest, hnext, hroom, hcell⟩ := hat
      obtain ⟨htake, hdrop⟩ := take_written_succ hrest
      refine ⟨_, rfl, h.storeWrite ?_ hnext hroom hcell hdrop⟩
      show written finished ++ push.samples.take (push.written + 1)
        = written finished ++ push.samples.take push.written ++ [sample]
      rw [htake, List.append_assoc]
    | loadFill rest next =>
      exact ⟨_, rfl, h.withProducer rfl ⟨hat, hcapacity.toNat_between_lt h.length _ _⟩⟩
    | maxPeak rest fill =>
      have hgoOn : Queue capacity taken
          ⟨buffer, ⟨finished, some (push, .loadWrite rest)⟩, consumer⟩ :=
        h.withProducer rfl hat.1
      refine ⟨_, rfl, { hgoOn with peak := ?_ }⟩
      show (if buffer.peakFill < fill then fill else buffer.peakFill).toNat < capacity
      split
      · exact hat.2
      · exact h.peak

/-! ## Steps of the consumer -/

/-- The consumer goes on without a change of the queue or the output. -/
theorem Queue.withConsumer (h : Queue capacity taken s)
    (hat : ConsumerAt capacity s.producer.counted.length taken s.consumer.delivered.length point) :
    Queue capacity taken { s with consumer := { s.consumer with running := point } } :=
  { h with consumer := hat }

theorem consumerAt_nextSlot {rest : Nat} (h : delivered = taken) :
    ConsumerAt capacity count taken delivered (Shared.nextSlot rest) := by
  cases rest with
  | zero => exact h
  | succ => exact h

/-- The producer only needs that there is no less room. -/
theorem ProducerAt.mono {cells : List Int32} {call : Option (Push × PushPoint)}
    (h : ProducerAt capacity count taken cells call) :
    ProducerAt capacity count (taken + 1) cells call := by
  cases call with
  | none => trivial
  | some call =>
    obtain ⟨push, point⟩ := call
    cases point with
    | loadWrite => exact h
    | loadRead => exact h
    | addOverrun => trivial
    | storeSample => exact ⟨h.1, h.2.1, h.2.2.1, by have := h.2.2.2; omega⟩
    | storeWrite => exact ⟨h.1, h.2.1, by have := h.2.2.1; omega, h.2.2.2⟩
    | loadFill => exact h
    | maxPeak => exact h

/-- The next counted sample makes the delivered ones longer. -/
theorem append_of_getElem? {l l' : List Int16} {value : Int16} (h : l <+: l')
    (hvalue : l'[l.length]? = some value) : l ++ [value] <+: l' := by
  obtain ⟨rest, rfl⟩ := h
  rw [List.getElem?_append_right (Nat.le_refl _), Nat.sub_self] at hvalue
  cases rest with
  | nil => cases hvalue
  | cons other rest =>
    cases hvalue
    exact ⟨rest, by simp⟩

/-- An access of the consumer is inside of the buffer and keeps the invariant. -/
theorem Queue.exists_consume (hcapacity : Capacity capacity) (h : Queue capacity taken s) :
    ∃ s' taken', s.consume = some s' ∧ Queue capacity taken' s' := by
  obtain ⟨buffer, producer, ⟨output, running⟩⟩ := s
  have hat := h.consumer
  cases running with
  | none => exact ⟨_, taken, rfl, h⟩
  | some point =>
    cases point with
    | loadRead rest => exact ⟨_, taken, rfl, h.withConsumer ⟨hat, h.read⟩⟩
    | loadWrite rest read =>
      obtain ⟨hdelivered, hread⟩ := hat
      by_cases hempty : read = buffer.write
      · exact ⟨_, taken, if_pos hempty, h.withConsumer hdelivered⟩
      · refine ⟨_, taken, if_neg hempty, h.withConsumer ⟨hdelivered, hread, ?_⟩⟩
        refine lt_of_le_of_ne h.taken_le ?_
        intro heq
        apply hempty
        rw [← UInt64.toNat_inj, hread, h.write, ← heq]
    | addUnderrun rest =>
      have hdelivered : (⟨output ++ [⟨0, true⟩], none⟩ : Consumer).delivered
          = (⟨output, none⟩ : Consumer).delivered := by
        simp [Consumer.delivered]
      refine ⟨_, taken, rfl, { h with fifo := ?_, consumer := ?_, silent := ?_, underruns := ?_ }⟩
      · exact hdelivered ▸ h.fifo
      · exact consumerAt_nextSlot ((congrArg List.length hdelivered).trans hat)
      · exact List.forall_mem_append.mpr ⟨h.silent, by simp⟩
      · have hcount : buffer.underruns = .ofNat (output.countP Slot.underrun) := h.underruns
        show buffer.underruns + 1 = .ofNat ((output ++ [Slot.mk 0 true]).countP Slot.underrun)
        rw [hcount, List.countP_append]
        exact (UInt64.ofNat_add _ 1).symm
    | loadSample rest read =>
      obtain ⟨hlength, hread, hlt⟩ := hat
      obtain ⟨value, hvalue⟩ : ∃ value, producer.counted[taken]? = some value :=
        ⟨_, List.getElem?_eq_getElem hlt⟩
      have hcell : buffer.samples[read.toNat]? = some value.toInt32 :=
        hread ▸ h.cells taken value (Nat.le_refl _) hvalue
      have hdelivered : (⟨output ++ [⟨value.toInt32.toInt16, false⟩], none⟩ : Consumer).delivered
          = (⟨output, none⟩ : Consumer).delivered ++ [value] := by
        simp [Consumer.delivered]
      have hconsume : Shared.consume ⟨buffer, producer, ⟨output, some (.loadSample rest read)⟩⟩
          = some ⟨buffer, producer, ⟨output ++ [⟨value.toInt32.toInt16, false⟩],
            some (.storeRead rest read)⟩⟩ := by
        rw [Shared.consume]
        simp only [hcell]
        rfl
      refine ⟨_, taken, hconsume,
        { h with fifo := ?_, consumer := ?_, silent := ?_, underruns := ?_ }⟩
      · rw [← hlength] at hvalue
        exact hdelivered ▸ append_of_getElem? h.fifo hvalue
      · refine ⟨(congrArg List.length hdelivered).trans ?_, hread, hlt⟩
        rw [List.length_append]
        exact congrArg (· + 1) hlength
      · exact List.forall_mem_append.mpr ⟨h.silent, by simp⟩
      · have hcount : buffer.underruns = .ofNat (output.countP Slot.underrun) := h.underruns
        show buffer.underruns
          = .ofNat ((output ++ [Slot.mk value.toInt32.toInt16 false]).countP Slot.underrun)
        rw [hcount, List.countP_append]
        rfl
    | storeRead rest read =>
      obtain ⟨hlength, hread, hlt⟩ := hat
      have hroom : producer.counted.length < taken + 1 + capacity :=
        h.room.trans (by omega)
      exact ⟨_, taken + 1, rfl, { h with
        read := hcapacity.toNat_following h.length hread
        taken_le := hlt
        room := hroom
        cells := fun index value hle => h.cells index value (by omega)
        producer := h.producer.mono
        consumer := consumerAt_nextSlot hlength }⟩

/-! ## All interleavings -/

theorem capacity_of_new (h : RealtimeBuffer.new capacity = .ok buffer) :
    Capacity capacity ∧ buffer = { samples := List.replicate capacity 0 } := by
  simp only [RealtimeBuffer.new, bind_eq_ok, rejectIf_eq_ok, exists_unit, pure_eq_ok,
    Except.ok.injEq, not_or, not_not] at h
  obtain ⟨⟨htwo, hpower, hmax⟩, rfl⟩ := h
  refine ⟨⟨by omega, capacity.log2, ?_, hpower.symm⟩, rfl⟩
  refine (Nat.pow_le_pow_iff_right (by decide : 1 < 2)).mp ?_
  rw [show 2 ^ capacity.log2 = capacity from hpower]
  omega

theorem queue_start (h : Capacity capacity) :
    Queue capacity 0 { buffer := { samples := List.replicate capacity 0 } } where
  length := List.length_replicate
  read := (Nat.zero_mod _).symm
  write := (Nat.zero_mod _).symm
  taken_le := Nat.le_refl _
  room := by
    have := h.two_le
    show 0 < 0 + capacity
    omega
  cells := by
    intro index value _ hvalue
    cases hvalue
  fifo := List.prefix_refl _
  producer := trivial
  consumer := rfl
  silent := List.forall_mem_nil _
  underruns := rfl
  peak := Nat.lt_of_lt_of_le Nat.two_pos h.two_le

theorem queue_step (hcapacity : Capacity capacity) {s' : Shared} {action : Shared.Action}
    (h : Queue capacity taken s) (hstep : s.step action = some s') :
    ∃ taken', Queue capacity taken' s' := by
  cases action with
  | push samples =>
    obtain ⟨buffer, ⟨finished, running⟩, consumer⟩ := s
    cases running with
    | none =>
      cases hstep
      refine ⟨taken, h.withProducer ?_ rfl⟩
      simp [Producer.goOn, Producer.counted]
    | some call => cases hstep
  | fillCallback length =>
    obtain ⟨buffer, producer, ⟨output, running⟩⟩ := s
    cases running with
    | none =>
      cases hstep
      exact ⟨taken, h.withConsumer (consumerAt_nextSlot h.consumer)⟩
    | some point => cases hstep
  | produce =>
    obtain ⟨next, hnext, hqueue⟩ := h.exists_produce hcapacity
    cases hnext.symm.trans hstep
    exact ⟨taken, hqueue⟩
  | consume =>
    obtain ⟨next, taken', hnext, hqueue⟩ := h.exists_consume hcapacity
    cases hnext.symm.trans hstep
    exact ⟨taken', hqueue⟩

/-- At most the last delivered sample is not taken yet. -/
theorem ConsumerAt.taken_le (h : ConsumerAt capacity count taken delivered point) :
    taken ≤ delivered := by
  cases point with
  | none => exact h.ge
  | some point =>
    cases point with
    | loadRead => exact h.ge
    | addUnderrun => exact h.ge
    | loadWrite => exact h.1.ge
    | loadSample => exact h.1.ge
    | storeRead => exact h.1 ▸ Nat.le_succ taken

/-- In every state of every interleaving over a new buffer: the samples that were delivered without
underrun are the first of those counted as written, and the others are still in their cells; every
other output sample is zero and is counted once; the fill level, the recorded peak and the number of
samples that wait are less than the capacity; and neither party is about to leave the buffer. -/
theorem realtimeBuffer_fifo {capacity : Nat} {buffer : RealtimeBuffer}
    (hnew : RealtimeBuffer.new capacity = .ok buffer) {s : Shared}
    (hrun : Reached (interleavings buffer) (fun _ _ => True) s) :
    s.consumer.delivered <+: s.producer.counted
      ∧ (∀ index value, s.consumer.delivered.length ≤ index →
        s.producer.counted[index]? = some value →
        s.buffer.samples[index % capacity]? = some value.toInt32)
      ∧ (∀ slot ∈ s.consumer.output, slot.underrun = true → slot.value = 0)
      ∧ s.buffer.underruns = .ofNat s.consumer.underruns
      ∧ s.buffer.fill.toNat ≤ capacity - 1
      ∧ s.producer.counted.length - s.consumer.delivered.length ≤ capacity - 1
      ∧ s.buffer.peakFill.toNat ≤ capacity - 1
      ∧ s.produce.isSome ∧ s.consume.isSome := by
  obtain ⟨hcapacity, rfl⟩ := capacity_of_new hnew
  obtain ⟨taken, h⟩ : ∃ taken, Queue capacity taken s := by
    refine Reached.invariant (P := fun s => ∃ taken, Queue capacity taken s)
      ⟨0, queue_start hcapacity⟩ ?_ hrun
    rintro s s' action ⟨taken, h⟩ - hstep
    exact queue_step hcapacity h hstep
  have htaken := h.consumer.taken_le
  have hfill := hcapacity.toNat_between_lt h.length s.buffer.write s.buffer.read
  have hroom := h.room
  have hpeak := h.peak
  obtain ⟨_, hproduce, -⟩ := h.exists_produce hcapacity
  obtain ⟨_, _, hconsume, -⟩ := h.exists_consume hcapacity
  refine ⟨h.fifo, fun index value hle => h.cells index value (htaken.trans hle), h.silent,
    h.underruns, Nat.le_sub_one_of_lt hfill, by omega, Nat.le_sub_one_of_lt hpeak, ?_, ?_⟩
  · rw [hproduce]
    rfl
  · rw [hconsume]
    rfl

/-- Two samples are pushed, and the callback takes the first while the second is written. -/
def demoActions : List Shared.Action :=
  [.push [7, 8]] ++ List.replicate 6 .produce ++ [.fillCallback 2]
    ++ List.replicate 3 .produce ++ List.replicate 4 .consume

theorem realtimeBuffer_fifo_demo :
    ∃ buffer s, RealtimeBuffer.new 4 = .ok buffer
      ∧ Reached (interleavings buffer) (fun _ _ => True) s
      ∧ s.consumer.delivered = [7] ∧ s.consumer.delivered <+: s.producer.counted := by
  have hnew : RealtimeBuffer.new 4 = .ok { samples := [0, 0, 0, 0] } := rfl
  obtain ⟨s, hrun, hdelivered⟩ := exists_reached (f := fun s : Shared => s.consumer.delivered)
    (show ((interleavings { samples := [0, 0, 0, 0] }).runWithin (fun _ _ => True) _
      demoActions).map _ = some [7] by decide +kernel)
  exact ⟨_, s, hnew, hrun, hdelivered, (realtimeBuffer_fifo hnew hrun).1⟩

end CartridgeRuntime.Media
