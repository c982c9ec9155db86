import CartridgeRuntime.Network.PeerSession
import CartridgeRuntime.Library.Sha2
import Mathlib.Data.List.Nodup
import Mathlib.Data.UInt
import Mathlib.Order.Lattice

/-!
# What sessions deliver

Two peers open sessions with each other, seal messages and open what an attacker delivers to them out
of everything that was ever sent. `delivered_of_allowed`: no message is opened twice and every session
opens the messages of one session of the other peer in order, in every run in which of each peer only
one session seals and only one opens. The key of a session depends on the identities alone, so that a
second session accepts what the first one has opened.
-/

namespace CartridgeRuntime.Network

open Checked Encoding

/-! ## Two peers and an attacker -/

/-- The two ends of a conversation. -/
inductive Side where
  | alice
  | bob
deriving DecidableEq, Repr

def Side.other : Side → Side
  | .alice => .bob
  | .bob => .alice

@[simp] theorem Side.other_other (side : Side) : side.other.other = side := by
  cases side <;> rfl

/-- The identities of two peers. -/
structure Peers where
  alice : PeerIdentity
  bob : PeerIdentity

def Peers.identity (peers : Peers) : Side → PeerIdentity
  | .alice => peers.alice
  | .bob => peers.bob

/-- A session with what it has sealed and opened so far, messages and plaintexts. -/
structure Party where
  side : Side
  session : PeerSession
  sealed : List (EncryptedMessage × List UInt8) := []
  opened : List (EncryptedMessage × List UInt8) := []
deriving DecidableEq

/-- A call: a peer creates a session, a session seals a plaintext, or a message is delivered to it. -/
inductive Call where
  | connect (side : Side)
  | sealNext (index : Nat) (nonce : Nonce) (plaintext : List UInt8)
  | deliver (index : Nat) (message : EncryptedMessage)

/-- The messages that were ever sent. -/
def sent (parties : List Party) : List EncryptedMessage :=
  parties.flatMap fun party => party.sealed.map Prod.fst

section

variable [HexCodec] [Sha256] [X25519] [Aead]

/-- Encrypt a message, if that succeeds. -/
def Party.sealNext (party : Party) (nonce : Nonce) (plaintext : List UInt8) : Party :=
  match party.session.seal nonce plaintext with
  | .ok (message, session) =>
    { party with session, sealed := party.sealed ++ [(message, plaintext)] }
  | .error _ => party

/-- Decrypt a message, if that succeeds. -/
def Party.deliver (party : Party) (message : EncryptedMessage) : Party :=
  match party.session.open message with
  | .ok (plaintext, session) =>
    { party with session, opened := party.opened ++ [(message, plaintext)] }
  | .error _ => party

/-- One call. A call that fails changes nothing, and an attacker has only what was sent. -/
def Peers.step (peers : Peers) (parties : List Party) : Call → List Party
  | .connect side =>
    match (peers.identity side).session (peers.identity side.other).public with
    | .ok session => parties ++ [{ side, session }]
    | .error _ => parties
  | .sealNext index nonce plaintext => parties.modify index fun party => party.sealNext nonce plaintext
  | .deliver index message =>
    if message ∈ sent parties then parties.modify index fun party => party.deliver message
    else parties

/-- The parties after some calls. -/
def Peers.run (peers : Peers) (calls : List Call) : List Party :=
  calls.foldl peers.step []

end

/-- No message is opened twice, and what a session has opened is, in order, the beginning of what one
session of the other peer has sealed. -/
structure Delivered (parties : List Party) : Prop where
  once : ((parties.flatMap Party.opened).map Prod.fst).Nodup
  inOrder : ∀ party ∈ parties, party.opened = [] ∨ ∃ other ∈ parties, other.side = party.side.other
    ∧ party.opened.map Prod.snd <+: other.sealed.map Prod.snd

/-- The other sessions of the same peer have a count of zero. -/
def OthersIdle (parties : List Party) (index : Nat) (count : Party → UInt64) : Prop :=
  ∀ party ∈ parties[index]?, ∀ entry ∈ parties.zipIdx, entry.2 ≠ index →
    entry.1.side = party.side → count entry.1 = 0

/-- A session seals only if no other session of its peer has, and opens only if no other has. -/
def Exclusive (parties : List Party) : Call → Prop
  | .connect _ => True
  | .sealNext index _ _ => OthersIdle parties index (·.session.sendSequence)
  | .deliver index _ => OthersIdle parties index (·.session.receiveSequence)

/-! ## One session -/

section

variable [HexCodec] [Sha256] [X25519]

def Peers.peerId (peers : Peers) (side : Side) : String :=
  Network.peerId (peers.identity side).publicKey

/-- The two peers are told by their ids. -/
def Peers.Distinct (peers : Peers) : Prop :=
  Function.Injective peers.peerId

/-- The key of every session between two peers. -/
def Peers.key (peers : Peers) : List UInt8 :=
  Sha256.digest (keyMaterial (X25519.x25519 peers.alice.secret peers.bob.publicKey)
    peers.alice.publicKey peers.bob.publicKey)

omit [HexCodec] [Sha256] [X25519] in
theorem sortedKeys_comm (first second : List UInt8) :
    sortedKeys first second = sortedKeys second first := by
  have hinj : Function.Injective (List.map UInt8.toNat) :=
    List.map_injective_iff.mpr fun _ _ => UInt8.toNat_inj.mp
  unfold sortedKeys
  rcases lt_trichotomy (first.map UInt8.toNat) (second.map UInt8.toNat) with hlt | heq | hgt
  · rw [if_pos hlt.le, if_neg (not_le.mpr hlt)]
  · rw [hinj heq]
  · rw [if_neg (not_le.mpr hgt), if_pos hgt.le]

omit [Sha256] [X25519] in
theorem decodeArray_encode {length : Nat} {bytes : List UInt8} (h : bytes.length = length)
    (label : String) : decodeArray length (HexCodec.encode bytes) label = .ok bytes := by
  unfold decodeArray
  rw [HexCodec.decode_encode]
  simp only [mapError, ok_bind]
  rw [rejectIf_of_not _ (not_not.mpr h), ok_bind]
  rfl

/-- A session that was just created. -/
def Peers.freshSession (peers : Peers) (side : Side) : PeerSession where
  localPeerId := peers.peerId side
  remotePeerId := peers.peerId side.other
  key := peers.key

variable {session : PeerSession}

/-- A session between the peers names both and has their key. -/
theorem session_eq_ok {peers : Peers} {side : Side}
    (h : (peers.identity side).session (peers.identity side.other).public = .ok session) :
    session = peers.freshSession side := by
  have hlength : (peers.identity side.other).publicKey.length = 32 := X25519.length_x25519 _ _
  simp only [PeerIdentity.session, bind_eq_ok] at h
  obtain ⟨⟨⟩, -, remote, hremote, ⟨⟩, -, h⟩ := h
  obtain rfl : remote = (peers.identity side.other).publicKey := by
    rw [PeerIdentity.public, decodeArray_encode hlength] at hremote
    exact (Except.ok.inj hremote).symm
  cases h
  have hkey : Sha256.digest (keyMaterial
      (X25519.x25519 (peers.identity side).secret (peers.identity side.other).publicKey)
      (peers.identity side).publicKey (peers.identity side.other).publicKey) = peers.key := by
    cases side with
    | alice => rfl
    | bob =>
      -- the two agree on the point, and the public keys are sorted
      unfold Peers.key keyMaterial
      rw [sortedKeys_comm]
      congr 3
      exact X25519.agree _ _
  rw [hkey]
  rfl

variable [Aead]

/-- A message is the sealed form of a plaintext. -/
def Seals (key : List UInt8) (message : EncryptedMessage) (plaintext : List UInt8) : Prop :=
  ∃ (nonce : Nonce) (ciphertext : List UInt8), message.nonce = HexCodec.encode nonce.val
    ∧ message.ciphertext = HexCodec.encode ciphertext
    ∧ Aead.encrypt key nonce.val plaintext
        (messageAad message.sender message.recipient message.sequence) = some ciphertext

/-- The sequence numbers of a session count its logs, and its messages name both peers. -/
structure Party.Faithful (peers : Peers) (party : Party) : Prop where
  localPeerId : party.session.localPeerId = peers.peerId party.side
  remotePeerId : party.session.remotePeerId = peers.peerId party.side.other
  key : party.session.key = peers.key
  send : party.session.sendSequence.toNat = party.sealed.length
  receive : party.session.receiveSequence.toNat = party.opened.length
  sealed : ∀ (position : Nat) (message : EncryptedMessage) (plaintext : List UInt8),
    party.sealed[position]? = some (message, plaintext) → message.sequence.toNat = position ∧ message.sender = peers.peerId party.side
      ∧ Seals peers.key message plaintext
  opened : ∀ (position : Nat) (message : EncryptedMessage) (plaintext : List UInt8),
    party.opened[position]? = some (message, plaintext) → message.sequence.toNat = position ∧ message.sender = peers.peerId party.side.other

variable {peers : Peers} {party : Party}

theorem faithful_fresh (side : Side) :
    Party.Faithful peers { side, session := peers.freshSession side } where
  localPeerId := rfl
  remotePeerId := rfl
  key := rfl
  send := rfl
  receive := rfl
  sealed _ _ _ h := by cases h
  opened _ _ _ h := by cases h

omit [Sha256] [X25519] in
/-- What a call of `seal` returns. -/
theorem seal_eq_ok {session' : PeerSession} {nonce : Nonce} {plaintext : List UInt8}
    {message : EncryptedMessage} (h : session.seal nonce plaintext = .ok (message, session')) :
    session' = { session with sendSequence := session.sendSequence + 1 }
      ∧ session'.sendSequence.toNat = session.sendSequence.toNat + 1
      ∧ message.sequence = session.sendSequence ∧ message.sender = session.localPeerId
      ∧ Seals session.key message plaintext := by
  simp only [PeerSession.seal, bind_eq_ok, okOr_eq_ok] at h
  obtain ⟨⟨⟩, -, ciphertext, hcipher, ⟨⟩, hroom, h⟩ := h
  have hnext := rejectIf_eq_ok.mp hroom
  cases h
  refine ⟨rfl, ?_, rfl, rfl, nonce, ciphertext, rfl, rfl, hcipher⟩
  have := session.sendSequence.toNat_lt
  unfold wordMax at hnext
  rw [UInt64.toNat_add]
  simp
  omega

omit [Sha256] [X25519] in
/-- What a call of `open` returns, and what it has checked. -/
theorem open_eq_ok {session' : PeerSession} {message : EncryptedMessage} {plaintext : List UInt8}
    (h : session.open message = .ok (plaintext, session')) :
    session' = { session with receiveSequence := session.receiveSequence + 1 }
      ∧ session'.receiveSequence.toNat = session.receiveSequence.toNat + 1
      ∧ message.sequence = session.receiveSequence ∧ message.sender = session.remotePeerId
      ∧ ∀ sealedText, Seals session.key message sealedText → plaintext = sealedText := by
  simp only [PeerSession.open, bind_eq_ok, okOr_eq_ok] at h
  obtain ⟨⟨⟩, hheader, nonce, hnonce, ciphertext, hciphertext, ⟨⟩, -, opened, hopened, ⟨⟩, hroom, h⟩ := h
  have hnext := rejectIf_eq_ok.mp hroom
  obtain ⟨hsender, -, hsequence⟩ := by simpa only [not_or, not_not] using rejectIf_eq_ok.mp hheader
  cases h
  refine ⟨rfl, ?_, hsequence, hsender, ?_⟩
  · have := session.receiveSequence.toNat_lt
    unfold wordMax at hnext
    rw [UInt64.toNat_add]
    simp
    omega
  · rintro sealedText ⟨nonce', ciphertext', hnonce', hciphertext', hseals⟩
    rw [hnonce', decodeArray_encode nonce'.property, Except.ok.injEq] at hnonce
    rw [hciphertext', HexCodec.decode_encode] at hciphertext
    cases hciphertext
    subst hnonce
    rw [(Aead.decrypt_eq_some _ _ _ _ _).mpr hseals, Option.some.injEq] at hopened
    exact hopened.symm

omit [HexCodec] [Sha256] [X25519] [Aead] in
theorem getElem?_append_single {α : Type} {list : List α} {last found : α} {position : Nat}
    (h : (list ++ [last])[position]? = some found) :
    list[position]? = some found ∨ position = list.length ∧ found = last := by
  rcases Nat.lt_trichotomy position list.length with hlt | rfl | hgt
  · rw [List.getElem?_append_left hlt] at h
    exact .inl h
  · rw [List.getElem?_concat_length, Option.some.injEq] at h
    exact .inr ⟨rfl, h.symm⟩
  · rw [List.getElem?_eq_none (by simpa using hgt)] at h
    cases h

theorem faithful_sealNext (h : party.Faithful peers) (nonce : Nonce) (plaintext : List UInt8) :
    (party.sealNext nonce plaintext).Faithful peers := by
  unfold Party.sealNext
  split
  · rename_i message session' hseal
    obtain ⟨hsession, hnext, hsequence, hsender, hseals⟩ := seal_eq_ok hseal
    rw [h.key] at hseals
    subst hsession
    exact
      { h with
        send := by rw [List.length_append, ← h.send]; exact hnext
        sealed := by
          intro position found text hfound
          rcases getElem?_append_single hfound with hbefore | ⟨rfl, hlast⟩
          · exact h.sealed position found text hbefore
          · cases hlast
            exact ⟨(congrArg UInt64.toNat hsequence).trans h.send, hsender.trans h.localPeerId,
              hseals⟩ }
  · exact h

/-- A message that is opened comes from the other peer, and with the plaintext it was sealed with. -/
theorem deliver_cases (h : party.Faithful peers) (message : EncryptedMessage) :
    party.deliver message = party ∨ ∃ plaintext session',
      party.deliver message
        = { party with session := session', opened := party.opened ++ [(message, plaintext)] }
      ∧ (party.deliver message).Faithful peers
      ∧ message.sender = peers.peerId party.side.other
      ∧ ∀ sealedText, Seals peers.key message sealedText → plaintext = sealedText := by
  unfold Party.deliver
  split
  · rename_i plaintext session' hopen
    obtain ⟨hsession, hnext, hsequence, hsender, htext⟩ := open_eq_ok hopen
    rw [h.key] at htext
    rw [h.remotePeerId] at hsender
    subst hsession
    refine .inr ⟨plaintext, _, rfl, ?_, hsender, htext⟩
    exact
      { h with
        receive := by rw [List.length_append, ← h.receive]; exact hnext
        opened := by
          intro position found text hfound
          rcases getElem?_append_single hfound with hbefore | ⟨rfl, hlast⟩
          · exact h.opened position found text hbefore
          · cases hlast
            exact ⟨(congrArg UInt64.toNat hsequence).trans h.receive, hsender⟩ }
  · exact .inl rfl

omit [Sha256] [X25519] in
theorem side_sealNext (party : Party) (nonce : Nonce) (plaintext : List UInt8) :
    (party.sealNext nonce plaintext).side = party.side
      ∧ (party.sealNext nonce plaintext).opened = party.opened
      ∧ party.sealed <+: (party.sealNext nonce plaintext).sealed := by
  unfold Party.sealNext
  split
  · exact ⟨rfl, rfl, List.prefix_append _ _⟩
  · exact ⟨rfl, rfl, List.prefix_refl _⟩

omit [Sha256] [X25519] in
theorem side_deliver (party : Party) (message : EncryptedMessage) :
    (party.deliver message).side = party.side
      ∧ (party.deliver message).sealed = party.sealed := by
  unfold Party.deliver
  split
  · exact ⟨rfl, rfl⟩
  · exact ⟨rfl, rfl⟩

end

/-! ## All sessions -/

section

variable {parties : List Party} {index : Nat} {change : Party → Party}

theorem getElem?_modify_cases {position : Nat} {found : Party}
    (h : (parties.modify index change)[position]? = some found) :
    position ≠ index ∧ parties[position]? = some found
      ∨ position = index ∧ ∃ before, parties[index]? = some before ∧ found = change before := by
  rw [List.getElem?_modify] at h
  split at h
  · rename_i heq
    subst heq
    obtain ⟨before, hbefore, rfl⟩ := Option.map_eq_some_iff.mp h
    exact .inr ⟨rfl, before, hbefore, rfl⟩
  · rename_i hne
    exact .inl ⟨fun heq => hne heq.symm, by simpa using h⟩

theorem mem_modify_cases {found : Party} (h : found ∈ parties.modify index change) :
    found ∈ parties ∨ ∃ before ∈ parties, found = change before := by
  obtain ⟨position, hposition⟩ := List.mem_iff_getElem?.mp h
  rcases getElem?_modify_cases hposition with ⟨-, hfound⟩ | ⟨-, before, hbefore, rfl⟩
  · exact .inl (List.mem_of_getElem? hfound)
  · exact .inr ⟨before, List.mem_of_getElem? hbefore, rfl⟩

/-- A session that was there is there after a change, changed or not. -/
theorem exists_mem_modify {before : Party} (h : before ∈ parties) :
    before ∈ parties.modify index change ∨ change before ∈ parties.modify index change := by
  obtain ⟨position, hposition⟩ := List.mem_iff_getElem?.mp h
  by_cases heq : index = position
  · refine .inr (List.mem_iff_getElem?.mpr ⟨position, ?_⟩)
    rw [List.getElem?_modify, hposition]
    simp [heq]
  · refine .inl (List.mem_iff_getElem?.mpr ⟨position, ?_⟩)
    rw [List.getElem?_modify, hposition]
    simp [heq]

/-- Of each peer at most one session has something in its log. -/
def Single (log : Party → List (EncryptedMessage × List UInt8)) (parties : List Party) : Prop :=
  ∀ (i j : Nat) (first second : Party), parties[i]? = some first → parties[j]? = some second →
    first.side = second.side → log first ≠ [] → log second ≠ [] → i = j

variable {log : Party → List (EncryptedMessage × List UInt8)} {count : Party → UInt64}

theorem Single.append (h : Single log parties) {last : Party} (hlast : log last = []) :
    Single log (parties ++ [last]) := by
  intro i j first second hfirst hsecond hside hne hne'
  rcases getElem?_append_single hfirst with hfirst | ⟨-, rfl⟩
  · rcases getElem?_append_single hsecond with hsecond | ⟨-, rfl⟩
    · exact h i j first second hfirst hsecond hside hne hne'
    · exact absurd hlast hne'
  · exact absurd hlast hne

/-- A change that leaves the logs as they are. -/
theorem Single.modify_same (h : Single log parties)
    (hchange : ∀ party, (change party).side = party.side ∧ log (change party) = log party) :
    Single log (parties.modify index change) := by
  have hbefore : ∀ {position : Nat} {found : Party},
      (parties.modify index change)[position]? = some found →
      ∃ before, parties[position]? = some before ∧ found.side = before.side
        ∧ log found = log before := by
    intro position found hfound
    rcases getElem?_modify_cases hfound with ⟨-, hfound⟩ | ⟨rfl, before, hbefore, rfl⟩
    · exact ⟨found, hfound, rfl, rfl⟩
    · exact ⟨before, hbefore, (hchange before).1, (hchange before).2⟩
  intro i j first second hfirst hsecond hside hne hne'
  obtain ⟨first', hfirst', hside', hlog⟩ := hbefore hfirst
  obtain ⟨second', hsecond', hside'', hlog'⟩ := hbefore hsecond
  exact h i j first' second' hfirst' hsecond' (hside' ▸ hside'' ▸ hside) (hlog ▸ hne) (hlog' ▸ hne')

/-- A change of the log of a session when no other session of its peer has one. -/
theorem Single.modify_idle (h : Single log parties)
    (hcount : ∀ party ∈ parties, (count party).toNat = (log party).length)
    (hidle : OthersIdle parties index count) (hside : ∀ party, (change party).side = party.side) :
    Single log (parties.modify index change) := by
  have hempty : ∀ {position : Nat} {before other : Party}, parties[index]? = some before →
      parties[position]? = some other → position ≠ index → other.side = before.side →
      log other = [] := by
    intro position before other hbefore hother hne hsame
    have hzero := hidle before hbefore (other, position)
      (List.mk_mem_zipIdx_iff_getElem?.mpr hother) hne hsame
    have hlength := hcount other (List.mem_of_getElem? hother)
    rw [hzero] at hlength
    exact List.eq_nil_of_length_eq_zero hlength.symm
  intro i j first second hfirst hsecond hsame hne hne'
  rcases getElem?_modify_cases hfirst with ⟨hi, hthere⟩ | ⟨hi, before, hbefore, rfl⟩
  · rcases getElem?_modify_cases hsecond with ⟨hj, hthere'⟩ | ⟨hj, before, hbefore, rfl⟩
    · exact h i j first second hthere hthere' hsame hne hne'
    · exact absurd (hempty hbefore hthere hi (hsame.trans (hside before))) hne
  · rcases getElem?_modify_cases hsecond with ⟨hj, hthere'⟩ | ⟨hj, before', hbefore', rfl⟩
    · exact absurd (hempty hbefore hthere' hj (hsame.symm.trans (hside before))) hne'
    · rw [hi, hj]

end

/-! ## Runs -/

section

variable [HexCodec] [Sha256] [X25519] [Aead] {peers : Peers} {parties : List Party} {index : Nat}

/-- What holds in every state of a run in which the sessions take turns as `Exclusive` asks. -/
structure Consistent (peers : Peers) (parties : List Party) : Prop where
  faithful : ∀ party ∈ parties, party.Faithful peers
  provenance : ∀ party ∈ parties, ∀ entry ∈ party.opened,
    ∃ other ∈ parties, other.side = party.side.other ∧ entry ∈ other.sealed
  oneSealer : Single Party.sealed parties
  oneOpener : Single Party.opened parties

theorem consistent_nil : Consistent peers [] where
  faithful _ h := by cases h
  provenance _ h := by cases h
  oneSealer _ _ _ _ h := by simp at h
  oneOpener _ _ _ _ h := by simp at h

namespace Consistent

theorem connect (h : Consistent peers parties) (side : Side) :
    Consistent peers (parties ++ [{ side, session := peers.freshSession side }]) where
  faithful party hmem := by
    rcases List.mem_append.mp hmem with hmem | hmem
    · exact h.faithful party hmem
    · rw [List.mem_singleton.mp hmem]
      exact faithful_fresh side
  provenance party hmem entry hentry := by
    rcases List.mem_append.mp hmem with hmem | hmem
    · obtain ⟨other, hother, hfound⟩ := h.provenance party hmem entry hentry
      exact ⟨other, List.mem_append_left _ hother, hfound⟩
    · rw [List.mem_singleton.mp hmem] at hentry
      cases hentry
  oneSealer := h.oneSealer.append rfl
  oneOpener := h.oneOpener.append rfl

theorem sealNext (h : Consistent peers parties) {nonce : Nonce} {plaintext : List UInt8}
    (hidle : OthersIdle parties index (·.session.sendSequence)) :
    Consistent peers (parties.modify index fun party => party.sealNext nonce plaintext) where
  faithful party hmem := by
    rcases mem_modify_cases hmem with hbefore | ⟨before, hbefore, rfl⟩
    · exact h.faithful party hbefore
    · exact faithful_sealNext (h.faithful before hbefore) nonce plaintext
  provenance party hmem entry hentry := by
    -- what a session has opened is the same, and what others have sealed has only grown
    obtain ⟨before, hbefore, hside, hopened⟩ : ∃ before ∈ parties, party.side = before.side
        ∧ party.opened = before.opened := by
      rcases mem_modify_cases hmem with hbefore | ⟨before, hbefore, rfl⟩
      · exact ⟨party, hbefore, rfl, rfl⟩
      · obtain ⟨hside, hopened, -⟩ := side_sealNext before nonce plaintext
        exact ⟨before, hbefore, hside, hopened⟩
    rw [hopened] at hentry
    obtain ⟨other, hother, hother', hsealed⟩ := h.provenance before hbefore entry hentry
    rw [hside]
    rcases exists_mem_modify hother with hthere | hthere
    · exact ⟨other, hthere, hother', hsealed⟩
    · obtain ⟨hsame, -, hgrown⟩ := side_sealNext other nonce plaintext
      exact ⟨_, hthere, hsame.trans hother', hgrown.subset hsealed⟩
  oneSealer := h.oneSealer.modify_idle (fun party hmem => (h.faithful party hmem).send) hidle
    fun party => (side_sealNext party nonce plaintext).1
  oneOpener := h.oneOpener.modify_same fun party =>
    ⟨(side_sealNext party nonce plaintext).1, (side_sealNext party nonce plaintext).2.1⟩

theorem deliver (h : Consistent peers parties) (hdistinct : peers.Distinct)
    {message : EncryptedMessage} (hsent : message ∈ sent parties)
    (hidle : OthersIdle parties index (·.session.receiveSequence)) :
    Consistent peers (parties.modify index fun party => party.deliver message) where
  faithful party hmem := by
    rcases mem_modify_cases hmem with hbefore | ⟨before, hbefore, rfl⟩
    · exact h.faithful party hbefore
    · rcases deliver_cases (h.faithful before hbefore) message with hsame | ⟨_, _, -, hfaithful, -⟩
      · rw [hsame]
        exact h.faithful before hbefore
      · exact hfaithful
  provenance party hmem entry hentry := by
    have hthere : ∀ other ∈ parties, entry ∈ other.sealed →
        ∃ found ∈ parties.modify index fun party => party.deliver message,
          found.side = other.side ∧ entry ∈ found.sealed := by
      intro other hother hsealed
      rcases exists_mem_modify hother with hfound | hfound
      · exact ⟨other, hfound, rfl, hsealed⟩
      · obtain ⟨hside, hlog⟩ := side_deliver other message
        exact ⟨_, hfound, hside, hlog ▸ hsealed⟩
    have hbefore : ∀ before ∈ parties, party.side = before.side → entry ∈ before.opened →
        ∃ found ∈ parties.modify index fun party => party.deliver message,
          found.side = party.side.other ∧ entry ∈ found.sealed := by
      intro before hmem hside hopened
      obtain ⟨other, hother, hother', hsealed⟩ := h.provenance before hmem entry hopened
      obtain ⟨found, hfound, hsame, hentry⟩ := hthere other hother hsealed
      exact ⟨found, hfound, by rw [hsame, hother', hside], hentry⟩
    rcases mem_modify_cases hmem with hparty | ⟨before, hparty, rfl⟩
    · exact hbefore party hparty rfl hentry
    · rcases deliver_cases (h.faithful before hparty) message with
        hsame | ⟨plaintext, session', hopened, -, hsender, htext⟩
      · rw [hsame] at hentry
        exact hbefore before hparty (by rw [hsame]) hentry
      · rw [hopened] at hentry
        rcases List.mem_append.mp hentry with hentry | hentry
        · exact hbefore before hparty (by rw [hopened]) hentry
        · -- the message was sealed by a session of the other peer, with this plaintext
          obtain ⟨other, hother, hsealed⟩ := List.mem_flatMap.mp hsent
          obtain ⟨⟨found, text⟩, hlisted, rfl⟩ := List.mem_map.mp hsealed
          obtain ⟨position, hposition⟩ := List.mem_iff_getElem?.mp hlisted
          obtain ⟨-, hsender', hseals⟩ := (h.faithful other hother).sealed _ _ _ hposition
          obtain rfl := List.mem_singleton.mp hentry
          rw [htext text hseals] at hthere ⊢
          obtain ⟨found, hfound, hside, hentry⟩ := hthere other hother hlisted
          refine ⟨found, hfound, ?_, hentry⟩
          rw [hside, hopened]
          exact hdistinct (hsender'.symm.trans hsender)
  oneSealer := h.oneSealer.modify_same fun party => side_deliver party message
  oneOpener := h.oneOpener.modify_idle (fun party hmem => (h.faithful party hmem).receive) hidle
    fun party => (side_deliver party message).1

theorem step (h : Consistent peers parties) (hdistinct : peers.Distinct) {call : Call}
    (hexclusive : Exclusive parties call) : Consistent peers (peers.step parties call) := by
  cases call with
  | connect side =>
    simp only [Peers.step]
    split
    · rename_i session hsession
      rw [session_eq_ok hsession]
      exact h.connect side
    · exact h
  | sealNext index nonce plaintext => exact h.sealNext hexclusive
  | deliver index message =>
    simp only [Peers.step]
    split
    · rename_i hsent
      exact h.deliver hdistinct hsent hexclusive
    · exact h

/-- The messages that a session has opened are told by their sequence numbers. -/
theorem nodup_opened (h : Consistent peers parties) {party : Party} (hmem : party ∈ parties) :
    (party.opened.map Prod.fst).Nodup := by
  have hsequence : (party.opened.map Prod.fst).map (fun message => message.sequence.toNat)
      = List.range party.opened.length := by
    refine List.ext_getElem? fun position => ?_
    rw [List.getElem?_map, List.getElem?_map]
    cases hfound : party.opened[position]? with
    | none =>
      rw [List.getElem?_eq_none (by simpa using List.getElem?_eq_none_iff.mp hfound)]
      rfl
    | some entry =>
      obtain ⟨hlt, -⟩ := List.getElem?_eq_some_iff.mp hfound
      rw [List.getElem?_range hlt]
      exact congrArg some ((h.faithful party hmem).opened _ _ _ hfound).1
  exact List.Nodup.of_map _ (hsequence ▸ List.nodup_range)

/-- Sessions that opened the same message are the same session. -/
theorem once (h : Consistent peers parties) (hdistinct : peers.Distinct) :
    ((parties.flatMap Party.opened).map Prod.fst).Nodup := by
  rw [List.map_flatMap, List.nodup_flatMap]
  refine ⟨fun party hmem => h.nodup_opened hmem, List.pairwise_iff_getElem.mpr ?_⟩
  intro i j hi hj hlt message hfirst hsecond
  obtain ⟨⟨found, text⟩, hentry, rfl⟩ := List.mem_map.mp hfirst
  obtain ⟨⟨found', text'⟩, hentry', heq⟩ := List.mem_map.mp hsecond
  obtain ⟨position, hposition⟩ := List.mem_iff_getElem?.mp hentry
  obtain ⟨position', hposition'⟩ := List.mem_iff_getElem?.mp hentry'
  have hsender := ((h.faithful _ (List.getElem_mem hi)).opened _ _ _ hposition).2
  have hsender' := ((h.faithful _ (List.getElem_mem hj)).opened _ _ _ hposition').2
  dsimp only at heq
  rw [heq, hsender] at hsender'
  have hside : parties[i].side = parties[j].side := by
    simpa using congrArg Side.other (hdistinct hsender')
  exact hlt.ne (h.oneOpener i j _ _ (List.getElem?_eq_getElem hi) (List.getElem?_eq_getElem hj) hside
    (List.ne_nil_of_mem hentry) (List.ne_nil_of_mem hentry'))

/-- What a session has opened is the beginning of what one session of the other peer has sealed. -/
theorem inOrder (h : Consistent peers parties) {party : Party} (hmem : party ∈ parties)
    (hne : party.opened ≠ []) : ∃ other ∈ parties, other.side = party.side.other
      ∧ party.opened <+: other.sealed := by
  obtain ⟨first, hfirst⟩ := List.exists_mem_of_ne_nil _ hne
  obtain ⟨other, hother, hside, hsealed⟩ := h.provenance party hmem first hfirst
  refine ⟨other, hother, hside, List.prefix_iff_getElem?.mpr fun position hlt => ?_⟩
  -- the entry was sealed by the same session, at the position that its sequence number says
  have hposition := List.getElem?_eq_getElem hlt
  obtain ⟨found, hfound, hside', hentry⟩ := h.provenance party hmem _ (List.getElem_mem hlt)
  obtain ⟨i, hi⟩ := List.mem_iff_getElem?.mp hother
  obtain ⟨j, hj⟩ := List.mem_iff_getElem?.mp hfound
  obtain rfl := h.oneSealer i j other found hi hj (hside.trans hside'.symm)
    (List.ne_nil_of_mem hsealed) (List.ne_nil_of_mem hentry)
  obtain rfl : other = found := Option.some.inj (hi.symm.trans hj)
  obtain ⟨place, hplace⟩ := List.mem_iff_getElem?.mp hentry
  have hsequence := ((h.faithful party hmem).opened _ _ _ hposition).1
  have hsequence' := ((h.faithful other hother).sealed _ _ _ hplace).1
  obtain rfl : place = position := hsequence'.symm.trans hsequence
  exact hplace

theorem delivered (h : Consistent peers parties) (hdistinct : peers.Distinct) : Delivered parties where
  once := h.once hdistinct
  inOrder party hmem := by
    by_cases hempty : party.opened = []
    · exact .inl hempty
    · obtain ⟨other, hother, hside, hbeginning⟩ := h.inOrder hmem hempty
      exact .inr ⟨other, hother, hside, hbeginning.map _⟩

end Consistent

/-- Every call of a run meets the condition in the state before it. -/
def Allowed (peers : Peers) (parties : List Party) : List Call → Prop
  | [] => True
  | call :: rest => Exclusive parties call ∧ Allowed peers (peers.step parties call) rest

theorem consistent_of_allowed (hdistinct : peers.Distinct) {calls : List Call}
    (h : Consistent peers parties) (hallowed : Allowed peers parties calls) :
    Consistent peers (calls.foldl peers.step parties) := by
  induction calls generalizing parties with
  | nil => exact h
  | cons call rest ih => exact ih (h.step hdistinct hallowed.1) hallowed.2

instance (parties : List Party) (index : Nat) (count : Party → UInt64) :
    Decidable (OthersIdle parties index count) :=
  inferInstanceAs (Decidable (∀ party ∈ parties[index]?, ∀ entry ∈ parties.zipIdx, _))

instance (parties : List Party) (call : Call) : Decidable (Exclusive parties call) :=
  match call with
  | .connect _ => isTrue trivial
  | .sealNext index _ _ =>
    inferInstanceAs (Decidable (OthersIdle parties index (·.session.sendSequence)))
  | .deliver index _ =>
    inferInstanceAs (Decidable (OthersIdle parties index (·.session.receiveSequence)))

instance decidableAllowed (peers : Peers) :
    ∀ (parties : List Party) (calls : List Call), Decidable (Allowed peers parties calls)
  | _, [] => isTrue trivial
  | parties, call :: rest =>
    have := decidableAllowed peers (peers.step parties call) rest
    inferInstanceAs (Decidable (_ ∧ _))

/-- In every run in which of each peer only one session seals and only one opens, messages are
delivered at most once and in order, after every call. -/
theorem delivered_of_allowed (peers : Peers) (hdistinct : peers.Distinct) (calls : List Call)
    (hallowed : Allowed peers [] calls) : Delivered (peers.run calls) :=
  (consistent_of_allowed hdistinct consistent_nil hallowed).delivered hdistinct

end

/-! ## Two sessions of one peer -/

/-- A key agreement that adds bytes. -/
@[reducible] def sumAgreement : X25519 where
  x25519 secret point := List.zipWith (· + ·) (head32 secret) (head32 point)
  basepoint := List.replicate 32 9
  length_x25519 _ _ := by simp
  agree secret other := by
    have hhead : ∀ bytes : List UInt8, bytes.length = 32 → head32 bytes = bytes := by
      intro bytes h
      simp [head32, h]
    rw [hhead (List.zipWith _ (head32 other) _) (by simp),
      hhead (List.zipWith _ (head32 secret) _) (by simp)]
    refine List.ext_getElem (by simp) fun position _ _ => ?_
    simp only [List.getElem_zipWith]
    ac_rfl

/-- A cipher that only adds a check sum over everything. -/
@[reducible] def sumCipher : Aead where
  encrypt key nonce message associated := some ((key ++ nonce ++ associated ++ message).sum :: message)
  decrypt key nonce ciphertext associated :=
    match ciphertext with
    | [] => none
    | tag :: message =>
      if tag = (key ++ nonce ++ associated ++ message).sum then some message else none
  decrypt_eq_some key nonce ciphertext associated message := by
    cases ciphertext with
    | nil => simp
    | cons tag rest =>
      simp only [Option.some.injEq, List.cons.injEq, Option.ite_none_right_eq_some]
      constructor
      · rintro ⟨rfl, rfl⟩
        exact ⟨rfl, rfl⟩
      · rintro ⟨rfl, rfl⟩
        exact ⟨rfl, rfl⟩

def demoPeers : Peers where
  alice := ⟨[1]⟩
  bob := ⟨[2]⟩

/-- Both peers open a session, and the one of the first peer seals a message. -/
def demoCalls : List Call :=
  [.connect .alice, .connect .bob, .sealNext 0 ⟨List.replicate 24 0, by decide⟩ [7]]

attribute [local instance] nibbleCodec Sha2.sha256 sumAgreement sumCipher

theorem distinct_demoPeers : demoPeers.Distinct := by
  intro first second h
  have hne : demoPeers.peerId .alice ≠ demoPeers.peerId .bob := by decide +kernel
  cases first <;> cases second
  · rfl
  · exact absurd h hne
  · exact absurd h.symm hne
  · rfl

/-- The message is delivered once. -/
theorem delivered_of_allowed_once :
    ∃ message, sent (demoPeers.run demoCalls) = [message]
      ∧ (demoPeers.run (demoCalls ++ [.deliver 1 message])).flatMap Party.opened = [(message, [7])]
      ∧ Delivered (demoPeers.run (demoCalls ++ [.deliver 1 message])) := by
  have hrun : (sent (demoPeers.run demoCalls)).map (fun message =>
      (decide (Allowed demoPeers [] (demoCalls ++ [.deliver 1 message])),
        decide ((demoPeers.run (demoCalls ++ [.deliver 1 message])).flatMap Party.opened
          = [(message, [7])]))) = [(true, true)] := by
    decide +kernel
  obtain ⟨message, hsent, hvalue⟩ := List.map_eq_singleton_iff.mp hrun
  simp only [Prod.mk.injEq, decide_eq_true_eq] at hvalue
  exact ⟨message, hsent, hvalue.2, delivered_of_allowed demoPeers distinct_demoPeers _ hvalue.1⟩

/-- The second peer opens another session, and the message is delivered again: both sessions have
opened it. -/
theorem message_opened_twice :
    ∃ message, sent (demoPeers.run demoCalls) = [message]
      ∧ (demoPeers.run (demoCalls ++ [.deliver 1 message, .connect .bob, .deliver 2 message])).map
        Party.opened = [[], [(message, [7])], [(message, [7])]]
      ∧ ¬ Delivered
        (demoPeers.run (demoCalls ++ [.deliver 1 message, .connect .bob, .deliver 2 message])) := by
  have hrun : (sent (demoPeers.run demoCalls)).map (fun message => decide
      ((demoPeers.run (demoCalls ++ [.deliver 1 message, .connect .bob, .deliver 2 message])).map
        Party.opened = [[], [(message, [7])], [(message, [7])]])) = [true] := by
    decide +kernel
  obtain ⟨message, hsent, hvalue⟩ := List.map_eq_singleton_iff.mp hrun
  have hopened := of_decide_eq_true hvalue
  refine ⟨message, hsent, hopened, fun hdelivered => ?_⟩
  have honce := hdelivered.once
  rw [List.flatMap_def, hopened] at honce
  simp at honce

end CartridgeRuntime.Network
