import CartridgeRuntime.Network.SharedDocument
import Mathlib.Order.Lex

/-!
# Sessions between peers

A peer has a long-term key pair. A session derives its key from the pair of identities and counts the
messages it sends and receives; a message is sealed with its sender, recipient and sequence number as
associated data. The random nonce of a message is an argument. The key agreement and the cipher are
known only by what their documentation promises.
-/

namespace CartridgeRuntime.Network

open Checked Encoding

/-- The key agreement: a secret is applied to a point. -/
class X25519 where
  x25519 : List UInt8 → List UInt8 → List UInt8
  basepoint : List UInt8
  length_x25519 (secret point : List UInt8) : (x25519 secret point).length = 32
  /-- Two parties agree on a point. -/
  agree (secret other : List UInt8) :
    x25519 secret (x25519 other basepoint) = x25519 other (x25519 secret basepoint)

/-- The cipher with associated data. -/
class Aead where
  encrypt (key nonce message associated : List UInt8) : Option (List UInt8)
  decrypt (key nonce ciphertext associated : List UInt8) : Option (List UInt8)
  /-- What is decrypted was encrypted with the same key, nonce and associated data. -/
  decrypt_eq_some (key nonce ciphertext associated message : List UInt8) :
    decrypt key nonce ciphertext associated = some message
      ↔ encrypt key nonce message associated = some ciphertext

/-- A peer as others know it. -/
structure PeerPublic where
  peerId : String
  publicKey : String
deriving DecidableEq

/-- A key pair; the public key is that of the secret. -/
structure PeerIdentity where
  secret : List UInt8
deriving DecidableEq

/-- One end of a conversation, with its two counters. -/
structure PeerSession where
  localPeerId : String
  remotePeerId : String
  key : List UInt8
  sendSequence : UInt64 := 0
  receiveSequence : UInt64 := 0
deriving DecidableEq

/-- A message on its way. -/
structure EncryptedMessage where
  sender : String
  recipient : String
  sequence : UInt64
  nonce : String
  ciphertext : String
deriving DecidableEq

/-- The random part of a message. -/
abbrev Nonce := { bytes : List UInt8 // bytes.length = 24 }

/-! ## Identities -/

/-- Two public keys, the lower one first. -/
def sortedKeys (first second : List UInt8) : List UInt8 :=
  if first.map UInt8.toNat ≤ second.map UInt8.toNat then first ++ second else second ++ first

/-- What a session key is the digest of. -/
def keyMaterial (shared first second : List UInt8) : List UInt8 :=
  utf8 "cartridge-peer-session-v1".toList ++ shared ++ sortedKeys first second

/-- What a ciphertext is bound to. -/
def messageAad (sender recipient : String) (sequence : UInt64) : List UInt8 :=
  utf8 sender.toList ++ 0 :: utf8 recipient.toList ++ toLeBytes sequence.toNat

section

variable [HexCodec]

def decodeArray (length : Nat) (value label : String) : Except String (List UInt8) := do
  let bytes ← mapError (fun _ => label ++ " is not hexadecimal") (HexCodec.decode value)
  rejectIf (bytes.length ≠ length) (label ++ " has the wrong length")
  return bytes

variable [Sha256]

/-- The id of a peer is the digest of its key. -/
def peerId («public» : List UInt8) : String :=
  sha256Hex «public»

/-- The id is that of the key. -/
def PeerPublic.validate (peer : PeerPublic) : Except String Unit := do
  let «public» ← decodeArray 32 peer.publicKey "peer public key"
  rejectIf (Network.peerId «public» ≠ peer.peerId) "peer id does not match its public key"

variable [X25519]

namespace PeerIdentity

omit [HexCodec] [Sha256] in
def publicKey (identity : PeerIdentity) : List UInt8 :=
  X25519.x25519 identity.secret X25519.basepoint

def «public» (identity : PeerIdentity) : PeerPublic where
  peerId := peerId identity.publicKey
  publicKey := HexCodec.encode identity.publicKey

/-- Agree on a key with a peer. -/
def session (identity : PeerIdentity) (remote : PeerPublic) : Except String PeerSession := do
  remote.validate
  let remotePublic ← decodeArray 32 remote.publicKey "peer public key"
  let shared := X25519.x25519 identity.secret remotePublic
  rejectIf (shared = List.replicate 32 0) "peer key agreement produced an invalid shared secret"
  return {
    localPeerId := peerId identity.publicKey
    remotePeerId := remote.peerId
    key := Sha256.digest (keyMaterial shared identity.publicKey remotePublic) }

end PeerIdentity

end

/-! ## Messages -/

section

variable [HexCodec] [Aead]

namespace PeerSession

/-- Seal a message with a random nonce. -/
def «seal» (session : PeerSession) (nonce : Nonce) (plaintext : List UInt8) :
    Except String (EncryptedMessage × PeerSession) := do
  rejectIf (plaintext.length > maxMessageBytes) "peer message exceeds its byte limit"
  let aad := messageAad session.localPeerId session.remotePeerId session.sendSequence
  let ciphertext ← okOr (Aead.encrypt session.key nonce.val plaintext aad)
    "peer message encryption failed"
  let message : EncryptedMessage :=
    { sender := session.localPeerId
      recipient := session.remotePeerId
      sequence := session.sendSequence
      nonce := HexCodec.encode nonce.val
      ciphertext := HexCodec.encode ciphertext }
  rejectIf (session.sendSequence.toNat = wordMax) "peer send sequence overflow"
  return (message, { session with sendSequence := session.sendSequence + 1 })

/-- Decrypt the message that is next. -/
def «open» (session : PeerSession) (message : EncryptedMessage) :
    Except String (List UInt8 × PeerSession) := do
  rejectIf (message.sender ≠ session.remotePeerId ∨ message.recipient ≠ session.localPeerId
      ∨ message.sequence ≠ session.receiveSequence) "peer message identity or sequence is invalid"
  let nonce ← decodeArray 24 message.nonce "peer nonce"
  let ciphertext ← mapError (fun _ => "peer ciphertext is not hexadecimal")
    (HexCodec.decode message.ciphertext)
  rejectIf (ciphertext.length > maxMessageBytes + 32) "peer ciphertext exceeds its byte limit"
  let aad := messageAad message.sender message.recipient message.sequence
  let plaintext ← okOr (Aead.decrypt session.key nonce ciphertext aad)
    "peer message authentication failed"
  rejectIf (session.receiveSequence.toNat = wordMax) "peer receive sequence overflow"
  return (plaintext, { session with receiveSequence := session.receiveSequence + 1 })

end PeerSession

end

end CartridgeRuntime.Network
