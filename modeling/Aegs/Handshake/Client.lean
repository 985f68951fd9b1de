import Aegs.Lib.Bytes

/-!
# The handshake client

`HandshakeClient::build_init` and `HandshakeClient::process_resp`, byte by byte.

The cryptographic library is a parameter (`Aegs.Handshake.Library`): its
algorithms are functions, and which of its calls fail in one invocation, for lack
of memory say, is an argument of that invocation (`Aegs.Handshake.Calls`).
`process_resp` writes to the caller's `SessionKeys` as it goes, so it returns the
record next to its answer, also where the answer is no.
-/

namespace Aegs

namespace Handshake

open Bytes

/-- The algorithms of the cryptographic library, over X25519 private keys `S`. -/
structure Library (S : Type) where
  /-- `EVP_PKEY_get_raw_public_key`. -/
  pub : S → Vector UInt8 32
  /-- `EVP_PKEY_derive` of X25519, empty where it rejects the peer's point. -/
  derive : S → Vector UInt8 32 → List UInt8
  /-- `HMAC` with `EVP_sha256`, of a key and some data. -/
  hmac : List UInt8 → List UInt8 → Vector UInt8 32
  /-- HKDF with SHA-256, of a secret, a salt and an info string, 32 bytes of output. -/
  hkdf : List UInt8 → List UInt8 → String → Vector UInt8 32
  /-- ChaCha20-Poly1305 of a key, a nonce, the associated data and 16 bytes of
  plaintext, to the ciphertext and the tag. -/
  encrypt : Vector UInt8 32 → Vector UInt8 12 → List UInt8 → Vector UInt8 16 →
    Vector UInt8 16 × Vector UInt8 16
  /-- ChaCha20-Poly1305 of a key, a nonce, the associated data, 16 bytes of
  ciphertext and the tag, if the tag is right. -/
  decrypt : Vector UInt8 32 → Vector UInt8 12 → List UInt8 → Vector UInt8 16 →
    Vector UInt8 16 → Option (Vector UInt8 16)

/-- The library calls of one invocation that go through. -/
structure Calls where
  /-- `EVP_PKEY_get_raw_public_key`. -/
  getPublic : Bool
  /-- `EVP_PKEY_new_raw_public_key`. -/
  newPublic : Bool
  /-- `EVP_PKEY_CTX_new` and `EVP_PKEY_derive` in `ecdh_derive`. -/
  derive : Bool
  /-- `EVP_CIPHER_CTX_new` and the cipher calls that do not look at the tag. -/
  cipher : Bool
deriving DecidableEq

/-- Every call goes through. -/
def Calls.ok : Calls := ⟨true, true, true, true⟩

/-- `SessionKeys`. -/
structure SessionKeys where
  /-- `send_key`. -/
  sendKey : Vector UInt8 32
  /-- `recv_key`. -/
  recvKey : Vector UInt8 32
  /-- `session_id`. -/
  sessionId : UInt64
  /-- `assigned_ip`. -/
  assignedIp : UInt32
  /-- `mtu`. -/
  mtu : UInt16
deriving DecidableEq

/-- `HandshakeClient`. -/
structure HandshakeClient (S : Type) where
  /-- `m_key_id`. -/
  keyId : Vector UInt8 8
  /-- `m_master_key`. -/
  masterKey : Vector UInt8 32
  /-- `m_ephemeral_pkey`, null when the key generation failed. -/
  ephemeralPkey : Option S

section

variable {S : Type} (L : Library S)

/-- `compute_mac`: HMAC-SHA256, truncated to 16 bytes. -/
def computeMac (data key : List UInt8) : Vector UInt8 16 :=
  copyOut (L.hmac key data).toList 0 16

/-- `ecdh_derive` with its library calls going through or not, empty on failure. -/
def ecdhDerive (goes : Bool) (priv : Option S) (peer : Vector UInt8 32) : List UInt8 :=
  match priv with
  | none => []
  | some s => if goes then L.derive s peer else []

/-- A secret is only derived with a key, and is the library's. -/
theorem ecdhDerive_eq {goes : Bool} {priv : Option S} {peer : Vector UInt8 32}
    (h : ¬(ecdhDerive L goes priv peer).isEmpty) :
    ∃ s, priv = some s ∧ ecdhDerive L goes priv peer = L.derive s peer := by
  cases priv with
  | none => exact absurd rfl h
  | some s =>
    cases goes with
    | false => exact absurd rfl h
    | true => exact ⟨s, rfl, rfl⟩

/-- The 72 bytes of `build_init`, ahead of the MAC. -/
def initBody (keyId : Vector UInt8 8) (pub : Vector UInt8 32) (now : UInt64) : Vector UInt8 72 :=
  let packet := copyIn (Vector.replicate 72 0) 0 #v[0x01]
  let packet := copyIn packet 8 keyId
  let packet := copyIn packet 16 pub
  copyIn packet 48 (be64 now)

/-- `HandshakeClient::build_init` at the time `now`, empty on failure. -/
def HandshakeClient.buildInit (c : HandshakeClient S) (calls : Calls) (now : UInt64) :
    List UInt8 :=
  match c.ephemeralPkey with
  | none => []
  | some s =>
    if calls.getPublic then
      let packet := initBody c.keyId (L.pub s) now
      (copyIn packet 56 (computeMac L (packet.toList.take 56) c.masterKey.toList)).toList
    else []

/-- The nonce of the handshake response. -/
def zeroNonce : Vector UInt8 12 := Vector.replicate 12 0

/-- `HandshakeClient::process_resp` into the caller's record `out`. -/
def HandshakeClient.processResp (c : HandshakeClient S) (calls : Calls) (resp : List UInt8)
    (out : SessionKeys) : Bool × SessionKeys :=
  if resp.length < 80 ∨ resp.getD 0 0 ≠ 0x02 then (false, out)
  else
    let out := { out with sessionId := ofLe64 (copyOut resp 8 8) }
    if ¬calls.newPublic then (false, out)
    else
      let secret := ecdhDerive L calls.derive c.ephemeralPkey (copyOut resp 16 32)
      if secret.isEmpty then (false, out)
      else
        let out := { out with
          sendKey := L.hkdf secret c.masterKey.toList "aegs-c2s"
          recvKey := L.hkdf secret c.masterKey.toList "aegs-s2c" }
        let configKey := L.hkdf secret c.masterKey.toList "aegs-cfg"
        if ¬calls.cipher then (false, out)
        else
          match L.decrypt configKey zeroNonce (resp.take 48) (copyOut resp 48 16)
              (copyOut resp 64 16) with
          | none => (false, out)
          | some dec =>
            (true, { out with
              assignedIp := ofLe32 #v[dec[0], dec[1], dec[2], dec[3]]
              mtu := ofLe16 #v[dec[4], dec[5]] })

end

end Handshake

end Aegs
