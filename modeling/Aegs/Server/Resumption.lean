import Aegs.Handshake.Server

/-!
# Resumption tokens

`ResumptionManager`: `issue` seals a session id, an address and an expiry under a
key derived from the user's master key and the secret of this boot, `verify` opens
the token once and before it expires.

A token speaks for the state of the server at the time it was issued. Neither
function looks at the session, the route table or the address pool, so what a token
says about an address may be out of date by the time it is presented.
-/

namespace Aegs

namespace Server

open Bytes Handshake

/-- ChaCha20-Poly1305 on the 32 bytes of a token's payload. -/
structure TokenCipher where
  /-- Encryption under a key, a nonce and associated data, to ciphertext and tag. -/
  encrypt : Vector UInt8 32 → Vector UInt8 12 → List UInt8 → Vector UInt8 32 →
    Vector UInt8 32 × Vector UInt8 16
  /-- Decryption, if the tag is right. -/
  decrypt : Vector UInt8 32 → Vector UInt8 12 → List UInt8 → Vector UInt8 32 →
    Vector UInt8 16 → Option (Vector UInt8 32)

/-- `ResumptionToken`. -/
structure ResumptionToken where
  /-- `nonce`. -/
  nonce : Vector UInt8 32
  /-- `ciphertext`. -/
  ciphertext : Vector UInt8 32
  /-- `tag`. -/
  tag : Vector UInt8 16
  /-- `key_id`. -/
  keyId : Vector UInt8 8
  /-- `reserved`. -/
  reserved : Vector UInt8 8
deriving DecidableEq

/-- The 96 bytes of a token. -/
def ResumptionToken.bytes (tok : ResumptionToken) : List UInt8 :=
  tok.nonce.toList ++ tok.ciphertext.toList ++ tok.tag.toList ++ tok.keyId.toList ++
    tok.reserved.toList

/-- The token that starts at an offset of a datagram. -/
def ResumptionToken.read (data : List UInt8) (off : ℕ) : ResumptionToken where
  nonce := copyOut data off 32
  ciphertext := copyOut data (off + 32) 32
  tag := copyOut data (off + 64) 16
  keyId := copyOut data (off + 80) 8
  reserved := copyOut data (off + 88) 8

/-- The associated data of a token. -/
def ResumptionToken.aad (tok : ResumptionToken) : List UInt8 :=
  tok.nonce.toList ++ tok.keyId.toList ++ tok.reserved.toList

/-- The first 12 bytes of the nonce, which is what the cipher reads of it. -/
def ResumptionToken.iv (tok : ResumptionToken) : Vector UInt8 12 := copyOut tok.nonce.toList 0 12

/-- `ResumptionManager`. -/
structure ResumptionManager where
  /-- `boot_secret_`. -/
  bootSecret : Vector UInt8 32
  /-- `used_nonces_`, with the expiry of the token each belongs to. -/
  usedNonces : AList fun _ : Vector UInt8 32 => UInt64
  /-- `last_prune_ms_`. -/
  lastPruneMs : UInt64

/-- A manager that has verified no token. -/
def ResumptionManager.start (bootSecret : Vector UInt8 32) : ResumptionManager :=
  ⟨bootSecret, ∅, 0⟩

/-- The library calls of one `issue`. -/
structure IssueCalls where
  /-- The HKDF calls go through. -/
  derive : Bool
  /-- `RAND_bytes` for the nonce. -/
  rand : Option (Vector UInt8 32)
  /-- The cipher calls go through. -/
  cipher : Bool

/-- The library calls of one `verify`. -/
structure VerifyCalls where
  /-- The HKDF calls go through. -/
  derive : Bool
  /-- The cipher calls that do not look at the tag go through. -/
  cipher : Bool

/-- The 32 bytes that `issue` encrypts. -/
def tokenPlain (sessionId : UInt64) (assignedIp : UInt32) (expiry : UInt64) : Vector UInt8 32 :=
  let plain := copyIn (Vector.replicate 32 0) 0 (le64 sessionId)
  let plain := copyIn plain 8 (le32 assignedIp)
  copyIn plain 12 (le64 expiry)

/-- The hexadecimal digits of some bytes. -/
def hexEncode (data : List UInt8) : String :=
  String.ofList (data.flatMap fun b => [Nat.digitChar (b.toNat / 16), Nat.digitChar (b.toNat % 16)])

section

variable {S : Type} (L : Library S) (T : TokenCipher)

/-- `derive_resumption_key`. -/
def ResumptionManager.resumptionKey (m : ResumptionManager) (masterKey : Vector UInt8 32) :
    Vector UInt8 32 :=
  L.hkdf masterKey.toList ("aegis-v2-salt".toList.map (·.toUInt8) ++ m.bootSecret.toList)
    "aegs-v4-resumption-key"

/-- `issue` at the time `now`. -/
def ResumptionManager.issue (m : ResumptionManager) (sessionId : UInt64) (assignedIp : UInt32)
    (masterKey : Vector UInt8 32) (keyId : Vector UInt8 8) (now : UInt64) (calls : IssueCalls) :
    Option ResumptionToken :=
  if ¬calls.derive then none
  else
    match calls.rand with
    | none => none
    | some nonce =>
      let tok : ResumptionToken :=
        ⟨nonce, Vector.replicate 32 0, Vector.replicate 16 0, keyId, Vector.replicate 8 0⟩
      let plain := tokenPlain sessionId assignedIp (now + 180000)
      if ¬calls.cipher then none
      else
        let sealed := T.encrypt (m.resumptionKey L masterKey) tok.iv tok.aad plain
        some { tok with ciphertext := sealed.1, tag := sealed.2 }

/-- `prune_expired_locked`, every ten seconds and whenever there are many nonces. -/
def ResumptionManager.pruneExpired (m : ResumptionManager) (now : UInt64) : ResumptionManager :=
  if now - m.lastPruneMs < 10000 ∧ m.usedNonces.entries.length < 10000 then m
  else { m with
    lastPruneMs := now
    usedNonces := m.usedNonces.entries.foldl
      (fun used entry => if now > entry.2 then used.erase entry.1 else used) m.usedNonces }

/-- `verify` at the time `now`, with `session_id_out` and `ip_out` if it returns
true. -/
def ResumptionManager.verify (m : ResumptionManager) (tok : ResumptionToken)
    (masterKey : Vector UInt8 32) (now : UInt64) (calls : VerifyCalls) :
    ResumptionManager × Option (UInt64 × UInt32) :=
  let m := m.pruneExpired now
  if (m.usedNonces.lookup tok.nonce).isSome then (m, none)
  else if ¬calls.derive ∨ ¬calls.cipher then (m, none)
  else
    match T.decrypt (m.resumptionKey L masterKey) tok.iv tok.aad tok.ciphertext tok.tag with
    | none => (m, none)
    | some plain =>
      let expiry := ofLe64 (copyOut plain.toList 12 8)
      if now > expiry then (m, none)
      else
        ({ m with usedNonces := m.usedNonces.insert tok.nonce expiry },
          some (ofLe64 (copyOut plain.toList 0 8), ofLe32 (copyOut plain.toList 8 4)))

/-- `derive_pfs_keys`, the client-to-server key and the server-to-client key. -/
def derivePfsKeys (sharedSecret : List UInt8) (masterKey nonce : Vector UInt8 32) :
    Vector UInt8 32 × Vector UInt8 32 :=
  let hex := hexEncode nonce.toList
  (L.hkdf sharedSecret masterKey.toList ("aegs-pfs-resume-" ++ hex ++ "-c2s"),
    L.hkdf sharedSecret masterKey.toList ("aegs-pfs-resume-" ++ hex ++ "-s2c"))

end

end Server

end Aegs
