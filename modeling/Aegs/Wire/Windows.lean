import Aegs.Handshake.Agreement
import Aegs.Server.DataPlane

/-!
# The Windows client

`AegsProtocol.cs`, which writes and reads the three formats of the protocol once more, next
to what the server makes of them.

| | `AegsProtocol.cs` | `handshake.cpp`, `server.cpp` |
|---|---|---|
| request: key id, public key, timestamp | at 4, 12, 44 | at 8, 16, 48 |
| request: bytes under the MAC | 52 | 56 |
| labels | `aegs v6 c2s`, `aegs v6 s2c`, `aegs v6 config` | `aegs-c2s`, `aegs-s2c`, `aegs-cfg` |
| response: nonce | the key id, `AA 55`, zeros | zeros |
| response: associated data | none | the first 48 bytes |
| response: MTU | most significant byte first | least significant byte first |
| packet: magic | `AE E6 00 00` | `AG2` and 1 |
| packet: sequence number | most significant byte first | least significant byte first |
| packet: associated data | the masked header | all in front of the nonce |
| packet: plaintext | the payload | a length, the payload and padding |

None of the three is understood (`Aegs.Windows.never_interoperates`). For the packets nothing
is needed of the cipher but that the tag takes 16 bytes: the server takes two more bytes off
for the length. The other two need that a MAC and a nonce are bound to what they were made
for (`Aegs.Windows.Binds`).
-/

namespace Aegs

namespace Windows

open Bytes Handshake Wire Server

/-! ### The protocol of the client -/

/-- `HandshakeResult`. -/
structure HandshakeResult where
  /-- `SessionId`. -/
  sessionId : UInt64
  /-- The four numbers of `AssignedIp`. -/
  assignedIp : Vector UInt8 4
  /-- `Mtu`. -/
  mtu : ℕ
  /-- `KeyId`. -/
  keyId : Vector UInt8 8
  /-- `MaskKey`. -/
  maskKey : Vector UInt8 32
  /-- `AltMaskKey`. -/
  altMaskKey : Vector UInt8 32
  /-- `SendKey`. -/
  sendKey : Vector UInt8 32
  /-- `RecvKey`. -/
  recvKey : Vector UInt8 32
deriving DecidableEq

section

variable {S : Type} (L : Library S)

/-- The 72 bytes of `BuildHandshakeInit`, ahead of the MAC. -/
def initBody (keyId : Vector UInt8 8) (clientPubKey : Vector UInt8 32) (ts : UInt64) :
    Vector UInt8 72 :=
  let pkt := copyIn (Vector.replicate 72 0) 0 (Vector.singleton 0x01)
  let pkt := copyIn pkt 4 keyId
  let pkt := copyIn pkt 12 clientPubKey
  copyIn pkt 44 (be64 ts)

/-- `BuildHandshakeInit` at the time `ts`. -/
def buildHandshakeInit (keyId : Vector UInt8 8) (masterKey : List UInt8)
    (clientPubKey : Vector UInt8 32) (ts : UInt64) : List UInt8 :=
  let pkt := initBody keyId clientPubKey ts
  (copyIn pkt 56 (computeMac L (pkt.toList.take 52) masterKey)).toList

/-- `ComputeSharedSecret`, which does not turn down any point: where X25519 does, the product
is zero. -/
def computeSharedSecret (privateKey : S) (peerPublicKey : Vector UInt8 32) : List UInt8 :=
  let secret := L.derive privateKey peerPublicKey
  if secret.isEmpty then List.replicate 32 0 else secret

/-- The nonce of the response. -/
def respNonce (keyId : Vector UInt8 8) : Vector UInt8 12 :=
  copyIn (copyIn (Vector.replicate 12 0) 0 keyId) 8 #v[0xAA, 0x55]

/-- `mtu`, of the decrypted configuration. -/
def readMtu (plainConfig : Vector UInt8 16) : ℕ :=
  let mtu := (ofBe16 #v[getElem plainConfig 4 four_lt_16,
    getElem plainConfig 5 five_lt_16]).toNat
  if mtu < 576 ∨ mtu > 9000 then 1280 else mtu

/-- `ProcessHandshakeResp`, which throws where this is `none`. -/
def processHandshakeResp (respBytes : List UInt8) (keyId : Vector UInt8 8)
    (masterKey : List UInt8) (clientPrivKey : S) : Option HandshakeResult :=
  if respBytes.length < 80 ∨ respBytes.getD 0 0 ≠ 0x02 then none
  else
    let sharedSecret := computeSharedSecret L clientPrivKey (copyOut respBytes 16 32)
    let configKey := L.hkdf sharedSecret masterKey "aegs v6 config"
    (L.decrypt configKey (respNonce keyId) [] (copyOut respBytes 48 16)
      (copyOut respBytes 64 16)).map fun plainConfig =>
        { sessionId := ofBe64 (copyOut respBytes 8 8)
          assignedIp := copyOut plainConfig.toList 0 4
          mtu := readMtu plainConfig
          keyId := keyId
          maskKey := L.hkdf sharedSecret masterKey "aegs v6 mask"
          altMaskKey := L.hkdf sharedSecret masterKey "aegs v6 altmask"
          sendKey := L.hkdf sharedSecret masterKey "aegs v6 c2s"
          recvKey := L.hkdf sharedSecret masterKey "aegs v6 s2c" }

end

section

variable (C : DataCipher)

/-- `rawHeader`. -/
def rawHeader (keyId : Vector UInt8 8) (isChaff : Bool) : Vector UInt8 16 :=
  keyId ++ (#v[0, 0, if isChaff then 0x80 else 0x00, 0x00, 0xAE, 0xE6, 0, 0] : Vector UInt8 8)

/-- The nonce of a packet. -/
def dataNonce (seq : UInt64) : Vector UInt8 12 :=
  be64 seq ++ (Vector.replicate 4 0 : Vector UInt8 4)

/-- `BuildDataPacket`, with the IV that it draws. -/
def buildDataPacket (payload : List UInt8) (keyId : Vector UInt8 8)
    (maskKey sendKey : Vector UInt8 32) (seq : UInt64) (isChaff : Bool) (iv : Vector UInt8 12) :
    List UInt8 :=
  let maskedHeader := maskUnmaskHeader C (rawHeader keyId isChaff) maskKey iv
  iv.toList ++ maskedHeader.toList ++ (dataNonce seq).toList ++
    C.encrypt sendKey (dataNonce seq) maskedHeader.toList payload

end

/-! ### What is asked of the cryptography -/

/-- What binds a tag to what it was made for. A MAC of 16 bytes cannot tell all messages
apart; here it tells their lengths apart, within one block. -/
structure Binds {S : Type} (L : Library S) : Prop where
  /-- A MAC is of one length. -/
  length_of_mac : ∀ data data' key key', data.length < 64 → data'.length < 64 →
    computeMac L data key = computeMac L data' key' → data.length = data'.length
  /-- A tag is of one nonce. -/
  nonce_of_tag : ∀ key nonce aad plain key' nonce' aad',
    L.decrypt key' nonce' aad' (L.encrypt key nonce aad plain).1
      (L.encrypt key nonce aad plain).2 ≠ none → nonce' = nonce

/-- A ciphertext is 16 bytes longer than its plaintext. -/
structure TagsTake16 (C : DataCipher) : Prop where
  /-- When it is made. -/
  length_encrypt : ∀ key nonce aad plain,
    (C.encrypt key nonce aad plain).length = plain.length + 16
  /-- And when it is opened. -/
  length_decrypt : ∀ key nonce aad sealed plain,
    C.decrypt key nonce aad sealed = some plain → sealed.length = plain.length + 16

/-! ### The request -/

section

variable {S : Type} {L : Library S}

/-- The MAC that the server looks for is over four bytes more than the one that is there. -/
theorem processInit_buildHandshakeInit (hL : Binds L) (s : HandshakeServer)
    (keyId : Vector UInt8 8) (masterKey : List UInt8) (clientPubKey : Vector UInt8 32)
    (ts now : UInt64) (addr : Option ℕ) :
    s.processInit L (buildHandshakeInit L keyId masterKey clientPubKey ts) now addr =
      (s, none) := by
  rw [processInit_eq, if_neg]
  intro hauth
  obtain ⟨-, -, -, key, -, hmac⟩ := (authenticInit_iff L).mp hauth
  rw [buildHandshakeInit, copyOut_copyIn_self _ _ (by omega)] at hmac
  have hlengths := hL.length_of_mac _ _ _ _ (by simp) (by simp) hmac
  simp at hlengths

end

/-! ### The response -/

section

variable {S : Type} {L : Library S}

theorem respNonce_ne (keyId : Vector UInt8 8) : respNonce keyId ≠ zeroNonce := by
  intro h
  have hbyte : (respNonce keyId)[8] = 0 := by
    rw [h]
    rfl
  rw [respNonce, getElem_copyIn_of_mem _ _ (by omega) (by omega)] at hbyte
  exact absurd hbyte (by decide)

/-- The nonce that the client decrypts under is never the server's. -/
theorem processHandshakeResp_buildResp (hL : Binds L) (s : HandshakeServer) (keyIdRaw : UInt64)
    (assignedIp : UInt32) (mtu : UInt16) (calls : RespCalls S) (out : SessionKeys)
    (keyId : Vector UInt8 8) (masterKey : List UInt8) (clientPrivKey : S) :
    processHandshakeResp L (s.buildResp L keyIdRaw assignedIp mtu calls out).2.1 keyId masterKey
      clientPrivKey = none := by
  rcases hbuild : s.buildResp L keyIdRaw assignedIp mtu calls out with ⟨s', resp, out'⟩
  rw [processHandshakeResp]
  split
  · rfl
  rename_i hlong
  have hne : resp ≠ [] := by
    rintro rfl
    exact hlong (Or.inl (show 0 < 80 by decide))
  obtain ⟨state, key, server, sessionId, -, -, -, -, hresp, -⟩ := buildResp_eq L hbuild hne
  simp only [hresp, cipher_respPacket, tag_respPacket]
  rw [Option.map_eq_none_iff]
  by_contra hopens
  exact respNonce_ne keyId (hL.nonce_of_tag _ _ _ _ _ _ _ hopens)

end

/-! ### The packet -/

section

variable {C : DataCipher} {payload : List UInt8} {keyId : Vector UInt8 8}
  {maskKey sendKey : Vector UInt8 32} {seq : UInt64} {isChaff : Bool} {iv : Vector UInt8 12}

/-- Under the key it was masked with, the header has the wrong magic. -/
theorem accepts_buildDataPacket (i : SessionIdentity) :
    i.accepts (unmaskedHeader C maskKey
      (buildDataPacket C payload keyId maskKey sendKey seq isChaff iv)) = false := by
  have hhdr : unmaskedHeader C maskKey
      (buildDataPacket C payload keyId maskKey sendKey seq isChaff iv) =
        rawHeader keyId isChaff := by
    rw [unmaskedHeader, buildDataPacket, List.append_assoc, List.append_assoc,
      copyOut_append_right _ _ (by simp), copyOut_append_left iv.toList _ (by simp)]
    simp only [Vector.length_toList, Nat.sub_self]
    rw [copyOut_append_left _ _ (by simp), copyOut_toList, copyOut_toList, maskUnmaskHeader_self]
  have hmagic : hasMagic (rawHeader keyId isChaff) = false := by
    rw [hasMagic, rawHeader, Vector.toList_append, copyOut_append_right _ _ (by simp),
      Vector.length_toList]
    cases isChaff with
    | false => decide
    | true => decide
  rw [hhdr, SessionIdentity.accepts, hmagic, Bool.and_false]

theorem length_buildDataPacket (hC : TagsTake16 C) :
    (buildDataPacket C payload keyId maskKey sendKey seq isChaff iv).length =
      56 + payload.length := by
  simp only [buildDataPacket, List.length_append, Vector.length_toList, hC.length_encrypt]
  omega

end

/-- A frame has two bytes more than its payload. -/
theorem length_of_unframe {frame payload : List UInt8} (h : unframe frame = some payload) :
    payload.length + 2 ≤ frame.length := by
  rw [unframe] at h
  split at h
  · cases h
  rename_i hlong
  obtain ⟨⟨-, hfits⟩, hpayload⟩ := Option.ite_none_right_eq_some.mp h
  obtain rfl := Option.some.inj hpayload
  rw [List.length_take, List.length_drop]
  omega

/-- The ACL lets a packet through as it is. -/
theorem eq_of_tunAcl {s : Session} {inner inner' : List UInt8} (h : s.tunAcl inner = some inner') :
    inner' = inner := by
  simp only [Session.tunAcl] at h
  split_ifs at h
  all_goals exact (Option.some.inj h).symm

/-- What is written to the TUN device is shorter than the packet by 58 bytes. -/
theorem length_of_data {C : DataCipher} (hC : TagsTake16 C) {st : State} {e : Arrival} {p : ℕ}
    {inner : List UInt8} (h : (st.data C e).2 = some (p, inner)) :
    inner.length + 58 ≤ e.d.data.length := by
  rw [State.data] at h
  split at h
  · exact nomatch h
  split at h
  · exact nomatch h
  rename_i st' m hdispatch
  split at h
  · exact nomatch h
  rename_i frame hframe
  obtain ⟨-, hfits, -, hopens⟩ := decrypt_eq_some C hframe
  simp only [Option.map_eq_some_iff, Option.bind_eq_some_iff] at h
  obtain ⟨inner', ⟨payload, hpayload, hacl⟩, hinner⟩ := h
  obtain ⟨-, rfl⟩ := Prod.mk.inj hinner
  obtain rfl := eq_of_tunAcl hacl
  have hframed := length_of_unframe (Option.ite_none_left_eq_some.mp hpayload).2
  have hsealed := hC.length_decrypt _ _ _ _ _ hopens
  rw [fits, decide_eq_true_iff] at hfits
  rw [List.length_drop] at hsealed
  rw [aeadOffset] at hfits hsealed
  omega

/-! ### No message is understood -/

/-- **No message of the one is understood by the other**: whatever the state of the server,
the keys, the clock and what the library does, `process_init` does not accept the request and
the client does not accept the response, if MAC and tag bind; no session takes the header of a
packet for its own under the key it was masked with; and the data path does not write the
payload to the TUN device, if a tag takes 16 bytes. -/
theorem never_interoperates {S : Type} (L : Library S) (C : DataCipher) (keyId : Vector UInt8 8)
    (masterKey : List UInt8) :
    (Binds L → ∀ (s : HandshakeServer) (clientPubKey : Vector UInt8 32) (ts now : UInt64)
        (addr : Option ℕ),
      (s.processInit L (buildHandshakeInit L keyId masterKey clientPubKey ts) now addr).2 =
        none) ∧
      (Binds L → ∀ (s : HandshakeServer) (keyIdRaw : UInt64) (assignedIp : UInt32) (mtu : UInt16)
          (calls : RespCalls S) (out : SessionKeys) (clientPrivKey : S),
        processHandshakeResp L (s.buildResp L keyIdRaw assignedIp mtu calls out).2.1 keyId
          masterKey clientPrivKey = none) ∧
      ∀ (st : State) (e : Arrival) (payload : List UInt8) (maskKey sendKey : Vector UInt8 32)
          (seq : UInt64) (isChaff : Bool) (iv : Vector UInt8 12),
        e.d.data = buildDataPacket C payload keyId maskKey sendKey seq isChaff iv →
          (∀ i : SessionIdentity, i.accepts (unmaskedHeader C maskKey e.d.data) = false) ∧
            (TagsTake16 C → ∀ p, (st.data C e).2 ≠ some (p, payload)) := by
  refine ⟨?_, ?_, ?_⟩
  · intro hL s clientPubKey ts now addr
    rw [processInit_buildHandshakeInit hL]
  · intro hL s keyIdRaw assignedIp mtu calls out clientPrivKey
    exact processHandshakeResp_buildResp hL s keyIdRaw assignedIp mtu calls out keyId masterKey
      clientPrivKey
  · intro st e payload maskKey sendKey seq isChaff iv hdata
    constructor
    · intro i
      rw [hdata]
      exact accepts_buildDataPacket i
    · intro hC p hwritten
      have hlength := length_of_data hC hwritten
      rw [hdata, length_buildDataPacket hC] at hlength
      omega

/-! ### A small library -/

/-- A tag with the nonce in front. -/
def bindingTag (key : Vector UInt8 32) (nonce : Vector UInt8 12) (aad : List UInt8)
    (plain : Vector UInt8 16) : Vector UInt8 16 :=
  nonce ++ (Vector.replicate 4 (getElem key 0 zero_lt_32 + aad.sum + plain.toList.sum) :
    Vector UInt8 4)

/-- A library to compute with, whose MAC has the length of the message in it, and whose tag
the nonce. -/
def bindingLibrary : Library UInt8 where
  pub s := Vector.replicate 32 s
  derive s peer := [s + getElem peer 0 zero_lt_32]
  hmac key data :=
    Vector.replicate 32 (UInt8.ofNat (4 * data.length + (key.sum + data.sum).toNat % 4))
  hkdf secret salt info := Vector.replicate 32 (secret.sum + salt.sum + info.toUTF8.toList.sum)
  encrypt key nonce aad plain := (plain, bindingTag key nonce aad plain)
  decrypt key nonce aad cipher tag :=
    if tag = bindingTag key nonce aad cipher then some cipher else none

theorem bindingLibrary_binds : Binds bindingLibrary where
  length_of_mac := by
    intro data data' key key' hlen hlen' hmac
    have hhead := congrArg (fun mac : Vector UInt8 16 => mac[0].toNat) hmac
    simp only [computeMac, bindingLibrary, copyOut, Vector.getElem_ofFn, Nat.add_zero] at hhead
    rw [getD_toList _ (by omega), getD_toList _ (by omega), Vector.getElem_replicate,
      Vector.getElem_replicate, UInt8.toNat_ofNat', UInt8.toNat_ofNat'] at hhead
    omega
  nonce_of_tag := by
    intro key nonce aad plain key' nonce' aad' hopens
    simp only [bindingLibrary] at hopens
    split at hopens
    · rename_i htag
      have hnonce := congrArg (fun tag : Vector UInt8 16 => copyOut tag.toList 0 12) htag
      simp only [bindingTag, Vector.toList_append] at hnonce
      rw [copyOut_append_left _ _ (by simp), copyOut_append_left _ _ (by simp), copyOut_toList,
        copyOut_toList] at hnonce
      exact hnonce.symm
    · exact absurd rfl hopens

theorem smallDataCipher_tagsTake16 : TagsTake16 smallDataCipher where
  length_encrypt := smallDataCipher_correct.length_encrypt
  length_decrypt := by
    intro key nonce aad sealed plain hopens
    simp only [smallDataCipher] at hopens
    obtain ⟨htag, hplain⟩ := Option.ite_none_right_eq_some.mp hopens
    obtain rfl := Option.some.inj hplain
    have hlength := congrArg List.length htag
    rw [List.length_drop, List.length_replicate] at hlength
    rw [List.length_map, List.length_take]
    omega

/-- The master key of the user with the key id 5. -/
def smallMasterKey : List UInt8 := (Vector.replicate 32 9).toList

/-- A response of the server to the user, whose request has the layout of `build_init`. -/
def smallAnswer : List UInt8 :=
  ((smallServer.processInit bindingLibrary (smallClient.buildInit bindingLibrary .ok 1000) 1000
    (some 0)).1.buildResp bindingLibrary 5 0x0A080002 1280
      ⟨some ⟨4, 1⟩, true, some 77, true, true⟩ emptyKeys).2.1

/-- A server with a session of the user. -/
def smallState : State :=
  { init ⟨0, 0, 0, [], ∅⟩ (Vector.replicate 32 0) with
    sessions :=
      { SessionTable.empty with
        heap := fun _ =>
          { Session.fresh with
            identity := ⟨5, 0, 5, 2⟩
            crypto := ⟨Vector.replicate 32 9, Vector.replicate 32 1, Vector.replicate 32 0, false,
              ⟨Vector.replicate 32 3, Vector.replicate 32 2, 77, 0x0A080002, 1280⟩, true⟩ }
        next := 1
        byKeyId := (∅ : AList _).insert 5 0 } }

/-- A datagram on the data path. -/
def smallArrival (data : List UInt8) : Arrival :=
  ⟨⟨data, ⟨1, 5000⟩, 3, 0, 1000⟩, [5], true, fun _ => true⟩

/-- A packet of the client under the keys of the session. -/
def smallPacket : List UInt8 :=
  buildDataPacket smallDataCipher smallPayload (le64 5) (Vector.replicate 32 1)
    (Vector.replicate 32 2) 1 false (Vector.replicate 12 0)

/-- **A user of the Windows client**: the request is turned down, a response is not read, and
a packet is dropped. -/
theorem not_interoperates :
    smallServer.masterKeys.lookup 5 = some smallMasterKey ∧
      (smallServer.processInit bindingLibrary (buildHandshakeInit bindingLibrary (le64 5)
        smallMasterKey (bindingLibrary.pub 3) 1000) 1000 (some 0)).2 = none ∧
      smallAnswer.length = 80 ∧
      processHandshakeResp bindingLibrary smallAnswer (le64 5) smallMasterKey 3 = none ∧
      (smallState.data smallDataCipher (smallArrival smallPacket)).2 = none := by
  refine ⟨?_, ?_, ?_, ?_, ?_⟩ <;> decide +kernel

/-- The rule for this user. -/
theorem never_interoperates_small :
    (smallServer.processInit bindingLibrary (buildHandshakeInit bindingLibrary (le64 5)
        smallMasterKey (bindingLibrary.pub 3) 1000) 1000 (some 0)).2 = none ∧
      processHandshakeResp bindingLibrary smallAnswer (le64 5) smallMasterKey 3 = none ∧
      (smallState.data smallDataCipher (smallArrival smallPacket)).2 ≠ some (0, smallPayload) := by
  obtain ⟨hinit, hresp, hdata⟩ := never_interoperates bindingLibrary smallDataCipher (le64 5)
    smallMasterKey
  exact ⟨hinit bindingLibrary_binds _ _ _ _ _, hresp bindingLibrary_binds _ _ _ _ _ _ _,
    (hdata _ _ _ _ _ _ _ _ rfl).2 smallDataCipher_tagsTake16 0⟩

/-- A packet of the C++ client under the same keys. -/
example : (smallState.data smallDataCipher (smallArrival (sealPacket smallDataCipher
    (outerHeader smallDataCipher 5 (Vector.replicate 32 1) 0 (Vector.replicate 12 0) [])
    (Vector.replicate 32 2) (aeadNonce 1 (Vector.replicate 4 0)) (dataFrame smallPayload [])))).2 =
      some (0, smallPayload) := by
  decide +kernel

end Windows

end Aegs
