import Mathlib.Data.UInt
import Aegs.Handshake.Server

/-!
# What the two ends of a handshake agree on

The client's packet is read by the server where the client wrote it, and the
server's by the client, so both ends derive the same keys and decrypt the same
configuration block. They do not read the block alike. `build_resp` writes the
assigned address most significant byte first and `process_resp` reads it least
significant byte first; the MTU next to it has one byte order. So the two ends
agree on everything if the address reads the same in both directions, and
otherwise on everything but the address (`Aegs.Handshake.agree_iff`).
-/

namespace Aegs

namespace Handshake

open Bytes

/-- **Agreement** of the records the two ends hold after a handshake. -/
structure Agree (client server : SessionKeys) : Prop where
  /-- The session id. -/
  sessionId : client.sessionId = server.sessionId
  /-- The address of the client in the tunnel. -/
  assignedIp : client.assignedIp = server.assignedIp
  /-- The MTU. -/
  mtu : client.mtu = server.mtu
  /-- What the client sends with, the server receives with. -/
  clientToServer : client.sendKey = server.recvKey
  /-- What the server sends with, the client receives with. -/
  serverToClient : client.recvKey = server.sendKey

section

variable {S : Type} (L : Library S)

/-- X25519 is commutative. -/
def Library.Commutes : Prop := ∀ a b, L.derive a (L.pub b) = L.derive b (L.pub a)

/-- Decryption undoes encryption. -/
def Library.Decrypts : Prop :=
  ∀ key nonce aad plain, L.decrypt key nonce aad (L.encrypt key nonce aad plain).1
    (L.encrypt key nonce aad plain).2 = some plain

/-- The bytes of the address read the same in both directions. -/
def ReadsBothWays (ip : UInt32) : Prop :=
  (ip >>> 24).toUInt8 = ip.toUInt8 ∧ (ip >>> 16).toUInt8 = (ip >>> 8).toUInt8

instance (ip : UInt32) : Decidable (ReadsBothWays ip) :=
  inferInstanceAs (Decidable (_ ∧ _))

/-! ### The request -/

theorem keyId_initBody (keyId : Vector UInt8 8) (pub : Vector UInt8 32) (now : UInt64)
    (mac : Vector UInt8 16) :
    copyOut (copyIn (initBody keyId pub now) 56 mac).toList 8 8 = keyId := by
  rw [copyOut_copyIn_of_disjoint _ _ (by omega) (by omega), initBody,
    copyOut_copyIn_of_disjoint _ _ (by omega) (by omega),
    copyOut_copyIn_of_disjoint _ _ (by omega) (by omega), copyOut_copyIn_self _ _ (by omega)]

theorem pub_initBody (keyId : Vector UInt8 8) (pub : Vector UInt8 32) (now : UInt64)
    (mac : Vector UInt8 16) :
    copyOut (copyIn (initBody keyId pub now) 56 mac).toList 16 32 = pub := by
  rw [copyOut_copyIn_of_disjoint _ _ (by omega) (by omega), initBody,
    copyOut_copyIn_of_disjoint _ _ (by omega) (by omega), copyOut_copyIn_self _ _ (by omega)]

theorem timestamp_initBody (keyId : Vector UInt8 8) (pub : Vector UInt8 32) (now : UInt64)
    (mac : Vector UInt8 16) :
    ofBe64 (copyOut (copyIn (initBody keyId pub now) 56 mac).toList 48 8) = now := by
  rw [copyOut_copyIn_of_disjoint _ _ (by omega) (by omega), initBody,
    copyOut_copyIn_self _ _ (by omega), ofBe64_be64]

/-- A packet that `build_init` made is the body of an ephemeral key with its MAC. -/
theorem buildInit_eq {c : HandshakeClient S} {calls : Calls} {now : UInt64} {packet : List UInt8}
    (h : c.buildInit L calls now = packet) (hne : packet ≠ []) :
    ∃ e, c.ephemeralPkey = some e ∧ ∃ mac : Vector UInt8 16,
      packet = (copyIn (initBody c.keyId (L.pub e) now) 56 mac).toList := by
  rw [HandshakeClient.buildInit] at h
  split at h
  · exact absurd h.symm hne
  · rename_i e he
    split at h
    · exact ⟨e, he, _, h.symm⟩
    · exact absurd h.symm hne

/-- What `build_init` makes when the library calls go through. -/
theorem buildInit_ok {c : HandshakeClient S} {e : S} (he : c.ephemeralPkey = some e)
    (now : UInt64) :
    c.buildInit L .ok now = (copyIn (initBody c.keyId (L.pub e) now) 56
      (computeMac L ((initBody c.keyId (L.pub e) now).toList.take 56)
        c.masterKey.toList)).toList := by
  simp only [HandshakeClient.buildInit, he, Calls.ok, if_true]

theorem initPair_buildInit {c : HandshakeClient S} {e : S} (he : c.ephemeralPkey = some e)
    (now : UInt64) : initPair (c.buildInit L .ok now) = ⟨ofLe64 c.keyId, now⟩ := by
  rw [buildInit_ok L he, initPair, keyId_initBody, timestamp_initBody]

/-- **A client's request is authentic** while its timestamp is inside the skew window. -/
theorem authenticInit_buildInit {c : HandshakeClient S} {e : S} (he : c.ephemeralPkey = some e)
    {ts now : UInt64} (hskew : skewRejected now ts = false) :
    authenticInit L (some c.masterKey.toList) (c.buildInit L .ok ts) now = true := by
  refine (authenticInit_iff L).mpr ⟨?_, ?_, ?_, _, rfl, ?_⟩
  · rw [buildInit_ok L he, Vector.length_toList]
  · rw [buildInit_ok L he, getD_toList _ (by omega),
      getElem_copyIn_of_notMem _ _ (by omega) (by omega), initBody,
      getElem_copyIn_of_notMem _ _ (by omega) (by omega),
      getElem_copyIn_of_notMem _ _ (by omega) (by omega),
      getElem_copyIn_of_notMem _ _ (by omega) (by omega),
      getElem_copyIn_of_mem _ _ (by omega) (by omega)]
    rfl
  · rw [initPair_buildInit L he]
    exact hskew
  · rw [buildInit_ok L he, take_copyIn _ _ le_rfl, copyOut_copyIn_self _ _ (by omega)]

end

section

variable {S : Type} (L : Library S)

/-- **An accepted request** leaves the client's public key pending under the key id
of the packet, and the users as they were. -/
theorem processInit_eq_some {s s' : HandshakeServer} {init : List UInt8} {now keyId : UInt64}
    {addr : Option ℕ} (h : s.processInit L init now addr = (s', some keyId)) :
    72 ≤ init.length ∧ keyId = ofLe64 (copyOut init 8 8) ∧ s'.masterKeys = s.masterKeys ∧
      ∃ a, s'.pendingClients.lookup keyId = some ⟨⟨a, copyOut init 16 32⟩, now⟩ := by
  have hmaster := processInit_masterKeys s now L init addr
  rw [h] at hmaster
  rw [processInit_eq] at h
  split at h
  · rename_i hauth
    have hlen : 72 ≤ init.length := by
      by_contra hshort
      simp [authenticInit, hshort] at hauth
    cases addr with
    | none => simp [HandshakeServer.setPending] at h
    | some a =>
      simp only [HandshakeServer.setPending, Prod.mk.injEq, Option.some.injEq] at h
      obtain ⟨rfl, rfl⟩ := h
      exact ⟨hlen, rfl, hmaster, a, AList.lookup_insert _⟩
  · simp at h

/-- **A response** is the packet of a fresh server key, and the record at the server
holds what went into it. -/
theorem buildResp_eq {s s' : HandshakeServer} {keyId : UInt64} {ip : UInt32} {mtu : UInt16}
    {calls : RespCalls S} {resp : List UInt8} {out out' : SessionKeys}
    (h : s.buildResp L keyId ip mtu calls out = (s', resp, out')) (hne : resp ≠ []) :
    ∃ state masterKey server sessionId,
      s.pendingClients.lookup keyId = some state ∧ s.masterKeys.lookup keyId = some masterKey ∧
        calls.keygen = some server ∧ calls.rand = some sessionId ∧
        let secret := L.derive server.key state.clientEphemeralPkey.raw
        resp = (respPacket L (L.hkdf secret masterKey "aegs-cfg") sessionId (L.pub server.key) ip
          mtu).toList ∧
        out' =
          { recvKey := L.hkdf secret masterKey "aegs-c2s"
            sendKey := L.hkdf secret masterKey "aegs-s2c"
            sessionId := sessionId
            assignedIp := ip
            mtu := mtu } := by
  -- every early return leaves the response empty
  simp only [HandshakeServer.buildResp] at h
  split at h
  · exact absurd (Prod.mk.inj (Prod.mk.inj h).2).1.symm hne
  · rename_i state hpending
    split at h
    · exact absurd (Prod.mk.inj (Prod.mk.inj h).2).1.symm hne
    · rename_i masterKey hmaster
      split at h
      · exact absurd (Prod.mk.inj (Prod.mk.inj h).2).1.symm hne
      · rename_i server hserver
        split at h
        · exact absurd (Prod.mk.inj (Prod.mk.inj h).2).1.symm hne
        · rename_i hsecret
          obtain ⟨_, he, hderive⟩ := ecdhDerive_eq L hsecret
          obtain rfl := Option.some.inj he
          rw [hderive] at h
          split at h
          · exact absurd (Prod.mk.inj (Prod.mk.inj h).2).1.symm hne
          · rename_i sessionId hrand
            split at h
            · exact absurd (Prod.mk.inj (Prod.mk.inj h).2).1.symm hne
            · obtain ⟨-, hresp⟩ := Prod.mk.inj h
              obtain ⟨hresp, hout⟩ := Prod.mk.inj hresp
              exact ⟨state, masterKey, server, sessionId, hpending, hmaster, hserver, hrand,
                hresp.symm, hout.symm⟩

/-- **An accepted response** decrypts under the client's keys, and the record holds
what it says. -/
theorem processResp_eq_true {c : HandshakeClient S} {calls : Calls} {resp : List UInt8}
    {out out' : SessionKeys} (h : c.processResp L calls resp out = (true, out')) :
    80 ≤ resp.length ∧ ∃ e dec, c.ephemeralPkey = some e ∧
      let secret := L.derive e (copyOut resp 16 32)
      L.decrypt (L.hkdf secret c.masterKey.toList "aegs-cfg") zeroNonce (resp.take 48)
        (copyOut resp 48 16) (copyOut resp 64 16) = some dec ∧
      out' =
        { sendKey := L.hkdf secret c.masterKey.toList "aegs-c2s"
          recvKey := L.hkdf secret c.masterKey.toList "aegs-s2c"
          sessionId := ofLe64 (copyOut resp 8 8)
          assignedIp := ofLe32 #v[getElem dec 0 zero_lt_16, getElem dec 1 one_lt_16,
            getElem dec 2 two_lt_16, getElem dec 3 three_lt_16]
          mtu := ofLe16 #v[getElem dec 4 four_lt_16, getElem dec 5 five_lt_16] } := by
  simp only [HandshakeClient.processResp] at h
  split at h
  · exact absurd (Prod.mk.inj h).1 (by decide)
  · rename_i hlen
    split at h
    · exact absurd (Prod.mk.inj h).1 (by decide)
    · split at h
      · exact absurd (Prod.mk.inj h).1 (by decide)
      · rename_i hsecret
        split at h
        · exact absurd (Prod.mk.inj h).1 (by decide)
        · split at h
          · exact absurd (Prod.mk.inj h).1 (by decide)
          · rename_i dec hdec
            obtain ⟨e, he, hderive⟩ := ecdhDerive_eq L hsecret
            rw [hderive] at hdec h
            exact ⟨by omega, e, dec, he, hdec, (Prod.mk.inj h).2.symm⟩

/-! ### The response -/

variable (configKey : Vector UInt8 32) (sessionId : UInt64) (pub : Vector UInt8 32) (ip : UInt32)
  (mtu : UInt16)

theorem sessionId_respPacket :
    copyOut (respPacket L configKey sessionId pub ip mtu).toList 8 8 = le64 sessionId := by
  rw [respPacket, copyOut_copyIn_of_disjoint _ _ (by omega) (by omega),
    copyOut_copyIn_of_disjoint _ _ (by omega) (by omega), respHeader,
    copyOut_copyIn_of_disjoint _ _ (by omega) (by omega), copyOut_copyIn_self _ _ (by omega)]

theorem pub_respPacket :
    copyOut (respPacket L configKey sessionId pub ip mtu).toList 16 32 = pub := by
  rw [respPacket, copyOut_copyIn_of_disjoint _ _ (by omega) (by omega),
    copyOut_copyIn_of_disjoint _ _ (by omega) (by omega), respHeader,
    copyOut_copyIn_self _ _ (by omega)]

/-- The header the client authenticates is the one the server did. -/
theorem take_respPacket :
    (respPacket L configKey sessionId pub ip mtu).toList.take 48 =
      (respHeader sessionId pub).toList.take 48 := by
  rw [respPacket, take_copyIn _ _ (by omega), take_copyIn _ _ (by omega)]

/-- The ciphertext the client reads is the one the server sealed. -/
theorem cipher_respPacket :
    copyOut (respPacket L configKey sessionId pub ip mtu).toList 48 16 =
      (L.encrypt configKey zeroNonce ((respHeader sessionId pub).toList.take 48)
        (plainConfig ip mtu)).1 := by
  rw [respPacket, copyOut_copyIn_of_disjoint _ _ (by omega) (by omega),
    copyOut_copyIn_self _ _ (by omega)]

/-- So is the tag. -/
theorem tag_respPacket :
    copyOut (respPacket L configKey sessionId pub ip mtu).toList 64 16 =
      (L.encrypt configKey zeroNonce ((respHeader sessionId pub).toList.take 48)
        (plainConfig ip mtu)).2 := by
  rw [respPacket, copyOut_copyIn_self _ _ (by omega)]

/-- The client decrypts the server's configuration block. -/
theorem decrypt_respPacket (hdec : L.Decrypts) :
    L.decrypt configKey zeroNonce ((respPacket L configKey sessionId pub ip mtu).toList.take 48)
      (copyOut (respPacket L configKey sessionId pub ip mtu).toList 48 16)
      (copyOut (respPacket L configKey sessionId pub ip mtu).toList 64 16) =
        some (plainConfig ip mtu) := by
  rw [take_respPacket, cipher_respPacket, tag_respPacket]
  exact hdec _ _ _ _

theorem assignedIp_plainConfig :
    #v[getElem (plainConfig ip mtu) 0 zero_lt_16, getElem (plainConfig ip mtu) 1 one_lt_16,
      getElem (plainConfig ip mtu) 2 two_lt_16, getElem (plainConfig ip mtu) 3 three_lt_16] =
        be32 ip := by
  have hbyte : ∀ (i : ℕ) (hi : i < 4), (plainConfig ip mtu)[i] = (be32 ip)[i] := by
    intro i hi
    rw [plainConfig, getElem_copyIn_of_notMem _ _ (by omega) (by omega),
      getElem_copyIn_of_mem _ _ (by omega) (by omega)]
    rfl
  rw [hbyte 0 (by omega), hbyte 1 (by omega), hbyte 2 (by omega), hbyte 3 (by omega)]
  rfl

theorem mtu_plainConfig : #v[getElem (plainConfig ip mtu) 4 four_lt_16,
    getElem (plainConfig ip mtu) 5 five_lt_16] = le16 mtu := by
  rw [plainConfig, getElem_copyIn_of_mem _ _ (by omega) (by omega),
    getElem_copyIn_of_mem _ _ (by omega) (by omega)]
  rfl

/-- **The response the client accepts** gives it the server's record, the address
aside. -/
theorem processResp_respPacket (hcomm : L.Commutes) (hdec : L.Decrypts) {c : HandshakeClient S}
    {e e' : S} (he : c.ephemeralPkey = some e) {calls : Calls} {out out' : SessionKeys}
    (h : c.processResp L calls (respPacket L
      (L.hkdf (L.derive e' (L.pub e)) c.masterKey.toList "aegs-cfg") sessionId (L.pub e') ip
        mtu).toList out = (true, out')) :
    out' =
      { sendKey := L.hkdf (L.derive e' (L.pub e)) c.masterKey.toList "aegs-c2s"
        recvKey := L.hkdf (L.derive e' (L.pub e)) c.masterKey.toList "aegs-s2c"
        sessionId := sessionId
        assignedIp := ofLe32 (be32 ip)
        mtu := mtu } := by
  obtain ⟨-, e₁, dec, he₁, hopen, rfl⟩ := processResp_eq_true L h
  obtain rfl : e₁ = e := Option.some.inj (he₁.symm.trans he)
  rw [pub_respPacket, hcomm e₁ e', decrypt_respPacket L _ _ _ _ _ hdec] at hopen
  obtain rfl := Option.some.inj hopen
  rw [pub_respPacket, hcomm e₁ e', sessionId_respPacket, ofLe64_le64, assignedIp_plainConfig,
    mtu_plainConfig, ofLe16_le16]

/-- The type of a response. -/
theorem getD_respPacket :
    (respPacket L configKey sessionId pub ip mtu).toList.getD 0 0 = 0x02 := by
  rw [getD_toList _ (by omega), respPacket, getElem_copyIn_of_notMem _ _ (by omega) (by omega),
    getElem_copyIn_of_notMem _ _ (by omega) (by omega), respHeader,
    getElem_copyIn_of_notMem _ _ (by omega) (by omega),
    getElem_copyIn_of_notMem _ _ (by omega) (by omega),
    getElem_copyIn_of_mem _ _ (by omega) (by omega)]
  rfl

/-- **A client accepts the response to its key**, if its library calls go through and there is a
secret. -/
theorem processResp_respPacket_ok (hcomm : L.Commutes) (hdec : L.Decrypts)
    {c : HandshakeClient S} {e e' : S} (he : c.ephemeralPkey = some e)
    (hsecret : L.derive e' (L.pub e) ≠ []) (out : SessionKeys) :
    (c.processResp L .ok (respPacket L
      (L.hkdf (L.derive e' (L.pub e)) c.masterKey.toList "aegs-cfg") sessionId (L.pub e') ip
        mtu).toList out).1 = true := by
  have hderive : ecdhDerive L true (some e) (L.pub e') = L.derive e' (L.pub e) := by
    rw [ecdhDerive]
    exact hcomm e e'
  have hnot : ¬(L.derive e' (L.pub e)).isEmpty = true := by
    rwa [List.isEmpty_iff]
  simp only [HandshakeClient.processResp, Calls.ok, he, pub_respPacket, hderive, getD_respPacket,
    Vector.length_toList, lt_irrefl, not_true_eq_false, or_self, if_false, hnot,
    decrypt_respPacket L _ _ _ _ _ hdec, ne_eq, Bool.false_eq_true]

section

variable {client : HandshakeClient S} {server server' : HandshakeServer} {calls : Calls}
  {sent received : UInt64} {addr : Option ℕ} {keyId : UInt64}

/-- A request that is accepted is the body of an ephemeral key with its MAC. -/
theorem buildInit_of_processInit
    (hinit : server.processInit L (client.buildInit L calls sent) received addr =
      (server', some keyId)) :
    ∃ e, client.ephemeralPkey = some e ∧ ∃ mac : Vector UInt8 16,
      client.buildInit L calls sent =
        (copyIn (initBody client.keyId (L.pub e) sent) 56 mac).toList := by
  refine buildInit_eq L rfl ?_
  intro hnil
  have hlen := (processInit_eq_some L hinit).1
  rw [hnil] at hlen
  exact absurd hlen (by decide)

/-- The key id of a request is the client's. -/
theorem keyId_of_processInit
    (hinit : server.processInit L (client.buildInit L calls sent) received addr =
      (server', some keyId)) : keyId = ofLe64 client.keyId := by
  obtain ⟨-, hid, -, -⟩ := processInit_eq_some L hinit
  obtain ⟨e, -, mac, hpacket⟩ := buildInit_of_processInit L hinit
  rwa [hpacket, keyId_initBody] at hid

end

/-- **What the two ends hold** after a handshake is of one secret, and differs in the byte order
of the address. -/
theorem exchange_eq (hcomm : L.Commutes) (hdec : L.Decrypts) {client : HandshakeClient S}
    {server : HandshakeServer} {keyId : UInt64}
    (hkey : server.masterKeys.lookup keyId = some client.masterKey.toList)
    {calls calls' : Calls} {sent received : UInt64} {addr : Option ℕ} {respCalls : RespCalls S}
    {server' server'' : HandshakeServer} {resp : List UInt8} {out out' : SessionKeys}
    {clientKeys serverKeys : SessionKeys}
    (hinit : server.processInit L (client.buildInit L calls sent) received addr =
      (server', some keyId))
    (hbuild : server'.buildResp L keyId ip mtu respCalls out = (server'', resp, serverKeys))
    (hresp : client.processResp L calls' resp out' = (true, clientKeys)) :
    ∃ secret sessionId,
      clientKeys =
        { sendKey := L.hkdf secret client.masterKey.toList "aegs-c2s"
          recvKey := L.hkdf secret client.masterKey.toList "aegs-s2c"
          sessionId := sessionId
          assignedIp := ofLe32 (be32 ip)
          mtu := mtu } ∧
      serverKeys =
        { recvKey := L.hkdf secret client.masterKey.toList "aegs-c2s"
          sendKey := L.hkdf secret client.masterKey.toList "aegs-s2c"
          sessionId := sessionId
          assignedIp := ip
          mtu := mtu } := by
  obtain ⟨-, -, hmaster, a, hpending⟩ := processInit_eq_some L hinit
  obtain ⟨e, he, mac, hpacket⟩ := buildInit_of_processInit L hinit
  have hrespne : resp ≠ [] := by
    rintro rfl
    exact absurd (processResp_eq_true L hresp).1 (by decide)
  obtain ⟨state, masterKey, e', sessionId, hstate, hmk, -, -, hbytes, hserver⟩ :=
    buildResp_eq L hbuild hrespne
  rw [hpacket, pub_initBody] at hpending
  obtain rfl : ⟨⟨a, L.pub e⟩, received⟩ = state := Option.some.inj (hpending.symm.trans hstate)
  obtain rfl : client.masterKey.toList = masterKey := by
    rw [hmaster, hkey] at hmk
    exact Option.some.inj hmk
  rw [hbytes] at hresp
  exact ⟨_, sessionId, processResp_respPacket L _ _ _ hcomm hdec he hresp, hserver⟩

/-- **Agreement**: the two ends of a handshake hold the same record, each with the
other's keys, exactly when the assigned address reads the same in both directions. -/
theorem agree_iff (hcomm : L.Commutes) (hdec : L.Decrypts) {client : HandshakeClient S}
    {server : HandshakeServer}
    (hkey : server.masterKeys.lookup (ofLe64 client.keyId) = some client.masterKey.toList)
    (calls calls' : Calls) (sent received : UInt64) (addr : Option ℕ) (respCalls : RespCalls S)
    {server' server'' : HandshakeServer} {keyId : UInt64} {resp : List UInt8}
    (out out' : SessionKeys) {clientKeys serverKeys : SessionKeys}
    (hinit : server.processInit L (client.buildInit L calls sent) received addr =
      (server', some keyId))
    (hbuild : server'.buildResp L keyId ip mtu respCalls out = (server'', resp, serverKeys))
    (hresp : client.processResp L calls' resp out' = (true, clientKeys)) :
    Agree clientKeys serverKeys ↔ ReadsBothWays ip := by
  obtain rfl := keyId_of_processInit L hinit
  obtain ⟨secret, sessionId, hclient, hserver⟩ :=
    exchange_eq L ip mtu hcomm hdec hkey hinit hbuild hresp
  rw [ReadsBothWays, ← ofLe32_be32_eq_iff, hclient, hserver]
  exact ⟨fun h => h.assignedIp, fun h => ⟨rfl, h, rfl, rfl, rfl⟩⟩

end

/-! ### A small library -/

/-- The tag of the small library: a byte of the key, and a checksum. -/
def smallTag (key : Vector UInt8 32) (aad : List UInt8) (plain : Vector UInt8 16) :
    Vector UInt8 16 :=
  copyIn (Vector.replicate 16 (aad.sum + plain.toList.sum)) 0 #v[getElem key 0 zero_lt_32]

theorem smallTag_zero (key : Vector UInt8 32) (aad : List UInt8) (plain : Vector UInt8 16) :
    getElem (smallTag key aad plain) 0 zero_lt_16 = getElem key 0 zero_lt_32 := by
  rw [smallTag, getElem_copyIn_of_mem _ _ (by omega) (by omega)]
  rfl

/-- The small library tells the labels apart. -/
def smallLabel (info : String) : UInt8 :=
  if info = "aegs-c2s" then 1 else if info = "aegs-s2c" then 2 else 3

/-- A library small enough to compute with: private keys are bytes, a secret is the
sum of two of them, and the cipher adds the key to the plaintext bit by bit. -/
def smallLibrary : Library UInt8 where
  pub s := Vector.replicate 32 s
  derive s peer := [s + peer[0]]
  hmac key data := Vector.replicate 32 (key.sum + data.sum)
  hkdf secret salt info := Vector.replicate 32 (secret.sum + salt.sum + smallLabel info)
  encrypt key _ aad plain := (plain.map (· ^^^ key[0]), smallTag key aad plain)
  decrypt key _ aad cipher tag :=
    let plain := cipher.map (· ^^^ key[0])
    if tag = smallTag key aad plain then some plain else none

theorem smallLibrary_commutes : smallLibrary.Commutes := by
  intro a b
  simp [smallLibrary, UInt8.add_comm]

theorem smallLibrary_decrypts : smallLibrary.Decrypts := by
  intro key nonce aad plain
  have hplain : (plain.map (· ^^^ key[0])).map (· ^^^ key[0]) = plain := by
    ext i hi
    rw [Vector.getElem_map, Vector.getElem_map, UInt8.xor_assoc, UInt8.xor_self, UInt8.xor_zero]
  simp only [smallLibrary, hplain, if_true]

/-- A client of the small library. -/
def smallClient : HandshakeClient UInt8 := ⟨le64 5, Vector.replicate 32 9, some 3⟩

/-- A server that knows the client. -/
def smallServer : HandshakeServer := .start ((∅ : AList _).insert 5 (Vector.replicate 32 9).toList)

/-- A record nobody has written to. -/
def emptyKeys : SessionKeys := ⟨Vector.replicate 32 0, Vector.replicate 32 0, 0, 0, 0⟩

/-- The server after the request of the small client. -/
def smallInit : HandshakeServer × Option UInt64 :=
  smallServer.processInit smallLibrary (smallClient.buildInit smallLibrary .ok 1000) 2000 (some 0)

/-- Its response, assigning `ip`. -/
def smallResp (ip : UInt32) : HandshakeServer × List UInt8 × SessionKeys :=
  smallInit.1.buildResp smallLibrary 5 ip 1280 ⟨some ⟨4, 1⟩, true, some 77, true, true⟩ emptyKeys

/-- What the client makes of it. -/
def smallDone (ip : UInt32) : Bool × SessionKeys :=
  smallClient.processResp smallLibrary .ok (smallResp ip).2.1 emptyKeys

/-- **The two ends disagree on `10.8.0.2`**: the client holds `2.0.8.10`. -/
theorem not_agree :
    smallLibrary.Commutes ∧ smallLibrary.Decrypts ∧
      smallServer.masterKeys.lookup (ofLe64 smallClient.keyId) =
        some smallClient.masterKey.toList ∧
      smallInit.2 = some 5 ∧ (smallDone 0x0A080002).1 = true ∧
      (smallDone 0x0A080002).2.assignedIp = 0x0200080A ∧
      ¬Agree (smallDone 0x0A080002).2 (smallResp 0x0A080002).2.2 := by
  refine ⟨smallLibrary_commutes, smallLibrary_decrypts, by decide +kernel, by decide +kernel,
    by decide +kernel, by decide +kernel, fun h => ?_⟩
  have hne : (smallDone 0x0A080002).2.assignedIp ≠ (smallResp 0x0A080002).2.2.assignedIp := by
    decide +kernel
  exact hne h.assignedIp

/-- They agree on `10.8.8.10`. -/
theorem agree_small : Agree (smallDone 0x0A08080A).2 (smallResp 0x0A08080A).2.2 := by
  have hid : smallInit.2 = some 5 := by decide +kernel
  have hok : (smallDone 0x0A08080A).1 = true := by decide +kernel
  have hinit : smallInit = (smallInit.1, some 5) := by rw [← hid]
  rcases hbuild : smallResp 0x0A08080A with ⟨server'', resp, serverKeys⟩
  rcases hdone : smallDone 0x0A08080A with ⟨ok, clientKeys⟩
  rw [hdone] at hok
  obtain rfl : ok = true := hok
  rw [smallDone, hbuild] at hdone
  exact (agree_iff smallLibrary _ _ smallLibrary_commutes smallLibrary_decrypts
    (by decide +kernel) _ _ _ _ _ _ _ _ hinit hbuild hdone).mpr (by decide)

end Handshake

end Aegs
