import Aegs.Handshake.Network
import Aegs.Handshake.Replay
import Mathlib.Data.List.GetD

/-!
# What a response is bound to

Any number of clients and handshakes run against the server, and whoever has the network
hands each side whatever bytes he likes (`Aegs.Handshake.Binding.step`). The cryptography is
ideal on what a run uses (`Aegs.Handshake.Binding.Ideal`): a client opens only what has been
sealed under its key, no two derivations of the run give the same key, and no two public
keys the same secret.

A client then accepts a packet only if its first 80 bytes are a response that `build_resp`
made for its own ephemeral key under its master key (`Aegs.Handshake.Binding.bound_of_meets`):
the header is what the tag authenticates, the ephemeral key of the server is in the header,
and that of the client is in the secret.

The last section is about the caller's record. `process_resp` fills it as it goes: a packet
that is rejected late has overwritten the session id and the two keys
(`Aegs.Handshake.Binding.untouched_iff`).
-/

namespace Aegs

namespace Handshake

namespace Binding

open Bytes Transition

/-! ### The system -/

/-- Something that an honest party has sealed under a key that it derived. -/
structure Seal where
  /-- The secret of the key. -/
  secret : List UInt8
  /-- Its salt. -/
  salt : List UInt8
  /-- Its label. -/
  info : String
  /-- The nonce. -/
  nonce : Vector UInt8 12
  /-- The associated data. -/
  aad : List UInt8
  /-- The ciphertext. -/
  cipher : Vector UInt8 16
  /-- The tag. -/
  tag : Vector UInt8 16

/-- A response that `build_resp` has made. -/
structure Built (S : Type) where
  /-- The bytes. -/
  bytes : List UInt8
  /-- The server's ephemeral key. -/
  serverKey : S
  /-- The public key of the client that it answers. -/
  answers : Vector UInt8 32
  /-- The master key it was made under. -/
  masterKey : List UInt8

/-- The server, and what has happened. -/
structure State (S : Type) where
  /-- The handshake server. -/
  server : HandshakeServer
  /-- History: the responses. -/
  built : List (Built S)
  /-- History: what was sealed. -/
  seals : List Seal

/-- The choices of a run. -/
inductive Event (S : Type)
  /-- An operation of the server, on whatever bytes. -/
  | serve (op : Op S)
  /-- An honest party seals data under another key than those of the configuration. -/
  | protect (secret salt : List UInt8) (info : String) (nonce : Vector UInt8 12) (aad : List UInt8)
      (plain : Vector UInt8 16)
  /-- A client is handed bytes. -/
  | deliver (c : HandshakeClient S) (calls : Calls) (resp : List UInt8) (out : SessionKeys)

section

variable {S : Type} (L : Library S)

/-- The key of a seal. -/
def Seal.key (s : Seal) : Vector UInt8 32 := L.hkdf s.secret s.salt s.info

/-- The response that `build_resp` makes, if it makes one. -/
def builds (s : HandshakeServer) (keyId : UInt64) (calls : RespCalls S) (bytes : List UInt8) :
    List (Built S) :=
  match calls.keygen, bytes with
  | some server, _ :: _ => [⟨bytes, server.key, Network.pendingPublic s keyId,
      (s.masterKeys.lookup keyId).getD []⟩]
  | _, _ => []

/-- What is sealed in a response. -/
def Built.seal (b : Built S) : Seal where
  secret := L.derive b.serverKey b.answers
  salt := b.masterKey
  info := "aegs-cfg"
  nonce := zeroNonce
  aad := b.bytes.take 48
  cipher := copyOut b.bytes 48 16
  tag := copyOut b.bytes 64 16

/-- One step. -/
def step (st : State S) : Event S → Option (State S)
  | .serve (.processInit init now addr) =>
    some { st with server := (st.server.processInit L init now addr).1 }
  | .serve (.buildResp keyId ip mtu calls out) =>
    let r := st.server.buildResp L keyId ip mtu calls out
    let new := builds st.server keyId calls r.2.1
    some ⟨r.1, new ++ st.built, new.map (Built.seal L) ++ st.seals⟩
  | .serve (.addUser keyId masterKey) =>
    some { st with server := st.server.addUser keyId masterKey }
  | .serve (.removeUser keyId) => some { st with server := st.server.removeUser keyId }
  | .protect secret salt info nonce aad plain =>
    if info = "aegs-cfg" then none
    else
      let sealed := L.encrypt (L.hkdf secret salt info) nonce aad plain
      some { st with seals := ⟨secret, salt, info, nonce, aad, sealed.1, sealed.2⟩ :: st.seals }
  | .deliver _ _ _ _ => some st

/-- A server with these users. -/
def start (masterKeys : AList fun _ : UInt64 => List UInt8) : State S :=
  ⟨.start masterKeys, [], []⟩

/-- The secret that a client derives from a packet. -/
def secretOf (c : HandshakeClient S) (calls : Calls) (resp : List UInt8) : List UInt8 :=
  ecdhDerive L calls.derive c.ephemeralPkey (copyOut resp 16 32)

/-- The key under which it opens the packet. -/
def configKeyOf (c : HandshakeClient S) (calls : Calls) (resp : List UInt8) : Vector UInt8 32 :=
  L.hkdf (secretOf L c calls resp) c.masterKey.toList "aegs-cfg"

/-- The seal is what a client finds in the packet. -/
def Matches (key : Vector UInt8 32) (resp : List UInt8) (s : Seal) : Prop :=
  s.key L = key ∧ s.nonce = zeroNonce ∧ s.aad = resp.take 48 ∧ s.cipher = copyOut resp 48 16 ∧
    s.tag = copyOut resp 64 16

/-- **Ideal cryptography**, on what has happened in the run. -/
def Ideal (st : State S) : Event S → Prop
  | .deliver c calls resp _ =>
    -- what opens has been sealed
    ((L.decrypt (configKeyOf L c calls resp) zeroNonce (resp.take 48) (copyOut resp 48 16)
        (copyOut resp 64 16)).isSome = true →
      ∃ s ∈ st.seals, Matches L (configKeyOf L c calls resp) resp s) ∧
    -- HKDF has no collision
    (∀ s ∈ st.seals, s.key L = configKeyOf L c calls resp →
      s.secret = secretOf L c calls resp ∧ s.salt = c.masterKey.toList ∧ s.info = "aegs-cfg") ∧
    -- X25519 is injective in the ephemeral
    ∀ e ∈ c.ephemeralPkey, ∀ b ∈ st.built,
      L.derive b.serverKey b.answers = L.derive b.serverKey (L.pub e) → b.answers = L.pub e
  | _ => True

instance [DecidableEq S] (st : State S) : ∀ ev, Decidable (Ideal L st ev)
  | .deliver _ _ resp _ =>
    haveI : ∀ key s, Decidable (Matches L key resp s) := fun _ _ =>
      inferInstanceAs (Decidable (_ ∧ _ ∧ _ ∧ _ ∧ _))
    inferInstanceAs (Decidable (_ ∧ _ ∧ _))
  | .serve _ => isTrue trivial
  | .protect _ _ _ _ _ _ => isTrue trivial

/-- **The response is bound**: what a client accepts begins with a response that was made for
its ephemeral key under its master key. -/
def Bound (st : State S) : Event S → Prop
  | .deliver c calls resp out => ∀ out', c.processResp L calls resp out = (true, out') →
      ∃ b ∈ st.built, ∃ e, c.ephemeralPkey = some e ∧ b.answers = L.pub e ∧
        b.masterKey = c.masterKey.toList ∧ resp.take 80 = b.bytes
  | _ => True

/-! ### What the history says -/

/-- The response is the packet of its server key. -/
structure Built.WellFormed (b : Built S) : Prop where
  /-- It has 80 bytes. -/
  length : b.bytes.length = 80
  /-- The ephemeral key of the server is in it. -/
  pub : copyOut b.bytes 16 32 = L.pub b.serverKey

/-- **Every configuration that was sealed** is that of a response. -/
structure Recorded (st : State S) : Prop where
  /-- The responses are well formed. -/
  wellFormed : ∀ b ∈ st.built, b.WellFormed L
  /-- The seals under such keys are theirs. -/
  seals : ∀ s ∈ st.seals, s.info = "aegs-cfg" → ∃ b ∈ st.built, s = b.seal L

theorem recorded_start (masterKeys : AList fun _ : UInt64 => List UInt8) :
    Recorded L (start masterKeys : State S) := by
  constructor
  · intro b hb
    exact absurd hb List.not_mem_nil
  · intro s hs
    exact absurd hs List.not_mem_nil

/-- What `build_resp` makes is well formed. -/
theorem wellFormed_of_builds {s : HandshakeServer} {keyId : UInt64} {ip : UInt32} {mtu : UInt16}
    {calls : RespCalls S} {out : SessionKeys} {b : Built S}
    (hb : b ∈ builds s keyId calls (s.buildResp L keyId ip mtu calls out).2.1) :
    b.WellFormed L := by
  unfold builds at hb
  split at hb
  · rename_i server byte bytes hserver hbytes
    obtain rfl := List.mem_singleton.mp hb
    have hmade : s.buildResp L keyId ip mtu calls out =
      ((s.buildResp L keyId ip mtu calls out).1, (s.buildResp L keyId ip mtu calls out).2.1,
        (s.buildResp L keyId ip mtu calls out).2.2) := rfl
    obtain ⟨state, masterKey, server', sessionId, -, -, hserver', -, hresp, -⟩ :=
      buildResp_eq L hmade (by rw [hbytes]; exact List.cons_ne_nil _ _)
    obtain rfl : server = server' := Option.some.inj (hserver.symm.trans hserver')
    constructor
    · rw [hresp, Vector.length_toList]
    · rw [hresp, pub_respPacket]
  · exact nomatch hb

/-- **Every step keeps the record.** -/
theorem Recorded.step {st st' : State S} {ev : Event S} (h : Recorded L st)
    (hstep : step L st ev = some st') : Recorded L st' := by
  cases ev with
  | serve op =>
    cases op with
    | processInit init now addr =>
      obtain rfl := Option.some.inj hstep
      exact ⟨h.wellFormed, h.seals⟩
    | buildResp keyId ip mtu calls out =>
      obtain rfl := Option.some.inj hstep
      refine ⟨fun b hb => ?_, fun s hs hinfo => ?_⟩
      · rcases List.mem_append.mp hb with hnew | hold
        · exact wellFormed_of_builds L hnew
        · exact h.wellFormed b hold
      · rcases List.mem_append.mp hs with hnew | hold
        · obtain ⟨b, hb, rfl⟩ := List.mem_map.mp hnew
          exact ⟨b, List.mem_append_left _ hb, rfl⟩
        · obtain ⟨b, hb, rfl⟩ := h.seals s hold hinfo
          exact ⟨b, List.mem_append_right _ hb, rfl⟩
    | addUser keyId masterKey =>
      obtain rfl := Option.some.inj hstep
      exact ⟨h.wellFormed, h.seals⟩
    | removeUser keyId =>
      obtain rfl := Option.some.inj hstep
      exact ⟨h.wellFormed, h.seals⟩
  | protect secret salt info nonce aad plain =>
    simp only [Binding.step] at hstep
    split at hstep
    · exact nomatch hstep
    · rename_i hinfo
      obtain rfl := Option.some.inj hstep
      refine ⟨h.wellFormed, fun s hs hcfg => ?_⟩
      rcases List.mem_cons.mp hs with rfl | hold
      · exact absurd hcfg hinfo
      · exact h.seals s hold hcfg
  | deliver c calls resp out =>
    obtain rfl := Option.some.inj hstep
    exact h

/-! ### The transcript -/

/-- Equal parts have equal bytes. -/
theorem getD_eq_of_copyOut {a b : List UInt8} {off k : ℕ} (h : copyOut a off k = copyOut b off k)
    {i : ℕ} (hi : i < k) : a.getD (off + i) 0 = b.getD (off + i) 0 := by
  have hbyte := congrArg (fun v : Vector UInt8 k => v.toList.getD i 0) h
  simpa only [getD_toList _ hi, copyOut, Vector.getElem_ofFn] using hbyte

/-- A part of the header is that of the same header. -/
theorem copyOut_eq_of_take {a b : List UInt8} {n off k : ℕ} (hk : off + k ≤ n)
    (h : a.take n = b.take n) : copyOut a off k = copyOut b off k := by
  refine Vector.ext fun i hi => ?_
  have hbyte := congrArg (fun l => l.getD (off + i) 0) h
  rw [copyOut, copyOut, Vector.getElem_ofFn, Vector.getElem_ofFn]
  simpa [List.getD_eq_getElem?_getD, List.getElem?_take, show off + i < n by omega] using hbyte

/-- Eighty bytes are the header, the ciphertext and the tag. -/
theorem take_eq_of_parts {a b : List UInt8} (ha : 80 ≤ a.length) (hb : b.length = 80)
    (hheader : b.take 48 = a.take 48) (hcipher : copyOut b 48 16 = copyOut a 48 16)
    (htag : copyOut b 64 16 = copyOut a 64 16) : a.take 80 = b := by
  -- byte by byte: each of the three parts has the byte
  have hgetD : ∀ i < 80, a.getD i 0 = b.getD i 0 := by
    intro i hi
    by_cases h48 : i < 48
    · have htake := congrArg (fun l => l.getD i 0) hheader
      simpa [List.getD_eq_getElem?_getD, List.getElem?_take, h48] using htake.symm
    · by_cases h64 : i < 64
      · have hbyte := getD_eq_of_copyOut (i := i - 48) hcipher (by omega)
        rwa [Nat.add_sub_cancel' (by omega : 48 ≤ i), eq_comm] at hbyte
      · have hbyte := getD_eq_of_copyOut (i := i - 64) htag (by omega)
        rwa [Nat.add_sub_cancel' (by omega : 64 ≤ i), eq_comm] at hbyte
  refine List.ext_getElem (by rw [List.length_take]; omega) fun i h₁ h₂ => ?_
  have hi := hgetD i (by omega)
  rw [List.getElem_take]
  rwa [List.getD_eq_getElem _ _ (by omega), List.getD_eq_getElem _ _ (by omega)] at hi

/-- A client that accepts has derived a secret. -/
theorem derives_of_accepts {c : HandshakeClient S} {calls : Calls} {resp : List UInt8}
    {out out' : SessionKeys} (h : c.processResp L calls resp out = (true, out')) :
    ¬(ecdhDerive L calls.derive c.ephemeralPkey (copyOut resp 16 32)).isEmpty := by
  intro hempty
  simp only [HandshakeClient.processResp, hempty, if_true] at h
  split at h
  · exact absurd (Prod.mk.inj h).1 (by decide)
  · split at h
    · exact absurd (Prod.mk.inj h).1 (by decide)
    · exact absurd (Prod.mk.inj h).1 (by decide)

/-- **A client accepts only a response of its own.** -/
theorem bound_of_recorded (hcomm : L.Commutes) {st : State S} (hrec : Recorded L st)
    {ev : Event S} (hideal : Ideal L st ev) : Bound L st ev := by
  cases ev with
  | serve op => trivial
  | protect secret salt info nonce aad plain => trivial
  | deliver c calls resp out =>
    intro out' haccept
    obtain ⟨hopens, hinjective, hdh⟩ := hideal
    obtain ⟨hlen, e, dec, he, hopen, -⟩ := processResp_eq_true L haccept
    have hsecret : secretOf L c calls resp = L.derive e (copyOut resp 16 32) := by
      obtain ⟨e', he', hderive⟩ := ecdhDerive_eq L (derives_of_accepts L haccept)
      obtain rfl : e' = e := Option.some.inj (he'.symm.trans he)
      exact hderive
    -- what the client opens has been sealed, so it is the configuration of a response
    have hsome : (L.decrypt (configKeyOf L c calls resp) zeroNonce (resp.take 48)
        (copyOut resp 48 16) (copyOut resp 64 16)).isSome = true := by
      rw [configKeyOf, hsecret, hopen]
      rfl
    obtain ⟨s, hs, hkey, -, haad, hcipher, htag⟩ := hopens hsome
    obtain ⟨hsecrets, hsalt, hinfo⟩ := hinjective s hs hkey
    obtain ⟨b, hb, rfl⟩ := hrec.seals s hs hinfo
    obtain ⟨hlength, hpub⟩ := hrec.wellFormed b hb
    refine ⟨b, hb, e, he, ?_, hsalt, take_eq_of_parts hlen hlength haad hcipher htag⟩
    -- the header is the same, so is the ephemeral key of the server
    have hserver : copyOut resp 16 32 = L.pub b.serverKey := by
      rw [← hpub]
      exact copyOut_eq_of_take (by omega) haad.symm
    refine hdh e he b hb ?_
    calc L.derive b.serverKey b.answers = secretOf L c calls resp := hsecrets
      _ = L.derive e (L.pub b.serverKey) := by rw [hsecret, hserver]
      _ = L.derive b.serverKey (L.pub e) := hcomm e b.serverKey

/-- **A response that a client accepts is one that `build_resp` made for it**: in every run,
whatever the clients are handed, its first 80 bytes are a response to the ephemeral key of this
client under its master key. -/
theorem bound_of_meets (hcomm : L.Commutes) (masterKeys : AList fun _ : UInt64 => List UInt8)
    {as : List (Event S)} (hideal : Meets (step L) (Ideal L) (start masterKeys) as) :
    Meets (step L) (Bound L) (start masterKeys) as :=
  Meets.imp (I := fun st : State S => Recorded L st)
    (fun hrec _ hstep => hrec.step L hstep)
    (fun hrec hok => bound_of_recorded L hcomm hrec hok) (recorded_start L masterKeys) hideal

end

/-- A request is answered, the keys are used for data, and the client is handed a packet of
other bytes and the response with some bytes after it. -/
def boundRun : List (Event UInt8) :=
  [.serve (.processInit (smallClient.buildInit smallLibrary .ok 1000) 2000 (some 0)),
    .serve (.buildResp 5 0x0A08080A 1280 ⟨some ⟨4, 1⟩, true, some 77, true, true⟩ emptyKeys),
    .protect [7] (Vector.replicate 32 9).toList "aegs-s2c" zeroNonce [1] (Vector.replicate 16 0),
    .deliver smallClient .ok (List.replicate 80 2) emptyKeys,
    .deliver smallClient .ok ((smallResp 0x0A08080A).2.1 ++ [1, 2]) emptyKeys]

/-- The client accepts in the last step, and what it accepts is bound. -/
theorem bound_boundRun :
    Meets (step smallLibrary) (Bound smallLibrary) (start smallServer.masterKeys) boundRun ∧
      (smallClient.processResp smallLibrary .ok ((smallResp 0x0A08080A).2.1 ++ [1, 2])
        emptyKeys).1 = true ∧
      (runs (step smallLibrary) (start smallServer.masterKeys) boundRun).isSome = true :=
  ⟨bound_of_meets smallLibrary smallLibrary_commutes smallServer.masterKeys (by decide +kernel),
    by decide +kernel, by decide +kernel⟩

/-! ### The record of the caller -/

section

variable {S : Type} (L : Library S)

/-- The record already holds what the packet says: its session id, and the keys that
`HKDF` derives with its ephemeral key, if a secret is derived. -/
def Holds (c : HandshakeClient S) (calls : Calls) (resp : List UInt8) (out : SessionKeys) : Prop :=
  out.sessionId = ofLe64 (copyOut resp 8 8) ∧
    (calls.newPublic = true → ¬(secretOf L c calls resp).isEmpty →
      out.sendKey = L.hkdf (secretOf L c calls resp) c.masterKey.toList "aegs-c2s" ∧
        out.recvKey = L.hkdf (secretOf L c calls resp) c.masterKey.toList "aegs-s2c")

/-- A record is unchanged by a session id that it holds. -/
theorem sessionId_eq_iff (out : SessionKeys) (id : UInt64) :
    { out with sessionId := id } = out ↔ out.sessionId = id := by
  cases out
  simp only [SessionKeys.mk.injEq, true_and, and_true]
  exact eq_comm

/-- A record is unchanged by a session id and keys that it holds. -/
theorem keys_eq_iff (out : SessionKeys) (id : UInt64) (send recv : Vector UInt8 32) :
    { out with sessionId := id, sendKey := send, recvKey := recv } = out ↔
      out.sessionId = id ∧ out.sendKey = send ∧ out.recvKey = recv := by
  cases out
  simp only [SessionKeys.mk.injEq, and_true]
  constructor
  · rintro ⟨rfl, rfl, rfl⟩
    exact ⟨rfl, rfl, rfl⟩
  · rintro ⟨rfl, rfl, rfl⟩
    exact ⟨rfl, rfl, rfl⟩

/-- **A rejected packet leaves the record alone** exactly when it is too short or of another
type, or says what the record already holds. -/
theorem untouched_iff (c : HandshakeClient S) (calls : Calls) (resp : List UInt8)
    (out : SessionKeys) (hrejected : (c.processResp L calls resp out).1 = false) :
    (c.processResp L calls resp out).2 = out ↔
      resp.length < 80 ∨ resp.getD 0 0 ≠ 0x02 ∨ Holds L c calls resp out := by
  by_cases hshort : resp.length < 80 ∨ resp.getD 0 0 ≠ 0x02
  · have hout : c.processResp L calls resp out = (false, out) := by
      rw [HandshakeClient.processResp, if_pos hshort]
    rw [hout]
    exact iff_of_true rfl (hshort.imp_right Or.inl)
  · have hright : (resp.length < 80 ∨ resp.getD 0 0 ≠ 0x02 ∨ Holds L c calls resp out) ↔
        Holds L c calls resp out := by
      rw [← or_assoc, or_iff_right hshort]
    rw [hright, Holds, secretOf]
    rw [HandshakeClient.processResp, if_neg hshort] at hrejected ⊢
    by_cases hnew : calls.newPublic = true
    · rw [if_neg (not_not.mpr hnew)] at hrejected ⊢
      by_cases hempty : (ecdhDerive L calls.derive c.ephemeralPkey (copyOut resp 16 32)).isEmpty
      · -- no secret: only the session id has been written
        simp only [hempty, if_true, not_true_eq_false, false_implies, implies_true, and_true]
        exact sessionId_eq_iff out _
      · simp only [hempty, Bool.false_eq_true, if_false, not_false_eq_true, true_implies, hnew]
          at hrejected ⊢
        rw [← keys_eq_iff]
        by_cases hcipher : calls.cipher = true
        · rw [if_neg (not_not.mpr hcipher)] at hrejected ⊢
          cases hopen : L.decrypt (L.hkdf (ecdhDerive L calls.derive c.ephemeralPkey
              (copyOut resp 16 32)) c.masterKey.toList "aegs-cfg") zeroNonce (resp.take 48)
              (copyOut resp 48 16) (copyOut resp 64 16) with
          | none => exact Iff.rfl
          | some dec =>
            rw [hopen] at hrejected
            exact absurd hrejected (Ne.symm Bool.false_ne_true)
        · rw [if_pos hcipher]
    · rw [if_pos hnew]
      simp only [hnew, Bool.false_eq_true, false_implies, and_true]
      exact sessionId_eq_iff out _

end

/-- A forgery: 80 bytes of the type of a response, with a session id of its own. -/
def forged : List UInt8 := 2 :: List.replicate 79 1

/-- **A forged response changes the record**: it is rejected, and the session id and both keys
are others than before. -/
theorem not_untouched_fields :
    ¬∀ (c : HandshakeClient UInt8) (calls : Calls) (resp : List UInt8) (out : SessionKeys),
      (c.processResp smallLibrary calls resp out).1 = false →
        (c.processResp smallLibrary calls resp out).2 = out := by
  intro h
  have hrejected : (smallClient.processResp smallLibrary .ok forged emptyKeys).1 = false := by
    decide +kernel
  have hchanged : (smallClient.processResp smallLibrary .ok forged emptyKeys).2.sessionId ≠
      emptyKeys.sessionId := by
    decide +kernel
  exact hchanged (congrArg SessionKeys.sessionId (h _ _ _ _ hrejected))

/-- A packet of another type leaves it alone. -/
theorem untouched_request :
    (smallClient.processResp smallLibrary .ok (List.replicate 80 1) emptyKeys).2 = emptyKeys :=
  (untouched_iff smallLibrary smallClient .ok (List.replicate 80 1) emptyKeys
    (by decide +kernel)).mpr (.inr (.inl (by decide)))

end Binding

end Handshake

end Aegs
