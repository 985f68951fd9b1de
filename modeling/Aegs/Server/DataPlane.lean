import Aegs.Server.Operations
import Aegs.Session.Shards
import Aegs.Wire.Packet

/-!
# The data path of the server

What `process_udp_packet` does with a datagram that is no handshake and no resumption,
and what `worker_loop` does with a packet from the TUN device, each as one completed
operation on the server's state. With the operations of `Aegs.Server.Operations` they
make the runs of the server (`Aegs.Server.advance`).

## A data packet

A packet says whose it is in its masked header only. `Session.matchHeader` is the rule by
which a session recognises one: under its mask key or else its alternate mask key the
header has its key id, or the key id it serves besides its own, and the version magic. The
session that the endpoint index has for the sender is asked first
(`Aegs.Server.State.fastMatch`), and then every session in the order of the shards
(`Aegs.Server.State.slowMatch`); the order inside a shard is that of an `unordered_map` and
part of the packet's circumstances. The endpoint is entered for the session found by the
scan before anything is decrypted (`Aegs.Server.State.dispatch`).

Rate limits and the check of the hopped port are circumstances, too. Bans, failure records
and metrics are left out: they are no part of a session and drop packets only.

## A packet from the TUN device

It goes to the session that the route table has for its destination, in the one byte order
or the other. A library call that fails after the number is taken drops it.
-/

namespace Aegs

namespace Server

open Bytes Handshake Wire

namespace SessionTable

variable (t : SessionTable)

/-- An order in which `find_if` may visit the sessions: one shard after the other. -/
def ScanOrder (order : List UInt64) : Prop :=
  order.Perm t.byKeyId.keys ∧ order.Pairwise fun a b => Shards.shardIdx a ≤ Shards.shardIdx b

instance (order : List UInt64) : Decidable (t.ScanOrder order) :=
  inferInstanceAs (Decidable (_ ∧ _))

/-- `find_if`, of a predicate that notes what it finds. -/
def findIf {β : Type} (order : List UInt64) (predicate : ℕ → Option β) : Option β :=
  order.findSome? fun keyId => (t.findByKeyId keyId).bind predicate

end SessionTable

/-! ### Whose packet it is -/

section

variable (C : DataCipher)

/-- The header has the session's key id, or the one it serves besides, and the magic. -/
def SessionIdentity.accepts (i : SessionIdentity) (hdr : Vector UInt8 16) : Bool :=
  (hasKeyId i.keyIdRaw hdr || (i.baseKeyIdRaw ≠ 0 && hasKeyId i.baseKeyIdRaw hdr)) && hasMagic hdr

/-- The rule by which a session recognises a packet, with `used_alt_mask` and
`unmasked_hdr`. -/
def Session.matchHeader (s : Session) (pkt : List UInt8) : Option (Bool × Vector UInt8 16) :=
  let hdr := unmaskedHeader C s.crypto.maskKey pkt
  if s.identity.accepts hdr then some (false, hdr)
  else if s.crypto.hasAltMaskKey then
    let hdr := unmaskedHeader C s.crypto.altMaskKey pkt
    if s.identity.accepts hdr then some (true, hdr) else none
  else none

/-- A datagram on the data path, with its circumstances. -/
structure Arrival where
  /-- The datagram. -/
  d : Datagram
  /-- The order of the key ids in which `find_if` would visit the sessions. -/
  order : List UInt64
  /-- `check_roaming_rate_limit`. -/
  roaming : Bool
  /-- The port of the datagram is one that a session with this `recv_key` may use. -/
  portOk : Vector UInt8 32 → Bool

/-- The endpoint index entry of the sender. -/
def Arrival.epKey (e : Arrival) : UInt64 := makeEndpointKey e.d.caddr

/-- `matched_sess`, with `used_alt_mask` and `unmasked_hdr`. -/
structure Match where
  /-- `matched_sess`. -/
  session : ℕ
  /-- `used_alt_mask`. -/
  usedAltMask : Bool
  /-- `unmasked_hdr`. -/
  hdr : Vector UInt8 16
deriving DecidableEq

/-- The session at this address, asked for a packet. -/
def SessionTable.ask (t : SessionTable) (pkt : List UInt8) (p : ℕ) : Option Match :=
  ((t.heap p).matchHeader C pkt).map fun r => ⟨p, r.1, r.2⟩

/-- The session cached for the endpoint, if it recognises the packet. -/
def State.fastMatch (st : State) (e : Arrival) : Option Match :=
  (st.sessions.findByEndpoint e.epKey).bind (st.sessions.ask C e.d.data)

/-- The first session of the scan that recognises the packet. -/
def State.slowMatch (st : State) (e : Arrival) : Option Match :=
  if e.roaming then st.sessions.findIf e.order (st.sessions.ask C e.d.data) else none

/-- **The session matching** of `process_udp_packet`. A session found by the scan is
entered for the endpoint. -/
def State.dispatch (st : State) (e : Arrival) : State × Option Match :=
  match st.fastMatch C e with
  | some m => (st, some m)
  | none =>
    match st.slowMatch C e with
    | some m =>
      ({ st with sessions := st.sessions.updateEndpoint e.epKey m.session }, some m)
    | none => (st, none)

section

variable {C} {st : State} {e : Arrival} {m : Match}

theorem ask_eq_none {t : SessionTable} {pkt : List UInt8} {p : ℕ} :
    t.ask C pkt p = none ↔ (t.heap p).matchHeader C pkt = none :=
  Option.map_eq_none_iff

/-- The match is of the session that was asked. -/
theorem session_of_ask {t : SessionTable} {pkt : List UInt8} {p : ℕ}
    (h : t.ask C pkt p = some m) : m.session = p := by
  obtain ⟨r, -, rfl⟩ := Option.map_eq_some_iff.mp h
  rfl

theorem fastMatch_eq_none_iff : st.fastMatch C e = none ↔
    ∀ p, st.sessions.findByEndpoint e.epKey = some p →
      (st.sessions.heap p).matchHeader C e.d.data = none := by
  rw [State.fastMatch, Option.bind_eq_none_iff]
  exact forall₂_congr fun p _ => ask_eq_none

/-- What the scan finds is a session of the table that recognises the packet. -/
theorem slowMatch_eq_some (h : st.slowMatch C e = some m) :
    e.roaming = true ∧ ∃ keyId ∈ e.order,
      st.sessions.findByKeyId keyId = some m.session ∧
        st.sessions.ask C e.d.data m.session = some m := by
  rw [State.slowMatch, Option.ite_none_right_eq_some] at h
  obtain ⟨hroaming, hfind⟩ := h
  obtain ⟨keyId, hmem, hbind⟩ := List.exists_of_findSome?_eq_some hfind
  obtain ⟨p, hp, hask⟩ := Option.bind_eq_some_iff.mp hbind
  obtain rfl := session_of_ask hask
  exact ⟨hroaming, keyId, hmem, hp, hask⟩

theorem slowMatch_eq_none_iff : st.slowMatch C e = none ↔ e.roaming = true →
    ∀ keyId ∈ e.order, ∀ p, st.sessions.findByKeyId keyId = some p →
      (st.sessions.heap p).matchHeader C e.d.data = none := by
  rw [State.slowMatch]
  split
  · rename_i hroaming
    simp only [hroaming, forall_const, SessionTable.findIf, List.findSome?_eq_none_iff,
      Option.bind_eq_none_iff, ask_eq_none]
  · rename_i hroaming
    exact iff_of_true rfl fun h => absurd h hroaming

/-- The matching does not touch the sessions. -/
theorem heap_dispatch : (st.dispatch C e).1.sessions.heap = st.sessions.heap := by
  rw [State.dispatch]
  split
  · rfl
  · split <;> rfl

/-- **What the matching finds** recognises the packet, and is the session that the index has
for the endpoint or one of the table. -/
theorem dispatch_eq_some (h : (st.dispatch C e).2 = some m) :
    st.sessions.ask C e.d.data m.session = some m ∧
      (st.sessions.findByEndpoint e.epKey = some m.session ∨
        ∃ keyId, st.sessions.findByKeyId keyId = some m.session) := by
  rw [State.dispatch] at h
  rcases hfast : st.fastMatch C e with _ | m'
  · rcases hslow : st.slowMatch C e with _ | m'
    · simp [hfast, hslow] at h
    · simp only [hfast, hslow, Option.some.injEq] at h
      obtain ⟨-, keyId, -, hfind, hask⟩ := slowMatch_eq_some hslow
      exact h ▸ ⟨hask, Or.inr ⟨keyId, hfind⟩⟩
  · simp only [hfast, Option.some.injEq] at h
    obtain ⟨p, hp, hask⟩ := Option.bind_eq_some_iff.mp hfast
    obtain rfl := session_of_ask hask
    exact h ▸ ⟨hask, Or.inl hp⟩

end

/-! ### What is in it -/

/-- The frame of a packet, if the session decrypts it: the port, the length, the sequence
number and the handshake are checked before. -/
def State.decrypt (st : State) (m : Match) (e : Arrival) : Option (List UInt8) :=
  let s := st.sessions.heap m.session
  let recvKey := s.crypto.sessionKeys.recvKey
  if s.crypto.v3HandshakeDone ∧ ¬e.portOk recvKey then none
  else if ¬fits m.hdr e.d.data then none
  else if s.replayFilter.checkPeek (nonceSeq (packetNonce m.hdr e.d.data)) then none
  else if ¬s.crypto.v3HandshakeDone then none
  else openPacket C recvKey m.hdr e.d.data

/-- What holds of a packet that is decrypted. -/
theorem decrypt_eq_some {st : State} {m : Match} {e : Arrival} {frame : List UInt8}
    (h : st.decrypt C m e = some frame) :
    (st.sessions.heap m.session).crypto.v3HandshakeDone = true ∧
      fits m.hdr e.d.data = true ∧
      (st.sessions.heap m.session).replayFilter.checkPeek
        (nonceSeq (packetNonce m.hdr e.d.data)) = false ∧
      openPacket C (st.sessions.heap m.session).crypto.sessionKeys.recvKey m.hdr e.d.data =
        some frame := by
  simp only [State.decrypt, Option.ite_none_left_eq_some, Bool.not_eq_true,
    Bool.not_eq_false] at h
  obtain ⟨-, hfits, hpeek, hdone, hopen⟩ := h
  exact ⟨hdone, hfits, hpeek, hopen⟩

/-- The routing after an authenticated packet. -/
def SessionRouting.roam (r : SessionRouting) (usedAltMask : Bool) (d : Datagram) :
    SessionRouting :=
  if ¬r.hasClient ∨ r.clientAddr ≠ d.caddr ∨ r.lastServerFd ≠ d.fd ∨
      r.usesAltMask ≠ usedAltMask ∨ r.mimicType ≠ d.mimicType then
    { r with
      clientAddr := d.caddr
      hasClient := true
      lastServerFd := d.fd
      usesMimicry := d.mimicType = 1
      mimicType := d.mimicType
      usesAltMask := usedAltMask }
  else r

/-- The session after an authenticated packet with this number. -/
def Session.authenticate (s : Session) (seq : UInt64) (usedAltMask : Bool) (d : Datagram) :
    Session :=
  { s with
    replayFilter := s.replayFilter.updateCommit seq
    routing := s.routing.roam usedAltMask d
    lastActivity := d.now }

/-- `ip_version`. -/
def ipVersion (inner : List UInt8) : UInt8 := (inner.getD 0 0 >>> 4) &&& 0xF

/-- `inner_src_ip`. -/
def srcIp (inner : List UInt8) : UInt32 := ofBe32 (copyOut inner 12 4)

/-- `dst_ip`. -/
def dstIp (inner : List UInt8) : UInt32 := ofBe32 (copyOut inner 16 4)

/-- The TUN ACL: the packet, if it is written to the TUN device. -/
def Session.tunAcl (s : Session) (inner : List UInt8) : Option (List UInt8) :=
  if inner.length ≥ 20 then
    if ipVersion inner = 4 then
      let expIp := s.routing.assignedIp
      if expIp ≠ 0 then
        if srcIp inner ≠ expIp ∧ srcIp inner ≠ bswap32 expIp then none else some inner
      else some inner
    else some inner
  else some inner

/-- The payload of a frame, unless the header marks it as chaff. -/
def payloadOf (hdr : Vector UInt8 16) (frame : List UInt8) : Option (List UInt8) :=
  if getElem hdr 10 ten_lt_16 &&& 0x80 ≠ 0 then none else unframe frame

/-- **A data packet**. Returns the session and the packet that is written to the TUN
device on its behalf, if one is. -/
def State.data (st : State) (e : Arrival) : State × Option (ℕ × List UInt8) :=
  if e.d.data.length < 56 then (st, none)
  else
    match st.dispatch C e with
    | (st, none) => (st, none)
    | (st, some m) =>
      match st.decrypt C m e with
      | none => (st, none)
      | some frame =>
        let seq := nonceSeq (packetNonce m.hdr e.d.data)
        let s := (st.sessions.heap m.session).authenticate seq m.usedAltMask e.d
        ({ st with sessions := st.sessions.setSession m.session s },
          ((payloadOf m.hdr frame).bind s.tunAcl).map fun inner => (m.session, inner))

/-- What a session alone makes of a packet: its header, its frame and its payload. -/
def Session.decode (s : Session) (pkt : List UInt8) : Option (List UInt8) :=
  if pkt.length < 56 then none
  else
    match s.matchHeader C pkt with
    | none => none
    | some (_, hdr) =>
      if ¬fits hdr pkt then none
      else (openPacket C s.crypto.sessionKeys.recvKey hdr pkt).bind (payloadOf hdr)

/-! ### Packets from the TUN device -/

/-- A datagram handed to the transmission queue. -/
structure Sent where
  /-- The session it is for. -/
  session : ℕ
  /-- `client_addr`. -/
  clientAddr : Endpoint
  /-- `send_fd`. -/
  fd : ℤ
  /-- The camouflage that the queue puts around it. -/
  mimicType : UInt8
  /-- The packet. -/
  wire : List UInt8

/-- The length of the padding: none where the packet would get too long. -/
def serverPadLen (d : Draws) (n : ℕ) : ℕ :=
  let padLen := semanticPad true d.shaper n
  let frameLen := frameHdr + n + padLen
  if frameLen + 80 > 1380 ∨ frameLen + tagLen > internalBufSize then 0 else padLen

/-- The frame of the server has more than 202 bytes. -/
theorem lt_serverPadLen (d : Draws) (n : ℕ) : 202 < frameHdr + n + serverPadLen d n := by
  have hshaped := lt_semanticPad d.shaper n
  have hsizes : frameHdr = 2 ∧ tagLen = 16 ∧ internalBufSize = 65535 := ⟨rfl, rfl, rfl⟩
  by_cases hbig : frameHdr + n + semanticPad true d.shaper n + 80 > 1380 ∨
      frameHdr + n + semanticPad true d.shaper n + tagLen > internalBufSize
  · have hsmall : n ≤ 200 → frameHdr + n + semanticPad true d.shaper n ≤ 768 :=
      semanticPad_small d.shaper
    omega
  · rw [serverPadLen]
    simp only [if_neg hbig]
    exact hshaped

/-- `s_mask_key`. -/
def Session.txMaskKey (s : Session) : Vector UInt8 32 :=
  if s.routing.usesAltMask && s.crypto.hasAltMaskKey then s.crypto.altMaskKey
  else s.crypto.maskKey

/-- The packet that the TUN path builds for a session. -/
def Session.encode (s : Session) (seq : UInt64) (buffer : List UInt8) (d : Draws) : List UInt8 :=
  encodePacket C s.identity.keyIdRaw s.txMaskKey s.crypto.sessionKeys.sendKey seq buffer
    (serverPadLen d buffer.length) d

/-- The session that a packet from the TUN device is for. -/
def SessionTable.routeOf (t : SessionTable) (buffer : List UInt8) : Option ℕ :=
  (t.findByAssignedIp (dstIp buffer)).or (t.findByAssignedIp (bswap32 (dstIp buffer)))

/-- The isolation check drops the packet: another session has its source address. -/
def SessionTable.isolates (t : SessionTable) (buffer : List UInt8) : Bool :=
  srcIp buffer ≠ dstIp buffer ∧ (t.findByAssignedIp (srcIp buffer)).isSome

/-- **A packet from the TUN device**, with or without client isolation. The draws are
missing where a library call fails. -/
def State.tun (st : State) (isolation : Bool) (buffer : List UInt8) (now : ℤ)
    (draws : Option Draws) : State × Option Sent :=
  if buffer.length < 20 then (st, none)
  else
    match st.sessions.routeOf buffer with
    | none => (st, none)
    | some p =>
      let s := st.sessions.heap p
      if isolation ∧ st.sessions.isolates buffer then (st, none)
      else if ¬s.crypto.v3HandshakeDone then (st, none)
      else if ¬s.routing.hasClient ∨ s.routing.lastServerFd < 0 then (st, none)
      else
        let seq := s.txSeq + 1
        let sessions := st.sessions.setSession p { s with lastActivity := now, txSeq := seq }
        ({ st with sessions := sessions },
          draws.map fun d => ⟨p, s.routing.clientAddr, s.routing.lastServerFd,
            if s.routing.usesMimicry && s.routing.mimicType ≠ 2 then 1 else s.routing.mimicType,
            s.encode C seq buffer d⟩)

/-- A packet from the TUN device is dropped, or takes the next number of its session. -/
theorem tun_eq (st : State) (isolation : Bool) (buffer : List UInt8) (now : ℤ)
    (draws : Option Draws) : (st.tun C isolation buffer now draws).1 = st ∨
    ∃ p, (st.tun C isolation buffer now draws).1 = { st with
      sessions := st.sessions.setSession p { st.sessions.heap p with
        lastActivity := now
        txSeq := (st.sessions.heap p).txSeq + 1 } } := by
  rw [State.tun]
  split
  · exact Or.inl rfl
  · split
    · exact Or.inl rfl
    · rename_i p _
      simp only
      split
      · exact Or.inl rfl
      · split
        · exact Or.inl rfl
        · split
          · exact Or.inl rfl
          · exact Or.inr ⟨p, rfl⟩

/-- **What is sent** goes to the session that the destination is routed to, passed the
isolation check, and is encoded for that session. -/
theorem tun_eq_some {C} {st : State} {isolation : Bool} {buffer : List UInt8} {now : ℤ}
    {draws : Option Draws} {sent : Sent} (h : (st.tun C isolation buffer now draws).2 = some sent) :
    20 ≤ buffer.length ∧ st.sessions.routeOf buffer = some sent.session ∧
      ¬(isolation ∧ st.sessions.isolates buffer) ∧
      (st.sessions.heap sent.session).crypto.v3HandshakeDone = true ∧
      ∃ d, sent.wire = (st.sessions.heap sent.session).encode C
        ((st.sessions.heap sent.session).txSeq + 1) buffer d := by
  rw [State.tun] at h
  split at h
  · exact nomatch h
  · rename_i hlen
    split at h
    · exact nomatch h
    · rename_i p hroute
      simp only at h
      split at h
      · exact nomatch h
      · rename_i hisolation
        split at h
        · exact nomatch h
        · rename_i hdone
          split at h
          · exact nomatch h
          · obtain ⟨d, -, rfl⟩ := Option.map_eq_some_iff.mp h
            exact ⟨not_lt.mp hlen, hroute, hisolation, not_not.mp hdone, d, rfl⟩

end

/-! ### Runs of the server -/

/-- What the server does next. -/
inductive Event (S : Type)
  /-- A handshake, a resume, the collector or the database. -/
  | op (op : Operation S)
  /-- A datagram on the data path. -/
  | data (e : Arrival)
  /-- A packet from the TUN device. -/
  | tun (buffer : List UInt8) (now : ℤ) (draws : Option Draws)

/-- The datagram is a handshake request or a resumption by its opcode and length. -/
def isOpcode (data : List UInt8) : Bool :=
  (data.head? = some 0x04 ∧ data.length = 97) ∨ (data.head? = some 0x05 ∧ data.length = 129) ∨
    (data.head? = some 0x01 ∧ data.length = 72)

section

variable {S : Type} (L : Library S) (T : TokenCipher) (D : KeyDerivation) (C : DataCipher)

/-- **One event**, if it can occur. -/
def advance (isolation : Bool) (st : State) : Event S → Option State
  | .op op => step L T D st op
  | .data e =>
    if ¬isOpcode e.d.data ∧ st.sessions.ScanOrder e.order then some (st.data C e).1 else none
  | .tun buffer now draws =>
    if buffer.length ≤ bufferSize then some (st.tun C isolation buffer now draws).1 else none

end

end Server

end Aegs
