import Mathlib.Data.List.GetD
import Aegs.Tunnel.Packet

/-!
# What the tunnel hands over

What one side of the tunnel gives to `send_raw_packet` or `send_aegs_frame`, and what the
other side makes of the packet. The padding of a frame is not told apart from its payload,
so that no `CMD_DATA` ever comes out as it went in. A host is announced by the number of
its characters and read by the number of its bytes.

`Aegs.Tunnel.recovered_iff` says exactly what is recovered, between two sides with each
other's keys.
-/

namespace Aegs

namespace Tunnel

open Bytes Wire

/-! ### Frames -/

theorem length_frame (sid : UInt32) (cmd : UInt8) (payload : List UInt8) :
    (frame sid cmd payload).length = 5 + payload.length := by
  simp only [frame, List.length_append, Vector.length_toList, List.length_cons, List.length_nil]

/-- The padding goes on where the payload ends. -/
theorem frame_append (sid : UInt32) (cmd : UInt8) (payload padding : List UInt8) :
    frame sid cmd payload ++ padding = frame sid cmd (payload ++ padding) := by
  rw [frame, frame, List.append_assoc]

theorem drop_frame (sid : UInt32) (cmd : UInt8) (rest : List UInt8) :
    (frame sid cmd rest).drop 5 = rest := by
  rw [frame, List.drop_left' (by simp)]

theorem getD_frame_cmd (sid : UInt32) (cmd : UInt8) (rest : List UInt8) :
    (frame sid cmd rest).getD 4 0 = cmd := by
  rw [frame, List.append_assoc, List.getD_append_right _ _ _ _ (by simp)]
  simp

theorem getD_frame (sid : UInt32) (cmd : UInt8) (rest : List UInt8) (i : ℕ) :
    (frame sid cmd rest).getD (5 + i) 0 = rest.getD i 0 := by
  rw [frame, List.getD_append_right _ _ _ _ (by simp)]
  simp

theorem streamId_frame (sid : UInt32) (cmd : UInt8) (rest : List UInt8) :
    ofBe32 (copyOut (frame sid cmd rest) 0 4) = sid := by
  rw [frame, List.append_assoc, copyOut_append_left _ _ (by simp), copyOut_toList, ofBe32_be32]

/-- **A `CMD_DATA` frame** is read with whatever is behind its command. -/
theorem handleClientPayload_data (sid : UInt32) (rest : List UInt8) :
    handleClientPayload (frame sid cmdData rest) = some (.data sid rest) := by
  have hlen : ¬(frame sid cmdData rest).length < 5 := by
    rw [length_frame]
    omega
  rw [handleClientPayload, if_neg hlen]
  simp only [getD_frame_cmd, streamId_frame, drop_frame]
  rfl

/-- **A `CMD_CLOSE` frame** is read whatever is behind its command. -/
theorem handleClientPayload_close (sid : UInt32) (rest : List UInt8) :
    handleClientPayload (frame sid cmdClose rest) = some (.close sid) := by
  have hlen : ¬(frame sid cmdClose rest).length < 5 := by
    rw [length_frame]
    omega
  rw [handleClientPayload, if_neg hlen]
  simp only [getD_frame_cmd, streamId_frame]
  rfl

/-- **A `CMD_CONNECT` frame** is read with as many bytes of the host as it has characters,
and with the two bytes behind those as the port. -/
theorem handleClientPayload_connect (sid : UInt32) {host : List Char} (port : UInt16)
    (hhost : host.length ≤ 255) (padding : List UInt8) :
    handleClientPayload (frame sid cmdConnect ([UInt8.ofNat host.length] ++ Utf8.encode host ++
        (be16 port).toList ++ padding)) =
      some (.connect sid
        (Utf8.decodeReplace
          ((Utf8.encode host ++ ((be16 port).toList ++ padding)).take host.length))
        (ofBe16
          (copyOut (Utf8.encode host ++ ((be16 port).toList ++ padding)) host.length 2))) := by
  have hbytes := Utf8.length_le_length_encode host
  have hcount : (UInt8.ofNat host.length).toNat = host.length := Nat.mod_eq_of_lt (by omega)
  rw [List.append_assoc, List.append_assoc]
  generalize hrest : Utf8.encode host ++ ((be16 port).toList ++ padding) = rest
  have hlen : host.length + 2 ≤ rest.length := by
    rw [← hrest, List.length_append, List.length_append, Vector.length_toList]
    omega
  have hframe := length_frame sid cmdConnect ([UInt8.ofNat host.length] ++ rest)
  rw [List.length_append, List.length_singleton] at hframe
  have hhostLen : (frame sid cmdConnect ([UInt8.ofNat host.length] ++ rest)).getD 5 0 =
      UInt8.ofNat host.length := getD_frame sid cmdConnect _ 0
  have hdrop : (frame sid cmdConnect ([UInt8.ofNat host.length] ++ rest)).drop 6 = rest := by
    rw [show 6 = 5 + 1 from rfl, ← List.drop_drop, drop_frame]
    rfl
  have hport : copyOut (frame sid cmdConnect ([UInt8.ofNat host.length] ++ rest))
      (6 + host.length) 2 = copyOut rest host.length 2 := by
    rw [frame, ← List.append_assoc, copyOut_append_right _ _ (by simp)]
    congr 1
    simp
  rw [handleClientPayload, if_neg (by omega)]
  simp only [getD_frame_cmd, streamId_frame, if_true, hhostLen, hcount, hdrop, hport]
  rw [if_neg (by omega), if_neg (by omega)]

/-! ### Hosts -/

/-- A host and a port come out as they went in: the host is ASCII, or ASCII up to one
`U+FFFD` at its end, whose last two bytes the port then happens to be. -/
def HostSurvives (host : List Char) (port : UInt16) : Prop :=
  (∀ c ∈ host, Utf8.IsAscii c) ∨
    (∃ front, host = front ++ [Utf8.replacementChar] ∧ ∀ c ∈ front, Utf8.IsAscii c) ∧ port = 49085

theorem hostSurvives_iff (host : List Char) (port : UInt16) (padding : List UInt8) :
    (Utf8.decodeReplace ((Utf8.encode host ++ ((be16 port).toList ++ padding)).take host.length) =
        host ∧
      ofBe16 (copyOut (Utf8.encode host ++ ((be16 port).toList ++ padding)) host.length 2) =
        port) ↔ HostSurvives host port := by
  rw [Utf8.decodeReplace_eq_iff, HostSurvives]
  have hascii : (∀ c ∈ host, Utf8.IsAscii c) →
      ofBe16 (copyOut (Utf8.encode host ++ ((be16 port).toList ++ padding)) host.length 2) =
        port := by
    intro hall
    have hlen := Utf8.length_encode_of_isAscii hall
    rw [copyOut_append_right _ _ hlen.le, hlen, Nat.sub_self, copyOut_append_left _ _ (by simp),
      copyOut_toList, ofBe16_be16]
  have hlast : (∃ front, host = front ++ [Utf8.replacementChar] ∧ ∀ c ∈ front, Utf8.IsAscii c) →
      ofBe16 (copyOut (Utf8.encode host ++ ((be16 port).toList ++ padding)) host.length 2) =
        49085 := by
    rintro ⟨front, rfl, hfront⟩
    -- behind the first of the three bytes of `U+FFFD`
    have hlen := Utf8.length_encode_of_isAscii hfront
    rw [Utf8.encode_append, List.append_assoc, copyOut_append_right _ _ (by simp [hlen]), hlen,
      List.length_append, Nat.add_sub_cancel_left]
    have hbytes : Utf8.encode [Utf8.replacementChar] = [0xEF, 0xBF, 0xBD] := by decide
    rw [hbytes, copyOut_append_left _ _ (by decide)]
    decide
  constructor
  · rintro ⟨hall | hfront, hport⟩
    · exact Or.inl hall
    · exact Or.inr ⟨hfront, hport.symm.trans (hlast hfront)⟩
  · rintro (hall | ⟨hfront, rfl⟩)
    · exact ⟨Or.inl hall, hascii hall⟩
    · exact ⟨Or.inr hfront, hlast hfront⟩

/-! ### Two sides in touch -/

/-- What is asked of the AEAD cipher, for the keys of the two directions and of the
handshake. -/
structure AeadIdeal (C : DataCipher) (up down handshake : Vector UInt8 32) : Prop where
  /-- Decryption undoes encryption. -/
  correct : C.Correct
  /-- What is sealed for the server does not open under the key of the handshake. -/
  handshake_fails : ∀ nonce aad plain,
    C.decrypt handshake nonce aad (C.encrypt up nonce aad plain) = none
  /-- A ciphertext that is cut off does not open. -/
  cut_fails : ∀ nonce aad plain n, plain.length < 65536 → n < plain.length + 16 →
    C.decrypt down nonce aad ((C.encrypt down nonce aad plain).take n) = none

section

variable {S : Type} (L : Library S) (t : Token)

/-- Two sides that have each other's keys, and the next packet of the client is new to the
server. -/
structure InTouch (c : AegsClient S) (srv : AegsServer S) (up down : Vector UInt8 32) :
    Prop where
  /-- The client seals with `up`. -/
  sendKey : c.sendKey = some up
  /-- The server opens with it. -/
  recvKey : srv.recvKey = some up
  /-- The server seals with `down`. -/
  serverKey : srv.sendKey = some down
  /-- The client opens with it. -/
  clientKey : c.recvKey = some down
  /-- The server knows where the client is. -/
  clientAddr : srv.clientAddr.isSome
  /-- The replay filter has seen nothing from behind the last packet of the client. -/
  fresh : srv.replayFilter.maxSeq ≤ c.txSeq
  /-- The client has a sequence number left. -/
  clientSeq : c.txSeq + 1 < 2 ^ 64
  /-- And so has the server. -/
  serverSeq : srv.txSeq + 1 < 2 ^ 64

/-- What the server makes of a frame of the client. -/
def serverReads (c : AegsClient S) (srv : AegsServer S) (addr : ℕ) (sid : UInt32) (cmd : UInt8)
    (payload : List UInt8) (cd : ClientDraws) (rd : ReplyDraws) : Option Command :=
  (c.sendRawPacket L t sid cmd payload false cd).1.bind fun pkt =>
    (srv.processPacket L t addr pkt rd).2.payload.bind handleClientPayload

/-- What the client makes of a frame of the server. -/
def clientReads (c : AegsClient S) (srv : AegsServer S) (sid : UInt32) (cmd : UInt8)
    (payload : List UInt8) (sd : ServerDraws) : Option (UInt32 × UInt8 × List UInt8) :=
  (srv.sendAegsFrame L t sid cmd payload sd).1.bind (c.receive L t)

/-- What one side sends to the other. -/
inductive Message
  /-- Bytes of a local socket, for the remote one. -/
  | upload (payload : List UInt8)
  /-- Bytes of a remote socket, for the local one. -/
  | download (payload : List UInt8)
  /-- A host and a port to connect to. -/
  | connect (host : List Char) (port : UInt16)
  /-- The end of a local socket. -/
  | closeUp
  /-- The end of a remote socket. -/
  | closeDown

/-- One `recv` hands over 16384 bytes at most. -/
def Message.Sendable : Message → Prop
  | .upload payload | .download payload => payload.length ≤ 16384
  | .connect _ _ | .closeUp | .closeDown => True

/-- The other side recovers exactly what was sent. A `CMD_CLOSE` has no payload, and the client
looks at its stream only. -/
def Recovered (c : AegsClient S) (srv : AegsServer S) (addr : ℕ) (sid : UInt32)
    (cd : ClientDraws) (rd : ReplyDraws) (sd : ServerDraws) : Message → Prop
  | .upload payload =>
    serverReads L t c srv addr sid cmdData payload cd rd = some (.data sid payload)
  | .download payload => clientReads L t c srv sid cmdData payload sd = some (sid, cmdData, payload)
  | .connect host port =>
    ((connPayload host port).bind fun payload =>
      serverReads L t c srv addr sid cmdConnect payload cd rd) = some (.connect sid host port)
  | .closeUp => serverReads L t c srv addr sid cmdClose [] cd rd = some (.close sid)
  | .closeDown =>
    (clientReads L t c srv sid cmdClose [] sd).map (fun read => (read.1, read.2.1)) =
      some (sid, cmdClose)

/-- **The condition**: bytes never, and a host and a port if the client can write the number
of its characters, they survive, and the packet does not look like a handshake in the clear
or a resumption token. For the end of a local socket the packet matters alone, and for that of
a remote one that the client has not left out the stream. -/
def Message.Survives (sid : UInt32) (hdrIv : Vector UInt8 12) : Message → Prop
  | .upload _ | .download _ => False
  | .connect host port => host.length ≤ 255 ∧ HostSurvives host port ∧
      hdrIv[0] ≠ 0x01 ∧ hdrIv[0] ≠ 0x04
  | .closeUp => hdrIv[0] ≠ 0x01 ∧ hdrIv[0] ≠ 0x04
  | .closeDown => sid ≠ 0

end

/-! ### From the client to the server -/

section

variable {S : Type} {L : Library S} {t : Token} {c : AegsClient S} {srv : AegsServer S}
  {up down : Vector UInt8 32} {addr : ℕ} {sid : UInt32} {cmd : UInt8} {payload : List UInt8}
  {seq : UInt64} {cd : ClientDraws} {rd : ReplyDraws} {sd : ServerDraws}

theorem ClientDraws.junk_lt (d : ClientDraws) : (d.junk d.junkLen).toList.length < 65536 := by
  rw [Vector.length_toList, ClientDraws.junkLen]
  split <;> omega

/-- A frame of the client is padded to 216 bytes at least, and always. -/
theorem ClientDraws.padLen_ge (d : ClientDraws) (frameLen : ℕ) :
    16 ≤ d.padLen frameLen ∧ 216 ≤ frameLen + d.padLen frameLen := by
  simp only [ClientDraws.padLen]
  split <;> omega

/-- The frame that the client seals. -/
def paddedFrame (sid : UInt32) (cmd : UInt8) (payload : List UInt8) (d : ClientDraws) :
    List UInt8 :=
  frame sid cmd (payload ++ (d.padding (d.padLen (frame sid cmd payload).length)).toList)

theorem length_paddedFrame (sid : UInt32) (cmd : UInt8) (payload : List UInt8) (d : ClientDraws) :
    216 ≤ (paddedFrame sid cmd payload d).length := by
  rw [paddedFrame, ← frame_append, List.length_append, Vector.length_toList]
  exact (d.padLen_ge _).2

theorem clientPacket_eq (isChaff : Bool) :
    clientPacket L t up seq sid cmd payload isChaff cd =
      sealPacket L.cipher
        (outerHeader L.cipher t.rawKid (maskKey L t) (chaffFlag isChaff) cd.hdrIv
          (cd.junk cd.junkLen).toList) up (aeadNonce seq cd.nonceTail)
        (paddedFrame sid cmd payload cd) := by
  rw [clientPacket, paddedFrame, ← frame_append]

/-- The packet begins with the IV. -/
theorem head_clientPacket (isChaff : Bool) :
    (clientPacket L t up seq sid cmd payload isChaff cd).getD 0 0 = cd.hdrIv[0] := by
  have hiv := @copyOut_outerHeader_iv L.cipher t.rawKid (maskKey L t) (chaffFlag isChaff) cd.hdrIv
    (cd.junk cd.junkLen).toList
    ((aeadNonce seq cd.nonceTail).toList ++ L.cipher.encrypt up (aeadNonce seq cd.nonceTail)
      (outerHeader L.cipher t.rawKid (maskKey L t) (chaffFlag isChaff) cd.hdrIv
          (cd.junk cd.junkLen).toList) (paddedFrame sid cmd payload cd))
  rw [clientPacket_eq, sealPacket, List.append_assoc]
  have hhead := congrArg (fun iv => iv[0]) hiv
  simp only [copyOut, Vector.getElem_ofFn, Nat.zero_add] at hhead
  exact hhead

theorem length_clientPacket (hC : L.cipher.Correct) (isChaff : Bool) :
    97 ≤ (clientPacket L t up seq sid cmd payload isChaff cd).length := by
  have hframe := length_paddedFrame sid cmd payload cd
  rw [clientPacket_eq, length_sealPacket hC, length_outerHeader]
  omega

/-- The header of the client's packet, for the server. -/
theorem unmaskedHeader_clientPacket (isChaff : Bool) :
    unmaskedHeader L.cipher (maskKey L t)
        (clientPacket L t up seq sid cmd payload isChaff cd) =
      plainHeader t.rawKid (cd.junk cd.junkLen).toList.length.toUInt16
        (chaffFlag isChaff) := by
  rw [clientPacket_eq, sealPacket, List.append_assoc, unmaskedHeader_outerHeader]

/-- It is not a handshake. -/
theorem clientHandshake_clientPacket (ideal : AeadIdeal L.cipher up down (handshakeKey L t))
    (isChaff : Bool) :
    srv.clientHandshake L t addr (clientPacket L t up seq sid cmd payload isChaff cd) rd =
      (srv, none) := by
  have hopen : openHandshake L t (clientPacket L t up seq sid cmd payload isChaff cd) = none := by
    simp only [openHandshake, unmaskedHeader_clientPacket]
    split
    · rfl
    · split
      · rw [clientPacket_eq, openPacket_sealPacket_eq _ cd.junk_lt]
        exact ideal.handshake_fails _ _ _
      · rfl
  rw [AegsServer.clientHandshake, hopen]

/-- **A data frame at the server**: a number that is ahead of the filter gets past it. -/
theorem payload_dataFrame_clientPacket (hC : L.cipher.Correct) (hrecv : srv.recvKey = some up)
    (hfresh : srv.replayFilter.maxSeq < seq.toNat) :
    (srv.dataFrame L t addr (clientPacket L t up seq sid cmd payload false cd)).2.payload =
      some (paddedFrame sid cmd payload cd) := by
  have hlen : 97 ≤ (clientPacket L t up seq sid cmd payload false cd).length :=
    length_clientPacket hC false
  have haccepts : (srv.replayFilter.checkAndUpdate seq.toNat).1 = false := by
    rw [AntiReplayFilter.checkAndUpdate, if_neg (by omega), if_pos hfresh]
  refine (payload_dataFrame_eq_some_iff L t).mpr
    ⟨up, _, ⟨hrecv, rfl, by omega, ?_, ?_, ?_, ?_, ?_⟩, ?_⟩
  all_goals rw [unmaskedHeader_clientPacket]
  · rw [hasKeyId_plainHeader]
    exact decide_eq_true rfl
  · exact hasMagic_plainHeader _ _ _
  · rw [clientPacket_eq]
    exact fits_sealPacket hC cd.junk_lt
  · rw [clientPacket_eq, packetNonce_sealPacket cd.junk_lt, nonceSeq_aeadNonce]
    exact haccepts
  · rw [clientPacket_eq]
    exact openPacket_sealPacket hC cd.junk_lt
  · rw [getElem_plainHeader_flag]
    rfl

/-- The packet that `send_raw_packet` sends. -/
theorem sendRawPacket_eq (touch : InTouch c srv up down) :
    (c.sendRawPacket L t sid cmd payload false cd).1 =
      some (clientPacket L t up (c.txSeq + 1).toUInt64 sid cmd payload false cd) := by
  rw [AegsClient.sendRawPacket, touch.sendKey]
  simp only [if_pos touch.clientSeq]

/-- **What the server reads of a frame**: all of it with the padding, or nothing if the IV
begins with one of the bytes that mark other packets. -/
theorem serverReads_eq (touch : InTouch c srv up down)
    (ideal : AeadIdeal L.cipher up down (handshakeKey L t)) :
    serverReads L t c srv addr sid cmd payload cd rd =
      if cd.hdrIv[0] = 0x01 ∨ cd.hdrIv[0] = 0x04 then none
      else handleClientPayload (paddedFrame sid cmd payload cd) := by
  have hlen : 97 ≤ (clientPacket L t up (c.txSeq + 1).toUInt64 sid cmd payload false cd).length :=
    length_clientPacket ideal.correct false
  have hseq : (c.txSeq + 1).toUInt64.toNat = c.txSeq + 1 := by
    rw [Nat.toUInt64_eq, UInt64.toNat_ofNat']
    exact Nat.mod_eq_of_lt touch.clientSeq
  have hread : (srv.dataFrame L t addr (clientPacket L t up (c.txSeq + 1).toUInt64 sid cmd payload
      false cd)).2.payload = some (paddedFrame sid cmd payload cd) :=
    payload_dataFrame_clientPacket ideal.correct touch.recvKey (by have := touch.fresh; omega)
  rw [serverReads, sendRawPacket_eq touch, Option.bind_some, AegsServer.processPacket,
    if_neg (by omega), if_neg (fun h => by omega)]
  simp only [clientHandshake_clientPacket ideal, head_clientPacket]
  by_cases hone : cd.hdrIv[0] = 0x01
  · rw [if_pos ⟨hone, by omega⟩, if_pos (Or.inl hone)]
    have hignored : (srv.rawHandshake L t addr
        (clientPacket L t up (c.txSeq + 1).toUInt64 sid cmd payload false cd) rd).2.payload =
          none := by
      rw [AegsServer.rawHandshake]
      split
      · rfl
      · split
        · rfl
        · split <;> rfl
    rw [hignored, Option.bind_none]
  · rw [if_neg fun h => hone h.1]
    by_cases hfour : cd.hdrIv[0] = 0x04
    · rw [if_pos ⟨hfour, by omega⟩, if_pos (Or.inr hfour)]
      rfl
    · rw [if_neg fun h => hfour h.1, if_neg (not_or.mpr ⟨hone, hfour⟩), hread, Option.bind_some]

/-! ### From the server to the client -/

/-- What opening a packet at the client comes to, whatever is behind its nonce. -/
theorem openAtClient_outerHeader {key : Vector UInt8 32} {flag : UInt8}
    {hdrIv nonce : Vector UInt8 12} {junk : List UInt8} (hjunk : junk.length < 65536)
    {sealed : List UInt8} (hsealed : 16 ≤ sealed.length) :
    openAtClient L t key (outerHeader L.cipher t.rawKid (maskKey L t) flag hdrIv junk ++
        nonce.toList ++ sealed) =
      L.cipher.decrypt key nonce (outerHeader L.cipher t.rawKid (maskKey L t) flag hdrIv junk)
        sealed := by
  have hlen : (outerHeader L.cipher t.rawKid (maskKey L t) flag hdrIv junk ++ nonce.toList ++
      sealed).length = 28 + junk.length + 12 + sealed.length := by
    rw [List.length_append, List.length_append, length_outerHeader, Vector.length_toList]
  have hhdr := @unmaskedHeader_outerHeader L.cipher t.rawKid (maskKey L t) flag hdrIv junk
    (nonce.toList ++ sealed)
  rw [← List.append_assoc] at hhdr
  have hoffset := aeadOffset_outerHeader L.cipher t.rawKid (maskKey L t) flag hdrIv hjunk
  rw [length_outerHeader] at hoffset
  rw [openAtClient, hlen, if_neg (by omega)]
  simp only [hhdr]
  rw [if_neg (not_not.mpr (hasMagic_plainHeader _ _ _)), if_neg (by omega),
    openPacket_outerHeader key hjunk]

theorem ServerDraws.junk_lt (d : ServerDraws) : d.junk.toList.length < 65536 := by
  rw [Vector.length_toList]
  decide

/-- **What the client reads of a frame**: the payload with the padding, or nothing if the
datagram does not fit its buffer, or the frame is of no stream or chaff. -/
theorem clientReads_eq (touch : InTouch c srv up down)
    (ideal : AeadIdeal L.cipher up down (handshakeKey L t)) (hpayload : payload.length ≤ 16384) :
    clientReads L t c srv sid cmd payload sd =
      if 4048 < 37 + payload.length + sd.jitter ∨ sid = 0 ∨ cmd = cmdChaff then none
      else some (sid, cmd, payload ++ (sd.padding (16 + sd.jitter)).toList) := by
  have hsent : (srv.sendAegsFrame L t sid cmd payload sd).1 =
      some (serverPacket L t down (srv.txSeq + 1).toUInt64 sid cmd payload sd) := by
    obtain ⟨addr, haddr⟩ := Option.isSome_iff_exists.mp touch.clientAddr
    rw [AegsServer.sendAegsFrame, haddr, touch.serverKey]
    simp only [if_pos touch.serverSeq]
  rw [clientReads, hsent, Option.bind_some, AegsClient.receive, touch.clientKey]
  generalize hpad : (sd.padding (16 + sd.jitter)).toList = padding
  have hpadLen : padding.length = 16 + sd.jitter := by rw [← hpad, Vector.length_toList]
  generalize hnonce : aeadNonce (srv.txSeq + 1).toUInt64 sd.nonceTail = nonce
  generalize houter : outerHeader L.cipher t.rawKid (maskKey L t) 0 sd.hdrIv sd.junk.toList = outer
  have houterLen : outer.length = 36 := by
    rw [← houter, length_outerHeader, Vector.length_toList]
  have hframe :
      (frame sid cmd payload ++ padding).length = 5 + payload.length + padding.length := by
    rw [List.length_append, length_frame]
  have hsealedLen := ideal.correct.length_encrypt down nonce outer
    (frame sid cmd payload ++ padding)
  -- the buffer of `recvfrom` ends in the sealed part
  have htake : (serverPacket L t down (srv.txSeq + 1).toUInt64 sid cmd payload sd).take 4096 =
      outer ++ nonce.toList ++
        (L.cipher.encrypt down nonce outer (frame sid cmd payload ++ padding)).take 4048 := by
    rw [serverPacket, sealPacket, houter, hnonce, hpad, List.take_append, List.length_append,
      houterLen, Vector.length_toList, List.take_of_length_le]
    rw [List.length_append, houterLen, Vector.length_toList]
    omega
  have hopen : openAtClient L t down
      ((serverPacket L t down (srv.txSeq + 1).toUInt64 sid cmd payload sd).take 4096) =
      L.cipher.decrypt down nonce outer
        ((L.cipher.encrypt down nonce outer (frame sid cmd payload ++ padding)).take 4048) := by
    rw [htake, ← houter]
    refine openAtClient_outerHeader sd.junk_lt ?_
    rw [List.length_take, houter]
    omega
  simp only [hopen]
  rcases Nat.lt_or_ge 4048 ((frame sid cmd payload ++ padding).length + 16) with hcut | hall
  · rw [ideal.cut_fails _ _ _ _ (by have := sd.jitter.isLt; omega) hcut, if_pos (Or.inl (by omega))]
  · have hroom : ¬4048 < 37 + payload.length + sd.jitter := by omega
    rw [List.take_of_length_le (by omega), ideal.correct.decrypt_encrypt, frame_append]
    simp only [length_frame, streamId_frame, getD_frame_cmd, drop_frame, hroom, false_or]
    rw [if_neg (by omega)]

/-- It goes on behind the payload, if it reads anything. -/
theorem clientReads_ne (touch : InTouch c srv up down)
    (ideal : AeadIdeal L.cipher up down (handshakeKey L t)) (hpayload : payload.length ≤ 16384) :
    clientReads L t c srv sid cmd payload sd ≠ some (sid, cmd, payload) := by
  rw [clientReads_eq touch ideal hpayload]
  intro h
  obtain ⟨-, h⟩ := Option.ite_none_left_eq_some.mp h
  have hread := congrArg (fun read => read.2.2.length) (Option.some.inj h)
  simp only [List.length_append, Vector.length_toList] at hread
  omega

/-! ### What is recovered -/

/-- No byte of a local socket reaches the remote one as it was. -/
theorem not_recovered_upload (touch : InTouch c srv up down)
    (ideal : AeadIdeal L.cipher up down (handshakeKey L t)) :
    serverReads L t c srv addr sid cmdData payload cd rd ≠ some (.data sid payload) := by
  rw [serverReads_eq touch ideal]
  split
  · exact Option.some_ne_none _ ∘ Eq.symm
  · rw [paddedFrame, handleClientPayload_data]
    intro h
    have hpad := (cd.padLen_ge (frame sid cmdData payload).length).1
    have hread := congrArg List.length (Command.data.inj (Option.some.inj h)).2
    rw [List.length_append, Vector.length_toList] at hread
    omega

/-- Which hosts and ports the server reads as they were. -/
theorem recovered_connect_iff (touch : InTouch c srv up down)
    (ideal : AeadIdeal L.cipher up down (handshakeKey L t)) (host : List Char) (port : UInt16) :
    Recovered L t c srv addr sid cd rd sd (.connect host port) ↔
      (Message.connect host port).Survives sid cd.hdrIv := by
  rw [Recovered, Message.Survives, connPayload]
  by_cases hhost : host.length ≤ 255
  · rw [if_pos hhost, Option.bind_some, serverReads_eq touch ideal, and_iff_right hhost]
    by_cases hiv : cd.hdrIv[0] = 0x01 ∨ cd.hdrIv[0] = 0x04
    · rw [if_pos hiv]
      refine iff_of_false (Option.some_ne_none _ ∘ Eq.symm) fun h => ?_
      exact hiv.elim h.2.1 h.2.2
    · rw [if_neg hiv, paddedFrame, handleClientPayload_connect sid port hhost,
        and_iff_left (not_or.mp hiv), ← hostSurvives_iff host port, Option.some_inj,
        Command.connect.injEq, and_iff_right rfl]
  · rw [if_neg hhost, Option.bind_none]
    exact iff_of_false (Option.some_ne_none _ ∘ Eq.symm) fun h => hhost h.1

/-- When the server reads the end of a local socket. -/
theorem recovered_closeUp_iff (touch : InTouch c srv up down)
    (ideal : AeadIdeal L.cipher up down (handshakeKey L t)) :
    Recovered L t c srv addr sid cd rd sd .closeUp ↔
      Message.closeUp.Survives sid cd.hdrIv := by
  rw [Recovered, Message.Survives, serverReads_eq touch ideal, ← not_or]
  by_cases hiv : cd.hdrIv[0] = 0x01 ∨ cd.hdrIv[0] = 0x04
  · rw [if_pos hiv]
    exact iff_of_false (Option.some_ne_none _ ∘ Eq.symm) (not_not.mpr hiv)
  · rw [if_neg hiv, paddedFrame, handleClientPayload_close]
    exact iff_of_true rfl hiv

/-- When the client reads the end of a remote one. -/
theorem recovered_closeDown_iff (touch : InTouch c srv up down)
    (ideal : AeadIdeal L.cipher up down (handshakeKey L t)) :
    Recovered L t c srv addr sid cd rd sd .closeDown ↔
      Message.closeDown.Survives sid cd.hdrIv := by
  have hroom : ¬4048 < 37 + ([] : List UInt8).length + sd.jitter := by
    have := sd.jitter.isLt
    simp only [List.length_nil]
    omega
  rw [Recovered, Message.Survives, clientReads_eq touch ideal (Nat.zero_le _)]
  by_cases hsid : sid = 0
  · rw [if_pos (Or.inr (Or.inl hsid))]
    exact iff_of_false (Option.some_ne_none _ ∘ Eq.symm) (not_not.mpr hsid)
  · rw [if_neg (not_or.mpr ⟨hroom, not_or.mpr ⟨hsid, by decide⟩⟩)]
    exact iff_of_true rfl hsid

/-- **What the tunnel hands over as it was**: between two sides in touch, no bytes of a
socket, and a host and a port or the end of a socket exactly if the condition holds. -/
theorem recovered_iff (touch : InTouch c srv up down)
    (ideal : AeadIdeal L.cipher up down (handshakeKey L t)) (m : Message) (hm : m.Sendable) :
    Recovered L t c srv addr sid cd rd sd m ↔ m.Survives sid cd.hdrIv := by
  cases m with
  | upload payload => exact iff_of_false (not_recovered_upload touch ideal) id
  | download payload => exact iff_of_false (clientReads_ne touch ideal hm) id
  | connect host port => exact recovered_connect_iff touch ideal host port
  | closeUp => exact recovered_closeUp_iff touch ideal
  | closeDown => exact recovered_closeDown_iff touch ideal

end

/-! ### Two sides with small keys -/

/-- A tag with the first byte of the key and the length of the plaintext. -/
def lengthTag (key : Vector UInt8 32) (n : ℕ) : List UInt8 :=
  [getElem key 0 zero_lt_32, UInt8.ofNat (n / 256), UInt8.ofNat n] ++ List.replicate 13 0

/-- A cipher that puts this tag in front of the plaintext. -/
def lengthCipher : DataCipher where
  keystream := fun key _ => Vector.replicate 16 (getElem key 0 zero_lt_32)
  encrypt := fun key _ _ plain => lengthTag key plain.length ++ plain
  decrypt := fun key _ _ sealed =>
    if sealed.take 16 = lengthTag key (sealed.length - 16) ∧ 16 ≤ sealed.length then
      some (sealed.drop 16)
    else none

/-- A library with this cipher, in which a derived key says how long its info string is. -/
def lengthLibrary : Library Unit where
  cipher := lengthCipher
  hkdfExpand := fun _ info => Vector.replicate 32 (UInt8.ofNat info.length)
  hkdfExtractAndExpand := fun _ _ info => Vector.replicate 32 (UInt8.ofNat info.length)
  hmac := fun _ _ => Vector.replicate 32 0
  pub := fun _ => Vector.replicate 32 9
  exchange := fun _ _ => some []

theorem length_lengthTag (key : Vector UInt8 32) (n : ℕ) : (lengthTag key n).length = 16 := rfl

theorem lengthCipher_correct : lengthCipher.Correct where
  decrypt_encrypt := by
    intro key nonce aad plain
    have hlen : (lengthTag key plain.length ++ plain).length = 16 + plain.length := by
      rw [List.length_append, length_lengthTag]
    simp only [lengthCipher]
    rw [hlen, Nat.add_sub_cancel_left, List.take_left' (length_lengthTag _ _),
      List.drop_left' (length_lengthTag _ _), if_pos ⟨rfl, by omega⟩]
  length_encrypt := by
    intro key nonce aad plain
    simp only [lengthCipher, List.length_append, length_lengthTag]
    omega

/-- The tag tells keys apart by their first byte, and lengths below 65536. -/
theorem lengthTag_inj {key key' : Vector UInt8 32} {n n' : ℕ} (hn : n < 65536) (hn' : n' < 65536)
    (h : lengthTag key n = lengthTag key' n') : key[0] = key'[0] ∧ n = n' := by
  simp only [lengthTag, List.cons_append, List.cons.injEq] at h
  obtain ⟨hkey, hhigh, hlow, -⟩ := h
  have hhigh' := congrArg UInt8.toNat hhigh
  have hlow' := congrArg UInt8.toNat hlow
  simp only [UInt8.toNat_ofNat'] at hhigh' hlow'
  exact ⟨hkey, by omega⟩

theorem lengthLibrary_ideal (t : Token) : AeadIdeal lengthLibrary.cipher (Vector.replicate 32 1)
    (Vector.replicate 32 2) (handshakeKey lengthLibrary t) where
  correct := lengthCipher_correct
  handshake_fails := by
    intro nonce aad plain
    have hkey : handshakeKey lengthLibrary t = Vector.replicate 32 26 := rfl
    rw [hkey]
    simp only [lengthLibrary, lengthCipher]
    rw [if_neg]
    rintro ⟨htag, -⟩
    have hhead := congrArg (fun sealed => sealed.getD 0 0) htag
    exact absurd hhead (by simp [lengthTag])
  cut_fails := by
    intro nonce aad plain n hplain hn
    simp only [lengthLibrary, lengthCipher]
    rw [if_neg]
    rintro ⟨htag, hlen⟩
    simp only [List.length_take, List.length_append, length_lengthTag] at htag hlen
    rw [List.take_take, Nat.min_eq_left (by omega), List.take_left' (length_lengthTag _ _)] at htag
    have hsame := (lengthTag_inj hplain (by omega) htag).2
    omega

/-- A client that has shaken hands. -/
def smallClient : AegsClient Unit :=
  ⟨(), some (Vector.replicate 32 1), some (Vector.replicate 32 2), 0⟩

/-- And its server. -/
def smallServer : AegsServer Unit :=
  ⟨(), some 0, some (Vector.replicate 32 2), some (Vector.replicate 32 1), .new, 0, []⟩

/-- A token. -/
def smallToken : Token := ⟨Vector.replicate 32 7, 5⟩

theorem smallClient_inTouch :
    InTouch smallClient smallServer (Vector.replicate 32 1) (Vector.replicate 32 2) :=
  ⟨rfl, rfl, rfl, rfl, rfl, le_rfl, by decide, by decide⟩

local instance neZeroJitter : NeZero 33 := ⟨by decide⟩

local instance neZeroPercent : NeZero 100 := ⟨by decide⟩

/-- Draws of the client, all zero. -/
def zeroClientDraws : ClientDraws :=
  ⟨0, fun n => Vector.replicate n 0, Vector.replicate 4 0, 0, 99, Vector.replicate 12 0,
    fun n => Vector.replicate n 0⟩

/-- Draws of the server, all zero. -/
def zeroServerDraws : ServerDraws :=
  ⟨0, fun n => Vector.replicate n 0, Vector.replicate 4 0, Vector.replicate 12 0,
    Vector.replicate 8 0⟩

/-- Draws for an answer, all zero. -/
def zeroReplyDraws : ReplyDraws :=
  ⟨Vector.replicate 12 0, Vector.replicate 32 0, Vector.replicate 12 0, Vector.replicate 16 0,
    Vector.replicate 12 0, Vector.replicate 8 0, true⟩

/-- **What the tunnel changes**: a byte of a local socket is followed by the padding, a byte
of a remote socket as well, and a host that is not ASCII becomes another one, with another
port. -/
theorem not_recovered :
    (serverReads lengthLibrary smallToken smallClient smallServer 0 101 cmdData [7]
        zeroClientDraws zeroReplyDraws = some (.data 101 ([7] ++ List.replicate 210 0))) ∧
      (clientReads lengthLibrary smallToken smallClient smallServer 101 cmdData [7]
        zeroServerDraws = some (101, cmdData, [7] ++ List.replicate 16 0)) ∧
      ((connPayload ['ü'] 443).bind fun payload =>
        serverReads lengthLibrary smallToken smallClient smallServer 0 101 cmdConnect payload
          zeroClientDraws zeroReplyDraws) =
        some (.connect 101 [Utf8.replacementChar] 48129) := by
  refine ⟨?_, ?_, ?_⟩ <;> decide +kernel

/-- The rule for a host that is ASCII. -/
theorem recovered_ascii :
    Recovered lengthLibrary smallToken smallClient smallServer 0 101 zeroClientDraws
      zeroReplyDraws zeroServerDraws (.connect ['a', '.', 'b'] 443) :=
  (recovered_iff smallClient_inTouch (lengthLibrary_ideal smallToken) (.connect _ _) trivial).mpr
    ⟨by decide, Or.inl (by simp [Utf8.IsAscii]), by decide, by decide⟩

end Tunnel

end Aegs
