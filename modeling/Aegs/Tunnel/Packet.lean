import Aegs.Lib.Utf8
import Aegs.Wire.Packet

/-!
# The Python tunnel

`aegs_client.py` and `aegs_server.py`, packet by packet. A data packet has the layout of
`Aegs.Wire.Packet`; inside is a stream id, a command, what belongs to the command, and
random padding that nothing tells apart from it.

The server looks at a packet in turn as a STUN probe, as a handshake of the client, as a
handshake in the clear, as a resumption token and as a data frame
(`Aegs.Tunnel.AegsServer.processPacket`); only the last has to get past the replay filter.
The client has no filter (`Aegs.Tunnel.AegsClient.receive`).

The key id of a token is its number, least significant byte first. Where Python raises,
the value is `none`: each of these exceptions ends in an `except` that ignores it.
-/

namespace Aegs

namespace Tunnel

open Bytes Wire

/-- The cryptography of the two programs, over X25519 private keys `S`. -/
structure Library (S : Type) where
  /-- ChaCha20 and ChaCha20-Poly1305. -/
  cipher : DataCipher
  /-- `hkdf_expand`, of a secret and an info string. -/
  hkdfExpand : List UInt8 → String → Vector UInt8 32
  /-- `hkdf_extract_and_expand`, of a salt, a secret and an info string. -/
  hkdfExtractAndExpand : List UInt8 → List UInt8 → String → Vector UInt8 32
  /-- HMAC-SHA256, of a key and some data. -/
  hmac : List UInt8 → List UInt8 → Vector UInt8 32
  /-- `public_bytes_raw`. -/
  pub : S → Vector UInt8 32
  /-- `exchange`, which raises for a point of low order. -/
  exchange : S → Vector UInt8 32 → Option (List UInt8)

/-- What both sides compute from the token. -/
structure Token where
  /-- `master_key`. -/
  masterKey : Vector UInt8 32
  /-- `raw_kid`. -/
  rawKid : UInt64

section

variable {S : Type} (L : Library S) (t : Token)

/-- `mask_key`. -/
def maskKey : Vector UInt8 32 := L.hkdfExpand t.masterKey.toList "AEGS-V4-MASK-KEY-2026"

/-- `handshake_key`. -/
def handshakeKey : Vector UInt8 32 := L.hkdfExpand t.masterKey.toList "AEGS-V4-HANDSHAKE-INIT-KEY"

/-- `hkdf_salt`. -/
def hkdfSalt : Vector UInt8 32 := L.hkdfExpand t.masterKey.toList "AEGS-V4-HANDSHAKE-SALT"

/-- `auth_tag` and `server_tag`, of a public key. -/
def authTag (pub : List UInt8) : Vector UInt8 16 :=
  copyOut (L.hmac (hkdfSalt L t).toList pub).toList 0 16

/-- `rkey`. -/
def rkey : Vector UInt8 32 :=
  L.hkdfExtractAndExpand t.masterKey.toList "aegis-v2-salt".toUTF8.toList "aegs-v4-resumption-key"

/-- The keys of a handshake, of the client's packets and of the server's. -/
def writeKeys (sharedSecret : List UInt8) : Vector UInt8 32 × Vector UInt8 32 :=
  (L.hkdfExpand sharedSecret "AEGS-V4-CLIENT-WRITE-KEY-2026",
    L.hkdfExpand sharedSecret "AEGS-V4-SERVER-WRITE-KEY-2026")

end

/-! ### The commands -/

/-- `CMD_CONNECT`. -/
def cmdConnect : UInt8 := 0x01

/-- `CMD_DATA`. -/
def cmdData : UInt8 := 0x02

/-- `CMD_CLOSE`. -/
def cmdClose : UInt8 := 0x03

/-- `CMD_CHAFF`. -/
def cmdChaff : UInt8 := 0x04

/-- What the server is asked to do. -/
inductive Command
  /-- Connect a stream to a host and a port. -/
  | connect (streamId : UInt32) (host : List Char) (port : UInt16)
  /-- Write to the remote socket of a stream. -/
  | data (streamId : UInt32) (payload : List UInt8)
  /-- Close a stream. -/
  | close (streamId : UInt32)
  deriving DecidableEq

/-- `conn_payload`. `struct.pack` raises for a host of more than 255 characters. -/
def connPayload (destAddr : List Char) (destPort : UInt16) : Option (List UInt8) :=
  if destAddr.length ≤ 255 then
    some ([UInt8.ofNat destAddr.length] ++ Utf8.encode destAddr ++ (be16 destPort).toList)
  else none

/-- `frame`. -/
def frame (streamId : UInt32) (cmd : UInt8) (payload : List UInt8) : List UInt8 :=
  (be32 streamId).toList ++ [cmd] ++ payload

/-- The command of a decrypted frame, if `handle_client_payload` does something with it. -/
def handleClientPayload (pt : List UInt8) : Option Command :=
  if pt.length < 5 then none
  else
    let streamId := ofBe32 (copyOut pt 0 4)
    let cmd := pt.getD 4 0
    if cmd = cmdConnect then
      if pt.length < 6 then none
      else
        let hostLen := (pt.getD 5 0).toNat
        if pt.length < 8 + hostLen then none
        else some (.connect streamId (Utf8.decodeReplace ((pt.drop 6).take hostLen))
          (ofBe16 (copyOut pt (6 + hostLen) 2)))
    else if cmd = cmdData then some (.data streamId (pt.drop 5))
    else if cmd = cmdClose then some (.close streamId)
    else none

/-! ### The replay filter -/

/-- `AntiReplayFilter` with its default size. -/
structure AntiReplayFilter where
  /-- `max_seq`. -/
  maxSeq : ℕ
  /-- `window`. -/
  window : List UInt8
  deriving DecidableEq

/-- `window_size`. -/
def windowSize : ℕ := 2048

/-- A new filter. -/
def AntiReplayFilter.new : AntiReplayFilter := ⟨0, List.replicate (windowSize / 8) 0⟩

/-- The loop over `bits_shift`, from the last byte to the first: the bytes, and the carry
that is left. -/
def shiftBits (bitsShift : ℕ) : List UInt8 → List UInt8 × UInt8
  | [] => ([], 0)
  | b :: bytes =>
    let (bytes, carry) := shiftBits bitsShift bytes
    (((b <<< UInt8.ofNat bitsShift) ||| carry) :: bytes, b >>> UInt8.ofNat (8 - bitsShift))

/-- The window after an advance by `diff`. -/
def advanceWindow (window : List UInt8) (diff : ℕ) : List UInt8 :=
  if windowSize ≤ diff then List.replicate (windowSize / 8) 0
  else
    let window :=
      if 0 < diff / 8 then List.replicate (diff / 8) 0 ++ window.take (window.length - diff / 8)
      else window
    if 0 < diff % 8 then (shiftBits (diff % 8) window).1 else window

/-- `self.window[diff // 8] & (1 << (diff % 8))`. -/
def marked (window : List UInt8) (diff : ℕ) : Bool :=
  window.getD (diff / 8) 0 &&& (1 <<< UInt8.ofNat (diff % 8)) ≠ 0

/-- `self.window[diff // 8] |= (1 << (diff % 8))`. -/
def mark (window : List UInt8) (diff : ℕ) : List UInt8 :=
  window.modify (diff / 8) (· ||| (1 <<< UInt8.ofNat (diff % 8)))

/-- `check_and_update`: whether the number is turned down, and the filter after it. -/
def AntiReplayFilter.checkAndUpdate (f : AntiReplayFilter) (seq : ℕ) : Bool × AntiReplayFilter :=
  if seq = 0 then (true, f)
  else if f.maxSeq < seq then (false, ⟨seq, mark (advanceWindow f.window (seq - f.maxSeq)) 0⟩)
  else
    let diff := f.maxSeq - seq
    if windowSize ≤ diff then (true, f)
    else if marked f.window diff then (true, f)
    else (false, { f with window := mark f.window diff })

/-! ### The client -/

/-- `AegsClient`, as far as packets are concerned. -/
structure AegsClient (S : Type) where
  /-- `client_priv`. -/
  clientPriv : S
  /-- `send_key`. -/
  sendKey : Option (Vector UInt8 32)
  /-- `recv_key`. -/
  recvKey : Option (Vector UInt8 32)
  /-- `tx_seq`. -/
  txSeq : ℕ

/-- What the client draws for a packet. -/
structure ClientDraws where
  /-- `secrets.randbelow(33)`. -/
  jitter : Fin 33
  /-- The padding. -/
  padding : (n : ℕ) → Vector UInt8 n
  /-- The end of the nonce. -/
  nonceTail : Vector UInt8 4
  /-- `secrets.randbelow(17)`. -/
  junkBelow : Fin 17
  /-- `secrets.randbelow(100)`. -/
  percent : Fin 100
  /-- `hdr_iv`. -/
  hdrIv : Vector UInt8 12
  /-- The junk. -/
  junk : (n : ℕ) → Vector UInt8 n

/-- `pad_len` of a frame of the client. -/
def ClientDraws.padLen (d : ClientDraws) (frameLen : ℕ) : ℕ :=
  let padTarget := if frameLen < 200 then 256 else 1350
  max 16 (padTarget - frameLen - 40) + d.jitter

local instance neZeroHundred : NeZero 100 := ⟨by decide⟩

/-- `junk_len` of a packet of the client. -/
def ClientDraws.junkLen (d : ClientDraws) : ℕ := if d.percent < 25 then 16 + d.junkBelow else 0

/-- `chaff_flag`. -/
def chaffFlag (isChaff : Bool) : UInt8 := if isChaff then 0x80 else 0x00

section

variable {S : Type} (L : Library S) (t : Token)

/-- The packet of `send_raw_packet`, under its key and sequence number. -/
def clientPacket (sendKey : Vector UInt8 32) (seq : UInt64) (sid : UInt32) (cmd : UInt8)
    (payload : List UInt8) (isChaff : Bool) (d : ClientDraws) : List UInt8 :=
  let frame := frame sid cmd payload
  sealPacket L.cipher
    (outerHeader L.cipher t.rawKid (maskKey L t) (chaffFlag isChaff) d.hdrIv
      (d.junk d.junkLen).toList) sendKey (aeadNonce seq d.nonceTail)
    (frame ++ (d.padding (d.padLen frame.length)).toList)

/-- `send_raw_packet`: the packet that is sent, if any. `struct.pack` raises behind the
last sequence number. -/
def AegsClient.sendRawPacket (c : AegsClient S) (sid : UInt32) (cmd : UInt8)
    (payload : List UInt8) (isChaff : Bool) (d : ClientDraws) :
    Option (List UInt8) × AegsClient S :=
  match c.sendKey with
  | none => (none, c)
  | some sendKey =>
    let c := { c with txSeq := c.txSeq + 1 }
    if c.txSeq < 2 ^ 64 then
      (some (clientPacket L t sendKey c.txSeq.toUInt64 sid cmd payload isChaff d), c)
    else (none, c)

/-- The handshake of `perform_handshake`. -/
def AegsClient.handshakePacket (c : AegsClient S) (hdrIv aeadNonce : Vector UInt8 12)
    (junk : Vector UInt8 16) : List UInt8 :=
  let clientPub := (L.pub c.clientPriv).toList
  sealPacket L.cipher (outerHeader L.cipher t.rawKid (maskKey L t) 0 hdrIv junk.toList)
    (handshakeKey L t) aeadNonce (clientPub ++ (authTag L t clientPub).toList)

/-- What both loops of the client do first: the packet is opened under a key. -/
def openAtClient (key : Vector UInt8 32) (data : List UInt8) : Option (List UInt8) :=
  if data.length < 28 + 12 + 16 then none
  else
    let hdr := unmaskedHeader L.cipher (maskKey L t) data
    if ¬hasMagic hdr then none
    else if data.length < aeadOffset hdr + 12 then none
    else openPacket L.cipher key hdr data

/-- `perform_handshake` on one packet: the keys are set if it is a response with the right
tag. -/
def AegsClient.processResponse (c : AegsClient S) (data : List UInt8) : AegsClient S :=
  match openAtClient L t (handshakeKey L t) (data.take 2048) with
  | none => c
  | some respPt =>
    if respPt.length < 48 ∨ copyOut respPt 32 16 ≠ authTag L t (respPt.take 32) then c
    else
      match L.exchange c.clientPriv (copyOut respPt 0 32) with
      | none => c
      | some sharedSecret =>
        { c with
          sendKey := some (writeKeys L sharedSecret).1
          recvKey := some (writeKeys L sharedSecret).2 }

/-- One round of `udp_receiver_loop`: the stream id, the command and the payload of what it
acts on. -/
def AegsClient.receive (c : AegsClient S) (data : List UInt8) :
    Option (UInt32 × UInt8 × List UInt8) :=
  match c.recvKey with
  | none => none
  | some recvKey =>
    match openAtClient L t recvKey (data.take 4096) with
    | none => none
    | some pt =>
      if pt.length < 5 then none
      else
        let streamId := ofBe32 (copyOut pt 0 4)
        let cmd := pt.getD 4 0
        if streamId = 0 ∨ cmd = cmdChaff then none else some (streamId, cmd, pt.drop 5)

/-! ### The server -/

/-- `AegsServer`, as far as packets are concerned, with the key pair of `start`. -/
structure AegsServer (S : Type) where
  /-- `server_priv`. -/
  serverPriv : S
  /-- `client_addr`. -/
  clientAddr : Option ℕ
  /-- `send_key`. -/
  sendKey : Option (Vector UInt8 32)
  /-- `recv_key`. -/
  recvKey : Option (Vector UInt8 32)
  /-- `replay_filter`. -/
  replayFilter : AntiReplayFilter
  /-- `tx_seq`. -/
  txSeq : ℕ
  /-- `seen_resumption_nonces`. -/
  seenResumptionNonces : List (Vector UInt8 12)

/-- A server that has just started. -/
def AegsServer.start (serverPriv : S) : AegsServer S :=
  ⟨serverPriv, none, none, none, .new, 0, []⟩

/-- What the server draws for an answer, and whether `sendto` goes through. -/
structure ReplyDraws where
  /-- The end of the decoy. -/
  decoy : Vector UInt8 12
  /-- `session_tok`. -/
  sessionTok : Vector UInt8 32
  /-- `resp_hdr_iv`. -/
  hdrIv : Vector UInt8 12
  /-- The junk of the response. -/
  junk : Vector UInt8 16
  /-- `resp_nonce`. -/
  nonce : Vector UInt8 12
  /-- `session_id`. -/
  sessionId : Vector UInt8 8
  /-- `sendto` does not raise. -/
  sent : Bool

/-- What comes of a packet: the answer, and the frame that reaches
`handle_client_payload`. -/
structure Outcome where
  /-- The answer. -/
  reply : Option (List UInt8)
  /-- The decrypted frame. -/
  payload : Option (List UInt8)
  deriving DecidableEq

/-- Nothing comes of it. -/
def Outcome.ignored : Outcome := ⟨none, none⟩

/-- New keys, and with them a new filter. -/
def AegsServer.install (srv : AegsServer S) (addr : ℕ) (recvKey sendKey : Vector UInt8 32) :
    AegsServer S :=
  { srv with
    recvKey := some recvKey
    sendKey := some sendKey
    clientAddr := some addr
    replayFilter := .new }

/-- The handshake of the client that a packet opens to. -/
def openHandshake (data : List UInt8) : Option (List UInt8) :=
  if data.length < 28 + 12 + 48 then none
  else
    let hdr := unmaskedHeader L.cipher (maskKey L t) data
    if hasKeyId t.rawKid hdr ∧ hasMagic hdr ∧ aeadOffset hdr + 12 + 48 ≤ data.length then
      openPacket L.cipher (handshakeKey L t) hdr data
    else none

/-- The response to a handshake of the client. -/
def handshakeResponse (srv : AegsServer S) (d : ReplyDraws) : List UInt8 :=
  let serverPub := (L.pub srv.serverPriv).toList
  sealPacket L.cipher (outerHeader L.cipher t.rawKid (maskKey L t) 0 d.hdrIv d.junk.toList)
    (handshakeKey L t) d.nonce
    (serverPub ++ (authTag L t serverPub).toList ++ d.sessionTok.toList)

/-- Step 3: a handshake of the client. `none` where the packet goes on to the next step, which
it also does behind an exception. -/
def AegsServer.clientHandshake (srv : AegsServer S) (addr : ℕ) (data : List UInt8)
    (d : ReplyDraws) : AegsServer S × Option Outcome :=
  match openHandshake L t data with
  | none => (srv, none)
  | some ptHs =>
    if ptHs.length ≠ 48 then (srv, none)
    else if copyOut ptHs 32 16 ≠ authTag L t (ptHs.take 32) then (srv, some .ignored)
    else
      match L.exchange srv.serverPriv (copyOut ptHs 0 32) with
      | none => (srv, none)
      | some sharedSecret =>
        let keys := writeKeys L sharedSecret
        let srv := srv.install addr keys.1 keys.2
        if d.sent then (srv, some ⟨some (handshakeResponse L t srv d), none⟩) else (srv, none)

/-- `config_plain`. -/
def configPlain : List UInt8 :=
  (le32 0x0200080A).toList ++ (le16 1400).toList ++ List.replicate 10 0

/-- Step 4: a handshake in the clear. -/
def AegsServer.rawHandshake (srv : AegsServer S) (addr : ℕ) (data : List UInt8)
    (d : ReplyDraws) : AegsServer S × Outcome :=
  if copyOut data 8 8 ≠ le64 t.rawKid then (srv, .ignored)
  else if copyOut data 56 16 ≠
      copyOut (L.hmac t.masterKey.toList (data.take 56)).toList 0 16 then (srv, .ignored)
  else
    match L.exchange srv.serverPriv (copyOut data 16 32) with
    | none => (srv, .ignored)
    | some sharedSecret =>
      let recvKey := L.hkdfExtractAndExpand sharedSecret t.masterKey.toList "aegs-c2s"
      let sendKey := L.hkdfExtractAndExpand sharedSecret t.masterKey.toList "aegs-s2c"
      let respHdr := [0x02] ++ List.replicate 7 0 ++ d.sessionId.toList ++
        (L.pub srv.serverPriv).toList
      let encCfg := L.cipher.encrypt sendKey (Vector.replicate 12 0) respHdr configPlain
      (srv.install addr recvKey sendKey,
        ⟨if d.sent then some (respHdr ++ encCfg) else none, none⟩)

/-- Step 5: a resumption token. -/
def AegsServer.resume (srv : AegsServer S) (addr : ℕ) (data : List UInt8) : AegsServer S :=
  let rNonce : Vector UInt8 12 := copyOut data 1 12
  match L.cipher.decrypt (rkey L t) rNonce [] ((data.drop 13).take 52) with
  | none => srv
  | some _ =>
    if rNonce ∈ srv.seenResumptionNonces then srv
    else
      { srv.install addr (L.hkdfExpand t.masterKey.toList "aegs-c2s")
          (L.hkdfExpand t.masterKey.toList "aegs-s2c") with
        seenResumptionNonces := rNonce :: srv.seenResumptionNonces }

/-- Step 6: a data frame. The filter is updated before the frame is decrypted. -/
def AegsServer.dataFrame (srv : AegsServer S) (addr : ℕ) (data : List UInt8) :
    AegsServer S × Outcome :=
  match srv.recvKey with
  | none => (srv, .ignored)
  | some recvKey =>
    let hdr := unmaskedHeader L.cipher (maskKey L t) data
    if data.length < 56 ∨ ¬(hasKeyId t.rawKid hdr ∧ hasMagic hdr) ∨ ¬fits hdr data then
      (srv, .ignored)
    else
      let (replayed, replayFilter) :=
        srv.replayFilter.checkAndUpdate (nonceSeq (packetNonce hdr data)).toNat
      let srv := { srv with replayFilter := replayFilter }
      if replayed then (srv, .ignored)
      else
        match openPacket L.cipher recvKey hdr data with
        | none => (srv, .ignored)
        | some pt =>
          let srv := { srv with clientAddr := some addr }
          if getElem hdr 10 ten_lt_16 &&& 0x80 ≠ 0 then (srv, .ignored) else (srv, ⟨none, some pt⟩)

/-- What the server asks of a data frame. -/
structure Accepts (srv : AegsServer S) (data : List UInt8) (recvKey : Vector UInt8 32)
    (hdr : Vector UInt8 16) (pt : List UInt8) : Prop where
  /-- The server has a key. -/
  keyed : srv.recvKey = some recvKey
  /-- The header. -/
  header : hdr = unmaskedHeader L.cipher (maskKey L t) data
  /-- The packet is long enough. -/
  long : 56 ≤ data.length
  /-- It has the key id. -/
  named : hasKeyId t.rawKid hdr = true
  /-- And the magic bytes. -/
  magic : hasMagic hdr = true
  /-- It is long enough for its junk. -/
  roomy : fits hdr data = true
  /-- The filter lets its number through. -/
  fresh : (srv.replayFilter.checkAndUpdate (nonceSeq (packetNonce hdr data)).toNat).1 = false
  /-- It opens. -/
  opens : openPacket L.cipher recvKey hdr data = some pt

/-- **Which data frames reach `handle_client_payload`**. -/
theorem payload_dataFrame_eq_some_iff {srv : AegsServer S} {addr : ℕ} {data pt : List UInt8} :
    (srv.dataFrame L t addr data).2.payload = some pt ↔
      ∃ recvKey hdr, Accepts L t srv data recvKey hdr pt ∧
        getElem hdr 10 ten_lt_16 &&& 0x80 = 0 := by
  rw [AegsServer.dataFrame]
  split
  · rename_i hnone
    refine iff_of_false (fun h => nomatch h) ?_
    rintro ⟨recvKey, hdr, h, -⟩
    rw [h.keyed] at hnone
    exact nomatch hnone
  rename_i recvKey hrecv
  simp only
  split
  · rename_i hbad
    refine iff_of_false (fun h => nomatch h) ?_
    rintro ⟨recvKey', hdr, h, -⟩
    rw [← h.header] at hbad
    rcases hbad with hshort | hheader | hunfit
    · exact Nat.not_lt.mpr h.long hshort
    · exact hheader ⟨h.named, h.magic⟩
    · exact hunfit h.roomy
  rename_i hgood
  rw [not_or, not_or, not_not, not_not] at hgood
  obtain ⟨hlen, ⟨hkeyId, hmagic⟩, hfits⟩ := hgood
  split
  · rename_i hreplayed
    refine iff_of_false (fun h => nomatch h) ?_
    rintro ⟨recvKey', hdr, h, -⟩
    rw [← h.header, h.fresh] at hreplayed
    exact Bool.false_ne_true hreplayed
  rename_i hfresh
  split
  · rename_i hclosed
    refine iff_of_false (fun h => nomatch h) ?_
    rintro ⟨recvKey', hdr, h, -⟩
    obtain rfl := Option.some.inj (hrecv.symm.trans h.keyed)
    rw [← h.header, h.opens] at hclosed
    exact nomatch hclosed
  rename_i pt' hopens
  constructor
  · intro h
    split at h
    · exact nomatch h
    · rename_i hflag
      obtain rfl := Option.some.inj h
      exact ⟨recvKey, _, ⟨hrecv, rfl, Nat.not_lt.mp hlen, hkeyId, hmagic, hfits,
        Bool.eq_false_of_not_eq_true hfresh, hopens⟩, not_not.mp hflag⟩
  · rintro ⟨recvKey', hdr, h, hflag⟩
    obtain rfl := Option.some.inj (hrecv.symm.trans h.keyed)
    obtain rfl := h.header
    rw [if_neg (not_not.mpr hflag)]
    exact hopens.symm.trans h.opens

/-- **`process_packet`**. -/
def AegsServer.processPacket (srv : AegsServer S) (addr : ℕ) (data : List UInt8)
    (d : ReplyDraws) : AegsServer S × Outcome :=
  if data.length < 20 then (srv, .ignored)
  else if data.take 2 = [0x00, 0x01] ∧ data.length = 20 then
    (srv, ⟨some ([0x01, 0x01, 0x00, 0x00, 0x21, 0x12, 0xA4, 0x42] ++ d.decoy.toList), none⟩)
  else
    let (srv, handshake) := srv.clientHandshake L t addr data d
    match handshake with
    | some outcome => (srv, outcome)
    | none =>
      if data.getD 0 0 = 0x01 ∧ 72 ≤ data.length then srv.rawHandshake L t addr data d
      else if data.getD 0 0 = 0x04 ∧ 97 ≤ data.length then (srv.resume L t addr data, .ignored)
      else srv.dataFrame L t addr data

/-- What the server draws for a packet. -/
structure ServerDraws where
  /-- `secrets.randbelow(33)`. -/
  jitter : Fin 33
  /-- The padding. -/
  padding : (n : ℕ) → Vector UInt8 n
  /-- The end of the nonce. -/
  nonceTail : Vector UInt8 4
  /-- `hdr_iv`. -/
  hdrIv : Vector UInt8 12
  /-- The junk. -/
  junk : Vector UInt8 8

/-- The packet of `send_aegs_frame`, under its key and sequence number. -/
def serverPacket (sendKey : Vector UInt8 32) (seq : UInt64) (streamId : UInt32) (cmd : UInt8)
    (payload : List UInt8) (d : ServerDraws) : List UInt8 :=
  sealPacket L.cipher (outerHeader L.cipher t.rawKid (maskKey L t) 0 d.hdrIv d.junk.toList)
    sendKey (aeadNonce seq d.nonceTail)
    (frame streamId cmd payload ++ (d.padding (16 + d.jitter)).toList)

/-- `send_aegs_frame`: the packet that is sent, if any. -/
def AegsServer.sendAegsFrame (srv : AegsServer S) (streamId : UInt32) (cmd : UInt8)
    (payload : List UInt8) (d : ServerDraws) : Option (List UInt8) × AegsServer S :=
  match srv.clientAddr, srv.sendKey with
  | some _, some sendKey =>
    let srv := { srv with txSeq := srv.txSeq + 1 }
    if srv.txSeq < 2 ^ 64 then
      (some (serverPacket L t sendKey srv.txSeq.toUInt64 streamId cmd payload d), srv)
    else (none, srv)
  | _, _ => (none, srv)

end

end Tunnel

end Aegs
