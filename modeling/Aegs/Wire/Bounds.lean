import Aegs.Server.DataPlane
import Aegs.Wire.Client
import Aegs.Wire.TxBatch

/-!
# How long a packet gets

Three encoders fill a frame of up to 65535 bytes and put 40 bytes, some junk and a tag
around it. The guard of the server counts 80 bytes for all of that
(`Aegs.Wire.guardPad`), which leaves room for 24 bytes of junk where up to 64 are drawn;
`Aegs.Wire.onWire_le_iff` says which packets are longer than 1380 bytes for it.

The second half is about the buffers. Each encoder is the list of its writes
(`Aegs.Wire.Write`), by where they start and how long they are. The two encoders for the TUN
device stay inside their buffers, whatever is read and drawn. The one for the local WireGuard
has an output buffer of 64000 bytes for a frame that is longer than that
(`Aegs.Wire.inside_iff`).
-/

namespace Aegs

namespace Wire

open Server

/-! ### On the wire -/

/-- The guard of the server on the length of the padding. -/
def guardPad (padLen n : ℕ) : ℕ :=
  let frameLen := frameHdr + n + padLen
  if frameLen + 80 > 1380 ∨ frameLen + tagLen > internalBufSize then 0 else padLen

/-- **A frame that is padded is short**: the targets of a large payload are above the guard. -/
theorem guardPad_small (enabled : Bool) (d : ShaperDraws) {n : ℕ} (hn : n ≤ 1280) :
    guardPad (semanticPad enabled d n) n = 0 ∨
      frameHdr + n + guardPad (semanticPad enabled d n) n ≤ 768 := by
  have hhdr : frameHdr = 2 := rfl
  have hmedium := d.medium.isLt
  have hsmall := d.smallJitter.isLt
  simp only [guardPad]
  by_cases hbig : frameHdr + n + semanticPad enabled d n + 80 > 1380 ∨
      frameHdr + n + semanticPad enabled d n + tagLen > internalBufSize
  · exact Or.inl (if_pos hbig)
  · rw [if_neg hbig]
    -- what is left are the medium and the small target
    simp only [semanticPad, padTo_eq] at hbig ⊢
    split at hbig
    · exact Or.inl (if_pos ‹_›)
    · rename_i hon
      rw [if_neg hon]
      split at hbig
      · rw [if_pos ‹_›]
        omega
      · rename_i hpct
        rw [if_neg hpct]
        split at hbig
        · rw [if_pos ‹_›]
          omega
        · rename_i hlarge
          rw [if_neg hlarge, if_neg (by omega)] at *
          omega

section

variable {C : DataCipher}

/-- **A packet of the server fits 1380 bytes** exactly when its payload and its junk do, with
58 bytes around them. -/
theorem onWire_le_iff (hC : C.Correct) (keyId : UInt64) (maskKey sendKey : Vector UInt8 32)
    (seq : UInt64) (enabled : Bool) (d : Draws) {payload : List UInt8}
    (hn : payload.length ≤ 1280) :
    (encodePacket C keyId maskKey sendKey seq payload
        (guardPad (semanticPad enabled d.shaper payload.length) payload.length) d).length ≤ 1380 ↔
      payload.length + generateJunkLen d.junkByte ≤ 1322 := by
  have hhdr : frameHdr = 2 := rfl
  have hjunk := generateJunkLen_le d.junkByte
  rw [length_encodePacket C hC]
  rcases guardPad_small enabled d.shaper hn with hzero | hsmall
  · rw [hzero]
    omega
  · omega

end

/-- A byte of `generate_junk_len` for junk of 64 bytes, and nothing padded. -/
def longDraws : Draws :=
  { smallDraws (Vector.replicate 12 0) with junkByte := some 48 }

/-- **A full packet with all the junk there can be has 1402 bytes.** -/
theorem not_onWire_le :
    ¬∀ (enabled : Bool) (d : Draws) (payload : List UInt8), 20 ≤ payload.length →
      payload.length ≤ 1280 →
        (encodePacket smallDataCipher 5 (Vector.replicate 32 1) (Vector.replicate 32 2) 1 payload
          (guardPad (semanticPad enabled d.shaper payload.length) payload.length) d).length ≤
            1380 := by
  intro h
  have hlen : (List.replicate 1280 (0x45 : UInt8)).length = 1280 := List.length_replicate
  have hle := h false longDraws (List.replicate 1280 0x45) (by omega) (by omega)
  rw [length_encodePacket _ smallDataCipher_correct, hlen] at hle
  exact absurd hle (by decide)

/-- Without junk it has 1338. -/
theorem onWire_le_full :
    (encodePacket smallDataCipher 5 (Vector.replicate 32 1) (Vector.replicate 32 2) 1
      (List.replicate 1280 0x45)
      (guardPad (semanticPad true (smallDraws (Vector.replicate 12 0)).shaper 1280) 1280)
      (smallDraws (Vector.replicate 12 0))).length ≤ 1380 := by
  have hlen : (List.replicate 1280 (0x45 : UInt8)).length = 1280 := List.length_replicate
  have hiff := onWire_le_iff smallDataCipher_correct 5 (Vector.replicate 32 1)
    (Vector.replicate 32 2) 1 true (smallDraws (Vector.replicate 12 0)) hlen.le
  rw [hlen] at hiff
  exact hiff.mpr (by decide)

/-! ### Writes -/

/-- A write into a buffer. -/
structure Write where
  /-- The size of the buffer. -/
  capacity : ℕ
  /-- Where it starts. -/
  off : ℕ
  /-- How long it is. -/
  len : ℕ
deriving DecidableEq

/-- **The write stays inside its buffer.** -/
def Write.Inside (w : Write) : Prop := w.off + w.len ≤ w.capacity

instance (w : Write) : Decidable w.Inside := inferInstanceAs (Decidable (_ ≤ _))

/-- The writes of `wrap_quic_initial`: the shifted data and the fields of the header. -/
def wrapWrites (capacity dataLen : ℕ) (sessionSeed rand : Bool) : List Write :=
  if dataLen + quicHeaderSize > capacity then []
  else if ¬rand then []
  else
    ⟨capacity, quicHeaderSize, dataLen⟩ :: ⟨capacity, 0, 1⟩ :: ⟨capacity, 1, 4⟩ ::
      ⟨capacity, 5, 1⟩ ::
      (if sessionSeed then [⟨capacity, 6, 1⟩, ⟨capacity, 7, 1⟩, ⟨capacity, 8, 6⟩]
        else [⟨capacity, 6, 8⟩]) ++
      [⟨capacity, 14, 1⟩, ⟨capacity, 15, 8⟩, ⟨capacity, 23, 1⟩]

/-- Those of `queue_tx`, where there is a slot. -/
def queueTxWrites (len : ℕ) : List Write :=
  if len > txSlotSize then [] else [⟨txSlotSize, 0, len⟩]

/-- Those of `queue_tx_mimicry`. -/
def queueTxMimicryWrites (len : ℕ) (rand : Bool) : List Write :=
  if len + 24 > txSlotSize then []
  else ⟨txSlotSize, 0, len⟩ :: wrapWrites txSlotSize len true rand

/-- The writes into the frame buffer: the length, the payload and the padding. -/
def frameWrites (capacity n padLen : ℕ) : List Write :=
  [⟨capacity, 0, 2⟩, ⟨capacity, 2, n⟩] ++ if padLen > 0 then [⟨capacity, 2 + n, padLen⟩] else []

/-- The writes into the output buffer: the IV, the masked header, the junk, the nonce, and the
ciphertext with its tag. -/
def outWrites (capacity frameLen junkLen : ℕ) : List Write :=
  [⟨capacity, 0, 12⟩, ⟨capacity, 12, 16⟩] ++
    (if junkLen > 0 then [⟨capacity, 28, junkLen⟩] else []) ++
    [⟨capacity, 28 + junkLen, 12⟩, ⟨capacity, 28 + junkLen + 12, frameLen + tagLen⟩]

/-- `out_len`. -/
def outLen (frameLen junkLen : ℕ) : ℕ := 28 + junkLen + 12 + (frameLen + tagLen)

/-- What a sender draws, and the camouflage it puts on. -/
structure SendDraws where
  /-- `semantic_pad` is enabled. -/
  enabled : Bool
  /-- Its draws. -/
  shaper : ShaperDraws
  /-- The byte of `generate_junk_len`. -/
  junkByte : Option UInt8
  /-- The packet is camouflaged. -/
  mimicry : Bool
  /-- `RAND_bytes` succeeds in `wrap_quic_initial`. -/
  rand : Bool

/-- The writes of the TUN encoder of the server for a packet of `n` bytes. -/
def serverTunWrites (d : SendDraws) (n : ℕ) : List Write :=
  let padLen := guardPad (semanticPad d.enabled d.shaper n) n
  let frameLen := frameHdr + n + padLen
  let junkLen := generateJunkLen d.junkByte
  -- `dec_buf` and `tx_buf` of the scratchpad
  frameWrites internalBufSize n padLen ++ outWrites internalBufSize frameLen junkLen ++
    if d.mimicry then queueTxMimicryWrites (outLen frameLen junkLen) d.rand
    else queueTxWrites (outLen frameLen junkLen)

/-- The length of the padding of the client, unless the frame does not fit `pbuf` even
without it. -/
def clientGuardPad (padLen n : ℕ) : Option ℕ :=
  let padLen := if frameHdr + n + padLen + tagLen > internalBufSize then 0 else padLen
  if frameHdr + n + padLen + tagLen > internalBufSize then none else some padLen

/-- The writes of the TUN encoder of the client. -/
def clientTunWrites (d : SendDraws) (n : ℕ) : List Write :=
  match clientGuardPad (semanticPad d.enabled d.shaper n) n with
  | none => []
  | some padLen =>
    let frameLen := frameHdr + n + padLen
    let junkLen := generateJunkLen d.junkByte
    -- `pbuf` and `tx_buf`
    frameWrites internalBufSize n padLen ++ outWrites internalBufSize frameLen junkLen ++
      if d.mimicry then queueTxMimicryWrites (outLen frameLen junkLen) d.rand
      else queueTxWrites (outLen frameLen junkLen)

/-- The writes of its encoder for the local WireGuard. -/
def localWrites (d : SendDraws) (n : ℕ) : List Write :=
  match clientGuardPad (semanticPad d.enabled d.shaper n) n with
  | none => []
  | some padLen =>
    let frameLen := frameHdr + n + padLen
    let junkLen := generateJunkLen d.junkByte
    -- `pbuf`, `out_buf` and `mimicked_out`
    frameWrites internalBufSize n padLen ++ outWrites bufferSize frameLen junkLen ++
      if d.mimicry then
        ⟨bufferSize, 0, outLen frameLen junkLen⟩ ::
          wrapWrites bufferSize (outLen frameLen junkLen) true d.rand
      else []

/-! ### Which of them stay inside -/

theorem wrapWrites_inside (capacity dataLen : ℕ) (sessionSeed rand : Bool) :
    ∀ w ∈ wrapWrites capacity dataLen sessionSeed rand, w.Inside := by
  rw [wrapWrites, quicHeaderSize]
  split
  · exact fun w hw => absurd hw List.not_mem_nil
  · split
    · exact fun w hw => absurd hw List.not_mem_nil
    · cases sessionSeed <;> simp [Write.Inside] <;> omega

theorem queueTxWrites_inside (len : ℕ) : ∀ w ∈ queueTxWrites len, w.Inside := by
  rw [queueTxWrites]
  split
  · exact fun w hw => absurd hw List.not_mem_nil
  · simp only [List.mem_singleton, forall_eq, Write.Inside]
    omega

theorem queueTxMimicryWrites_inside (len : ℕ) (rand : Bool) :
    ∀ w ∈ queueTxMimicryWrites len rand, w.Inside := by
  rw [queueTxMimicryWrites]
  split
  · exact fun w hw => absurd hw List.not_mem_nil
  · rw [List.forall_mem_cons, Write.Inside]
    exact ⟨by simp only; omega, wrapWrites_inside _ _ _ _⟩

/-- **The TX slot** is never overrun. -/
theorem slotWrites_inside (d : SendDraws) (len : ℕ) :
    ∀ w ∈ (if d.mimicry then queueTxMimicryWrites len d.rand else queueTxWrites len),
      w.Inside := by
  split
  · exact queueTxMimicryWrites_inside len d.rand
  · exact queueTxWrites_inside len

theorem frameWrites_inside {capacity n padLen : ℕ} (h : frameHdr + n + padLen ≤ capacity) :
    ∀ w ∈ frameWrites capacity n padLen, w.Inside := by
  rw [frameHdr] at h
  rw [frameWrites]
  split
  · simp [Write.Inside]
    omega
  · simp [Write.Inside]
    omega

/-- **The last write into the output buffer ends at `out_len`.** -/
theorem outWrites_inside_iff (capacity frameLen junkLen : ℕ) :
    (∀ w ∈ outWrites capacity frameLen junkLen, w.Inside) ↔
      outLen frameLen junkLen ≤ capacity := by
  rw [outWrites, outLen]
  constructor
  · intro h
    exact h ⟨capacity, 28 + junkLen + 12, frameLen + tagLen⟩ (by simp)
  · intro h
    split
    · simp [Write.Inside]
      omega
    · simp [Write.Inside]
      omega

/-- A frame of anything that is read, with its padding. -/
theorem semanticPad_add_le (enabled : Bool) (d : ShaperDraws) {n : ℕ} (hn : n ≤ bufferSize) :
    frameHdr + n + semanticPad enabled d n ≤ 64034 := by
  have hmedium := d.medium.isLt
  have hsmall := d.smallJitter.isLt
  have hpad := d.smallPad.isLt
  have hlarge := d.largeJitter.isLt
  rw [bufferSize] at hn
  simp only [semanticPad, frameHdr, padTo_eq]
  split
  · omega
  · split
    · omega
    · split
      · omega
      · split
        · omega
        · omega

/-- The guard of the client lets everything through that is read. -/
theorem clientGuardPad_eq (enabled : Bool) (d : ShaperDraws) {n : ℕ} (hn : n ≤ bufferSize) :
    clientGuardPad (semanticPad enabled d n) n = some (semanticPad enabled d n) := by
  have hle := semanticPad_add_le enabled d hn
  have hfits : ¬frameHdr + n + semanticPad enabled d n + tagLen > internalBufSize := by
    rw [tagLen, internalBufSize]
    omega
  rw [clientGuardPad, if_neg hfits]
  exact if_neg hfits

/-- **The server's encoder stays inside its buffers.** -/
theorem serverTunWrites_inside (d : SendDraws) {n : ℕ} (hn : n ≤ bufferSize) :
    ∀ w ∈ serverTunWrites d n, w.Inside := by
  have hle := semanticPad_add_le d.enabled d.shaper hn
  have hguard :
      guardPad (semanticPad d.enabled d.shaper n) n ≤ semanticPad d.enabled d.shaper n := by
    simp only [guardPad]
    split
    · exact Nat.zero_le _
    · exact le_rfl
  have hjunk := generateJunkLen_le d.junkByte
  simp only [serverTunWrites, List.forall_mem_append]
  refine ⟨⟨frameWrites_inside ?_, (outWrites_inside_iff _ _ _).mpr ?_⟩, slotWrites_inside d _⟩
  · rw [internalBufSize]
    omega
  · rw [outLen, tagLen, internalBufSize]
    omega

/-- **So does the client's for the TUN device.** -/
theorem clientTunWrites_inside (d : SendDraws) {n : ℕ} (hn : n ≤ bufferSize) :
    ∀ w ∈ clientTunWrites d n, w.Inside := by
  have hle := semanticPad_add_le d.enabled d.shaper hn
  have hjunk := generateJunkLen_le d.junkByte
  simp only [clientTunWrites, clientGuardPad_eq d.enabled d.shaper hn, List.forall_mem_append]
  refine ⟨⟨frameWrites_inside ?_, (outWrites_inside_iff _ _ _).mpr ?_⟩, slotWrites_inside d _⟩
  · rw [internalBufSize]
    omega
  · rw [outLen, tagLen, internalBufSize]
    omega

/-- **The client's for the local WireGuard** does exactly when its packet fits 64000 bytes. -/
theorem localWrites_inside_iff (d : SendDraws) {n : ℕ} (hn : n ≤ bufferSize) :
    (∀ w ∈ localWrites d n, w.Inside) ↔
      n + semanticPad d.enabled d.shaper n + generateJunkLen d.junkByte ≤ 63942 := by
  have hle := semanticPad_add_le d.enabled d.shaper hn
  have hout : outLen (frameHdr + n + semanticPad d.enabled d.shaper n)
      (generateJunkLen d.junkByte) ≤ bufferSize ↔
        n + semanticPad d.enabled d.shaper n + generateJunkLen d.junkByte ≤ 63942 := by
    rw [outLen, tagLen, bufferSize, frameHdr]
    omega
  simp only [localWrites, clientGuardPad_eq d.enabled d.shaper hn, List.forall_mem_append,
    outWrites_inside_iff, hout]
  constructor
  · rintro ⟨⟨-, hfits⟩, -⟩
    exact hfits
  · intro hfits
    refine ⟨⟨frameWrites_inside ?_, hfits⟩, ?_⟩
    · rw [internalBufSize]
      omega
    · split
      · rw [List.forall_mem_cons, Write.Inside]
        exact ⟨by simpa only [Nat.zero_add] using hout.mpr hfits, wrapWrites_inside _ _ _ _⟩
      · exact fun w hw => absurd hw List.not_mem_nil

/-- **All writes of the three encoders stay inside their buffers** exactly when payload, padding
and junk have 63942 bytes at most. -/
theorem inside_iff (d : SendDraws) {n : ℕ} (hn : n ≤ bufferSize) :
    ((∀ w ∈ serverTunWrites d n, w.Inside) ∧ (∀ w ∈ clientTunWrites d n, w.Inside) ∧
        ∀ w ∈ localWrites d n, w.Inside) ↔
      n + semanticPad d.enabled d.shaper n + generateJunkLen d.junkByte ≤ 63942 := by
  rw [localWrites_inside_iff d hn, and_iff_right (serverTunWrites_inside d hn),
    and_iff_right (clientTunWrites_inside d hn)]

/-- Nothing is padded, no junk, no camouflage. -/
def plainDraws : SendDraws := ⟨true, (smallDraws (Vector.replicate 12 0)).shaper, none, false, true⟩

/-- **The largest datagram that is read overruns `out_buf`.** -/
theorem not_inside :
    ¬∀ (d : SendDraws) (n : ℕ), n ≤ bufferSize →
      (∀ w ∈ serverTunWrites d n, w.Inside) ∧ (∀ w ∈ clientTunWrites d n, w.Inside) ∧
        ∀ w ∈ localWrites d n, w.Inside := by
  intro h
  have hinside := (h plainDraws 64000 (by decide)).2.2
  rw [localWrites_inside_iff plainDraws (by decide)] at hinside
  exact absurd hinside (by decide)

/-- A packet of the usual size stays inside. -/
theorem inside_mtu :
    (∀ w ∈ serverTunWrites plainDraws 1280, w.Inside) ∧
      (∀ w ∈ clientTunWrites plainDraws 1280, w.Inside) ∧
        ∀ w ∈ localWrites plainDraws 1280, w.Inside :=
  (inside_iff plainDraws (by decide)).mpr (by decide)

end Wire

end Aegs
