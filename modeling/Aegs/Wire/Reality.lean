import Aegs.Wire.Mimicry

/-!
# Payloads in a TLS ClientHello

`buildTlsRealityClientHello` of the Android client hides a payload in the ECH extension of
a ClientHello. Two receivers read it back, and neither follows the lengths of the TLS
structures: `parseTlsRealityPayload` takes the first extension of type `FE0D` whose bytes
begin with `00 00 20`, and `strip_tls_reality_mimicry` the first one with the text `AEG1`
in it, which the builder does not write.

`Aegs.Wire.recovers_iff` says exactly which payloads, names and random fields both of them
read back.
-/

namespace Aegs

namespace Wire

/-! ### The first position of a scan -/

/-- What a scan over consecutive positions finds: the first position that has it. -/
theorem findSome?_range'_eq_some {β : Type} {f : ℕ → Option β} {s n : ℕ} {b : β} :
    (List.range' s n).findSome? f = some b ↔
      ∃ i, s ≤ i ∧ i < s + n ∧ f i = some b ∧ ∀ k, s ≤ k → k < i → f k = none := by
  induction n generalizing s with
  | zero =>
    rw [List.range'_zero, List.findSome?_nil]
    refine iff_of_false (fun h => nomatch h) ?_
    rintro ⟨i, hs, hi, -⟩
    omega
  | succ n ih =>
    rw [List.range'_succ, List.findSome?_cons]
    cases hfirst : f s with
    | some a =>
      constructor
      · intro h
        exact ⟨s, le_rfl, by omega, hfirst.trans h, fun k hk hlt => by omega⟩
      · rintro ⟨i, hs, -, hi, hbefore⟩
        rcases hs.eq_or_lt with rfl | hlt
        · exact hfirst.symm.trans hi
        · exact absurd (hbefore s le_rfl hlt) (by rw [hfirst]; exact Option.some_ne_none a)
    | none =>
      rw [ih]
      constructor
      · rintro ⟨i, hs, hi, hfound, hbefore⟩
        refine ⟨i, by omega, by omega, hfound, fun k hk hlt => ?_⟩
        rcases hk.eq_or_lt with rfl | hgt
        · exact hfirst
        · exact hbefore k hgt hlt
      · rintro ⟨i, hs, hi, hfound, hbefore⟩
        rcases hs.eq_or_lt with rfl | hgt
        · rw [hfirst] at hfound
          exact absurd hfound.symm (Option.some_ne_none b)
        · exact ⟨i, hgt, by omega, hfound, fun k hk hlt => hbefore k (by omega) hlt⟩

/-- The bytes of a packet from one position up to another. -/
def slice (buf : List UInt8) (i j : ℕ) : List UInt8 := (buf.drop i).take (j - i)

theorem length_slice {buf : List UInt8} {i j : ℕ} (hj : j ≤ buf.length) :
    (slice buf i j).length = j - i := by
  rw [slice, List.length_take, List.length_drop]
  omega

theorem extEnd_le (buf : List UInt8) (i : ℕ) : extEnd buf i ≤ buf.length := min_le_right _ _

/-! ### The C++ receiver -/

/-- An extension of type `FE0D` at `i`, and in it `AEG1` at `j` with something behind it. -/
def MarkedAt (buf : List UInt8) (i j : ℕ) : Prop :=
  5 ≤ i ∧ i + 10 ≤ buf.length ∧ echAt buf i = true ∧ i + 4 ≤ j ∧ j + 4 < extEnd buf i ∧
    markAt buf j = true

/-- The first of them. -/
def FirstMarked (buf : List UInt8) (i j : ℕ) : Prop :=
  MarkedAt buf i j ∧ (∀ i' < i, ∀ j', ¬MarkedAt buf i' j') ∧ ∀ j' < j, ¬MarkedAt buf i j'

/-- The scan for the mark inside the extension at `i`. -/
theorem findMark_eq_some {buf : List UInt8} {i : ℕ} {payload : List UInt8} :
    ((List.range' (i + 4) (extEnd buf i - (i + 7))).findSome? fun j =>
        if markAt buf j = true ∧ j + 4 < extEnd buf i then
          some ((buf.drop (j + 4)).take (extEnd buf i - (j + 4)))
        else none) = some payload ↔
      ∃ j, (i + 4 ≤ j ∧ j + 4 < extEnd buf i ∧ markAt buf j = true) ∧
        slice buf (j + 4) (extEnd buf i) = payload ∧
        ∀ j' < j, ¬(i + 4 ≤ j' ∧ j' + 4 < extEnd buf i ∧ markAt buf j' = true) := by
  rw [findSome?_range'_eq_some]
  constructor
  · rintro ⟨j, hi, hj, hfound, hbefore⟩
    obtain ⟨⟨hmark, hend⟩, hslice⟩ := Option.ite_none_right_eq_some.mp hfound
    refine ⟨j, ⟨hi, hend, hmark⟩, Option.some.inj hslice, ?_⟩
    rintro j' hlt ⟨hi', hend', hmark'⟩
    have hnone := hbefore j' hi' hlt
    rw [if_pos ⟨hmark', hend'⟩] at hnone
    exact nomatch hnone
  · rintro ⟨j, ⟨hi, hend, hmark⟩, hslice, hbefore⟩
    refine ⟨j, hi, by omega, ?_, fun k hk hlt => ?_⟩
    · rw [if_pos ⟨hmark, hend⟩, ← hslice, slice]
    · rw [if_neg]
      rintro ⟨hmark', hend'⟩
      exact hbefore k hlt ⟨hk, hend', hmark'⟩

/-- **What `strip_tls_reality_mimicry` strips to**: the bytes behind the first mark. -/
theorem stripTlsReality_eq_some_iff {buf payload : List UInt8} :
    stripTlsReality buf = some payload ↔
      45 ≤ buf.length ∧ byteAt buf 0 = 0x16 ∧
        ∃ i j, FirstMarked buf i j ∧ slice buf (j + 4) (extEnd buf i) = payload := by
  rw [stripTlsReality, Option.ite_none_left_eq_some]
  simp only [not_or, not_lt, not_not, and_assoc]
  refine and_congr_right fun hlen => and_congr_right fun _ => ?_
  rw [echPositions, findSome?_range'_eq_some]
  constructor
  · rintro ⟨i, hi, hlt, hfound, hbefore⟩
    obtain ⟨hech, hinner⟩ := Option.ite_none_right_eq_some.mp hfound
    obtain ⟨j, ⟨hj, hend, hmark⟩, hslice, hfirst⟩ := findMark_eq_some.mp hinner
    refine ⟨i, j, ⟨⟨hi, by omega, hech, hj, hend, hmark⟩, ?_, ?_⟩, hslice⟩
    · rintro i' hlt' j' ⟨hi', -, hech', hj', hend', hmark'⟩
      have hnone := hbefore i' hi' hlt'
      rw [if_pos hech', List.findSome?_eq_none_iff] at hnone
      have := hnone j' (List.mem_range'_1.mpr ⟨hj', by omega⟩)
      rw [if_pos ⟨hmark', hend'⟩] at this
      cases this
    · rintro j' hlt' ⟨-, -, -, hj', hend', hmark'⟩
      exact hfirst j' hlt' ⟨hj', hend', hmark'⟩
  · rintro ⟨i, j, ⟨⟨hi, hlen', hech, hj, hend, hmark⟩, hbefore, hfirst⟩, hslice⟩
    refine ⟨i, hi, by omega, ?_, fun i' hi' hlt' => ?_⟩
    · rw [if_pos hech]
      refine findMark_eq_some.mpr ⟨j, ⟨hj, hend, hmark⟩, hslice, ?_⟩
      rintro j' hlt' ⟨hj', hend', hmark'⟩
      exact hfirst j' hlt' ⟨hi, hlen', hech, hj', hend', hmark'⟩
    · by_cases hech' : echAt buf i' = true
      · rw [if_pos hech', List.findSome?_eq_none_iff]
        intro j' hj'
        rw [if_neg]
        rintro ⟨hmark', hend'⟩
        exact hbefore i' hlt' j'
          ⟨hi', by omega, hech', (List.mem_range'_1.mp hj').1, hend', hmark'⟩
      · rw [if_neg hech']

/-! ### The Android receiver -/

namespace AegsProtocol

/-- An ECH extension as the builder writes it at `i`, with a payload. -/
def PayloadAt (packet : List UInt8) (i : ℕ) : Prop :=
  5 ≤ i ∧ i + 10 ≤ packet.length ∧ isEchPayload packet i = true ∧
    payloadStart packet i < extEnd packet i

/-- **What `parseTlsRealityPayload` hands back**: the payload of the first one. -/
theorem parseTlsRealityPayload_eq_some_iff {packet payload : List UInt8} :
    parseTlsRealityPayload packet = some payload ↔
      45 ≤ packet.length ∧ byteAt packet 0 = 0x16 ∧
        ∃ i, PayloadAt packet i ∧ (∀ i' < i, ¬PayloadAt packet i') ∧
          slice packet (payloadStart packet i) (extEnd packet i) = payload := by
  rw [parseTlsRealityPayload, Option.ite_none_left_eq_some]
  simp only [not_or, not_lt, not_not, and_assoc]
  refine and_congr_right fun hlen => and_congr_right fun _ => ?_
  rw [echPositions, findSome?_range'_eq_some]
  constructor
  · rintro ⟨i, hi, hlt, hfound, hbefore⟩
    obtain ⟨⟨hech, hpos⟩, hslice⟩ := Option.ite_none_right_eq_some.mp hfound
    refine ⟨i, ⟨hi, by omega, hech, by omega⟩, ?_, Option.some.inj hslice⟩
    rintro i' hlt' ⟨hi', -, hech', hpos'⟩
    have hnone := hbefore i' hi' hlt'
    rw [if_pos ⟨hech', by omega⟩] at hnone
    cases hnone
  · rintro ⟨i, ⟨hi, hlen', hech, hpos⟩, hbefore, hslice⟩
    refine ⟨i, hi, by omega, ?_, fun i' hi' hlt' => ?_⟩
    · rw [if_pos ⟨hech, by omega⟩, ← hslice, slice]
    · rw [if_neg]
      rintro ⟨hech', hpos'⟩
      exact hbefore i' hlt' ⟨hi', by omega, hech', by omega⟩

/-! ### The builder -/

/-- `(n >> 8) & 0xFF` and `n & 0xFF`. -/
def be16 (n : ℕ) : List UInt8 := [toByte (n >>> 8), toByte n]

/-- `WHITELIST_SNI_POOL`. -/
def whitelistSniPool : Vector String 4 := #v["vk.com", "ya.ru", "yastatic.net", "dl.google.com"]

/-- What `buildTlsRealityClientHello` draws. -/
structure HelloDraws where
  /-- The index in `getRandomWhitelistSni`. -/
  pick : Fin 4
  /-- `random`. -/
  random : Vector UInt8 32
  /-- `sessionId`. -/
  sessionId : Vector UInt8 32

/-- The name that is written: `null`, the empty name and one other are replaced. Java
writes an unpaired surrogate as `?`, so that these are strings of characters. -/
def chosenSni (d : HelloDraws) (sni : Option String) : String :=
  match sni with
  | none => getElem whitelistSniPool d.pick d.pick.isLt
  | some sni => if sni = "" ∨ sni = "www.cloudflare.com" then
      getElem whitelistSniPool d.pick d.pick.isLt
    else sni

/-- The SNI extension. -/
def sniExtension (sni : String) : List UInt8 :=
  let sniBytes := sni.toUTF8.toList
  [0x00, 0x00] ++ be16 (sniBytes.length + 5) ++ be16 (sniBytes.length + 3) ++ [0x00] ++
    be16 sniBytes.length ++ sniBytes

/-- Supported groups, ALPN and supported versions. -/
def fixedExtensions : List UInt8 :=
  [0x00, 0x0a, 0x00, 0x06, 0x00, 0x04, 0x00, 0x1d, 0x00, 0x17,
    0x00, 0x10, 0x00, 0x05, 0x00, 0x03, 0x02, 0x68, 0x32,
    0x00, 0x2b, 0x00, 0x03, 0x02, 0x03, 0x04]

/-- The ECH extension with the payload. -/
def echExtension (innerAegsPayload : List UInt8) : List UInt8 :=
  [0xfe, 0x0d] ++ be16 (6 + innerAegsPayload.length) ++ [0x00, 0x00, 0x20, 0x00, 0x01, 0x01] ++
    innerAegsPayload

/-- `chBody`. -/
def chBody (d : HelloDraws) (extBytes : List UInt8) : List UInt8 :=
  [0x03, 0x03] ++ d.random.toList ++ [0x20] ++ d.sessionId.toList ++
    [0x00, 0x0c, 0x1a, 0x1a, 0x13, 0x01, 0x13, 0x02, 0x13, 0x03, 0xc0, 0x2b, 0xc0, 0x2f] ++
    [0x01, 0x00] ++ be16 extBytes.length ++ extBytes

/-- `hsBytes`. -/
def hsBytes (chBody : List UInt8) : List UInt8 :=
  [0x01, toByte (chBody.length >>> 16), toByte (chBody.length >>> 8), toByte chBody.length] ++
    chBody

/-- **`buildTlsRealityClientHello`**. -/
def buildTlsRealityClientHello (d : HelloDraws) (innerAegsPayload : List UInt8)
    (sni : Option String) : List UInt8 :=
  let extBytes := sniExtension (chosenSni d sni) ++ fixedExtensions ++
    echExtension innerAegsPayload
  let hsBytes := hsBytes (chBody d extBytes)
  [0x16, 0x03, 0x01] ++ be16 hsBytes.length ++ hsBytes

/-- The ECH extension is the end of the packet. -/
theorem exists_buildTlsRealityClientHello_eq (d : HelloDraws) (payload : List UInt8)
    (sni : Option String) :
    ∃ front : List UInt8, buildTlsRealityClientHello d payload sni = front ++ echExtension payload ∧
      45 ≤ front.length ∧ byteAt front 0 = 0x16 := by
  simp only [buildTlsRealityClientHello, hsBytes, chBody, ← List.append_assoc]
  refine ⟨_, rfl, ?_, rfl⟩
  simp only [List.length_append, Vector.length_toList]
  omega

end AegsProtocol

section

open AegsProtocol

/-- Where the ECH extension of a packet with this payload starts. -/
def echStart (packet payload : List UInt8) : ℕ := packet.length - (10 + payload.length)

/-- In front of the ECH extension, in the random fields, the name or the lengths, stands
something that looks like an extension with `AEG1` and this payload, and it is the first
that looks like one with `AEG1`. -/
def ImitatesMark (packet payload : List UInt8) : Prop :=
  ∃ i j, i < echStart packet payload ∧ FirstMarked packet i j ∧
    slice packet (j + 4) (extEnd packet i) = payload

/-- The first extension with `00 00 20` is the one that was written, and its payload does
not begin with `AEG1`; or what looks like one in front of it has this payload too. -/
def ReadsPayload (packet payload : List UInt8) : Prop :=
  ((∀ i < echStart packet payload, ¬PayloadAt packet i) ∧
      ¬[0x41, 0x45, 0x47, 0x31] <+: payload) ∨
    ∃ i < echStart packet payload, PayloadAt packet i ∧ (∀ i' < i, ¬PayloadAt packet i') ∧
      slice packet (payloadStart packet i) (extEnd packet i) = payload

/-! ### The bytes of the extension -/

theorem byteAt_append_right (front ext : List UInt8) (k : ℕ) :
    byteAt (front ++ ext) (front.length + k) = byteAt ext k := by
  rw [byteAt, byteAt, List.getD_append_right _ _ _ _ (Nat.le_add_right _ _),
    Nat.add_sub_cancel_left]

theorem toInt_toByte {n : ℕ} (hn : n < 65536) : toInt (toByte (n >>> 8)) (toByte n) = n := by
  have hlow : (toByte n).toNat = n % 256 := by simp [toByte]
  have hhigh : (toByte (n >>> 8)).toNat = n / 256 := by
    simp [toByte, Nat.shiftRight_eq_div_pow]
    omega
  rw [toInt, hlow, hhigh, ← Nat.shiftLeft_add_eq_or_of_lt (Nat.mod_lt n (by decide)),
    Nat.shiftLeft_eq]
  omega

section

variable {front payload : List UInt8} (hpayload : payload.length ≤ 16384)

theorem length_echExtension : (echExtension payload).length = 10 + payload.length := by
  simp only [echExtension, be16, List.length_append, List.length_cons, List.length_nil]

theorem length_front_echExtension :
    (front ++ echExtension payload).length = front.length + 10 + payload.length := by
  rw [List.length_append, length_echExtension, Nat.add_assoc]

theorem echStart_eq : echStart (front ++ echExtension payload) payload = front.length := by
  rw [echStart, length_front_echExtension]
  omega

theorem echAt_start : echAt (front ++ echExtension payload) front.length = true := by
  have htype := byteAt_append_right front (echExtension payload) 0
  rw [Nat.add_zero] at htype
  rw [echAt, htype, byteAt_append_right]
  rfl

include hpayload in
theorem lengthAt_start :
    lengthAt (front ++ echExtension payload) (front.length + 2) = 6 + payload.length := by
  rw [lengthAt, byteAt_append_right, Nat.add_assoc, byteAt_append_right]
  exact toInt_toByte (by omega)

include hpayload in
/-- The ECH extension reaches to the end of the packet. -/
theorem extEnd_start :
    extEnd (front ++ echExtension payload) front.length =
      front.length + 10 + payload.length := by
  rw [extEnd, lengthAt_start hpayload, length_front_echExtension]
  omega

theorem isEchPayload_bytes (k : ℕ) (hk : k < 3) :
    byteAt (front ++ echExtension payload) (front.length + 4 + k) =
      byteAt [0x00, 0x00, 0x20] k := by
  rw [Nat.add_assoc, byteAt_append_right]
  interval_cases k <;> rfl

theorem byteAt_payload (k : ℕ) :
    byteAt (front ++ echExtension payload) (front.length + 10 + k) = byteAt payload k := by
  rw [Nat.add_assoc, byteAt_append_right, byteAt, byteAt, echExtension,
    List.getD_append_right _ _ _ _ (by simp [be16])]
  congr 1
  simp [be16]

include hpayload in
/-- No extension starts in the two bytes behind the type of the written one. -/
theorem not_echAt_of_lt {i : ℕ} (hi : front.length < i) (hlt : i < front.length + 3) :
    ¬echAt (front ++ echExtension payload) i = true := by
  obtain ⟨k, rfl⟩ : ∃ k, i = front.length + k := ⟨i - front.length, by omega⟩
  intro hech
  have hfe := (of_decide_eq_true hech).1
  rw [byteAt_append_right] at hfe
  obtain rfl | rfl : k = 1 ∨ k = 2 := by omega
  · exact absurd hfe (by simp [echExtension, byteAt])
  · -- the high byte of a length below 2 ^ 15
    have hhigh : (byteAt (echExtension payload) 2).toNat = (6 + payload.length) / 256 := by
      simp [echExtension, be16, byteAt, toByte, Nat.shiftRight_eq_div_pow]
      omega
    rw [hfe] at hhigh
    have : (0xFE : UInt8).toNat = 254 := rfl
    omega

/-! ### The two receivers on a packet of the builder -/

theorem slice_payload :
    slice (front ++ echExtension payload) (front.length + 10)
      (front.length + 10 + payload.length) = payload := by
  have hfront : front ++ echExtension payload =
      (front ++ ([0xfe, 0x0d] ++ be16 (6 + payload.length) ++
        [0x00, 0x00, 0x20, 0x00, 0x01, 0x01])) ++ payload := by
    simp only [echExtension, List.append_assoc]
  have hlength : front.length + 10 = (front ++ ([0xfe, 0x0d] ++ be16 (6 + payload.length) ++
      [0x00, 0x00, 0x20, 0x00, 0x01, 0x01])).length := by
    simp [be16]
  rw [slice, Nat.add_sub_cancel_left, hfront, hlength, List.drop_left, List.take_length]

include hpayload in
/-- **The C++ receiver** reads the payload back only from an imitation of the mark. -/
theorem stripTlsReality_eq_payload_iff (hfront : 45 ≤ front.length)
    (htype : byteAt front 0 = 0x16) :
    stripTlsReality (front ++ echExtension payload) = some payload ↔
      ImitatesMark (front ++ echExtension payload) payload := by
  have hlength := @length_front_echExtension front payload
  rw [stripTlsReality_eq_some_iff, ImitatesMark, echStart_eq]
  constructor
  · rintro ⟨-, -, i, j, hmarked, hslice⟩
    refine ⟨i, j, ?_, hmarked, hslice⟩
    obtain ⟨⟨-, -, hech, hj, hend, hmark⟩, -, -⟩ := hmarked
    -- the slice is as long as the payload, so that it starts where the payload does or before
    have hle := extEnd_le (front ++ echExtension payload) i
    have hsize := (length_slice (i := j + 4) hle).symm.trans (congrArg List.length hslice)
    rcases lt_trichotomy i front.length with hlt | rfl | hgt
    · exact hlt
    · rw [extEnd_start hpayload] at hsize
      obtain rfl : j = front.length + 4 + 2 := by omega
      have hbyte := (of_decide_eq_true hmark).1
      rw [isEchPayload_bytes 2 (by decide)] at hbyte
      exact absurd hbyte (by decide)
    · exact absurd hech (not_echAt_of_lt hpayload hgt (by omega))
  · rintro ⟨i, j, -, hmarked, hslice⟩
    refine ⟨by omega, ?_, i, j, hmarked, hslice⟩
    rw [byteAt, List.getD_append _ _ _ _ (by omega)]
    exact htype

theorem markAt_payload_iff :
    (front.length + 10 + 4 ≤ front.length + 10 + payload.length ∧
      markAt (front ++ echExtension payload) (front.length + 10) = true) ↔
      [0x41, 0x45, 0x47, 0x31] <+: payload := by
  have hbyte : ∀ k, byteAt (front ++ echExtension payload) (front.length + 10 + k) =
      byteAt payload k := byteAt_payload
  have hzero := hbyte 0
  rw [Nat.add_zero] at hzero
  rw [markAt, decide_eq_true_iff, hzero, hbyte, hbyte, hbyte]
  constructor
  · rintro ⟨hlen, h0, h1, h2, h3⟩
    match payload, hlen, h0, h1, h2, h3 with
    | [], hlen, _, _, _, _ => simp at hlen
    | [_], hlen, _, _, _, _ => simp at hlen
    | [_, _], hlen, _, _, _, _ => simp at hlen
    | [_, _, _], hlen, _, _, _, _ => simp at hlen
    | a :: b :: c :: d :: rest, _, h0, h1, h2, h3 =>
      obtain rfl : a = 0x41 := h0
      obtain rfl : b = 0x45 := h1
      obtain rfl : c = 0x47 := h2
      obtain rfl : d = 0x31 := h3
      exact ⟨rest, rfl⟩
  · rintro ⟨rest, rfl⟩
    exact ⟨by simp only [List.length_append, List.length_cons, List.length_nil]; omega,
      rfl, rfl, rfl, rfl⟩

include hpayload in
theorem isEchPayload_start : isEchPayload (front ++ echExtension payload) front.length = true := by
  refine decide_eq_true ⟨echAt_start, ?_, ?_, ?_, ?_, ?_⟩
  · rw [lengthAt_start hpayload]
    omega
  · rw [extEnd_start hpayload]
    omega
  · exact isEchPayload_bytes 0 (by decide)
  · exact isEchPayload_bytes 1 (by decide)
  · exact isEchPayload_bytes 2 (by decide)

include hpayload in
/-- Where the written payload starts for the Android receiver. -/
theorem payloadStart_start :
    payloadStart (front ++ echExtension payload) front.length =
      if [0x41, 0x45, 0x47, 0x31] <+: payload then front.length + 14 else front.length + 10 := by
  rw [payloadStart, extEnd_start hpayload]
  exact if_congr markAt_payload_iff rfl rfl

include hpayload in
/-- **The Android receiver** reads the payload back unless it begins with `AEG1` or
something in front of it looks like its extension. -/
theorem parseTlsRealityPayload_eq_payload_iff (hne : payload ≠ []) (hfront : 45 ≤ front.length)
    (htype : byteAt front 0 = 0x16) :
    parseTlsRealityPayload (front ++ echExtension payload) = some payload ↔
      ReadsPayload (front ++ echExtension payload) payload := by
  have hlength := @length_front_echExtension front payload
  have hpos := List.length_pos_iff.mpr hne
  rw [parseTlsRealityPayload_eq_some_iff, ReadsPayload, echStart_eq]
  constructor
  · rintro ⟨-, -, i, hat, hbefore, hslice⟩
    have hle := extEnd_le (front ++ echExtension payload) i
    have hsize :=
      (length_slice (i := payloadStart (front ++ echExtension payload) i) hle).symm.trans
        (congrArg List.length hslice)
    rcases lt_trichotomy i front.length with hlt | rfl | hgt
    · exact Or.inr ⟨i, hlt, hat, hbefore, hslice⟩
    · refine Or.inl ⟨hbefore, fun hmark => ?_⟩
      rw [payloadStart_start hpayload, if_pos hmark, extEnd_start hpayload] at hsize
      omega
    · have hstart : i + 10 ≤ payloadStart (front ++ echExtension payload) i := by
        rw [payloadStart]
        split <;> omega
      omega
  · intro h
    refine ⟨by omega, ?_, ?_⟩
    · rw [byteAt, List.getD_append _ _ _ _ (by omega)]
      exact htype
    · rcases h with ⟨hbefore, hmark⟩ | ⟨i, -, hat, hbefore, hslice⟩
      · have hstart := @payloadStart_start front payload hpayload
        rw [if_neg hmark] at hstart
        refine ⟨front.length, ⟨by omega, by omega, isEchPayload_start hpayload, ?_⟩, hbefore, ?_⟩
        · rw [hstart, extEnd_start hpayload]
          omega
        · rw [hstart, extEnd_start hpayload, slice_payload]
      · exact ⟨i, hat, hbefore, hslice⟩

end

/-- **Both receivers read a payload back** exactly if something in front of the ECH
extension imitates the mark with this very payload behind it, and the payload does not
begin with the mark and nothing in front imitates the extension of the Android client, or
carries this payload as well. -/
theorem recovers_iff (d : HelloDraws) (payload : List UInt8) (sni : Option String)
    (hne : payload ≠ []) (hpayload : payload.length ≤ 16384) :
    (stripTlsReality (buildTlsRealityClientHello d payload sni) = some payload ∧
        parseTlsRealityPayload (buildTlsRealityClientHello d payload sni) = some payload) ↔
      ImitatesMark (buildTlsRealityClientHello d payload sni) payload ∧
        ReadsPayload (buildTlsRealityClientHello d payload sni) payload := by
  obtain ⟨front, hbuild, hfront, htype⟩ := exists_buildTlsRealityClientHello_eq d payload sni
  rw [hbuild]
  exact and_congr (stripTlsReality_eq_payload_iff hpayload hfront htype)
    (parseTlsRealityPayload_eq_payload_iff hpayload hne hfront htype)

/-- Random fields of zeros. -/
def zeroDraws : HelloDraws := ⟨0, .replicate 32 0, .replicate 32 0⟩

/-- **A payload the C++ receiver does not read back**: there is no mark in the packet. The
Android client reads this one back, but not one that begins with the mark. -/
theorem not_recovers :
    stripTlsReality (buildTlsRealityClientHello zeroDraws [1] (some "example.org")) = none ∧
      parseTlsRealityPayload (buildTlsRealityClientHello zeroDraws [1] (some "example.org")) =
        some [1] ∧
      parseTlsRealityPayload (buildTlsRealityClientHello zeroDraws [0x41, 0x45, 0x47, 0x31, 1]
        (some "example.org")) = some [1] := by
  refine ⟨?_, ?_, ?_⟩ <;> decide +kernel

/-- Random fields that imitate the mark with the payload `[1]`. -/
def markDraws : HelloDraws :=
  { zeroDraws with
    random := .ofFn fun i => [0xFE, 0x0D, 0x00, 0x05, 0x41, 0x45, 0x47, 0x31, 1].getD i 0 }

/-- The rule, at random fields that happen to carry the payload behind a mark. -/
theorem recovers_markDraws :
    ImitatesMark (buildTlsRealityClientHello markDraws [1] none) [1] ∧
      ReadsPayload (buildTlsRealityClientHello markDraws [1] none) [1] :=
  (recovers_iff markDraws [1] none (by decide) (by decide)).mp
    ⟨by decide +kernel, by decide +kernel⟩

end

end Wire

end Aegs
