import Mathlib.Algebra.Group.Nat.Defs
import Mathlib.Data.Vector.Defs
import Mathlib.Tactic.Common
import Aegs.Lib.Checked
import Aegs.Lib.Tls

/-!
# The ClientHello of the Windows client

`BuildTlsRealityClientHello` puts a handshake packet into an extension of a TLS ClientHello.
Each of its lengths is a formula of its own:

| what | is | says |
|---|---|---|
| the array behind its first nine bytes | `56 + sni + packet` written | `65 + sni + packet` |
| the extensions | `13 + sni + packet` | `11 + sni + packet` |
| the server_name extension | `5 + sni` | `3 + sni` |

All that is written is inside the array, but nothing ever reads the result as a ClientHello:
behind the extensions there are eleven bytes that no length covers
(`Aegs.Windows.never_clientHello`).
-/

namespace Aegs

namespace Windows

open Checked Tls

/-- `(byte)(n >> 8)` and `(byte)(n & 0xFF)`. -/
def len16 (n : ℕ) : List (List UInt8) := [[(n / 256).toUInt8], [(n % 256).toUInt8]]

/-- `Encoding.ASCII.GetBytes`: what is not ASCII becomes a question mark. -/
def asciiBytes (s : List Char) : List UInt8 :=
  s.map fun c => if c.toNat < 128 then c.toNat.toUInt8 else 0x3F

/-- `bodyLen`. -/
def bodyLen (sniLen hsLen : ℕ) : ℕ := 34 + 2 + (2 + 1 + 2 + sniLen) + (2 + 2 + hsLen) + 20

/-- `extTotalLen`. -/
def extTotalLen (sniLen hsLen : ℕ) : ℕ := (4 + 3 + sniLen) + (4 + hsLen)

/-- What is written to `record`, from its first byte on. -/
def helloPieces (handshakePacket sniBytes : List UInt8) (random : Vector UInt8 32) :
    List (List UInt8) :=
  let sniLen := sniBytes.length
  let hsLen := handshakePacket.length
  let bodyLen := bodyLen sniLen hsLen
  let recLen := 4 + bodyLen
  [[0x16], [0x03], [0x01]] ++ len16 recLen ++
  [[0x01], [0x00]] ++ len16 bodyLen ++
  [[0x03], [0x03], random.toList] ++
  [[0x00], [0x00], [0x02], [0x13], [0x01], [0x01], [0x00]] ++
  len16 (extTotalLen sniLen hsLen) ++
  -- server_name
  [[0x00], [0x00]] ++ len16 (3 + sniLen) ++ len16 (1 + 2 + sniLen) ++
  [[0x00]] ++ len16 sniLen ++ [sniBytes] ++
  -- encrypted_client_hello
  [[0xFE], [0x0D]] ++ len16 hsLen ++ [handshakePacket]

/-- **`BuildTlsRealityClientHello`**, with the 32 bytes that it draws; none when it throws. -/
def buildTlsRealityClientHello (handshakePacket : List UInt8) (sni : List Char)
    (random : Vector UInt8 32) : Option (List UInt8) :=
  let sniBytes := asciiBytes sni
  (writeAll (.new (5 + 4 + bodyLen sniBytes.length handshakePacket.length) 0)
    (helloPieces handshakePacket sniBytes random)).map Writer.buf

/-- The total fits one TLS record. -/
def FitsRecord (handshakePacket : List UInt8) (sni : List Char) : Prop :=
  4 + bodyLen (asciiBytes sni).length handshakePacket.length ≤ 2 ^ 14

/-- **The array is a ClientHello**: it is built without an exception, and every length in it
covers exactly the bytes it frames. -/
def IsClientHello (handshakePacket : List UInt8) (sni : List Char) (random : Vector UInt8 32) :
    Prop :=
  ∃ bytes hello, buildTlsRealityClientHello handshakePacket sni random = some bytes ∧
    clientHello bytes = some hello

/-! ### What is built -/

/-- What is behind the length of the extensions. -/
def afterExtLen (handshakePacket sniBytes : List UInt8) : List UInt8 :=
  ([[0x00], [0x00]] ++ len16 (3 + sniBytes.length) ++ len16 (1 + 2 + sniBytes.length) ++
    [[0x00]] ++ len16 sniBytes.length ++ [sniBytes] ++ [[0xFE], [0x0D]] ++
    len16 handshakePacket.length ++ [handshakePacket]).flatten ++ List.replicate 9 0

theorem length_afterExtLen (handshakePacket sniBytes : List UInt8) :
    (afterExtLen handshakePacket sniBytes).length =
      22 + sniBytes.length + handshakePacket.length := by
  simp only [afterExtLen, len16, List.flatten_append, List.flatten_cons, List.flatten_nil,
    List.length_append, List.length_cons, List.length_nil, List.length_replicate]
  omega

/-- **The bytes of the array**: nothing is written outside, and the last nine bytes are not
written at all. -/
theorem buildTlsRealityClientHello_eq (handshakePacket : List UInt8) (sni : List Char)
    (random : Vector UInt8 32) :
    ∃ r₁ r₀ b₁ b₀ e₁ e₀ : UInt8,
      ofBytes [e₁, e₀] = extTotalLen (asciiBytes sni).length handshakePacket.length % 65536 ∧
      buildTlsRealityClientHello handshakePacket sni random =
        some ([0x16, 0x03, 0x01, r₁, r₀, 0x01, 0x00, b₁, b₀, 0x03, 0x03] ++ (random.toList ++
          ([0x00, 0x00, 0x02, 0x13, 0x01, 0x01, 0x00, e₁, e₀] ++
            afterExtLen handshakePacket (asciiBytes sni)))) := by
  have hlen : (helloPieces handshakePacket (asciiBytes sni) random).flatten.length =
      65 + (asciiBytes sni).length + handshakePacket.length := by
    simp only [helloPieces, len16, List.flatten_append, List.flatten_cons, List.flatten_nil,
      List.length_append, List.length_cons, List.length_nil, Vector.length_toList]
    omega
  have hpad : 5 + 4 + bodyLen (asciiBytes sni).length handshakePacket.length =
      65 + (asciiBytes sni).length + handshakePacket.length + 9 := by
    rw [bodyLen]
    omega
  refine ⟨((4 + bodyLen (asciiBytes sni).length handshakePacket.length) / 256).toUInt8,
    ((4 + bodyLen (asciiBytes sni).length handshakePacket.length) % 256).toUInt8,
    (bodyLen (asciiBytes sni).length handshakePacket.length / 256).toUInt8,
    (bodyLen (asciiBytes sni).length handshakePacket.length % 256).toUInt8,
    (extTotalLen (asciiBytes sni).length handshakePacket.length / 256).toUInt8,
    (extTotalLen (asciiBytes sni).length handshakePacket.length % 256).toUInt8, ?_, ?_⟩
  · simp only [ofBytes, List.foldl_cons, List.foldl_nil, Nat.toUInt8_eq, UInt8.toNat_ofNat']
    omega
  · rw [buildTlsRealityClientHello]
    rw [writeAll_eq_some (by omega), hlen, hpad, Nat.add_sub_cancel_left, Option.map_some]
    simp only [helloPieces, len16, afterExtLen, List.flatten_cons, List.flatten_nil,
      List.append_assoc, List.cons_append, List.nil_append, List.append_nil]

/-! ### What is read -/

/-- A body whose extensions are longer than their length says. -/
theorem helloBody_eq_none (random rest : List UInt8) (e₁ e₀ : UInt8)
    (hrandom : random.length = 32) (hne : ofBytes [e₁, e₀] ≠ rest.length) :
    helloBody ([0x03, 0x03] ++ (random ++
      ([0x00, 0x00, 0x02, 0x13, 0x01, 0x01, 0x00, e₁, e₀] ++ rest))) = none := by
  have hwhole : whole 2 ([e₁, e₀] ++ rest) = none := by
    rw [Option.eq_none_iff_forall_not_mem]
    intro data hdata
    obtain ⟨-, rfl, hlen⟩ := whole_eq_some hdata
    exact hne hlen
  have hsession : block 1 ([0x00, 0x00, 0x02, 0x13, 0x01, 0x01, 0x00, e₁, e₀] ++ rest) =
      some ([], [0x00, 0x02, 0x13, 0x01, 0x01, 0x00, e₁, e₀] ++ rest) :=
    block_append [0x00] [] _ rfl rfl
  have hsuites : block 2 ([0x00, 0x02, 0x13, 0x01, 0x01, 0x00, e₁, e₀] ++ rest) =
      some ([0x13, 0x01], [0x01, 0x00, e₁, e₀] ++ rest) :=
    block_append [0x00, 0x02] [0x13, 0x01] _ rfl rfl
  have hcompression : block 1 ([0x01, 0x00, e₁, e₀] ++ rest) =
      some ([0x00], [e₁, e₀] ++ rest) :=
    block_append [0x01] [0x00] _ rfl rfl
  have hextensions : extensionBlock ([e₁, e₀] ++ rest) = none := by
    rw [extensionBlock, hwhole, Option.bind_none]
  rw [helloBody, takeBytes_append (n := 2) (a := [0x03, 0x03]) _ rfl, Option.bind_some]
  dsimp only
  rw [takeBytes_append _ hrandom, Option.bind_some]
  dsimp only
  rw [hsession, Option.bind_some]
  dsimp only
  rw [hsuites, Option.bind_some]
  dsimp only
  rw [hcompression, Option.bind_some]
  dsimp only
  rw [hextensions, Option.map_none]

/-- **What is built is never a ClientHello**, for no packet, name and random bytes. -/
theorem never_clientHello (handshakePacket : List UInt8) (sni : List Char)
    (random : Vector UInt8 32) : ¬IsClientHello handshakePacket sni random := by
  rintro ⟨bytes, hello, hbuild, hhello⟩
  obtain ⟨r₁, r₀, b₁, b₀, e₁, e₀, hext, hbytes⟩ :=
    buildTlsRealityClientHello_eq handshakePacket sni random
  obtain rfl := Option.some.inj (hbytes.symm.trans hbuild)
  rw [clientHello, Option.bind_eq_some_iff] at hhello
  obtain ⟨fragment, hrecord, hhello⟩ := hhello
  -- the record and the message are taken at their word
  obtain ⟨-, rfl, -⟩ := whole_eq_some (k := 2) hrecord
  rw [Option.bind_eq_some_iff] at hhello
  obtain ⟨body, hhandshake, hhello⟩ := hhello
  obtain ⟨-, rfl, -⟩ := whole_eq_some (k := 3) hhandshake
  have hnone := helloBody_eq_none random.toList (afterExtLen handshakePacket (asciiBytes sni)) e₁ e₀
    Vector.length_toList (by
      rw [hext, length_afterExtLen, extTotalLen]
      omega)
  exact absurd (hnone.symm.trans hhello) (by simp)

/-- What is built for a packet of three bytes and for `a.io` is not read. -/
theorem isNone_small : ((buildTlsRealityClientHello [1, 2, 3] ['a', '.', 'i', 'o']
    (Vector.replicate 32 0)).bind clientHello).isNone = true := by
  decide +kernel

/-- A packet of three bytes for `a.io`. -/
theorem not_clientHello : ¬∀ (handshakePacket : List UInt8) (sni : List Char)
    (random : Vector UInt8 32), (∀ c ∈ sni, c.toNat < 128) → FitsRecord handshakePacket sni →
      IsClientHello handshakePacket sni random := by
  intro h
  obtain ⟨bytes, hello, hbuild, hhello⟩ := h [1, 2, 3] ['a', '.', 'i', 'o'] (Vector.replicate 32 0)
    (by simp) (by rw [FitsRecord]; decide)
  have hnone := isNone_small
  rw [hbuild, Option.bind_some, hhello] at hnone
  exact absurd hnone (by simp)

end Windows

end Aegs
