import Mathlib.Data.List.Basic

/-!
# The framing of a ClientHello

A strict reader: every length has to cover exactly the bytes it frames, and nothing may be
left over. A vector of TLS is a length of one, two or three bytes, most significant first,
and so many bytes (`Tls.block`); one that has to be all there is is read by `Tls.whole`,
which determines it (`Tls.whole_eq_some`).
-/

namespace Tls

/-- The number with these bytes, most significant first. -/
def ofBytes (bs : List UInt8) : ℕ := bs.foldl (fun n b => 256 * n + b.toNat) 0

/-- So many bytes, and the rest. -/
def takeBytes (n : ℕ) (bs : List UInt8) : Option (List UInt8 × List UInt8) :=
  if n ≤ bs.length then some (bs.take n, bs.drop n) else none

/-- A vector whose length takes `k` bytes, and the rest. -/
def block (k : ℕ) (bs : List UInt8) : Option (List UInt8 × List UInt8) :=
  (takeBytes k bs).bind fun (len, rest) => takeBytes (ofBytes len) rest

/-- A vector that is all there is. -/
def whole (k : ℕ) (bs : List UInt8) : Option (List UInt8) :=
  (block k bs).bind fun (data, rest) => if rest.isEmpty then some data else none

/-- Items, as many as there are, and nothing else; `fuel` bounds how many. -/
def items {β : Type} (item : List UInt8 → Option (β × List UInt8)) :
    ℕ → List UInt8 → Option (List β)
  | _, [] => some []
  | 0, _ :: _ => none
  | fuel + 1, b :: bs =>
    (item (b :: bs)).bind fun (x, rest) => (items item fuel rest).map (x :: ·)

/-- A tag of `k` bytes in front of a vector with a length of two bytes. -/
def tagged (k : ℕ) (bs : List UInt8) : Option ((ℕ × List UInt8) × List UInt8) :=
  (takeBytes k bs).bind fun (tag, rest) =>
    (block 2 rest).map fun (data, rest) => ((ofBytes tag, data), rest)

/-- A ClientHello. -/
structure ClientHello where
  /-- `client_version`. -/
  version : List UInt8
  /-- `random`. -/
  random : List UInt8
  /-- `session_id`. -/
  sessionId : List UInt8
  /-- `cipher_suites`. -/
  cipherSuites : List UInt8
  /-- `compression_methods`. -/
  compression : List UInt8
  /-- The extensions, by type. -/
  extensions : List (ℕ × List UInt8)
  /-- The names of each extension of type zero, by type. -/
  serverNames : List (List (ℕ × List UInt8))

/-- The payload of a record that is all there is, of the type of a handshake. -/
def record : List UInt8 → Option (List UInt8)
  | 0x16 :: 0x03 :: _ :: rest => whole 2 rest
  | _ => none

/-- The body of a handshake message that is all there is, a ClientHello. -/
def handshake : List UInt8 → Option (List UInt8)
  | 0x01 :: rest => whole 3 rest
  | _ => none

/-- The names of a server_name extension. -/
def serverNameList (data : List UInt8) : Option (List (ℕ × List UInt8)) :=
  (whole 2 data).bind fun list => items (tagged 1) list.length list

/-- The block of the extensions. -/
def extensionBlock (bs : List UInt8) :
    Option (List (ℕ × List UInt8) × List (List (ℕ × List UInt8))) :=
  (whole 2 bs).bind fun data =>
    (items (tagged 2) data.length data).bind fun extensions =>
      ((extensions.filter fun e => e.1 = 0).mapM fun e => serverNameList e.2).map fun names =>
        (extensions, names)

/-- The fields of a ClientHello. -/
def helloBody (bs : List UInt8) : Option ClientHello :=
  (takeBytes 2 bs).bind fun (version, bs) =>
    (takeBytes 32 bs).bind fun (random, bs) =>
      (block 1 bs).bind fun (sessionId, bs) =>
        (block 2 bs).bind fun (cipherSuites, bs) =>
          (block 1 bs).bind fun (compression, bs) =>
            (extensionBlock bs).map fun (extensions, serverNames) =>
              ⟨version, random, sessionId, cipherSuites, compression, extensions, serverNames⟩

/-- **One record with one ClientHello in it**, every length as the bytes are. -/
def clientHello (bs : List UInt8) : Option ClientHello :=
  (record bs).bind fun fragment => (handshake fragment).bind helloBody

/-- A ClientHello with one name. -/
example : (clientHello ([0x16, 0x03, 0x01, 0x00, 0x3d, 0x01, 0x00, 0x00, 0x39, 0x03, 0x03] ++
    List.replicate 32 7 ++ [0x00, 0x00, 0x02, 0x13, 0x01, 0x01, 0x00, 0x00, 0x0e] ++
    [0x00, 0x00, 0x00, 0x06, 0x00, 0x04, 0x00, 0x00, 0x01, 0x61] ++
    [0xfe, 0x0d, 0x00, 0x00])).map ClientHello.serverNames = some [[(0, [0x61])]] := by
  decide

/-! ### What is read -/

/-- Bytes in front of others are taken. -/
theorem takeBytes_append {n : ℕ} {a : List UInt8} (b : List UInt8) (h : a.length = n) :
    takeBytes n (a ++ b) = some (a, b) := by
  subst h
  rw [takeBytes, if_pos (by rw [List.length_append]; omega), List.take_left, List.drop_left]

/-- A vector in front of other bytes is read. -/
theorem block_append {k : ℕ} (len data rest : List UInt8) (hk : len.length = k)
    (hlen : ofBytes len = data.length) :
    block k (len ++ (data ++ rest)) = some (data, rest) := by
  rw [block, takeBytes_append _ hk, Option.bind_some]
  exact takeBytes_append rest hlen.symm

/-- **A vector that is all there is covers it exactly.** -/
theorem whole_eq_some {k : ℕ} {bs data : List UInt8} (h : whole k bs = some data) :
    k ≤ bs.length ∧ data = bs.drop k ∧ ofBytes (bs.take k) = data.length := by
  rw [whole, Option.bind_eq_some_iff] at h
  obtain ⟨⟨data', rest⟩, hblock, hrest⟩ := h
  rw [block, takeBytes] at hblock
  split at hblock
  · rename_i hk
    rw [Option.bind_some] at hblock
    dsimp only [takeBytes] at hblock
    split at hblock
    · rename_i hle
      obtain ⟨rfl, rfl⟩ := Prod.mk.inj (Option.some.inj hblock)
      dsimp only at hrest
      split at hrest
      · rename_i hempty
        rw [List.isEmpty_iff, List.drop_eq_nil_iff] at hempty
        obtain rfl := Option.some.inj hrest
        refine ⟨hk, List.take_of_length_le hempty, ?_⟩
        rw [List.length_take]
        omega
      · exact absurd hrest (by simp)
    · exact absurd hblock (by simp)
  · exact absurd hblock (by simp)

end Tls
