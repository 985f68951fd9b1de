import Mathlib.Data.List.Induction
import Aegs.Handshake.Agreement

/-!
# Replayed requests

`process_init` looks a request up in the set of timestamps it has seen, and all
that follows is that a repeat is not entered again: the request is accepted either
way. So the server answers one `(key_id, timestamp)` as often as an authentic
request with it arrives inside the skew window, and accepts each pair at most once
exactly in the runs where none arrives twice (`Aegs.Handshake.acceptsOnce_iff`).

What makes a request authentic is decided by its bytes, the clock, the registered
master key of its key id, and whether the library makes its key object
(`Aegs.Handshake.InitCall.authentic`); the seen set has no part in it.
-/

namespace Aegs

namespace Handshake

open Bytes

/-- The public operations of `HandshakeServer`. -/
inductive Op (S : Type)
  /-- `process_init` at the time `now`, its key object at `addr`. -/
  | processInit (init : List UInt8) (now : UInt64) (addr : Option ℕ)
  /-- `build_resp`. -/
  | buildResp (keyId : UInt64) (assignedIp : UInt32) (mtu : UInt16) (calls : RespCalls S)
      (out : SessionKeys)
  /-- `add_user`. -/
  | addUser (keyId : UInt64) (masterKey : List UInt8)
  /-- `remove_user`. -/
  | removeUser (keyId : UInt64)

/-- One call of `process_init`: what it was given, what it found, and its answer. -/
structure InitCall where
  /-- The packet. -/
  init : List UInt8
  /-- The clock. -/
  now : UInt64
  /-- The library makes the key object. -/
  made : Bool
  /-- The master key registered under the key id of the packet. -/
  masterKey : Option (List UInt8)
  /-- The size of the seen set on entry. -/
  seen : ℕ
  /-- It returned true. -/
  accepted : Bool

/-- A server with the calls of `process_init` made so far, latest first. -/
structure Served where
  /-- The server. -/
  server : HandshakeServer
  /-- History. -/
  calls : List InitCall

section

variable {S : Type} (L : Library S)

/-- One operation. -/
def serve (st : Served) : Op S → Served
  | .processInit init now addr =>
    let r := st.server.processInit L init now addr
    { server := r.1
      calls :=
        { init := init
          now := now
          made := addr.isSome
          masterKey := st.server.masterKeys.lookup (initPair init).keyId
          seen := st.server.seenTimestamps.entries.length
          accepted := r.2.isSome } :: st.calls }
  | .buildResp keyId ip mtu calls out =>
    { st with server := (st.server.buildResp L keyId ip mtu calls out).1 }
  | .addUser keyId masterKey => { st with server := st.server.addUser keyId masterKey }
  | .removeUser keyId => { st with server := st.server.removeUser keyId }

/-- A sequence of operations, from a server with these users. -/
def serveAll (masterKeys : AList fun _ : UInt64 => List UInt8) (ops : List (Op S)) : Served :=
  ops.foldl (serve L) ⟨.start masterKeys, []⟩

/-- The call presents an authentic request of a registered user inside the skew
window, and its key object is made. -/
def InitCall.authentic (c : InitCall) : Bool :=
  authenticInit L c.masterKey c.init c.now && c.made

/-- A call with `q` carried the pair `p`, and ever since the pair has been inside the
skew window and the seen set below its capacity. -/
def Recent (q : InitCall → Bool) (p : HandshakeSeenKey) : List InitCall → Prop
  | [] => False
  | c :: l => skewRejected c.now p.timestamp = false ∧ c.seen < maxSeenTimestamps ∧
      ((q c = true ∧ initPair c.init = p) ∨ Recent q p l)

/-- No call with `q` repeats the pair of a recent one. -/
def Once (q : InitCall → Bool) : List InitCall → Prop
  | [] => True
  | c :: l => (q c = true → c.seen < maxSeenTimestamps → ¬Recent q (initPair c.init) l) ∧ Once q l

/-- **Anti-replay of requests**: `process_init` returns true at most once for each
pair while the pair is inside the window and the seen set below its capacity. -/
def AcceptsOnce (calls : List InitCall) : Prop := Once InitCall.accepted calls

/-- **No authentic request is repeated** inside the window and below the capacity. -/
def NoRepeat (calls : List InitCall) : Prop := Once (InitCall.authentic L) calls

variable {q q' : InitCall → Bool}

theorem recent_congr {p : HandshakeSeenKey} : ∀ {l : List InitCall}, (∀ c ∈ l, q c = q' c) →
    (Recent q p l ↔ Recent q' p l)
  | [], _ => Iff.rfl
  | c :: l, h => by
    rw [Recent, Recent, h c List.mem_cons_self,
      recent_congr fun c' hc' => h c' (List.mem_cons_of_mem c hc')]

theorem once_congr : ∀ {l : List InitCall}, (∀ c ∈ l, q c = q' c) → (Once q l ↔ Once q' l)
  | [], _ => Iff.rfl
  | c :: l, h => by
    have htail : ∀ c' ∈ l, q c' = q' c' := fun c' hc' => h c' (List.mem_cons_of_mem c hc')
    rw [Once, Once, h c List.mem_cons_self, once_congr htail, recent_congr htail]

/-- **`process_init` accepts what is authentic**, whether it has seen it or not. -/
theorem isSome_processInit (s : HandshakeServer) (init : List UInt8) (now : UInt64)
    (addr : Option ℕ) (seen : ℕ) (accepted : Bool) :
    (s.processInit L init now addr).2.isSome =
      InitCall.authentic L ⟨init, now, addr.isSome, s.masterKeys.lookup (initPair init).keyId, seen,
        accepted⟩ := by
  rw [processInit_eq, InitCall.authentic]
  split
  · rename_i hauth
    cases addr <;> simp [HandshakeServer.setPending, hauth]
  · rename_i hauth
    simp [hauth]

/-- Every call in the history was accepted exactly if it was authentic. -/
theorem accepted_eq_authentic {st : Served} (h : ∀ c ∈ st.calls, c.accepted = c.authentic L)
    (op : Op S) : ∀ c ∈ (serve L st op).calls, c.accepted = c.authentic L := by
  cases op with
  | processInit init now addr =>
    intro c hc
    rcases List.mem_cons.mp hc with rfl | hc
    · exact isSome_processInit L st.server init now addr _ _
    · exact h c hc
  | buildResp _ _ _ _ _ | addUser _ _ | removeUser _ => exact h

/-- **Exactly the runs without a repeat** accept each request at most once. -/
theorem acceptsOnce_iff (masterKeys : AList fun _ : UInt64 => List UInt8) (ops : List (Op S)) :
    AcceptsOnce (serveAll L masterKeys ops).calls ↔
      NoRepeat L (serveAll L masterKeys ops).calls := by
  have hcalls : ∀ c ∈ (serveAll L masterKeys ops).calls, c.accepted = c.authentic L := by
    rw [serveAll]
    induction ops using List.reverseRecOn with
    | nil => simp
    | append_singleton ops op ih =>
      rw [List.foldl_append]
      exact accepted_eq_authentic L ih op
  exact once_congr hcalls

end

/-- The same request twice, one second apart. -/
def repeatRun : List (Op UInt8) :=
  [.processInit (smallClient.buildInit smallLibrary .ok 1000) 2000 (some 0),
    .processInit (smallClient.buildInit smallLibrary .ok 1000) 3000 (some 1)]

instance (q : InitCall → Bool) (p : HandshakeSeenKey) :
    ∀ l : List InitCall, Decidable (Recent q p l)
  | [] => isFalse id
  | c :: l =>
    have := instDecidableRecent q p l
    inferInstanceAs (Decidable (skewRejected c.now p.timestamp = false ∧
      c.seen < maxSeenTimestamps ∧ ((q c = true ∧ initPair c.init = p) ∨ Recent q p l)))

instance (q : InitCall → Bool) : ∀ l : List InitCall, Decidable (Once q l)
  | [] => isTrue trivial
  | c :: l =>
    have := instDecidableOnce q l
    inferInstanceAs (Decidable ((q c = true → c.seen < maxSeenTimestamps →
      ¬Recent q (initPair c.init) l) ∧ Once q l))

/-- **A recorded request is accepted again.** -/
theorem not_acceptsOnce :
    ¬∀ ops : List (Op UInt8),
      AcceptsOnce (serveAll smallLibrary smallServer.masterKeys ops).calls := by
  intro h
  have hbad : ¬Once InitCall.accepted
      (serveAll smallLibrary smallServer.masterKeys repeatRun).calls := by
    decide +kernel
  exact hbad (h repeatRun)

end Handshake

end Aegs
