import Mathlib.Data.List.Nodup
import Aegs.Lib.Transition
import Aegs.Tunnel.Codec
import Aegs.Tunnel.Filter

/-!
# The tunnel under replays

The Python client and server, and a network that keeps every datagram and hands it to either
side as often as an attacker likes (`Aegs.Tunnel.Network.step`). What has been handled and
written is logged.

The server forgets its replay filter with every handshake and every resumption. A handshake
of the client has nothing in it that tells a first copy from a second, and the key pairs of
both sides stay the same, so a second copy leaves the keys as they are and lets all data
frames through again; and a number can be lost from the filter alone (`Aegs.Tunnel.kept`).
The client has no filter. `Aegs.Tunnel.Network.handledOnce_of_meets` has the condition under
which nothing arrives twice.
-/

namespace Aegs

namespace Tunnel

namespace Network

open Transition Wire

/-! ### The system -/

/-- Client, server and network. -/
structure System (S : Type) where
  /-- The client. -/
  client : AegsClient S
  /-- The server. -/
  server : AegsServer S
  /-- The datagrams that have been captured. -/
  wire : List (List UInt8)
  /-- The streams that the client has a local connection for. -/
  registered : UInt32 → Bool
  /-- The datagrams whose frames reached `handle_client_payload`, newest first. -/
  handled : List (List UInt8)
  /-- The datagrams that were written to a local connection, with its stream id, newest
  first. -/
  written : List (List UInt8 × UInt32)
  /-- The numbers of the handled datagrams that are left in the server's filter. -/
  numbers : List ℕ

/-- Both have just started; something may have been captured before. -/
def System.start {S : Type} (clientPriv serverPriv : S) (captured : List (List UInt8)) :
    System S where
  client := ⟨clientPriv, none, none, 0⟩
  server := .start serverPriv
  wire := captured
  registered := fun _ => false
  handled := []
  written := []
  numbers := []

/-- What happens next. -/
inductive Event
  /-- The client sends its handshake. -/
  | hello (hdrIv aeadNonce : Vector UInt8 12) (junk : Vector UInt8 16)
  /-- The client sends a frame. -/
  | clientSend (sid : UInt32) (cmd : UInt8) (payload : List UInt8) (isChaff : Bool)
    (d : ClientDraws)
  /-- The server sends a frame. -/
  | serverSend (streamId : UInt32) (cmd : UInt8) (payload : List UInt8) (d : ServerDraws)
  /-- A local connection is entered in `streams`, or taken out. -/
  | register (sid : UInt32) (present : Bool)
  /-- A captured datagram reaches the server, from some address. -/
  | toServer (addr : ℕ) (data : List UInt8) (d : ReplyDraws)
  /-- A captured datagram reaches the client in `perform_handshake`. -/
  | toHandshake (data : List UInt8)
  /-- A captured datagram reaches the client in `udp_receiver_loop`. -/
  | toClient (data : List UInt8)

section

variable {S : Type} (L : Library S) (t : Token)

/-- The sequence number of a datagram. -/
def number (data : List UInt8) : ℕ :=
  (nonceSeq (packetNonce (unmaskedHeader L.cipher (maskKey L t) data) data)).toNat

/-- The server behind the handshakes of the client. -/
def arrived (srv : AegsServer S) (addr : ℕ) (data : List UInt8) (d : ReplyDraws) :
    AegsServer S :=
  (srv.clientHandshake L t addr data d).1

/-- A datagram reaches the server. -/
def System.processPacket (st : System S) (addr : ℕ) (data : List UInt8) (d : ReplyDraws) :
    System S :=
  let before := (arrived L t st.server addr data d).replayFilter
  let (srv, outcome) := st.server.processPacket L t addr data d
  let numbers := kept before srv.replayFilter (kept st.server.replayFilter before st.numbers)
  let st := { st with server := srv, wire := st.wire ++ outcome.reply.toList }
  match outcome.payload with
  | none => { st with numbers := numbers }
  | some _ => { st with numbers := number L t data :: numbers, handled := data :: st.handled }

/-- A datagram reaches the client. -/
def System.receive (st : System S) (data : List UInt8) : System S :=
  match st.client.receive L t data with
  | none => st
  | some (sid, cmd, _) =>
    if st.registered sid then
      if cmd = cmdData then { st with written := (data, sid) :: st.written }
      else if cmd = cmdClose then
        { st with registered := Function.update st.registered sid false }
      else st
    else st

/-- Whether a packet is on the wire is decided by the equality of its bytes, which is found here
once for the definition below. -/
local instance lawfulBytes : LawfulBEq (List UInt8) := inferInstance

/-- One step. -/
def step (st : System S) : Event → Option (System S)
  | .hello hdrIv aeadNonce junk =>
    some { st with wire := st.wire ++ [st.client.handshakePacket L t hdrIv aeadNonce junk] }
  | .clientSend sid cmd payload isChaff d =>
    let (pkt, client) := st.client.sendRawPacket L t sid cmd payload isChaff d
    some { st with client := client, wire := st.wire ++ pkt.toList }
  | .serverSend streamId cmd payload d =>
    let (pkt, server) := st.server.sendAegsFrame L t streamId cmd payload d
    some { st with server := server, wire := st.wire ++ pkt.toList }
  | .register sid present =>
    some { st with registered := Function.update st.registered sid present }
  | .toServer addr data d =>
    if data ∈ st.wire then some (st.processPacket L t addr data d) else none
  | .toHandshake data =>
    if data ∈ st.wire ∧ st.client.recvKey = none then
      some { st with client := st.client.processResponse L t data }
    else none
  | .toClient data => if data ∈ st.wire then some (st.receive L t data) else none

/-- **The condition on a step**: a datagram that was handled before, and that opens under the
key the server has by now, arrives only while its number is left in the filter or too old
for it; and one that was written to a local connection only while its stream is not
registered. -/
def Careful (st : System S) : Event → Prop
  | .toServer addr data d => data ∈ st.handled →
      let srv := arrived L t st.server addr data d
      ∀ recvKey ∈ srv.recvKey,
        (openPacket L.cipher recvKey (unmaskedHeader L.cipher (maskKey L t) data) data).isSome →
          number L t data ∈ kept st.server.replayFilter srv.replayFilter st.numbers ∨
            number L t data + windowSize ≤ srv.replayFilter.maxSeq
  | .toClient data => ∀ written ∈ st.written, written.1 = data → st.registered written.2 = false
  | _ => True

instance (st : System S) : DecidablePred (Careful L t st)
  | .toServer addr data d =>
    inferInstanceAs (Decidable (data ∈ st.handled →
      ∀ recvKey ∈ (arrived L t st.server addr data d).recvKey,
        (openPacket L.cipher recvKey (unmaskedHeader L.cipher (maskKey L t) data) data).isSome →
          _ ∨ _))
  | .toClient data =>
    inferInstanceAs (Decidable (∀ written ∈ st.written, written.1 = data →
      st.registered written.2 = false))
  | .hello _ _ _ | .clientSend _ _ _ _ _ | .serverSend _ _ _ _ | .register _ _ | .toHandshake _ =>
    isTrue trivial

/-! ### What a datagram does at the server -/

/-- What comes of a datagram that reaches the server, as far as the filter goes. -/
inductive Takes (srv : AegsServer S) (data : List UInt8) (r : AegsServer S × Outcome) : Prop
  /-- It is nothing for the filter, or makes a new one. -/
  | aside (hpayload : r.2.payload = none)
    (hfilter : r.1.replayFilter = srv.replayFilter ∨ r.1.replayFilter = .new)
  /-- The filter sees its number, and nothing is handled. -/
  | dropped (hpayload : r.2.payload = none)
    (hfilter : r.1.replayFilter = (srv.replayFilter.checkAndUpdate (number L t data)).2)
  /-- The filter lets its number through, and it opens. -/
  | handled (pt : List UInt8) (recvKey : Vector UInt8 32) (hpayload : r.2.payload = some pt)
    (hrecv : srv.recvKey = some recvKey)
    (hopens : openPacket L.cipher recvKey (unmaskedHeader L.cipher (maskKey L t) data) data =
      some pt)
    (hfresh : (srv.replayFilter.checkAndUpdate (number L t data)).1 = false)
    (hfilter : r.1.replayFilter = (srv.replayFilter.checkAndUpdate (number L t data)).2)

theorem takes_rawHandshake (srv : AegsServer S) (addr : ℕ) (data : List UInt8) (d : ReplyDraws) :
    Takes L t srv data (srv.rawHandshake L t addr data d) := by
  rw [AegsServer.rawHandshake]
  split
  · exact .aside rfl (Or.inl rfl)
  split
  · exact .aside rfl (Or.inl rfl)
  split
  · exact .aside rfl (Or.inl rfl)
  · exact .aside rfl (Or.inr rfl)

theorem takes_resume (srv : AegsServer S) (addr : ℕ) (data : List UInt8) :
    Takes L t srv data (srv.resume L t addr data, .ignored) := by
  rw [AegsServer.resume]
  split
  · exact .aside rfl (Or.inl rfl)
  split
  · exact .aside rfl (Or.inl rfl)
  · exact .aside rfl (Or.inr rfl)

theorem takes_dataFrame (srv : AegsServer S) (addr : ℕ) (data : List UInt8) :
    Takes L t srv data (srv.dataFrame L t addr data) := by
  rw [AegsServer.dataFrame]
  split
  · exact .aside rfl (Or.inl rfl)
  rename_i recvKey hrecv
  simp only
  split
  · exact .aside rfl (Or.inl rfl)
  split
  · exact .dropped rfl rfl
  rename_i hturned
  split
  · exact .dropped rfl rfl
  rename_i pt hopens
  split
  · exact .dropped rfl rfl
  · exact .handled pt recvKey rfl hrecv hopens (Bool.eq_false_of_not_eq_true hturned) rfl

/-- A handshake of the client leaves the filter alone, or makes a new one. -/
theorem replayFilter_arrived (srv : AegsServer S) (addr : ℕ) (data : List UInt8)
    (d : ReplyDraws) : (arrived L t srv addr data d).replayFilter = srv.replayFilter ∨
      (arrived L t srv addr data d).replayFilter = .new := by
  rw [arrived, AegsServer.clientHandshake]
  split
  · exact Or.inl rfl
  split
  · exact Or.inl rfl
  split
  · exact Or.inl rfl
  split
  · exact Or.inl rfl
  · simp only
    split
    · exact Or.inr rfl
    · exact Or.inr rfl

/-- A datagram that is too short for a handshake. -/
theorem arrived_of_short {srv : AegsServer S} {addr : ℕ} {data : List UInt8} {d : ReplyDraws}
    (hshort : data.length < 88) : arrived L t srv addr data d = srv := by
  rw [arrived, AegsServer.clientHandshake, openHandshake, if_pos hshort]

/-- Where the handshake of a client is answered, nothing is handled. -/
theorem payload_clientHandshake {srv : AegsServer S} {addr : ℕ} {data : List UInt8}
    {d : ReplyDraws} {outcome : Outcome}
    (h : (srv.clientHandshake L t addr data d).2 = some outcome) : outcome.payload = none := by
  rw [AegsServer.clientHandshake] at h
  split at h
  · cases h
  split at h
  · cases h
  split at h
  · obtain rfl := Option.some.inj h
    rfl
  split at h
  · cases h
  · simp only at h
    split at h
    · obtain rfl := Option.some.inj h
      rfl
    · cases h

/-- **What a datagram does at the server**, seen from behind the handshakes of the client. -/
theorem takes_processPacket (srv : AegsServer S) (addr : ℕ) (data : List UInt8)
    (d : ReplyDraws) : Takes L t (arrived L t srv addr data d) data
      (srv.processPacket L t addr data d) := by
  rw [AegsServer.processPacket]
  split
  · rename_i hshort
    rw [arrived_of_short L t (by omega)]
    exact .aside rfl (Or.inl rfl)
  split
  · rename_i hstun
    rw [arrived_of_short L t (by omega)]
    exact .aside rfl (Or.inl rfl)
  simp only
  split
  · rename_i outcome hanswered
    exact .aside (payload_clientHandshake L t hanswered) (Or.inl rfl)
  split
  · exact takes_rawHandshake L t _ addr data d
  split
  · exact takes_resume L t _ addr data
  · exact takes_dataFrame L t _ addr data

end

/-! ### What a step preserves -/

section

variable {S : Type} {L : Library S} {t : Token}

/-- What holds in every state of a careful run. -/
structure Once (L : Library S) (t : Token) (st : System S) : Prop where
  /-- The filter has the numbers that are left. -/
  remembers : Remembers st.server.replayFilter st.numbers
  /-- Nothing was handled twice. -/
  handled : st.handled.Nodup
  /-- Nothing was written twice. -/
  written : (st.written.map Prod.fst).Nodup
  /-- What was written would be written to the same stream again. -/
  stream : ∀ w ∈ st.written, ∃ cmd payload,
    st.client.receive L t w.1 = some (w.2, cmd, payload)

theorem once_start (clientPriv serverPriv : S) (captured : List (List UInt8)) :
    Once L t (.start clientPriv serverPriv captured) where
  remembers := remembers_new
  handled := List.nodup_nil
  written := List.nodup_nil
  stream := fun _ hmem => nomatch hmem

/-- The receiver reads nothing of the client but its key. -/
theorem receive_congr {c c' : AegsClient S} (h : c'.recvKey = c.recvKey) (data : List UInt8) :
    c'.receive L t data = c.receive L t data := by
  rw [AegsClient.receive, AegsClient.receive, h]

theorem recvKey_sendRawPacket (c : AegsClient S) (sid : UInt32) (cmd : UInt8)
    (payload : List UInt8) (isChaff : Bool) (d : ClientDraws) :
    (c.sendRawPacket L t sid cmd payload isChaff d).2.recvKey = c.recvKey := by
  rw [AegsClient.sendRawPacket]
  split
  · rfl
  · simp only
    split
    · rfl
    · rfl

theorem replayFilter_sendAegsFrame (srv : AegsServer S) (streamId : UInt32) (cmd : UInt8)
    (payload : List UInt8) (d : ServerDraws) :
    (srv.sendAegsFrame L t streamId cmd payload d).2.replayFilter = srv.replayFilter := by
  rw [AegsServer.sendAegsFrame]
  split
  · simp only
    split
    · rfl
    · rfl
  · rfl

/-- The numbers that are left behind a change to the filter that has been, or to a new
one. -/
theorem remembers_kept {f f' : AntiReplayFilter} {numbers : List ℕ} (h : Remembers f numbers)
    (hf : f' = f ∨ f' = .new) : Remembers f' (kept f f' numbers) := by
  rcases hf with rfl | rfl
  · exact h.mono (kept_subset _ _ _)
  · rw [kept, if_pos rfl]
    exact remembers_new

theorem Once.processPacket {st : System S} (h : Once L t st) {addr : ℕ} {data : List UInt8}
    {d : ReplyDraws} (hcareful : Careful L t st (.toServer addr data d)) :
    Once L t (st.processPacket L t addr data d) := by
  have hbefore := remembers_kept h.remembers (replayFilter_arrived L t st.server addr data d)
  have htakes := takes_processPacket L t st.server addr data d
  rw [System.processPacket]
  simp only
  cases htakes with
  | aside hpayload hfilter =>
    rw [hpayload]
    exact ⟨remembers_kept hbefore hfilter, h.handled, h.written, h.stream⟩
  | dropped hpayload hfilter =>
    rw [hpayload]
    refine ⟨?_, h.handled, h.written, h.stream⟩
    simp only
    rw [hfilter]
    exact (hbefore.checkAndUpdate _).1
  | handled pt recvKey hpayload hrecv hopens hfresh hfilter =>
    rw [hpayload]
    refine ⟨?_, List.nodup_cons.mpr ⟨fun hmem => ?_, h.handled⟩, h.written, h.stream⟩
    · simp only
      rw [hfilter]
      exact (hbefore.checkAndUpdate _).2 hfresh
    · -- a datagram that was handled before is one that the filter turns down
      have hleft := hcareful hmem recvKey hrecv (Option.isSome_of_eq_some hopens)
      have hturned := hbefore.turnsDown hleft
      exact Bool.false_ne_true (hfresh.symm.trans hturned)

theorem Once.receive {st : System S} (h : Once L t st) {data : List UInt8}
    (hcareful : Careful L t st (.toClient data)) : Once L t (st.receive L t data) := by
  rw [System.receive]
  split
  · exact h
  rename_i sid cmd payload hreceive
  split
  · rename_i hregistered
    split
    · refine ⟨h.remembers, h.handled, ?_, ?_⟩
      · rw [List.map_cons]
        refine List.nodup_cons.mpr ⟨fun hmem => ?_, h.written⟩
        obtain ⟨w, hw, hdata⟩ := List.mem_map.mp hmem
        obtain ⟨cmd', payload', hagain⟩ := h.stream w hw
        rw [hdata, hreceive, Option.some_inj, Prod.mk.injEq] at hagain
        have hfree := hcareful w hw hdata
        rw [← hagain.1, hregistered] at hfree
        exact Bool.false_ne_true hfree.symm
      · exact List.forall_mem_cons.mpr ⟨⟨cmd, payload, hreceive⟩, h.stream⟩
    split
    · exact ⟨h.remembers, h.handled, h.written, h.stream⟩
    · exact h
  · exact h

theorem Once.step {st st' : System S} (h : Once L t st) {e : Event} (hcareful : Careful L t st e)
    (hstep : step L t st e = some st') : Once L t st' := by
  cases e with
  | hello hdrIv aeadNonce junk =>
    obtain rfl := Option.some.inj hstep
    exact ⟨h.remembers, h.handled, h.written, h.stream⟩
  | clientSend sid cmd payload isChaff d =>
    obtain rfl := Option.some.inj hstep
    refine ⟨h.remembers, h.handled, h.written, fun w hw => ?_⟩
    obtain ⟨cmd', payload', hreceive⟩ := h.stream w hw
    have hkey := @recvKey_sendRawPacket S L t st.client sid cmd payload isChaff d
    exact ⟨cmd', payload', (receive_congr hkey w.1).trans hreceive⟩
  | serverSend streamId cmd payload d =>
    obtain rfl := Option.some.inj hstep
    have hfilter := @replayFilter_sendAegsFrame S L t st.server streamId cmd payload d
    exact ⟨(congrArg (Remembers · st.numbers) hfilter).mpr h.remembers, h.handled, h.written,
      h.stream⟩
  | register sid present =>
    obtain rfl := Option.some.inj hstep
    exact ⟨h.remembers, h.handled, h.written, h.stream⟩
  | toServer addr data d =>
    obtain rfl := Option.some.inj (Option.ite_none_right_eq_some.mp hstep).2
    exact h.processPacket hcareful
  | toHandshake data =>
    obtain ⟨⟨-, hnone⟩, hst'⟩ := Option.ite_none_right_eq_some.mp hstep
    obtain rfl := Option.some.inj hst'
    refine ⟨h.remembers, h.handled, h.written, fun w hw => ?_⟩
    -- nothing was written before the client has a key
    obtain ⟨cmd, payload, hreceive⟩ := h.stream w hw
    rw [AegsClient.receive, hnone] at hreceive
    cases hreceive
  | toClient data =>
    obtain rfl := Option.some.inj (Option.ite_none_right_eq_some.mp hstep).2
    exact h.receive hcareful

/-- **Nothing arrives twice**: in every careful run no client datagram reaches
`handle_client_payload` twice, and no server datagram is written twice to a local
connection. -/
theorem handledOnce_of_meets {clientPriv serverPriv : S} {captured : List (List UInt8)}
    {es : List Event} {st : System S}
    (hok : Meets (step L t) (Careful L t) (.start clientPriv serverPriv captured) es)
    (hrun : runs (step L t) (.start clientPriv serverPriv captured) es = some st) :
    st.handled.Nodup ∧ (st.written.map Prod.fst).Nodup := by
  have honce : Once L t st :=
    inv_of_meets (fun h hcareful hstep => h.step hcareful hstep)
      (once_start clientPriv serverPriv captured) hok hrun
  exact ⟨honce.handled, honce.written⟩

end

/-! ### Runs with small keys -/

/-- The sum of some bytes. -/
def byteSum (bytes : List UInt8) : UInt8 := bytes.foldl (· + ·) 0

/-- A library in which a derived key is the sum of what goes in, and a shared secret that of
two keys. -/
def sumLibrary : Library UInt8 where
  cipher := lengthCipher
  hkdfExpand := fun secret info =>
    Vector.replicate 32 (byteSum secret + byteSum info.toUTF8.toList)
  hkdfExtractAndExpand := fun salt secret info =>
    Vector.replicate 32 (byteSum salt + byteSum secret + byteSum info.toUTF8.toList)
  hmac := fun key data => Vector.replicate 32 (byteSum key + byteSum data)
  pub := fun s => Vector.replicate 32 s
  exchange := fun s p => some [s + getElem p 0 Bytes.zero_lt_32]

/-- A client and a server. -/
def smallStart : System UInt8 := .start 1 2 []

/-- The handshake of the client. -/
def smallHello : List UInt8 :=
  smallStart.client.handshakePacket sumLibrary smallToken (Vector.replicate 12 0)
    (Vector.replicate 12 0) (Vector.replicate 16 0)

/-- Client and server shake hands. -/
def helloSteps : List Event :=
  [.hello (Vector.replicate 12 0) (Vector.replicate 12 0) (Vector.replicate 16 0),
    .toServer 0 smallHello zeroReplyDraws,
    .toHandshake (handshakeResponse sumLibrary smallToken smallStart.server zeroReplyDraws)]

/-- A data frame of the client, under its number. -/
def clientFrame (seq : UInt64) : List UInt8 :=
  clientPacket sumLibrary smallToken (writeKeys sumLibrary [3]).1 seq 101 cmdData [7] false
    zeroClientDraws

/-- A data frame of the server. -/
def serverFrame : List UInt8 :=
  serverPacket sumLibrary smallToken (writeKeys sumLibrary [3]).2 1 101 cmdData [8]
    zeroServerDraws

/-- A data frame is handled, the captured handshake is sent once more, and then the captured
data frame. A frame of the server is sent to the client twice. -/
def replayedRun : List Event :=
  helloSteps ++
    [.clientSend 101 cmdData [7] false zeroClientDraws, .toServer 0 (clientFrame 1) zeroReplyDraws,
      .toServer 0 smallHello zeroReplyDraws, .toServer 0 (clientFrame 1) zeroReplyDraws,
      .register 101 true, .serverSend 101 cmdData [8] zeroServerDraws, .toClient serverFrame,
      .toClient serverFrame]

/-- **What a replay does**: the data frame is handled twice, and the frame of the server
written twice. -/
theorem not_handledOnce :
    ∃ st ∈ runs (step sumLibrary smallToken) smallStart replayedRun,
      ¬st.handled.Nodup ∧ ¬(st.written.map Prod.fst).Nodup := by
  obtain ⟨st, hrun, hlogs⟩ := Option.map_eq_some_iff.mp
    (show (runs (step sumLibrary smallToken) smallStart replayedRun).map
      (fun st => (st.handled, st.written)) =
        some ([clientFrame 1, clientFrame 1], [(serverFrame, 101), (serverFrame, 101)]) by
      decide +kernel)
  obtain ⟨hhandled, hwritten⟩ := Prod.mk.inj hlogs
  refine ⟨st, hrun, ?_, ?_⟩
  · rw [hhandled]
    exact List.not_nodup_pair _
  · rw [hwritten]
    exact List.not_nodup_pair _

/-- A data frame arrives again while its number is left in the filter, and a frame of the
server when its stream is gone. -/
def carefulRun : List Event :=
  helloSteps ++
    [.clientSend 101 cmdData [7] false zeroClientDraws, .toServer 0 (clientFrame 1) zeroReplyDraws,
      .clientSend 101 cmdData [7] false zeroClientDraws, .toServer 0 (clientFrame 2) zeroReplyDraws,
      .toServer 9 (clientFrame 1) zeroReplyDraws, .register 101 true,
      .serverSend 101 cmdData [8] zeroServerDraws, .toClient serverFrame, .register 101 false,
      .toClient serverFrame]

theorem handledOnce_carefulRun :
    ∃ st, runs (step sumLibrary smallToken) smallStart carefulRun = some st ∧
      st.handled = [clientFrame 2, clientFrame 1] ∧ st.written = [(serverFrame, 101)] ∧
        (st.handled.Nodup ∧ (st.written.map Prod.fst).Nodup) := by
  obtain ⟨st, hrun, hlogs⟩ := Option.map_eq_some_iff.mp
    (show (runs (step sumLibrary smallToken) smallStart carefulRun).map
      (fun st => (st.handled, st.written)) =
        some ([clientFrame 2, clientFrame 1], [(serverFrame, 101)]) by decide +kernel)
  obtain ⟨hhandled, hwritten⟩ := Prod.mk.inj hlogs
  have hok : Meets (step sumLibrary smallToken) (Careful sumLibrary smallToken) smallStart
      carefulRun := by
    decide +kernel
  exact ⟨st, hrun, hhandled, hwritten, handledOnce_of_meets hok hrun⟩

/-- The filter alone: the first of nine numbers in a row is let through again. -/
example : (([1, 2, 3, 4, 5, 6, 7, 8, 9, 1] : List ℕ).foldl
    (fun (r : Bool × AntiReplayFilter) seq => r.2.checkAndUpdate seq) (true, .new)).1 = false := by
  decide +kernel

end Network

end Tunnel

end Aegs
