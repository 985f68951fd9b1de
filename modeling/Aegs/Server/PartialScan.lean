import Aegs.Server.DataPlane
import Aegs.Server.Registry

/-!
# A scan that stops early

`sync_users_from_db` reads the rows in `while (sqlite3_step(stmt) == SQLITE_ROW)`: the loop
ends the same way at the end of the table and at an error, and what was read by then is
taken for the table. The data version is recorded before the rows are applied, so that the
next call finds nothing to do.

Every outcome of the SQLite calls is an argument here (`Aegs.Server.SqliteCalls`). A call
that does not get to the end of the table leaves the server alone and is made up for by the
next one exactly if it got no data version, met no new user it can register, and missed no
user whose key ids the server knows (`Aegs.Server.harmless_iff`).
-/

namespace Aegs

namespace Server

open Bytes Handshake Transition Wire

/-! ### The call -/

/-- What `sync_users_from_db` keeps of the database. -/
structure SyncDb where
  /-- `g_sync_db` is not null. -/
  opened : Bool
  /-- `g_last_db_path`. -/
  path : String
  /-- `g_last_db_data_version`. -/
  dataVersion : ℤ

/-- The SQLite calls of one `sync_users_from_db`. -/
structure SqliteCalls where
  /-- `sqlite3_open_v2` goes through. -/
  opens : Bool
  /-- The statement for the data version is prepared. -/
  preparesVersion : Bool
  /-- The data version, if `sqlite3_step` hands over its row. -/
  version : Option ℤ
  /-- The statement for the rows is prepared. -/
  preparesUsers : Bool
  /-- The number of rows after which `sqlite3_step` returns an error, if it does. -/
  stops : Option ℕ

/-- How far a call gets. -/
inductive Scan
  /-- The path is empty. -/
  | noPath
  /-- The database is not opened, or one of the statements not prepared. -/
  | failed
  /-- The data version is the one recorded. -/
  | upToDate
  /-- The rows that were read, and whether they are all. -/
  | rows (read : List UserRow) (complete : Bool)

/-- `sync_users_from_db` up to the end of the scan. -/
def SyncDb.scan (db : SyncDb) (dbPath : String) (table : List UserRow) (calls : SqliteCalls) :
    SyncDb × Scan :=
  if dbPath = "" then (db, .noPath)
  else
    let db := if db.opened ∧ db.path ≠ dbPath then
      { db with opened := false, dataVersion := -1 } else db
    if ¬db.opened ∧ ¬calls.opens then (db, .failed)
    else
      let db := if db.opened then db else ⟨true, dbPath, -1⟩
      if ¬calls.preparesVersion then ({ db with opened := false }, .failed)
      else
        let currentVersion := calls.version.getD (-1)
        if currentVersion ≠ -1 ∧ currentVersion = db.dataVersion then (db, .upToDate)
        else if ¬calls.preparesUsers then (db, .failed)
        else
          let db := { db with dataVersion := currentVersion }
          match calls.stops with
          | none => (db, .rows table true)
          | some n => (db, .rows (table.take n) false)

section

variable {S : Type} (L : Library S) (T : TokenCipher) (D : KeyDerivation)

/-- `sync_users_from_db` at the time `now`. It goes over the map of the rows it has read,
and over the tokens to remove, in these orders. -/
def State.syncUsersFromDb (st : State) (db : SyncDb) (dbPath : String) (table : List UserRow)
    (calls : SqliteCalls) (now : ℤ) (rows : List (String × String)) (revoked : List String) :
    Option (State × SyncDb) :=
  match db.scan dbPath table calls with
  | (db, .rows read _) =>
    if rows.Perm ((currentDbUsers read).entries.map fun entry => (entry.1, entry.2)) then
      (step L T D st (.sync now rows revoked)).map fun st => (st, db)
    else none
  | (db, _) => some (st, db)

/-! ### The property and the condition -/

/-- The call fails, or its scan ends before the table does. -/
def Scan.Incomplete : Scan → Prop
  | .failed => True
  | .rows _ complete => complete = false
  | _ => False

/-- **Nothing changed**: the accepted key ids, the sessions with their routes, and the
pool. -/
structure Unchanged (st st' : State) : Prop where
  /-- The accepted key ids. -/
  accepted : ∀ keyId, (st'.hs.masterKeys.lookup keyId).isSome ↔
    (st.hs.masterKeys.lookup keyId).isSome
  /-- The sessions and the routes. -/
  sessions : st'.sessions = st.sessions
  /-- The pool. -/
  pool : st'.pool = st.pool

/-- **The next call reads the rows**, if nothing is committed in between and SQLite goes
through. -/
def Retried (db : SyncDb) (dbPath : String) (calls : SqliteCalls) : Prop :=
  ∀ table calls', calls'.version = calls.version → calls'.opens = true →
    calls'.preparesVersion = true → calls'.preparesUsers = true →
      ∃ read complete, (db.scan dbPath table calls').2 = .rows read complete

/-- The name is of a session in the table, or no master key is derived for it. -/
def Noted (sessions : SessionTable) (name : String × String) : Prop :=
  (sessions.findByKeyId (keyIdOf D name.1 name.2)).isSome ∨
    D.deriveMasterKey name.1 (kidText D name.1 name.2) = none

/-- **The rows that were read are the users that the server knows**: each is active or has
nothing to register, and an active user who is not among them has no session left. -/
structure SameRows (st : State) (rows : List (String × String)) : Prop where
  /-- Nobody new. -/
  known : ∀ row ∈ rows, st.activeTokens.lookup row.1 = none →
    ∀ name ∈ rowNames row, Noted D st.sessions name
  /-- Nobody missing. -/
  missing : ∀ token base, st.activeTokens.lookup token = some base →
    token ∉ rows.map Prod.fst →
      ∀ keyId ∈ (st.userSlots.lookup base).getD [base], st.sessions.findByKeyId keyId = none

/-- **The condition**: the scan did not begin, or it had no data version and read what the
server knows. -/
def Harmless (st : State) (calls : SqliteCalls) (rows : List (String × String)) : Scan → Prop
  | .rows _ _ => calls.version.getD (-1) = -1 ∧ SameRows D st rows
  | _ => True

/-! ### Registration -/

variable {D} {st : State}

/-- **A noted name** is registered without a change. -/
theorem registerDevice_of_noted {name : String × String} (h : Noted D st.sessions name) (now : ℤ) :
    (st.registerDevice L D now name.1 name.2).1 = st ∧
      ((st.registerDevice L D now name.1 name.2).2 ≠ 0 →
        (st.registerDevice L D now name.1 name.2).2 = keyIdOf D name.1 name.2 ∧
          (st.sessions.findByKeyId (keyIdOf D name.1 name.2)).isSome) := by
  have hkid : (if name.2 ≠ "" then D.scanKeyId name.2 else ofLe64 (D.computeKeyId name.1)) =
      keyIdOf D name.1 name.2 := rfl
  have htext : (if name.2 ≠ "" then name.2 else hexEncode (D.computeKeyId name.1).toList) =
      kidText D name.1 name.2 := rfl
  simp only [State.registerDevice, hkid, htext]
  rcases hfound : st.sessions.findByKeyId (keyIdOf D name.1 name.2) with _ | p
  · have hnone : D.deriveMasterKey name.1 (kidText D name.1 name.2) = none := by
      rcases h with hsome | hnone
      · rw [hfound] at hsome
        exact absurd hsome Bool.false_ne_true
      · exact hnone
    simp only [hnone]
    exact ⟨trivial, fun hne => absurd rfl hne⟩
  · exact ⟨rfl, fun _ => ⟨rfl, rfl⟩⟩

/-- **A name that is not noted** takes a new session, with its key id accepted. -/
theorem registerDevice_of_not_noted {name : String × String} (h : ¬Noted D st.sessions name)
    (now : ℤ) :
    ∃ masterKey, st.registerDevice L D now name.1 name.2 =
      ({ st with
        hs := st.hs.addUser (keyIdOf D name.1 name.2) masterKey.toList
        sessions := st.sessions.insertSession
          (newDevice L (keyIdOf D name.1 name.2) masterKey now) }, keyIdOf D name.1 name.2) := by
  have hkid : (if name.2 ≠ "" then D.scanKeyId name.2 else ofLe64 (D.computeKeyId name.1)) =
      keyIdOf D name.1 name.2 := rfl
  have htext : (if name.2 ≠ "" then name.2 else hexEncode (D.computeKeyId name.1).toList) =
      kidText D name.1 name.2 := rfl
  obtain ⟨hmissing, hderived⟩ := not_or.mp h
  rw [Bool.not_eq_true, Option.isSome_eq_false_iff, Option.isNone_iff_eq_none] at hmissing
  obtain ⟨masterKey, hmaster⟩ := Option.ne_none_iff_exists'.mp hderived
  refine ⟨masterKey, ?_⟩
  simp only [State.registerDevice, hkid, htext, hmissing, hmaster]

/-- Sessions are made and never unmade. -/
theorem next_registerDevice (st : State) (now : ℤ) (token kidHex : String) :
    st.sessions.next ≤ (st.registerDevice L D now token kidHex).1.sessions.next := by
  by_cases h : Noted D st.sessions (token, kidHex)
  · rw [(registerDevice_of_noted L h now).1]
  · obtain ⟨masterKey, heq⟩ := registerDevice_of_not_noted L h now
    rw [heq]
    exact Nat.le_succ _

/-- The devices of some names, one after the other. -/
def registerNames (D : KeyDerivation) (st : State) (now : ℤ) (names : List (String × String)) :
    State :=
  names.foldl (fun st name => (st.registerDevice L D now name.1 name.2).1) st

theorem next_registerNames (st : State) (now : ℤ) (names : List (String × String)) :
    st.sessions.next ≤ (registerNames L D st now names).sessions.next := by
  induction names generalizing st with
  | nil => exact le_rfl
  | cons name names ih => exact (next_registerDevice L st now _ _).trans (ih _)

/-- **No session is made** exactly if all names are noted, and then nothing changes. -/
theorem registerNames_eq (now : ℤ) {names : List (String × String)}
    (h : ∀ name ∈ names, Noted D st.sessions name) : registerNames L D st now names = st := by
  induction names with
  | nil => rfl
  | cons name names ih =>
    have hfirst := (registerDevice_of_noted L (h name List.mem_cons_self) now).1
    rw [registerNames, List.foldl_cons, hfirst]
    exact ih fun n hn => h n (List.mem_cons_of_mem _ hn)

theorem noted_of_next {now : ℤ} {names : List (String × String)}
    (h : (registerNames L D st now names).sessions.next = st.sessions.next) :
    ∀ name ∈ names, Noted D st.sessions name := by
  induction names with
  | nil => exact fun _ hn => absurd hn List.not_mem_nil
  | cons name names ih =>
    rw [registerNames, List.foldl_cons] at h
    by_cases hnoted : Noted D st.sessions name
    · rw [(registerDevice_of_noted L hnoted now).1] at h
      intro n hn
      rcases List.mem_cons.mp hn with rfl | hn
      · exact hnoted
      · exact ih h n hn
    · -- the session made for this name stays
      obtain ⟨masterKey, heq⟩ := registerDevice_of_not_noted L hnoted now
      have hle := next_registerNames L (D := D)
        (st.registerDevice L D now name.1 name.2).1 now names
      rw [registerNames, h, heq] at hle
      exact absurd hle (Nat.not_succ_le_self _)

theorem sameLedger_registerDevice (st : State) (now : ℤ) (token kidHex : String) :
    SameLedger st (st.registerDevice L D now token kidHex).1 := by
  by_cases h : Noted D st.sessions (token, kidHex)
  · rw [(registerDevice_of_noted L h now).1]
    exact ⟨rfl, rfl⟩
  · obtain ⟨masterKey, heq⟩ := registerDevice_of_not_noted L h now
    rw [heq]
    exact ⟨rfl, rfl⟩

theorem sameLedger_registerNames (st : State) (now : ℤ) (names : List (String × String)) :
    SameLedger st (registerNames L D st now names) := by
  induction names generalizing st with
  | nil => exact ⟨rfl, rfl⟩
  | cons name names ih => exact (sameLedger_registerDevice L st now _ _).trans (ih _)

/-- The slots `#2` to `#4` are three more names, and no slot is taken out of the list. -/
theorem registerSlots_eq (st : State) (now : ℤ) (token : String) (slots : List UInt64) :
    (st.registerSlots L D now token slots).1 =
        registerNames L D st now (["#2", "#3", "#4"].map fun suffix => (token ++ suffix, "")) ∧
      slots ⊆ (st.registerSlots L D now token slots).2 := by
  rw [State.registerSlots]
  generalize ["#2", "#3", "#4"] = suffixes
  induction suffixes generalizing st slots with
  | nil => exact ⟨rfl, List.Subset.refl slots⟩
  | cons suffix suffixes ih =>
    rw [List.foldl_cons, List.map_cons, registerNames, List.foldl_cons]
    obtain ⟨hstate, hslots⟩ := ih (st.registerDevice L D now (token ++ suffix) "").1
      (if (st.registerDevice L D now (token ++ suffix) "").2 ≠ 0 then
        slots ++ [(st.registerDevice L D now (token ++ suffix) "").2] else slots)
    refine ⟨hstate, List.Subset.trans ?_ hslots⟩
    split
    · exact List.subset_append_left slots _
    · exact List.Subset.refl slots

/-- **A row is registered**: its names, and the records of its token unless its first name
got no key id. -/
theorem registerUser_eq (st : State) (now : ℤ) (user : String × String) :
    ∃ userSlots activeTokens, st.registerUser L D now user.1 user.2 =
        { registerNames L D st now (rowNames user) with
          userSlots := userSlots
          activeTokens := activeTokens } ∧
      ((userSlots = st.userSlots ∧ activeTokens = st.activeTokens) ∨
        ∃ slots, (st.registerDevice L D now user.1 user.2).2 ≠ 0 ∧
          (st.registerDevice L D now user.1 user.2).2 ∈ slots ∧
          userSlots = st.userSlots.insert (st.registerDevice L D now user.1 user.2).2 slots ∧
          activeTokens =
            st.activeTokens.insert user.1 (st.registerDevice L D now user.1 user.2).2) := by
  -- the state and the slots before the records are made
  obtain ⟨st', slots, hnames, hslots, hst'⟩ : ∃ st' slots,
      st' = registerNames L D st now (rowNames user) ∧
      ((st.registerDevice L D now user.1 user.2).2 ≠ 0 →
        (st.registerDevice L D now user.1 user.2).2 ∈ slots) ∧
      st.registerUser L D now user.1 user.2 =
        if (st.registerDevice L D now user.1 user.2).2 ≠ 0 then
          { st' with
            userSlots := st'.userSlots.insert (st.registerDevice L D now user.1 user.2).2 slots
            activeTokens :=
              st'.activeTokens.insert user.1 (st.registerDevice L D now user.1 user.2).2 }
        else st' := by
    by_cases hhash : '#' ∈ user.1.toList
    · refine ⟨(st.registerDevice L D now user.1 user.2).1,
        if (st.registerDevice L D now user.1 user.2).2 ≠ 0 then
          [(st.registerDevice L D now user.1 user.2).2] else [], ?_, ?_, ?_⟩
      · rw [rowNames, if_pos hhash]
        rfl
      · intro hne
        rw [if_pos hne]
        exact List.mem_singleton.mpr rfl
      · simp only [State.registerUser, if_pos hhash]
    · obtain ⟨st₁, k1, hfirst⟩ : ∃ st₁ k1, st.registerDevice L D now user.1 user.2 = (st₁, k1) :=
        ⟨_, _, rfl⟩
      obtain ⟨st₂, kSlot1, hsecond⟩ : ∃ st₂ kSlot1,
          st₁.registerDevice L D now (user.1 ++ "#1") "" = (st₂, kSlot1) := ⟨_, _, rfl⟩
      obtain ⟨slots₀, hslots₀⟩ : ∃ slots₀, slots₀ =
          if kSlot1 ≠ 0 ∧ kSlot1 ≠ k1 then (if k1 ≠ 0 then [k1] else []) ++ [kSlot1]
          else if k1 ≠ 0 then [k1] else [] := ⟨_, rfl⟩
      obtain ⟨hstate, hslots⟩ := registerSlots_eq L (D := D) st₂ now user.1 slots₀
      refine ⟨(st₂.registerSlots L D now user.1 slots₀).1,
        (st₂.registerSlots L D now user.1 slots₀).2, ?_, ?_, ?_⟩
      · rw [hstate, rowNames, if_neg hhash]
        simp only [registerNames, List.map_cons, List.map_nil, List.foldl_cons, List.foldl_nil,
          hfirst, hsecond]
      · rw [hfirst]
        intro hne
        apply hslots
        rw [hslots₀, if_pos hne]
        split
        · exact List.mem_append_left _ (List.mem_singleton.mpr rfl)
        · exact List.mem_singleton.mpr rfl
      · rw [hslots₀]
        simp only [State.registerUser, hfirst, hsecond, if_neg hhash]
  obtain ⟨hsame, hsame'⟩ := sameLedger_registerNames L (D := D) st now (rowNames user)
  rw [hnames] at hst'
  split at hst'
  · rename_i hne
    exact ⟨_, _, hst', Or.inr ⟨slots, hne, hslots hne, by rw [hsame], by rw [hsame']⟩⟩
  · exact ⟨_, _, hst', Or.inl ⟨hsame, hsame'⟩⟩

/-- The same but for the records, which change for tokens of the rows and for key ids in
the session table. -/
structure Rerecorded (st st' : State) (tokens : List String) : Prop where
  /-- The handshake server is the same. -/
  hs : st'.hs = st.hs
  /-- The pool is the same. -/
  pool : st'.pool = st.pool
  /-- The sessions are the same. -/
  sessions : st'.sessions = st.sessions
  /-- The slots of other key ids are the same. -/
  slots : ∀ base, st.sessions.findByKeyId base = none →
    st'.userSlots.lookup base = st.userSlots.lookup base
  /-- Other tokens are as active as they were. -/
  active : ∀ token, token ∉ tokens → st'.activeTokens.lookup token = st.activeTokens.lookup token

theorem Rerecorded.refl (st : State) (tokens : List String) : Rerecorded st st tokens :=
  ⟨rfl, rfl, rfl, fun _ _ => rfl, fun _ _ => rfl⟩

theorem Rerecorded.trans {st st' st'' : State} {token : String} {tokens : List String}
    (h : Rerecorded st st' [token]) (h' : Rerecorded st' st'' tokens) :
    Rerecorded st st'' (token :: tokens) where
  hs := h'.hs.trans h.hs
  pool := h'.pool.trans h.pool
  sessions := h'.sessions.trans h.sessions
  slots := fun base hbase =>
    (h'.slots base (by rw [h.sessions]; exact hbase)).trans (h.slots base hbase)
  active := by
    intro t ht
    rw [List.mem_cons, not_or] at ht
    exact (h'.active t ht.2).trans (h.active t fun hmem => ht.1 (List.mem_singleton.mp hmem))

/-- One row whose names are noted. -/
theorem registerUser_of_noted (now : ℤ) {user : String × String}
    (h : ∀ name ∈ rowNames user, Noted D st.sessions name) :
    Rerecorded st (st.registerUser L D now user.1 user.2) [user.1] := by
  obtain ⟨userSlots, activeTokens, heq, hrecords⟩ := registerUser_eq L (D := D) st now user
  rw [registerNames_eq L now h] at heq
  rw [heq]
  refine ⟨rfl, rfl, rfl, ?_, ?_⟩
  · intro base hbase
    rcases hrecords with ⟨rfl, -⟩ | ⟨slots, hne, -, rfl, -⟩
    · rfl
    · obtain ⟨hkey, hfound⟩ :=
        (registerDevice_of_noted L (h user List.mem_cons_self) now).2 hne
      rw [hkey]
      refine AList.lookup_insert_ne ?_
      rintro rfl
      rw [hbase] at hfound
      exact absurd hfound Bool.false_ne_true
  · intro token htoken
    rcases hrecords with ⟨-, rfl⟩ | ⟨slots, -, -, -, rfl⟩
    · rfl
    · exact AList.lookup_insert_ne fun heq => htoken (List.mem_singleton.mpr heq)

/-- The rows have nobody new. -/
def NobodyNew (D : KeyDerivation) (st : State) (rows : List (String × String)) : Prop :=
  ∀ row ∈ rows, st.activeTokens.lookup row.1 = none →
    ∀ name ∈ rowNames row, Noted D st.sessions name

/-- The rows behind one that has been gone over. -/
theorem NobodyNew.tail_iff {st' : State} {row : String × String} {rows : List (String × String)}
    (hsame : Rerecorded st st' [row.1]) (hnodup : ((row :: rows).map Prod.fst).Nodup) :
    NobodyNew D st' rows ↔ NobodyNew D st rows := by
  rw [List.map_cons, List.nodup_cons] at hnodup
  have hactive : ∀ r ∈ rows, st'.activeTokens.lookup r.1 = st.activeTokens.lookup r.1 := by
    intro r hr
    refine hsame.active r.1 fun hmem => hnodup.1 ?_
    rw [← List.mem_singleton.mp hmem]
    exact List.mem_map_of_mem hr
  refine forall₂_congr fun r hr => ?_
  rw [hactive r hr, hsame.sessions]

/-- **Nobody new**: the registration changes records only. -/
theorem registerUsers_of_nobodyNew (now : ℤ) {rows : List (String × String)}
    (hnodup : (rows.map Prod.fst).Nodup) (h : NobodyNew D st rows) :
    Rerecorded st (st.registerUsers L D now rows) (rows.map Prod.fst) := by
  induction rows generalizing st with
  | nil => exact .refl st _
  | cons row rows ih =>
    have hfirst : Rerecorded st (if (st.activeTokens.lookup row.1).isSome then st
        else st.registerUser L D now row.1 row.2) [row.1] := by
      split
      · exact .refl st _
      · rename_i hnew
        rw [Bool.not_eq_true, Option.isSome_eq_false_iff, Option.isNone_iff_eq_none] at hnew
        exact registerUser_of_noted L now (h row List.mem_cons_self hnew)
    have hrest : NobodyNew D st rows := fun r hr => h r (List.mem_cons_of_mem _ hr)
    rw [State.registerUsers, List.foldl_cons]
    exact hfirst.trans (ih (List.nodup_cons.mp hnodup).2 ((NobodyNew.tail_iff hfirst hnodup).mpr
      hrest))

theorem next_registerUsers (st : State) (now : ℤ) (rows : List (String × String)) :
    st.sessions.next ≤ (st.registerUsers L D now rows).sessions.next :=
  registerUsers_rec L D (P := fun st' => st.sessions.next ≤ st'.sessions.next)
    (fun h now token kidHex => h.trans (next_registerDevice L _ now token kidHex))
    (fun h _ _ _ _ => h) le_rfl now rows

/-- **No session is made** only if there is nobody new. -/
theorem nobodyNew_of_next {now : ℤ} {rows : List (String × String)}
    (hnodup : (rows.map Prod.fst).Nodup)
    (h : (st.registerUsers L D now rows).sessions.next = st.sessions.next) :
    NobodyNew D st rows := by
  induction rows generalizing st with
  | nil => exact fun _ hr => absurd hr List.not_mem_nil
  | cons row rows ih =>
    rw [State.registerUsers, List.foldl_cons] at h
    by_cases hactive : (st.activeTokens.lookup row.1).isSome
    · rw [if_pos hactive] at h
      intro r hr hnew
      rcases List.mem_cons.mp hr with rfl | hr
      · rw [hnew] at hactive
        exact absurd hactive Bool.false_ne_true
      · exact ih (List.nodup_cons.mp hnodup).2 h r hr hnew
    · rw [if_neg hactive] at h
      obtain ⟨userSlots, activeTokens, heq, -⟩ := registerUser_eq L (D := D) st now row
      -- sessions are only ever made here, so neither this row nor the rest makes one
      have hmade : (registerNames L D st now (rowNames row)).sessions.next = st.sessions.next := by
        have hle := next_registerUsers L (D := D) (st.registerUser L D now row.1 row.2) now rows
        rw [State.registerUsers, h, heq] at hle
        exact le_antisymm hle (next_registerNames L st now (rowNames row))
      have hnoted := noted_of_next L hmade
      have hsame := registerUser_of_noted L now hnoted
      have hrest : NobodyNew D st rows := by
        rw [← NobodyNew.tail_iff hsame hnodup]
        refine ih (List.nodup_cons.mp hnodup).2 ?_
        rw [hsame.sessions]
        exact h
      intro r hr
      rcases List.mem_cons.mp hr with rfl | hr
      · exact fun _ => hnoted
      · exact hrest r hr

/-! ### Removal -/

theorem Unchanged.refl (st : State) : Unchanged st st := ⟨fun _ => Iff.rfl, rfl, rfl⟩

theorem Unchanged.trans {st st' st'' : State} (h : Unchanged st st') (h' : Unchanged st' st'') :
    Unchanged st st'' :=
  ⟨fun keyId => (h'.accepted keyId).trans (h.accepted keyId), h'.sessions.trans h.sessions,
    h'.pool.trans h.pool⟩

/-- The key ids that go with a token whose own key id this is. -/
def slotsOf (st : State) (base : UInt64) : List UInt64 := (st.userSlots.lookup base).getD [base]

theorem findByKeyId_revokeSlot (st : State) (keyId k : UInt64) :
    (st.revokeSlot keyId).sessions.findByKeyId k =
      if k = keyId then none else st.sessions.findByKeyId k :=
  SessionTable.findByKeyId_removeSession _ _ _

theorem findByKeyId_revokeSlots (st : State) (slots : List UInt64) (k : UInt64) :
    (slots.foldl State.revokeSlot st).sessions.findByKeyId k =
      if k ∈ slots then none else st.sessions.findByKeyId k := by
  induction slots generalizing st with
  | nil => rfl
  | cons keyId slots ih =>
    rw [List.foldl_cons, ih, findByKeyId_revokeSlot]
    by_cases hmem : k ∈ slots
    · simp only [hmem, List.mem_cons, or_true, if_true]
    · simp only [hmem, List.mem_cons, or_false, if_false]

/-- **A key id that the server does not know** is removed without a change. -/
theorem revokeSlot_of_unknown {keyId : UInt64} (hsession : st.sessions.findByKeyId keyId = none)
    (huser : st.hs.masterKeys.lookup keyId = none) : Unchanged st (st.revokeSlot keyId) where
  accepted := by
    intro k
    have hmaster : (st.hs.removeUser keyId).masterKeys = st.hs.masterKeys.erase keyId := by
      rw [HandshakeServer.removeUser]
      exact (dropPending_shrinks _ keyId).masterKeys
    simp only [State.revokeSlot, hmaster]
    rcases eq_or_ne k keyId with rfl | hne
    · rw [AList.lookup_erase, huser]
    · rw [AList.lookup_erase_ne hne]
  sessions := by
    simp only [State.revokeSlot, SessionTable.removeSession, hsession]
  pool := by
    simp only [State.revokeSlot, hsession, Option.map_none, Option.getD_none, ne_eq,
      not_true_eq_false, if_false]

/-- What is left of the records after a token is removed. -/
structure Dropped (st st' : State) (token : String) (base : UInt64) : Prop where
  /-- The key ids that went with it are gone. -/
  gone : ∀ k, st'.sessions.findByKeyId k =
    if k ∈ slotsOf st base then none else st.sessions.findByKeyId k
  /-- Nothing is recorded under its own key id. -/
  forgotten : st'.userSlots.lookup base = none
  /-- The slots of other key ids are the same. -/
  slots : ∀ b, b ≠ base → st'.userSlots.lookup b = st.userSlots.lookup b
  /-- Other tokens are as active as they were. -/
  active : ∀ t, t ≠ token → st'.activeTokens.lookup t = st.activeTokens.lookup t
  /-- No session is made. -/
  next : st'.sessions.next = st.sessions.next

theorem next_revokeSlots (st : State) (slots : List UInt64) :
    (slots.foldl State.revokeSlot st).sessions.next = st.sessions.next :=
  List.foldlRecOn (motive := fun st' : State => st'.sessions.next = st.sessions.next) slots _ rfl
    fun _ h keyId _ => (SessionTable.next_removeSession _ keyId).trans h

theorem sameLedger_revokeSlots (st : State) (slots : List UInt64) :
    SameLedger st (slots.foldl State.revokeSlot st) :=
  List.foldlRecOn (motive := fun st' : State => SameLedger st st') slots _ ⟨rfl, rfl⟩
    fun _ h _ _ => h

theorem dropped_revokeUser {token : String} {base : UInt64}
    (hbase : st.activeTokens.lookup token = some base) :
    Dropped st (st.revokeUser token) token base := by
  rw [State.revokeUser, hbase, Option.getD_some]
  have hactive : ∀ (active : AList fun _ : String => UInt64) t, t ≠ token →
      (active.erase token).lookup t = active.lookup t := fun _ t ht => AList.lookup_erase_ne ht
  cases hslots : st.userSlots.lookup base with
  | none =>
    refine ⟨fun k => ?_, hslots, fun _ _ => rfl, fun t ht => hactive _ t ht,
      SessionTable.next_removeSession _ base⟩
    rw [slotsOf, hslots]
    simp only [findByKeyId_revokeSlot, Option.getD_none, List.mem_singleton]
  | some slots =>
    obtain ⟨hsame, hsame'⟩ := sameLedger_revokeSlots st slots
    refine ⟨fun k => ?_, AList.lookup_erase _ _, fun b hb => ?_, fun t ht => ?_,
      next_revokeSlots st slots⟩
    · rw [slotsOf, hslots]
      exact findByKeyId_revokeSlots st slots k
    · simp only
      rw [AList.lookup_erase_ne hb, hsame]
    · simp only
      rw [AList.lookup_erase_ne ht, hsame']

/-- **A token whose key ids the server does not know** is removed without a change. -/
theorem unchanged_revokeUser {token : String} {base : UInt64}
    (hbase : st.activeTokens.lookup token = some base)
    (hpaired : ∀ k, st.sessions.findByKeyId k = none → st.hs.masterKeys.lookup k = none)
    (h : ∀ k ∈ slotsOf st base, st.sessions.findByKeyId k = none) :
    Unchanged st (st.revokeUser token) := by
  have hfold : ∀ slots : List UInt64, (∀ k ∈ slots, st.sessions.findByKeyId k = none) →
      Unchanged st (slots.foldl State.revokeSlot st) := by
    intro slots hslots
    refine List.foldlRecOn (motive := fun st' : State => Unchanged st st') slots _ (.refl st) ?_
    intro st' hst' k hk
    have hnone := hslots k hk
    refine hst'.trans (revokeSlot_of_unknown ?_ ?_)
    · rw [hst'.sessions]
      exact hnone
    · have huser := hst'.accepted k
      rw [hpaired k hnone, Option.isSome_none, iff_false_intro Bool.false_ne_true, iff_false,
        Bool.not_eq_true, Option.isSome_eq_false_iff, Option.isNone_iff_eq_none] at huser
      exact huser
  rw [slotsOf] at h
  rw [State.revokeUser, hbase, Option.getD_some]
  cases hslots : st.userSlots.lookup base with
  | none =>
    rw [hslots, Option.getD_none] at h
    have hone := hfold [base] h
    exact ⟨hone.accepted, hone.sessions, hone.pool⟩
  | some slots =>
    rw [hslots, Option.getD_some] at h
    have hall := hfold slots h
    exact ⟨hall.accepted, hall.sessions, hall.pool⟩

/-- What is missing stays missing while tokens are removed, and no session is made. -/
theorem revokeUsers_missing {tokens : List String} (hnodup : tokens.Nodup)
    (hactive : ∀ t ∈ tokens, (st.activeTokens.lookup t).isSome) :
    (tokens.foldl State.revokeUser st).sessions.next = st.sessions.next ∧
      (∀ k, st.sessions.findByKeyId k = none →
        (tokens.foldl State.revokeUser st).sessions.findByKeyId k = none) ∧
      ∀ t ∈ tokens, ∀ base, st.activeTokens.lookup t = some base → ∀ k ∈ slotsOf st base,
        (tokens.foldl State.revokeUser st).sessions.findByKeyId k = none := by
  induction tokens generalizing st with
  | nil => exact ⟨rfl, fun _ h => h, fun _ ht => absurd ht List.not_mem_nil⟩
  | cons token tokens ih =>
    obtain ⟨hfresh, hnodup⟩ := List.nodup_cons.mp hnodup
    obtain ⟨base, hbase⟩ := Option.isSome_iff_exists.mp (hactive token List.mem_cons_self)
    have hdropped := dropped_revokeUser hbase
    have hne : ∀ t ∈ tokens, t ≠ token := fun t ht heq => hfresh (heq ▸ ht)
    obtain ⟨hnext, hstays, hgone⟩ := @ih (st.revokeUser token) hnodup fun t ht => by
      rw [hdropped.active t (hne t ht)]
      exact hactive t (List.mem_cons_of_mem _ ht)
    rw [List.foldl_cons]
    have hfirst : ∀ k ∈ slotsOf st base,
        (tokens.foldl State.revokeUser (st.revokeUser token)).sessions.findByKeyId k = none := by
      intro k hk
      apply hstays
      rw [hdropped.gone, if_pos hk]
    refine ⟨hnext.trans hdropped.next, fun k hk => hstays k ?_, fun t ht b hb k hk => ?_⟩
    · rw [hdropped.gone, hk, ite_self]
    · rcases List.mem_cons.mp ht with rfl | ht
      · obtain rfl := Option.some.inj (hbase.symm.trans hb)
        exact hfirst k hk
      · by_cases hsame : b = base
        · -- the slots of one key id go with the first of its tokens
          exact hfirst k (hsame ▸ hk)
        · refine hgone t ht b ((hdropped.active t (hne t ht)).trans hb) k ?_
          rw [slotsOf, hdropped.slots b hsame]
          exact hk

/-- **The records are of sessions with users**: a key id has both or neither, and is one of
its own slots. -/
structure Paired (st : State) : Prop where
  /-- The accepted key ids are those of the sessions. -/
  both : ∀ k, (st.hs.masterKeys.lookup k).isSome ↔ (st.sessions.findByKeyId k).isSome
  /-- A key id is one of its slots. -/
  own : ∀ base slots, st.userSlots.lookup base = some slots → base ∈ slots

theorem Paired.mem_slotsOf (h : Paired st) (base : UInt64) : base ∈ slotsOf st base := by
  rw [slotsOf]
  cases hslots : st.userSlots.lookup base with
  | none => exact List.mem_singleton.mpr rfl
  | some slots => exact h.own base slots hslots

theorem Paired.unknown (h : Paired st) {k : UInt64} (hk : st.sessions.findByKeyId k = none) :
    st.hs.masterKeys.lookup k = none := by
  have hboth := h.both k
  rw [hk, Option.isSome_none, iff_false_intro Bool.false_ne_true, iff_false, Bool.not_eq_true,
    Option.isSome_eq_false_iff, Option.isNone_iff_eq_none] at hboth
  exact hboth

/-- **Tokens whose key ids the server does not know** are removed without a change. -/
theorem unchanged_revokeUsers (hpaired : Paired st) {tokens : List String} (hnodup : tokens.Nodup)
    (hactive : ∀ t ∈ tokens, (st.activeTokens.lookup t).isSome)
    (h : ∀ t ∈ tokens, ∀ base, st.activeTokens.lookup t = some base → ∀ k ∈ slotsOf st base,
      st.sessions.findByKeyId k = none) : Unchanged st (tokens.foldl State.revokeUser st) := by
  induction tokens generalizing st with
  | nil => exact .refl st
  | cons token tokens ih =>
    obtain ⟨hfresh, hnodup⟩ := List.nodup_cons.mp hnodup
    obtain ⟨base, hbase⟩ := Option.isSome_iff_exists.mp (hactive token List.mem_cons_self)
    have hdropped := dropped_revokeUser hbase
    have hne : ∀ t ∈ tokens, t ≠ token := fun t ht heq => hfresh (heq ▸ ht)
    have hfirst := unchanged_revokeUser hbase (fun _ => hpaired.unknown)
      (h token List.mem_cons_self base hbase)
    have hpaired' : Paired (st.revokeUser token) := by
      constructor
      · intro k
        rw [hfirst.accepted, hfirst.sessions]
        exact hpaired.both k
      · intro b slots hslots
        by_cases hsame : b = base
        · rw [hsame, hdropped.forgotten] at hslots
          exact absurd hslots.symm (Option.some_ne_none slots)
        · exact hpaired.own b slots ((hdropped.slots b hsame).symm.trans hslots)
    refine hfirst.trans (ih hpaired' hnodup ?_ ?_)
    · intro t ht
      rw [hdropped.active t (hne t ht)]
      exact hactive t (List.mem_cons_of_mem _ ht)
    · intro t ht b hb k hk
      have hb' := (hdropped.active t (hne t ht)).symm.trans hb
      rw [hfirst.sessions]
      by_cases hsame : b = base
      · -- behind the first of its tokens a key id has no slots but itself
        subst hsame
        rw [slotsOf, hdropped.forgotten] at hk
        obtain rfl := List.mem_singleton.mp hk
        exact h t (List.mem_cons_of_mem _ ht) _ hb' _ (hpaired.mem_slotsOf _)
      · rw [slotsOf, hdropped.slots b hsame] at hk
        exact h t (List.mem_cons_of_mem _ ht) b hb' k hk

/-! ### Every state reached is paired -/

theorem Paired.congr {st' : State} (h : Paired st) (hsame : SameUsers st st') : Paired st' where
  both := by
    intro k
    rw [hsame.masterKeys, SessionTable.findByKeyId, hsame.byKeyId]
    exact h.both k
  own := by
    rw [hsame.ledger.1]
    exact h.own

theorem Paired.registerDevice (h : Paired st) (now : ℤ) (token kidHex : String) :
    Paired (st.registerDevice L D now token kidHex).1 := by
  have hledger := sameLedger_registerDevice L (D := D) st now token kidHex
  constructor
  · by_cases hnoted : Noted D st.sessions (token, kidHex)
    · rw [(registerDevice_of_noted L hnoted now).1]
      exact h.both
    · obtain ⟨masterKey, heq⟩ := registerDevice_of_not_noted L hnoted now
      rw [heq]
      intro k
      have hnew : (newDevice L (keyIdOf D token kidHex) masterKey now).identity.keyIdRaw =
          keyIdOf D token kidHex := rfl
      rw [SessionTable.findByKeyId_insertSession, hnew, HandshakeServer.addUser]
      rcases eq_or_ne k (keyIdOf D token kidHex) with rfl | hne
      · rw [AList.lookup_insert, if_pos rfl, Option.isSome_some, Option.isSome_some]
      · rw [AList.lookup_insert_ne hne, if_neg hne]
        exact h.both k
  · rw [hledger.1]
    exact h.own

theorem Paired.registerNames (h : Paired st) (now : ℤ) (names : List (String × String)) :
    Paired (registerNames L D st now names) :=
  List.foldlRecOn (motive := Paired) names _ h fun _ h name _ =>
    h.registerDevice L now name.1 name.2

theorem Paired.registerUsers (h : Paired st) (now : ℤ) (rows : List (String × String)) :
    Paired (st.registerUsers L D now rows) := by
  refine List.foldlRecOn (motive := Paired) rows _ h fun st h row _ => ?_
  split
  · exact h
  · obtain ⟨userSlots, activeTokens, heq, hrecords⟩ := registerUser_eq L (D := D) st now row
    rw [heq]
    refine ⟨(h.registerNames L now (rowNames row)).both, ?_⟩
    rcases hrecords with ⟨rfl, -⟩ | ⟨slots, -, hmem, rfl, -⟩
    · exact h.own
    · intro base slots' hslots'
      by_cases hbase : base = (st.registerDevice L D now row.1 row.2).2
      · rw [hbase, AList.lookup_insert] at hslots'
        rw [hbase, ← Option.some.inj hslots']
        exact hmem
      · exact h.own base slots' ((AList.lookup_insert_ne hbase).symm.trans hslots')

theorem Paired.revokeUser (h : Paired st) (token : String) : Paired (st.revokeUser token) := by
  refine revokeUser_rec (P := Paired) ?_ ?_ (fun h _ => ⟨h.both, h.own⟩) h token
  · intro st h keyId
    refine ⟨fun k => ?_, h.own⟩
    have hmaster : (st.hs.removeUser keyId).masterKeys = st.hs.masterKeys.erase keyId := by
      rw [HandshakeServer.removeUser]
      exact (dropPending_shrinks _ keyId).masterKeys
    rw [findByKeyId_revokeSlot]
    simp only [State.revokeSlot, hmaster]
    rcases eq_or_ne k keyId with rfl | hne
    · rw [AList.lookup_erase, if_pos rfl, Option.isSome_none, Option.isSome_none]
    · rw [AList.lookup_erase_ne hne, if_neg hne]
      exact h.both k
  · intro st h keyId
    refine ⟨h.both, fun base slots hslots => ?_⟩
    by_cases hbase : base = keyId
    · rw [hbase, AList.lookup_erase] at hslots
      exact absurd hslots.symm (Option.some_ne_none slots)
    · exact h.own base slots ((AList.lookup_erase_ne hbase).symm.trans hslots)

/-- **Every operation keeps the pairing.** -/
theorem Paired.step {st' : State} {op : Operation S} (h : Paired st)
    (hstep : Server.step L T D st op = some st') : Paired st' := by
  cases op with
  | handshake d calls =>
    obtain ⟨-, hst⟩ := Option.ite_none_right_eq_some.mp hstep
    exact Option.some.inj hst ▸ h.congr (sameUsers_handshake st d calls)
  | fastResume d calls expand =>
    obtain ⟨-, hst⟩ := Option.ite_none_right_eq_some.mp hstep
    exact Option.some.inj hst ▸ h.congr (sameUsers_fastResume st d calls expand)
  | pfsResume d calls pfs =>
    obtain ⟨-, hst⟩ := Option.ite_none_right_eq_some.mp hstep
    exact Option.some.inj hst ▸ h.congr (sameUsers_pfsResume st d calls pfs)
  | cleanup now order =>
    obtain ⟨-, hst⟩ := Option.ite_none_right_eq_some.mp hstep
    exact Option.some.inj hst ▸ h.congr (sameUsers_cleanupMaps st now order)
  | sync now rows revoked =>
    obtain ⟨-, hst⟩ := Option.ite_none_right_eq_some.mp hstep
    rw [← Option.some.inj hst]
    exact List.foldlRecOn (motive := Paired) revoked _ (h.registerUsers L now rows)
      fun _ h token _ => h.revokeUser token

theorem sameUsers_dispatch (C : DataCipher) (st : State) (e : Arrival) :
    SameUsers st (st.dispatch C e).1 := by
  rw [State.dispatch]
  split
  · exact .refl st
  · split
    · exact ⟨rfl, rfl, rfl, rfl⟩
    · exact .refl st

theorem sameUsers_data (C : DataCipher) (st : State) (e : Arrival) :
    SameUsers st (st.data C e).1 := by
  have hdispatch := sameUsers_dispatch C st e
  rw [State.data]
  split
  · exact .refl st
  · rcases heq : st.dispatch C e with ⟨st', _ | m⟩
    · rwa [heq] at hdispatch
    · rw [heq] at hdispatch
      simp only
      split
      · exact hdispatch
      · exact hdispatch.trans ⟨rfl, rfl, rfl, rfl⟩

theorem sameUsers_tun (C : DataCipher) (st : State) (isolation : Bool) (buffer : List UInt8)
    (now : ℤ) (draws : Option Draws) : SameUsers st (st.tun C isolation buffer now draws).1 := by
  rcases tun_eq C st isolation buffer now draws with htun | ⟨p, htun⟩
  · rw [htun]
    exact .refl st
  · rw [htun]
    exact ⟨rfl, rfl, rfl, rfl⟩

/-- **Every event keeps it**: packets are not about users. -/
theorem Paired.advance {C : DataCipher} {isolation : Bool} {st' : State} {ev : Event S}
    (h : Paired st) (hstep : Server.advance L T D C isolation st ev = some st') : Paired st' := by
  cases ev with
  | op op => exact h.step L T hstep
  | data e =>
    obtain ⟨-, hst⟩ := Option.ite_none_right_eq_some.mp hstep
    exact Option.some.inj hst ▸ h.congr (sameUsers_data C st e)
  | tun buffer now draws =>
    obtain ⟨-, hst⟩ := Option.ite_none_right_eq_some.mp hstep
    exact Option.some.inj hst ▸ h.congr (sameUsers_tun C st isolation buffer now draws)

theorem paired_init (pool : IpPool) (bootSecret : Vector UInt8 32) :
    Paired (init pool bootSecret) where
  both := fun _ => Iff.rfl
  own := by
    intro base slots hslots
    rw [init, AList.lookup_empty] at hslots
    exact absurd hslots.symm (Option.some_ne_none slots)

/-! ### Exactly when nothing is lost -/

theorem mem_tokensToRemove {rows : List (String × String)} {token : String} :
    token ∈ st.tokensToRemove rows ↔
      (st.activeTokens.lookup token).isSome ∧ token ∉ rows.map Prod.fst := by
  rw [State.tokensToRemove, List.mem_filter, decide_eq_true_eq, AList.lookup_isSome,
    AList.mem_keys]

/-- **The rows are applied** without a change exactly if they are those of the users the
server knows. -/
theorem unchanged_sync_iff (h : Paired st) (now : ℤ) {rows : List (String × String)}
    {revoked : List String} (hnodup : (rows.map Prod.fst).Nodup)
    (hrevoked : revoked.Perm ((st.registerUsers L D now rows).tokensToRemove rows)) :
    Unchanged st (revoked.foldl State.revokeUser (st.registerUsers L D now rows)) ↔
      SameRows D st rows := by
  have hrevokedNodup : revoked.Nodup :=
    hrevoked.nodup_iff.mpr ((st.registerUsers L D now rows).activeTokens.keys_nodup.filter _)
  have hmem : ∀ t, t ∈ revoked ↔
      ((st.registerUsers L D now rows).activeTokens.lookup t).isSome ∧ t ∉ rows.map Prod.fst :=
    fun t => hrevoked.mem_iff.trans mem_tokensToRemove
  have hactive : ∀ t ∈ revoked,
      ((st.registerUsers L D now rows).activeTokens.lookup t).isSome :=
    fun t ht => ((hmem t).mp ht).1
  have hpaired := h.registerUsers L (D := D) now rows
  constructor
  · intro hsame
    obtain ⟨hnext, -, hgone⟩ := revokeUsers_missing hrevokedNodup hactive
    -- a registration makes a session, and nothing that follows makes that undone
    have hnew : NobodyNew D st rows := by
      apply nobodyNew_of_next L hnodup
      rw [← hnext, hsame.sessions]
    have hrecords := registerUsers_of_nobodyNew L now hnodup hnew
    refine ⟨hnew, fun token base hbase hmissing => ?_⟩
    have hbase' := (hrecords.active token hmissing).trans hbase
    have hslots := hgone token ((hmem token).mpr ⟨by rw [hbase']; rfl, hmissing⟩) base hbase'
    rw [hsame.sessions] at hslots
    have hunknown := hslots base (hpaired.mem_slotsOf base)
    rw [slotsOf, hrecords.slots base hunknown] at hslots
    exact hslots
  · intro hsame
    have hrecords := registerUsers_of_nobodyNew L now hnodup hsame.known
    have hfirst : Unchanged st (st.registerUsers L D now rows) :=
      ⟨fun k => by rw [hrecords.hs], hrecords.sessions, hrecords.pool⟩
    refine hfirst.trans (unchanged_revokeUsers hpaired hrevokedNodup hactive ?_)
    intro token htoken base hbase
    have hmissing := ((hmem token).mp htoken).2
    have hslots := hsame.missing token base ((hrecords.active token hmissing).symm.trans hbase)
      hmissing
    have hunknown := hslots base (h.mem_slotsOf base)
    rw [hrecords.sessions, slotsOf, hrecords.slots base hunknown]
    exact hslots

/-- A call that SQLite lets through reads the rows unless the data version is the one
recorded for this connection. -/
theorem scan_of_ok {db : SyncDb} {dbPath : String} (hpath : dbPath ≠ "")
    (hsame : db.opened = true → db.path = dbPath) (table : List UserRow) {calls : SqliteCalls}
    (hopens : calls.opens = true) (hversion : calls.preparesVersion = true)
    (husers : calls.preparesUsers = true) :
    (∃ read complete, (db.scan dbPath table calls).2 = .rows read complete) ↔
      ¬(db.opened = true ∧ calls.version.getD (-1) ≠ -1 ∧
        calls.version.getD (-1) = db.dataVersion) := by
  have hstays : (if db.opened = true ∧ db.path ≠ dbPath then
      { db with opened := false, dataVersion := -1 } else db) = db := by
    rw [if_neg]
    rintro ⟨hopened, hne⟩
    exact hne (hsame hopened)
  have hrows : ∀ db : SyncDb, ∃ read complete,
      ((match calls.stops with
        | none => (db, .rows table true)
        | some n => (db, .rows (table.take n) false)) : SyncDb × Scan).2 =
          .rows read complete := by
    intro db
    cases calls.stops with
    | none => exact ⟨_, _, rfl⟩
    | some n => exact ⟨_, _, rfl⟩
  simp only [SyncDb.scan, if_neg hpath, hstays, hopens, hversion, husers, not_true_eq_false,
    and_false, if_false]
  cases hopened : db.opened with
  | false =>
    simp only [Bool.false_eq_true, if_false, false_and, not_false_eq_true, iff_true]
    rw [if_neg fun h => h.1 h.2]
    exact hrows _
  | true =>
    simp only [if_true, true_and]
    split
    · rename_i hcurrent
      refine iff_of_false ?_ (not_not.mpr hcurrent)
      rintro ⟨read, complete, hrows⟩
      exact Scan.noConfusion hrows
    · rename_i hcurrent
      exact iff_of_true (hrows _) hcurrent

/-- What an incomplete call leaves behind: a connection to this database, if any, and the
data version it got if it read rows. -/
theorem scan_of_incomplete {db db' : SyncDb} {dbPath : String} {table : List UserRow}
    {calls : SqliteCalls} {scan : Scan} (h : db.scan dbPath table calls = (db', scan))
    (hincomplete : scan.Incomplete) :
    dbPath ≠ "" ∧ (db'.opened = true → db'.path = dbPath) ∧
      match scan with
      | .rows _ _ => db'.opened = true ∧ db'.dataVersion = calls.version.getD (-1)
      | _ => ¬(db'.opened = true ∧ calls.version.getD (-1) ≠ -1 ∧
          calls.version.getD (-1) = db'.dataVersion) := by
  rw [SyncDb.scan] at h
  split at h
  · obtain ⟨-, rfl⟩ := Prod.mk.inj h
    exact absurd hincomplete not_false
  · rename_i hpath
    refine ⟨hpath, ?_⟩
    -- a connection to another database is closed first
    obtain ⟨db₁, hdb₁, hsame⟩ : ∃ db₁, db₁ = (if db.opened = true ∧ db.path ≠ dbPath then
        { db with opened := false, dataVersion := -1 } else db) ∧
        (db₁.opened = true → db₁.path = dbPath) := by
      refine ⟨_, rfl, ?_⟩
      split
      · exact fun hopened => absurd hopened Bool.false_ne_true
      · rename_i hother
        exact fun hopened => not_not.mp fun hne => hother ⟨hopened, hne⟩
    rw [← hdb₁] at h
    simp only at h
    split at h
    · rename_i hclosed
      obtain ⟨rfl, rfl⟩ := Prod.mk.inj h
      exact ⟨hsame, fun hopened => hclosed.1 hopened.1⟩
    · obtain ⟨db₂, hdb₂, hopened₂, hpath₂⟩ : ∃ db₂ : SyncDb,
          db₂ = (if db₁.opened = true then db₁ else ⟨true, dbPath, -1⟩) ∧
            db₂.opened = true ∧ db₂.path = dbPath := by
        refine ⟨_, rfl, ?_⟩
        split
        · rename_i hopened
          exact ⟨hopened, hsame hopened⟩
        · exact ⟨rfl, rfl⟩
      rw [← hdb₂] at h
      split at h
      · obtain ⟨rfl, rfl⟩ := Prod.mk.inj h
        exact ⟨fun hopened => absurd hopened Bool.false_ne_true,
          fun hopened => absurd hopened.1 Bool.false_ne_true⟩
      · split at h
        · obtain ⟨-, rfl⟩ := Prod.mk.inj h
          exact absurd hincomplete not_false
        · rename_i hcurrent
          split at h
          · obtain ⟨rfl, rfl⟩ := Prod.mk.inj h
            exact ⟨fun _ => hpath₂, fun hnext => hcurrent hnext.2⟩
          · split at h
            · obtain ⟨-, rfl⟩ := Prod.mk.inj h
              exact Bool.noConfusion (show true = false from hincomplete)
            · obtain ⟨rfl, rfl⟩ := Prod.mk.inj h
              exact ⟨fun _ => hpath₂, hopened₂, rfl⟩

/-- **An incomplete call is made up for** exactly if it read no rows or got no data
version. -/
theorem retried_iff {db db' : SyncDb} {dbPath : String} {table : List UserRow}
    {calls : SqliteCalls} {scan : Scan} (h : db.scan dbPath table calls = (db', scan))
    (hincomplete : scan.Incomplete) :
    Retried db' dbPath calls ↔
      match scan with
      | .rows _ _ => calls.version.getD (-1) = -1
      | _ => True := by
  obtain ⟨hpath, hsame, hleft⟩ := scan_of_incomplete h hincomplete
  have hnext : Retried db' dbPath calls ↔ ¬(db'.opened = true ∧ calls.version.getD (-1) ≠ -1 ∧
      calls.version.getD (-1) = db'.dataVersion) := by
    constructor
    · intro hretried
      have hscan := hretried [] ⟨true, true, calls.version, true, none⟩ rfl rfl rfl rfl
      have hversion := (scan_of_ok hpath hsame [] rfl rfl rfl).mp hscan
      exact hversion
    · intro hversion table' calls' hcommit hopens hprepares husers
      rw [scan_of_ok hpath hsame table' hopens hprepares husers, hcommit]
      exact hversion
  rw [hnext]
  cases scan with
  | noPath => exact absurd hincomplete not_false
  | upToDate => exact absurd hincomplete not_false
  | failed => exact iff_of_true hleft trivial
  | rows read complete =>
    simp only [hleft.1, hleft.2, true_and, and_true, not_not]

/-- **A partial read**: in every state reached, whatever packets came in between, a call that
does not get to the end of the table leaves the users, the sessions with their routes and the
pool as they are, and is made up for by the next, exactly if it read no rows, or got no data
version and read those of the users the server knows. -/
theorem harmless_iff (C : DataCipher) (isolation : Bool) (pool : IpPool)
    (bootSecret : Vector UInt8 32) (evs : List (Event S))
    (hreach : runs (advance L T D C isolation) (init pool bootSecret) evs = some st) (db : SyncDb)
    (dbPath : String) (table : List UserRow) (calls : SqliteCalls)
    (hincomplete : (db.scan dbPath table calls).2.Incomplete) (now : ℤ)
    (rows : List (String × String)) (revoked : List String) {st' : State} {db' : SyncDb}
    (hsync : st.syncUsersFromDb L T D db dbPath table calls now rows revoked = some (st', db')) :
    (Unchanged st st' ∧ Retried db' dbPath calls) ↔
      Harmless D st calls rows (db.scan dbPath table calls).2 := by
  have hpaired : Paired st := inv_of_runs (fun h hstep => h.advance L T hstep)
    (paired_init pool bootSecret) hreach
  obtain ⟨db₁, scan, hscan⟩ : ∃ db₁ scan, db.scan dbPath table calls = (db₁, scan) :=
    ⟨_, _, rfl⟩
  rw [hscan] at hincomplete ⊢
  rw [State.syncUsersFromDb, hscan] at hsync
  cases scan with
  | noPath => exact absurd hincomplete not_false
  | upToDate => exact absurd hincomplete not_false
  | failed =>
    obtain ⟨rfl, rfl⟩ := Prod.mk.inj (Option.some.inj hsync)
    exact iff_of_true ⟨.refl st, (retried_iff hscan hincomplete).mpr trivial⟩ trivial
  | rows read complete =>
    obtain ⟨-, hsync⟩ := Option.ite_none_right_eq_some.mp hsync
    obtain ⟨st₁, hstep, hpair⟩ := Option.map_eq_some_iff.mp hsync
    obtain ⟨rfl, rfl⟩ := Prod.mk.inj hpair
    obtain ⟨⟨hnodup, hrevoked⟩, hst₁⟩ := Option.ite_none_right_eq_some.mp hstep
    rw [← Option.some.inj hst₁]
    refine Iff.trans ?_ (and_comm (a := SameRows D st rows))
    exact and_congr (unchanged_sync_iff L hpaired now hnodup hrevoked)
      (retried_iff hscan hincomplete)

end

/-! ### A table that could not be read -/

/-- One user is registered, with the four slots. -/
def phoneRegistered : List (Event UInt8) := [.op (.sync 1000 [("phone", "p")] [])]

/-- The row of the user. -/
def phoneRow : List UserRow := [⟨some "p", some "phone"⟩]

/-- The connection after that, at data version 1. -/
def phoneDb : SyncDb := ⟨true, "users.db", 1⟩

/-- **The only user is revoked** by a scan that finds the database busy before the first row
of the next data version. -/
theorem not_harmless : ¬∀ (evs : List (Event UInt8)) (st : State) (db : SyncDb)
    (dbPath : String) (table : List UserRow) (calls : SqliteCalls) (now : ℤ)
    (rows : List (String × String)) (revoked : List String) (st' : State) (db' : SyncDb),
    runs (advance smallLibrary smallCipher lastDerivation smallDataCipher true) smallStart evs =
        some st →
      (db.scan dbPath table calls).2.Incomplete →
        st.syncUsersFromDb smallLibrary smallCipher lastDerivation db dbPath table calls now rows
            revoked = some (st', db') →
          Unchanged st st' ∧ Retried db' dbPath calls := by
  intro h
  have hrun : (runs (advance smallLibrary smallCipher lastDerivation smallDataCipher true)
      smallStart phoneRegistered).any (fun st =>
        (st.hs.masterKeys.lookup 112).isSome &&
        (st.syncUsersFromDb smallLibrary smallCipher lastDerivation phoneDb "users.db" phoneRow
          ⟨true, true, some 2, true, some 0⟩ 3000 [] ["phone"]).any
            fun r => (r.1.hs.masterKeys.lookup 112).isNone) = true := by
    decide +kernel
  obtain ⟨st, hst, hbad⟩ := (Option.any_eq_true _ _).mp hrun
  obtain ⟨hbefore, hcall⟩ := (Bool.and_eq_true _ _).mp hbad
  obtain ⟨⟨st', db'⟩, hsync, hafter⟩ := (Option.any_eq_true _ _).mp hcall
  have hsame := (h _ st phoneDb "users.db" phoneRow ⟨true, true, some 2, true, some 0⟩ 3000 []
    ["phone"] st' db' hst rfl hsync).1
  rw [← hsame.accepted, ← Option.not_isNone, hafter] at hbefore
  exact Bool.false_ne_true hbefore

/-- A table with a user whose row is not read behind it. -/
def phoneAndTablet : List UserRow := phoneRow ++ [⟨some "t", some "tablet"⟩]

/-- The error comes inside the table, behind the row of the user, and there was no data
version. -/
theorem harmless_insideTable : ∃ st st' db',
    runs (advance smallLibrary smallCipher lastDerivation smallDataCipher true) smallStart
        phoneRegistered = some st ∧
      st.syncUsersFromDb smallLibrary smallCipher lastDerivation phoneDb "users.db" phoneAndTablet
        ⟨true, true, none, true, some 1⟩ 3000 [("phone", "p")] [] = some (st', db') ∧
      Unchanged st st' ∧ Retried db' "users.db" ⟨true, true, none, true, some 1⟩ := by
  have hrun : (runs (advance smallLibrary smallCipher lastDerivation smallDataCipher true)
      smallStart phoneRegistered).any (fun st =>
        decide (st.activeTokens.keys = ["phone"]) &&
        (st.syncUsersFromDb smallLibrary smallCipher lastDerivation phoneDb "users.db"
          phoneAndTablet ⟨true, true, none, true, some 1⟩ 3000 [("phone", "p")] []).isSome) =
            true := by
    decide +kernel
  obtain ⟨st, hst, hgood⟩ := (Option.any_eq_true _ _).mp hrun
  obtain ⟨hkeys, hcall⟩ := (Bool.and_eq_true _ _).mp hgood
  rw [decide_eq_true_eq] at hkeys
  obtain ⟨⟨st', db'⟩, hsync⟩ := Option.isSome_iff_exists.mp hcall
  refine ⟨st, st', db', hst, hsync, (harmless_iff smallLibrary smallCipher smallDataCipher true
    smallPool (Vector.replicate 32 1) phoneRegistered hst phoneDb "users.db" phoneAndTablet
    ⟨true, true, none, true, some 1⟩ rfl _ _ _ hsync).mpr ⟨rfl, ?_, ?_⟩⟩
  · intro row hrow hnew
    obtain rfl := List.mem_singleton.mp hrow
    rw [AList.lookup_eq_none, AList.mem_keys, hkeys] at hnew
    exact absurd (List.mem_singleton.mpr rfl) hnew
  · intro token base hbase hmissing
    have hactive := AList.lookup_isSome.mp (Option.isSome_of_mem hbase)
    rw [AList.mem_keys, hkeys] at hactive
    exact absurd hactive hmissing

end Server

end Aegs
