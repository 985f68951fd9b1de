import Aegs.Server.Ownership

/-!
# The users of the database

`sync_users_from_db` keeps the registered users and the session table in step with the
rows of the database, change by change: a token it has not seen is registered, with four
more slots if it is a base token, and a token that is gone is removed with the slots that
were recorded for it.

It compares tokens, and what it keeps are key ids. Both are sets of key ids, so after a
synchronisation they should be what the rows say (`Aegs.Server.InStep`). They are as long
as no key id belongs to a row that goes and to one that stays, and no token changes its
key id (`Aegs.Server.Separate`, `Aegs.Server.inStep_of_meets`): then each slot that is
removed is nobody else's. `Aegs.Server.Knows` carries the proof: the set of key ids that
both tables have.

A call that finds the data version unchanged, or cannot read the rows, returns before it
has changed anything; it is no operation here.
-/

namespace Aegs

namespace Server

open Bytes Handshake Transition

/-! ### Rows and key ids -/

/-- A row of `users`, as `sqlite3_column_text` hands over its two columns. -/
structure UserRow where
  /-- `aegis_key_id`. -/
  aegisKeyId : Option String
  /-- `aegis_token`. -/
  aegisToken : Option String
deriving DecidableEq

/-- The token and the key id of a row that has both. -/
def UserRow.user (row : UserRow) : Option (String × String) :=
  match row.aegisKeyId, row.aegisToken with
  | some kid, some tok => some (tok, kid)
  | _, _ => none

/-- `current_db_users`: from token to key id, where the last row of a token counts. -/
def currentDbUsers (table : List UserRow) : AList fun _ : String => String :=
  (table.filterMap UserRow.user).foldl (fun users user => users.insert user.1 user.2) ∅

section

variable {S : Type} (L : Library S) (T : TokenCipher) (D : KeyDerivation)

/-- The digits from which the helper derives the master key: those of the row, or of the
token's own key id. -/
def kidText (name kidHex : String) : String :=
  if kidHex ≠ "" then kidHex else hexEncode (D.computeKeyId name).toList

/-- The key id under which the helper registers a token. -/
def keyIdOf (name kidHex : String) : UInt64 :=
  if kidHex ≠ "" then D.scanKeyId kidHex else ofLe64 (D.computeKeyId name)

/-- What is registered for a row: its token with its key id, and for a base token its
slots `#1` to `#4`. -/
def rowNames (user : String × String) : List (String × String) :=
  user :: if '#' ∈ user.1.toList then []
    else ["#1", "#2", "#3", "#4"].map fun suffix => (user.1 ++ suffix, "")

/-- **The key ids of a row.** -/
def rowKeyIds (user : String × String) : List UInt64 :=
  (rowNames user).map fun name => keyIdOf D name.1 name.2

/-- **The key ids of the rows** of a database. -/
def Derived (users : List (String × String)) (keyId : UInt64) : Prop :=
  ∃ user ∈ users, keyId ∈ rowKeyIds D user

/-! ### Registration -/

/-- The key ids that the handshake server accepts and those in the session table. -/
structure Knows (st : State) (P : UInt64 → Prop) : Prop where
  /-- `has_user`. -/
  accepted : ∀ keyId, (st.hs.masterKeys.lookup keyId).isSome ↔ P keyId
  /-- `find_by_key_id`. -/
  present : ∀ keyId, (st.sessions.findByKeyId keyId).isSome ↔ P keyId

/-- The master key for a name is derived, unless the name's key id is there already. -/
def Derivable (P : UInt64 → Prop) (name : String × String) : Prop :=
  ¬P (keyIdOf D name.1 name.2) → (D.deriveMasterKey name.1 (kidText D name.1 name.2)).isSome

/-- What the synchronisation keeps for itself is the same. -/
def SameLedger (st st' : State) : Prop :=
  st'.userSlots = st.userSlots ∧ st'.activeTokens = st.activeTokens

variable {L T D} {st : State} {P Q : UInt64 → Prop}

theorem Knows.congr (h : Knows st P) (hPQ : ∀ keyId, P keyId ↔ Q keyId) : Knows st Q :=
  ⟨fun keyId => (h.accepted keyId).trans (hPQ keyId),
    fun keyId => (h.present keyId).trans (hPQ keyId)⟩

theorem Derivable.mono {name : String × String} (h : Derivable D P name)
    (hPQ : ∀ keyId, P keyId → Q keyId) : Derivable D Q name := fun hQ => h fun hP => hQ (hPQ _ hP)

/-- **The helper** leaves its key id in both tables. -/
theorem Knows.registerDevice (h : Knows st P) (now : ℤ) {name kidHex : String}
    (hd : Derivable D P (name, kidHex)) :
    Knows (st.registerDevice L D now name kidHex).1
        (fun keyId => keyId = keyIdOf D name kidHex ∨ P keyId) ∧
      (st.registerDevice L D now name kidHex).2 = keyIdOf D name kidHex ∧
      SameLedger st (st.registerDevice L D now name kidHex).1 := by
  have hkid : (if kidHex ≠ "" then D.scanKeyId kidHex else ofLe64 (D.computeKeyId name)) =
      keyIdOf D name kidHex := rfl
  have htext : (if kidHex ≠ "" then kidHex else hexEncode (D.computeKeyId name).toList) =
      kidText D name kidHex := rfl
  simp only [State.registerDevice, hkid, htext]
  rcases hfound : st.sessions.findByKeyId (keyIdOf D name kidHex) with _ | p
  · have hfresh : ¬P (keyIdOf D name kidHex) := by
      rw [← h.present, hfound]
      simp
    obtain ⟨masterKey, hmaster⟩ := Option.isSome_iff_exists.mp (hd hfresh)
    simp only at hmaster
    simp only [hmaster]
    refine ⟨⟨fun keyId => ?_, fun keyId => ?_⟩, trivial, rfl, rfl⟩
    · rw [HandshakeServer.addUser]
      rcases eq_or_ne keyId (keyIdOf D name kidHex) with rfl | hk
      · simp only [AList.lookup_insert, Option.isSome_some, true_or]
      · simp only [AList.lookup_insert_ne hk, h.accepted, hk, false_or]
    · have hnew : (newDevice L (keyIdOf D name kidHex) masterKey now).identity.keyIdRaw =
          keyIdOf D name kidHex := rfl
      rw [SessionTable.findByKeyId_insertSession, hnew]
      rcases eq_or_ne keyId (keyIdOf D name kidHex) with rfl | hk
      · simp only [if_true, Option.isSome_some, true_or]
      · simp only [hk, if_false, h.present, false_or]
  · have hknown : P (keyIdOf D name kidHex) := by
      rw [← h.present, hfound]
      rfl
    refine ⟨h.congr fun keyId => ?_, rfl, rfl, rfl⟩
    refine ⟨Or.inr, ?_⟩
    rintro (rfl | hP)
    · exact hknown
    · exact hP

theorem SameLedger.trans {st st' st'' : State} (h : SameLedger st st') (h' : SameLedger st' st'') :
    SameLedger st st'' := ⟨h'.1.trans h.1, h'.2.trans h.2⟩

/-- **The slots of a token** are registered one after the other: both tables have them, and
those that are not zero are recorded. -/
structure RegistersAll (D : KeyDerivation) (st : State) (P : UInt64 → Prop) (slots : List UInt64)
    (names : List (String × String)) (r : State × List UInt64) : Prop where
  /-- The key ids of the names are in both tables. -/
  knows : Knows r.1 fun keyId => (∃ name ∈ names, keyId = keyIdOf D name.1 name.2) ∨ P keyId
  /-- Nothing else has changed. -/
  ledger : SameLedger st r.1
  /-- The key ids are recorded. -/
  slots : ∀ keyId, keyId ∈ r.2 ↔
    keyId ∈ slots ∨ keyId ≠ 0 ∧ ∃ name ∈ names, keyId = keyIdOf D name.1 name.2

theorem RegistersAll.nil (h : Knows st P) (slots : List UInt64) :
    RegistersAll D st P slots [] (st, slots) where
  knows := h.congr fun keyId => by simp
  ledger := ⟨rfl, rfl⟩
  slots := fun keyId => by simp

/-- One more name. -/
theorem RegistersAll.snoc {slots : List UInt64} {names : List (String × String)}
    {r : State × List UInt64} (h : RegistersAll D st P slots names r) (name : String × String)
    (now : ℤ) (hd : Derivable D P name) (recorded : List UInt64)
    (hrecorded : ∀ keyId, keyId ∈ recorded ↔
      keyId ∈ r.2 ∨ keyId ≠ 0 ∧ keyId = keyIdOf D name.1 name.2) :
    RegistersAll D st P slots (names ++ [name])
      ((r.1.registerDevice L D now name.1 name.2).1, recorded) := by
  obtain ⟨hknows, -, hledger⟩ := h.knows.registerDevice (L := L) now (hd.mono fun _ => Or.inr)
  refine ⟨hknows.congr fun keyId => ?_, h.ledger.trans hledger, fun keyId => ?_⟩
  · simp only [List.mem_append, List.mem_singleton, or_and_right, exists_or, exists_eq_left]
    rw [← or_assoc]
    exact or_congr_left or_comm
  · simp only [hrecorded, h.slots, List.mem_append, List.mem_singleton, or_and_right, exists_or,
      exists_eq_left, and_or_left]
    exact or_assoc

/-- The slots `#2` to `#4`, which the source registers in a loop. -/
theorem RegistersAll.loop {slots : List UInt64} {names : List (String × String)}
    {r : State × List UInt64} (h : RegistersAll D st P slots names r) (now : ℤ) (token : String)
    (hd : ∀ suffix ∈ ["#2", "#3", "#4"], Derivable D P (token ++ suffix, "")) :
    RegistersAll D st P slots (names ++ ["#2", "#3", "#4"].map fun suffix => (token ++ suffix, ""))
      (r.1.registerSlots L D now token r.2) := by
  have hloop : ∀ (suffixes : List String) (names : List (String × String))
      (r : State × List UInt64), RegistersAll D st P slots names r →
      (∀ suffix ∈ suffixes, Derivable D P (token ++ suffix, "")) →
      RegistersAll D st P slots (names ++ suffixes.map fun suffix => (token ++ suffix, ""))
        (suffixes.foldl (fun r suffix =>
          let registered := r.1.registerDevice L D now (token ++ suffix) ""
          (registered.1, if registered.2 ≠ 0 then r.2 ++ [registered.2] else r.2)) r) := by
    intro suffixes
    induction suffixes with
    | nil =>
      intro names r h _
      rw [List.map_nil, List.append_nil]
      exact h
    | cons suffix suffixes ih =>
      intro names r h hd
      rw [List.map_cons, List.append_cons]
      refine ih _ _ ?_ fun suffix' hmem => hd suffix' (List.mem_cons_of_mem _ hmem)
      have hkeyId := (h.knows.registerDevice (L := L) now
        ((hd suffix List.mem_cons_self).mono fun _ => Or.inr)).2.1
      refine h.snoc (token ++ suffix, "") now (hd suffix List.mem_cons_self)
        (if (r.1.registerDevice L D now (token ++ suffix) "").2 ≠ 0 then
          r.2 ++ [(r.1.registerDevice L D now (token ++ suffix) "").2] else r.2) fun keyId => ?_
      rw [hkeyId]
      split
      · rename_i hne
        rw [List.mem_append, List.mem_singleton]
        refine or_congr_right ⟨fun heq => ⟨heq ▸ hne, heq⟩, And.right⟩
      · rename_i hzero
        rw [not_not] at hzero
        refine ⟨Or.inl, ?_⟩
        rintro (hmem | ⟨hne, heq⟩)
        · exact hmem
        · exact absurd (heq.trans hzero) hne
  exact hloop _ _ _ h hd

/-- **A row is registered**: its key ids are in both tables, and those that are not zero
are recorded under the row's own, unless that is zero. -/
structure RegistersUser (D : KeyDerivation) (st : State) (P : UInt64 → Prop)
    (user : String × String) (st' : State) : Prop where
  /-- The key ids of the row are in both tables. -/
  knows : Knows st' fun keyId => keyId ∈ rowKeyIds D user ∨ P keyId
  /-- They are recorded, and the token is active. -/
  ledger : keyIdOf D user.1 user.2 ≠ 0 → ∃ slots,
    st'.userSlots = st.userSlots.insert (keyIdOf D user.1 user.2) slots ∧
      st'.activeTokens = st.activeTokens.insert user.1 (keyIdOf D user.1 user.2) ∧
      ∀ keyId, keyId ∈ slots ↔ keyId ≠ 0 ∧ keyId ∈ rowKeyIds D user
  /-- A row with the key id zero leaves no record. -/
  zero : keyIdOf D user.1 user.2 = 0 → SameLedger st st'

theorem mem_rowKeyIds {user : String × String} {keyId : UInt64} :
    keyId ∈ rowKeyIds D user ↔ ∃ name ∈ rowNames user, keyId = keyIdOf D name.1 name.2 := by
  simp only [rowKeyIds, List.mem_map, eq_comm]

/-- What the names of a row come to, once all are registered. -/
theorem RegistersAll.user {user : String × String} {r : State × List UInt64}
    (h : RegistersAll D st P [] (rowNames user) r) :
    RegistersUser D st P user (if keyIdOf D user.1 user.2 ≠ 0 then
      { r.1 with
        userSlots := r.1.userSlots.insert (keyIdOf D user.1 user.2) r.2
        activeTokens := r.1.activeTokens.insert user.1 (keyIdOf D user.1 user.2) }
      else r.1) := by
  have hknows : Knows r.1 fun keyId => keyId ∈ rowKeyIds D user ∨ P keyId :=
    h.knows.congr fun keyId => or_congr_left mem_rowKeyIds.symm
  split
  · rename_i hne
    refine ⟨⟨hknows.accepted, hknows.present⟩, fun _ => ⟨r.2, ?_, ?_, fun keyId => ?_⟩,
      fun hzero => absurd hzero hne⟩
    · rw [h.ledger.1]
    · rw [h.ledger.2]
    · rw [h.slots, mem_rowKeyIds]
      simp only [List.not_mem_nil, false_or]
  · rename_i hzero
    exact ⟨hknows, fun hne => absurd hne hzero, fun _ => h.ledger⟩

/-- **Step 1 of the synchronisation**, for one row. -/
theorem Knows.registerUser (h : Knows st P) (now : ℤ) {user : String × String}
    (hd : ∀ name ∈ rowNames user, Derivable D P name) :
    RegistersUser D st P user (st.registerUser L D now user.1 user.2) := by
  have hself : user ∈ rowNames user := List.mem_cons_self
  have hfirst := (RegistersAll.nil (D := D) h []).snoc (L := L) user now (hd user hself)
    (if keyIdOf D user.1 user.2 ≠ 0 then [keyIdOf D user.1 user.2] else []) fun keyId => by
      split
      · rename_i hne
        simp only [List.mem_singleton, List.not_mem_nil, false_or]
        exact ⟨fun heq => ⟨heq ▸ hne, heq⟩, And.right⟩
      · rename_i hzero
        rw [not_not] at hzero
        simp only [List.not_mem_nil, false_or, false_iff, not_and]
        exact fun hne heq => hne (heq.trans hzero)
  have hkeyId := (h.registerDevice (L := L) now (hd user hself)).2.1
  rw [State.registerUser]
  rcases hreg : st.registerDevice L D now user.1 user.2 with ⟨st₁, k1⟩
  rw [hreg] at hfirst hkeyId
  simp only at hfirst hkeyId
  simp only [hkeyId]
  apply RegistersAll.user
  split
  · rename_i hslot
    rw [rowNames, if_pos hslot]
    exact hfirst
  · rename_i hbase
    rw [rowNames, if_neg hbase] at hd ⊢
    have hslots : ∀ suffix ∈ ["#1", "#2", "#3", "#4"], Derivable D P (user.1 ++ suffix, "") :=
      fun suffix hmem => hd _ (List.mem_cons_of_mem _ (List.mem_map_of_mem hmem))
    have hone := hslots "#1" List.mem_cons_self
    have hkSlot1 := (hfirst.knows.registerDevice (L := L) now (hone.mono fun _ => Or.inr)).2.1
    refine (hfirst.snoc (L := L) (user.1 ++ "#1", "") now hone
      (if (st₁.registerDevice L D now (user.1 ++ "#1") "").2 ≠ 0 ∧
          (st₁.registerDevice L D now (user.1 ++ "#1") "").2 ≠ keyIdOf D user.1 user.2 then
        (if keyIdOf D user.1 user.2 ≠ 0 then [keyIdOf D user.1 user.2] else []) ++
          [(st₁.registerDevice L D now (user.1 ++ "#1") "").2]
        else if keyIdOf D user.1 user.2 ≠ 0 then [keyIdOf D user.1 user.2] else [])
      fun keyId => ?_).loop now user.1
        fun suffix hmem => hslots suffix (List.mem_cons_of_mem _ hmem)
    rw [show (st₁.registerDevice L D now (user.1 ++ "#1") "").2 =
      keyIdOf D (user.1 ++ "#1") "" from hkSlot1]
    generalize keyIdOf D (user.1 ++ "#1") "" = kSlot1
    by_cases hnew : kSlot1 ≠ 0 ∧ kSlot1 ≠ keyIdOf D user.1 user.2
    · rw [if_pos hnew, List.mem_append, List.mem_singleton]
      exact or_congr_right ⟨fun heq => ⟨heq ▸ hnew.1, heq⟩, And.right⟩
    · -- the key id of the first slot is zero, or that of the row, which is recorded
      rw [if_neg hnew]
      refine ⟨Or.inl, ?_⟩
      rintro (hmem | ⟨hne, rfl⟩)
      · exact hmem
      · have hsame := not_ne_iff.mp fun hne' => hnew ⟨hne, hne'⟩
        simp only [hsame ▸ hne, ne_eq, not_false_eq_true, if_true]
        exact List.mem_singleton.mpr hsame

/-! ### Removal -/

theorem Knows.revokeSlot (h : Knows st P) (keyId : UInt64) :
    Knows (st.revokeSlot keyId) (fun k => P k ∧ k ≠ keyId) ∧
      SameLedger st (st.revokeSlot keyId) := by
  have hmaster : (st.hs.removeUser keyId).masterKeys = st.hs.masterKeys.erase keyId := by
    rw [HandshakeServer.removeUser]
    exact (dropPending_shrinks _ keyId).masterKeys
  refine ⟨⟨fun k => ?_, fun k => ?_⟩, rfl, rfl⟩
  · simp only [State.revokeSlot, hmaster]
    rcases eq_or_ne k keyId with rfl | hne
    · simp only [AList.lookup_erase, Option.isSome_none, Bool.false_eq_true, ne_eq,
        not_true_eq_false, and_false]
    · simp only [AList.lookup_erase_ne hne, h.accepted, ne_eq, hne, not_false_eq_true, and_true]
  · simp only [State.revokeSlot, SessionTable.findByKeyId_removeSession]
    rcases eq_or_ne k keyId with rfl | hne
    · simp only [if_true, Option.isSome_none, Bool.false_eq_true, ne_eq, not_true_eq_false,
        and_false]
    · simp only [hne, if_false, h.present, ne_eq, not_false_eq_true, and_true]

theorem Knows.revokeSlots (h : Knows st P) (slots : List UInt64) :
    Knows (slots.foldl State.revokeSlot st) (fun k => P k ∧ k ∉ slots) ∧
      SameLedger st (slots.foldl State.revokeSlot st) := by
  induction slots generalizing st P with
  | nil => exact ⟨h.congr fun k => by simp, rfl, rfl⟩
  | cons keyId slots ih =>
    obtain ⟨hknows, hledger⟩ := h.revokeSlot keyId
    obtain ⟨hknows', hledger'⟩ := ih hknows
    refine ⟨hknows'.congr fun k => ?_, hledger.trans hledger'⟩
    simp only [List.mem_cons, not_or, and_assoc, ne_eq]

/-- What is recorded for some tokens: a key id of their own for each, and under it the key
ids `K`. -/
structure Ledger (st : State) (tokens : List String) (base : String → UInt64)
    (K : String → UInt64 → Prop) : Prop where
  /-- The token is active with its key id. -/
  active : ∀ token ∈ tokens, st.activeTokens.lookup token = some (base token)
  /-- Its slots are recorded under the key id. -/
  slots : ∀ token ∈ tokens, ∃ slots, st.userSlots.lookup (base token) = some slots ∧
    ∀ k, k ∈ slots ↔ K token k
  /-- Two tokens have two key ids. -/
  inj : ∀ token ∈ tokens, ∀ token' ∈ tokens, base token = base token' → token = token'

/-- **One token is removed**, with the key ids recorded for it. -/
theorem Knows.revokeUser (h : Knows st P) {token : String} {base : String → UInt64}
    {K : String → UInt64 → Prop} (hledger : Ledger st [token] base K) :
    Knows (st.revokeUser token) (fun k => P k ∧ ¬K token k) ∧
      (st.revokeUser token).activeTokens = st.activeTokens.erase token ∧
      (st.revokeUser token).userSlots = st.userSlots.erase (base token) := by
  have hactive := hledger.active token (List.mem_singleton_self token)
  obtain ⟨slots, hslots, hmem⟩ := hledger.slots token (List.mem_singleton_self token)
  obtain ⟨hknows, hsame⟩ := h.revokeSlots slots
  have hbase : (st.activeTokens.lookup token).getD 0 = base token := by
    rw [hactive]
    rfl
  have heq : st.revokeUser token =
      { slots.foldl State.revokeSlot st with
        userSlots := (slots.foldl State.revokeSlot st).userSlots.erase (base token)
        activeTokens := (slots.foldl State.revokeSlot st).activeTokens.erase token } := by
    rw [State.revokeUser]
    split
    · rename_i slots' hslots'
      rw [hbase, hslots, Option.some.injEq] at hslots'
      rw [hbase, hslots']
    · rename_i hnone
      rw [hbase, hslots] at hnone
      exact absurd hnone (by simp)
  rw [heq, hsame.1, hsame.2]
  exact ⟨Knows.congr ⟨hknows.accepted, hknows.present⟩ fun k => by rw [hmem], rfl, rfl⟩

/-- **Step 2 of the synchronisation**: the tokens that are gone. -/
theorem Knows.revokeUsers {tokens : List String} {base : String → UInt64}
    {K : String → UInt64 → Prop} (h : Knows st P) (hnodup : tokens.Nodup)
    (hledger : Ledger st tokens base K) :
    Knows (tokens.foldl State.revokeUser st) (fun k => P k ∧ ∀ token ∈ tokens, ¬K token k) ∧
      (∀ token, (tokens.foldl State.revokeUser st).activeTokens.lookup token =
        if token ∈ tokens then none else st.activeTokens.lookup token) ∧
      ∀ k, (∀ token ∈ tokens, k ≠ base token) →
        (tokens.foldl State.revokeUser st).userSlots.lookup k = st.userSlots.lookup k := by
  induction tokens generalizing st P with
  | nil => exact ⟨h.congr fun k => by simp, fun token => by simp, fun k _ => rfl⟩
  | cons token tokens ih =>
    obtain ⟨hfresh, hnodup⟩ := List.nodup_cons.mp hnodup
    have hone : Ledger st [token] base K := by
      refine ⟨fun t ht => hledger.active t ?_, fun t ht => hledger.slots t ?_,
        fun t ht t' ht' _ => ?_⟩
      · exact List.mem_singleton.mp ht ▸ List.mem_cons_self
      · exact List.mem_singleton.mp ht ▸ List.mem_cons_self
      · rw [List.mem_singleton.mp ht, List.mem_singleton.mp ht']
    obtain ⟨hknows, hactive, hslots⟩ := h.revokeUser hone
    have hbase : ∀ t ∈ tokens, base t ≠ base token := by
      intro t ht heq
      have := hledger.inj t (List.mem_cons_of_mem _ ht) token List.mem_cons_self heq
      exact hfresh (this ▸ ht)
    have hne : ∀ t ∈ tokens, t ≠ token := fun t ht heq => hfresh (heq ▸ ht)
    have hrest : Ledger (st.revokeUser token) tokens base K := by
      refine ⟨fun t ht => ?_, fun t ht => ?_, fun t ht t' ht' => ?_⟩
      · rw [hactive, AList.lookup_erase_ne (hne t ht)]
        exact hledger.active t (List.mem_cons_of_mem _ ht)
      · rw [hslots, AList.lookup_erase_ne (hbase t ht)]
        exact hledger.slots t (List.mem_cons_of_mem _ ht)
      · exact hledger.inj t (List.mem_cons_of_mem _ ht) t' (List.mem_cons_of_mem _ ht')
    obtain ⟨hknows', hactive', hslots'⟩ := ih hknows hnodup hrest
    refine ⟨hknows'.congr fun k => ?_, fun t => ?_, fun k hk => ?_⟩
    · simp only [List.forall_mem_cons, and_assoc]
    · rw [List.foldl_cons, hactive', hactive]
      rcases eq_or_ne t token with rfl | hne
      · simp only [AList.lookup_erase, ite_self, List.mem_cons_self, if_true]
      · simp only [AList.lookup_erase_ne hne, List.mem_cons, hne, false_or]
    · rw [List.foldl_cons, hslots' k fun t ht => hk t (List.mem_cons_of_mem _ ht), hslots,
        AList.lookup_erase_ne (hk token List.mem_cons_self)]

/-! ### One synchronisation -/

/-- Rows with one token have one key id. -/
def Coherent (D : KeyDerivation) (users : List (String × String)) : Prop :=
  ∀ user ∈ users, ∀ user' ∈ users, user.1 = user'.1 →
    keyIdOf D user.1 user.2 = keyIdOf D user'.1 user'.2

/-- **What the server has of some rows**: their key ids in both tables, their tokens
active, and the slots of a row under its key id, if no other row has the same. -/
structure Recorded (D : KeyDerivation) (st : State) (users : List (String × String)) : Prop where
  /-- The key ids are in both tables. -/
  knows : Knows st (Derived D users)
  /-- An active token is that of a row. -/
  active : ∀ token, (st.activeTokens.lookup token).isSome → ∃ user ∈ users, user.1 = token
  /-- The token of a row is active. -/
  activated : ∀ user ∈ users, keyIdOf D user.1 user.2 ≠ 0 →
    st.activeTokens.lookup user.1 = some (keyIdOf D user.1 user.2)
  /-- The slots of a row are recorded. -/
  slots : ∀ user ∈ users, keyIdOf D user.1 user.2 ≠ 0 →
    (∀ other ∈ users, other.1 ≠ user.1 →
      keyIdOf D other.1 other.2 ≠ keyIdOf D user.1 user.2) →
    ∃ slots, st.userSlots.lookup (keyIdOf D user.1 user.2) = some slots ∧
      ∀ k, k ∈ slots ↔ k ≠ 0 ∧ k ∈ rowKeyIds D user

/-- The key ids of a row depend on its token and its own key id. -/
theorem rowKeyIds_congr {user user' : String × String} (htoken : user.1 = user'.1)
    (hkeyId : keyIdOf D user.1 user.2 = keyIdOf D user'.1 user'.2) :
    rowKeyIds D user = rowKeyIds D user' := by
  have hcons : ∀ user : String × String, rowKeyIds D user =
      keyIdOf D user.1 user.2 :: ((rowNames (user.1, "")).tail.map fun name =>
        keyIdOf D name.1 name.2) := fun _ => rfl
  rw [hcons, hcons, hkeyId, htoken]

theorem derived_append {users users' : List (String × String)} {k : UInt64} :
    Derived D (users ++ users') k ↔ Derived D users k ∨ Derived D users' k := by
  simp only [Derived, List.mem_append, or_and_right, exists_or]

/-- **One row** is recorded next to those that are. -/
theorem Recorded.register (now : ℤ) {users : List (String × String)} {user : String × String}
    (h : Recorded D st users) (hcoherent : Coherent D (users ++ [user]))
    (hd : ∀ name ∈ rowNames user, Derivable D (Derived D users) name) :
    Recorded D (if (st.activeTokens.lookup user.1).isSome then st
      else st.registerUser L D now user.1 user.2) (users ++ [user]) := by
  have hself : user ∈ users ++ [user] := List.mem_append_right _ (List.mem_singleton_self user)
  have hsame : ∀ user' ∈ users, user'.1 = user.1 →
      keyIdOf D user'.1 user'.2 = keyIdOf D user.1 user.2 := fun user' hmem =>
    hcoherent user' (List.mem_append_left _ hmem) user hself
  have hmem : ∀ {k}, Derived D (users ++ [user]) k ↔ k ∈ rowKeyIds D user ∨ Derived D users k := by
    intro k
    rw [derived_append, or_comm]
    simp only [Derived, List.mem_singleton, exists_eq_left]
  split
  · -- the token is active: nothing to do
    rename_i hactive
    obtain ⟨old, hold, htoken⟩ := h.active user.1 hactive
    have hkeyId := hsame old hold htoken
    have hrow := rowKeyIds_congr htoken hkeyId
    refine ⟨h.knows.congr fun k => ?_, fun token htok => ?_, fun user' hmem' hne => ?_,
      fun user' hmem' hne hunique => ?_⟩
    · rw [hmem]
      refine ⟨Or.inr, ?_⟩
      rintro (hk | hk)
      · exact ⟨old, hold, hrow ▸ hk⟩
      · exact hk
    · obtain ⟨user', hmem', heq⟩ := h.active token htok
      exact ⟨user', List.mem_append_left _ hmem', heq⟩
    · rcases List.mem_append.mp hmem' with hmem' | hmem'
      · exact h.activated user' hmem' hne
      · rw [List.mem_singleton.mp hmem'] at hne ⊢
        rw [← hkeyId] at hne ⊢
        rw [← htoken]
        exact h.activated old hold hne
    · have hunique' : ∀ other ∈ users, other.1 ≠ user'.1 →
          keyIdOf D other.1 other.2 ≠ keyIdOf D user'.1 user'.2 := fun other ho =>
        hunique other (List.mem_append_left _ ho)
      rcases List.mem_append.mp hmem' with hmem' | hmem'
      · exact h.slots user' hmem' hne hunique'
      · rw [List.mem_singleton.mp hmem'] at hne hunique' ⊢
        rw [← hkeyId, ← htoken] at hunique'
        rw [← hkeyId] at hne ⊢
        rw [← hrow]
        exact h.slots old hold hne hunique'
  · -- the token is new
    rename_i hnew
    rw [Bool.not_eq_true, Option.isSome_eq_false_iff, Option.isNone_iff_eq_none] at hnew
    have hreg := h.knows.registerUser (L := L) now hd
    have hfresh : ∀ user' ∈ users, keyIdOf D user'.1 user'.2 ≠ 0 → user'.1 ≠ user.1 := by
      intro user' hmem' hne htoken
      have := h.activated user' hmem' hne
      rw [htoken, hnew] at this
      exact absurd this (by simp)
    refine ⟨hreg.knows.congr fun k => hmem.symm, ?_, ?_, ?_⟩
    all_goals
      rcases eq_or_ne (keyIdOf D user.1 user.2) 0 with hzero | hne
    · intro token htok
      rw [(hreg.zero hzero).2] at htok
      obtain ⟨user', hmem', heq⟩ := h.active token htok
      exact ⟨user', List.mem_append_left _ hmem', heq⟩
    · intro token htok
      obtain ⟨slots, -, hactive, -⟩ := hreg.ledger hne
      rcases eq_or_ne token user.1 with rfl | htoken
      · exact ⟨user, hself, rfl⟩
      · rw [hactive, AList.lookup_insert_ne htoken] at htok
        obtain ⟨user', hmem', heq⟩ := h.active token htok
        exact ⟨user', List.mem_append_left _ hmem', heq⟩
    · intro user' hmem' hne'
      rw [(hreg.zero hzero).2]
      rcases List.mem_append.mp hmem' with hmem' | hmem'
      · exact h.activated user' hmem' hne'
      · rw [List.mem_singleton.mp hmem'] at hne'
        exact absurd hzero hne'
    · intro user' hmem' hne'
      obtain ⟨slots, -, hactive, -⟩ := hreg.ledger hne
      rw [hactive]
      rcases List.mem_append.mp hmem' with hmem' | hmem'
      · rw [AList.lookup_insert_ne (hfresh user' hmem' hne')]
        exact h.activated user' hmem' hne'
      · rw [List.mem_singleton.mp hmem', AList.lookup_insert]
    · intro user' hmem' hne' hunique
      rw [(hreg.zero hzero).1]
      rcases List.mem_append.mp hmem' with hmem' | hmem'
      · exact h.slots user' hmem' hne' fun other ho => hunique other (List.mem_append_left _ ho)
      · rw [List.mem_singleton.mp hmem'] at hne'
        exact absurd hzero hne'
    · intro user' hmem' hne' hunique
      obtain ⟨slots, hslots, -, hrecorded⟩ := hreg.ledger hne
      rw [hslots]
      rcases List.mem_append.mp hmem' with hmem' | hmem'
      · rw [AList.lookup_insert_ne (hunique user hself (hfresh user' hmem' hne').symm).symm]
        exact h.slots user' hmem' hne' fun other ho => hunique other (List.mem_append_left _ ho)
      · rw [List.mem_singleton.mp hmem']
        exact ⟨slots, AList.lookup_insert _, hrecorded⟩

/-- **Step 1**: all rows are recorded next to those that are. -/
theorem Recorded.registerUsers (now : ℤ) {users rows : List (String × String)}
    (h : Recorded D st users) (hcoherent : Coherent D (users ++ rows))
    (hd : ∀ user ∈ rows, ∀ name ∈ rowNames user, Derivable D (Derived D users) name) :
    Recorded D (st.registerUsers L D now rows) (users ++ rows) := by
  induction rows generalizing st users with
  | nil =>
    rw [List.append_nil]
    exact h
  | cons user rows ih =>
    rw [List.append_cons] at hcoherent ⊢
    have hone := h.register (L := L) now (fun u hu u' hu' => hcoherent u (List.mem_append_left _ hu)
      u' (List.mem_append_left _ hu')) (hd user List.mem_cons_self)
    refine ih hone hcoherent fun user' hmem name hname => ?_
    exact (hd user' (List.mem_cons_of_mem _ hmem) name hname).mono fun k hk =>
      derived_append.mpr (Or.inl hk)

/-- **The rows before and after leave each other alone**: rows with one token have one key
id; a row that goes has no key id zero, none that a row has that stays or comes, and a key
id of its own that no other row had; a key id that is not registered yet can be. -/
structure Separate (D : KeyDerivation) (table table' : List UserRow) : Prop where
  /-- A token keeps its key id. -/
  coherent : ∀ user ∈ table.filterMap UserRow.user ++ table'.filterMap UserRow.user,
    ∀ user' ∈ table'.filterMap UserRow.user, user.1 = user'.1 →
      keyIdOf D user.1 user.2 = keyIdOf D user'.1 user'.2
  /-- The key ids of a row that goes are not zero, and no row after has them. -/
  gone : ∀ user ∈ table.filterMap UserRow.user,
    (∀ user' ∈ table'.filterMap UserRow.user, user'.1 ≠ user.1) →
      ∀ k ∈ rowKeyIds D user, k ≠ 0 ∧ ¬Derived D (table'.filterMap UserRow.user) k
  /-- The key id of a row that goes was that of no other row. -/
  alone : ∀ user ∈ table.filterMap UserRow.user,
    (∀ user' ∈ table'.filterMap UserRow.user, user'.1 ≠ user.1) →
      ∀ user' ∈ table.filterMap UserRow.user, user'.1 ≠ user.1 →
        keyIdOf D user'.1 user'.2 ≠ keyIdOf D user.1 user.2
  /-- What is not registered yet can be. -/
  derives : ∀ token kid, (currentDbUsers table').lookup token = some kid →
    ∀ name ∈ rowNames (token, kid),
      Derivable D (Derived D (table.filterMap UserRow.user)) name

/-- The map has the rows of the table, one for each token. -/
theorem lookup_currentDbUsers (table : List UserRow) (token : String) :
    (∀ kid, (currentDbUsers table).lookup token = some kid →
      (token, kid) ∈ table.filterMap UserRow.user) ∧
    (((currentDbUsers table).lookup token).isSome ↔
      ∃ user ∈ table.filterMap UserRow.user, user.1 = token) := by
  rw [currentDbUsers]
  induction table.filterMap UserRow.user using List.reverseRecOn with
  | nil => exact ⟨fun kid h => absurd h (by simp), by simp⟩
  | append_singleton users user ih =>
    rw [List.foldl_append, List.foldl_cons, List.foldl_nil]
    rcases eq_or_ne token user.1 with rfl | hne
    · rw [AList.lookup_insert]
      refine ⟨fun kid h => ?_, iff_of_true rfl ⟨user, by simp, rfl⟩⟩
      rw [← Option.some.inj h]
      exact List.mem_append_right _ (List.mem_singleton_self user)
    · rw [AList.lookup_insert_ne hne]
      refine ⟨fun kid h => List.mem_append_left _ (ih.1 kid h), ih.2.trans ?_⟩
      refine ⟨fun ⟨u, hu, heq⟩ => ⟨u, List.mem_append_left _ hu, heq⟩, ?_⟩
      rintro ⟨u, hu, heq⟩
      rcases List.mem_append.mp hu with hu | hu
      · exact ⟨u, hu, heq⟩
      · rw [List.mem_singleton.mp hu] at heq
        exact absurd heq.symm hne

/-- **A synchronisation between its two steps**: the rows are registered next to the users
of the last time, and some tokens are about to be removed. -/
structure Halfway (D : KeyDerivation) (st : State) (users rows users' : List (String × String))
    (revoked : List String) : Prop where
  /-- Both are recorded. -/
  recorded : Recorded D st (users ++ rows)
  /-- A token keeps its key id. -/
  coherent : Coherent D (users ++ users')
  /-- The rows are rows of the table. -/
  rows_subset : ∀ row ∈ rows, row ∈ users'
  /-- Every token of the table has a row. -/
  rows_cover : ∀ user ∈ users', ∃ row ∈ rows, row.1 = user.1
  /-- The key ids of a row that goes are not zero, and no row after has them. -/
  gone : ∀ user ∈ users, (∀ user' ∈ users', user'.1 ≠ user.1) →
    ∀ k ∈ rowKeyIds D user, k ≠ 0 ∧ ¬Derived D users' k
  /-- The key id of a row that goes was that of no other row. -/
  alone : ∀ user ∈ users, (∀ user' ∈ users', user'.1 ≠ user.1) →
    ∀ user' ∈ users, user'.1 ≠ user.1 → keyIdOf D user'.1 user'.2 ≠ keyIdOf D user.1 user.2
  /-- The tokens to remove. -/
  revoked : ∀ token, token ∈ revoked ↔
    (st.activeTokens.lookup token).isSome ∧ ∀ row ∈ rows, row.1 ≠ token

namespace Halfway

variable {users rows users' : List (String × String)} {revoked : List String}

theorem keyIdOf_mem (user : String × String) : keyIdOf D user.1 user.2 ∈ rowKeyIds D user :=
  List.mem_cons_self

/-- Rows with one token have the same key ids. -/
theorem rowKeyIds_eq (h : Halfway D st users rows users' revoked) {user user' : String × String}
    (hmem : user ∈ users ++ users') (hmem' : user' ∈ users ++ users') (htoken : user.1 = user'.1) :
    rowKeyIds D user = rowKeyIds D user' :=
  rowKeyIds_congr htoken (h.coherent user hmem user' hmem' htoken)

theorem mem_left (h : Halfway D st users rows users' revoked) {user : String × String}
    (hmem : user ∈ users ++ rows) : user ∈ users ++ users' :=
  (List.mem_append.mp hmem).elim (List.mem_append_left _) fun hrow =>
    List.mem_append_right _ (h.rows_subset user hrow)

/-- A token to remove is that of a row of the last time, and of none of this time. -/
theorem gone_of_revoked (h : Halfway D st users rows users' revoked) {token : String}
    (hrevoked : token ∈ revoked) : ∃ user ∈ users, user.1 = token ∧
      (∀ user' ∈ users', user'.1 ≠ user.1) ∧ keyIdOf D user.1 user.2 ≠ 0 ∧
      st.activeTokens.lookup token = some (keyIdOf D user.1 user.2) := by
  obtain ⟨hactive, hrows⟩ := (h.revoked token).mp hrevoked
  obtain ⟨user, hmem, rfl⟩ := h.recorded.active token hactive
  have hgone : ∀ user' ∈ users', user'.1 ≠ user.1 := by
    intro user' hmem' htoken
    obtain ⟨row, hrow, heq⟩ := h.rows_cover user' hmem'
    exact hrows row hrow (heq.trans htoken)
  have huser : user ∈ users := by
    rcases List.mem_append.mp hmem with hmem | hmem
    · exact hmem
    · exact absurd rfl (hrows user hmem)
  have hne := (h.gone user huser hgone _ (keyIdOf_mem user)).1
  exact ⟨user, huser, rfl, hgone, hne, h.recorded.activated user hmem hne⟩

/-- A row of the last time whose token is gone is among those to remove. -/
theorem revoked_of_gone (h : Halfway D st users rows users' revoked) {user : String × String}
    (hmem : user ∈ users) (hgone : ∀ user' ∈ users', user'.1 ≠ user.1) : user.1 ∈ revoked := by
  have hne := (h.gone user hmem hgone _ (keyIdOf_mem user)).1
  refine (h.revoked user.1).mpr ⟨?_, fun row hrow => hgone row (h.rows_subset row hrow)⟩
  rw [h.recorded.activated user (List.mem_append_left _ hmem) hne]
  rfl

/-- What is recorded for a token: the key ids of its row. -/
def recordedFor (D : KeyDerivation) (users : List (String × String)) (token : String)
    (k : UInt64) : Prop := ∃ user ∈ users, user.1 = token ∧ k ∈ rowKeyIds D user

/-- **The records are those of the rows that go.** -/
theorem ledger (h : Halfway D st users rows users' revoked) :
    Ledger st revoked (fun token => (st.activeTokens.lookup token).getD 0)
      (recordedFor D users) := by
  refine ⟨fun token hrevoked => ?_, fun token hrevoked => ?_,
    fun token hrevoked token' hrevoked' heq => ?_⟩
  · obtain ⟨user, -, -, -, -, hlookup⟩ := h.gone_of_revoked hrevoked
    rw [hlookup]
    rfl
  · obtain ⟨user, hmem, rfl, hgone, hne, hlookup⟩ := h.gone_of_revoked hrevoked
    obtain ⟨slots, hslots, hrecorded⟩ := h.recorded.slots user (List.mem_append_left _ hmem) hne
      fun other hother htoken => by
        rcases List.mem_append.mp hother with hother | hother
        · exact h.alone user hmem hgone other hother htoken
        · intro heq
          refine (h.gone user hmem hgone _ (keyIdOf_mem user)).2 ?_
          exact ⟨other, h.rows_subset other hother, heq ▸ keyIdOf_mem other⟩
    refine ⟨slots, by rw [hlookup]; exact hslots, fun k => (hrecorded k).trans ?_⟩
    refine ⟨fun hk => ⟨user, hmem, rfl, hk.2⟩, ?_⟩
    rintro ⟨user', hmem', htoken, hk⟩
    rw [h.rowKeyIds_eq (List.mem_append_left _ hmem') (List.mem_append_left _ hmem) htoken] at hk
    exact ⟨(h.gone user hmem hgone k hk).1, hk⟩
  · obtain ⟨user, hmem, rfl, hgone, -, hlookup⟩ := h.gone_of_revoked hrevoked
    obtain ⟨user', hmem', rfl, -, -, hlookup'⟩ := h.gone_of_revoked hrevoked'
    rw [hlookup, hlookup'] at heq
    by_contra hne
    exact h.alone user hmem hgone user' hmem' (Ne.symm hne) heq.symm

/-- **What is left is what the rows say.** -/
theorem derived_iff (h : Halfway D st users rows users' revoked) (k : UInt64) :
    (Derived D (users ++ rows) k ∧ ∀ token ∈ revoked, ¬recordedFor D users token k) ↔
      Derived D users' k := by
  constructor
  · rintro ⟨⟨user, hmem, hk⟩, hkept⟩
    rcases List.mem_append.mp hmem with hmem | hmem
    · by_cases hgone : ∀ user' ∈ users', user'.1 ≠ user.1
      · exact absurd ⟨user, hmem, rfl, hk⟩ (hkept user.1 (h.revoked_of_gone hmem hgone))
      · push Not at hgone
        obtain ⟨user', hmem', htoken⟩ := hgone
        refine ⟨user', hmem', ?_⟩
        rw [h.rowKeyIds_eq (List.mem_append_right _ hmem') (List.mem_append_left _ hmem) htoken]
        exact hk
    · exact ⟨user, h.rows_subset user hmem, hk⟩
  · rintro ⟨user, hmem, hk⟩
    obtain ⟨row, hrow, htoken⟩ := h.rows_cover user hmem
    refine ⟨⟨row, List.mem_append_right _ hrow, ?_⟩, ?_⟩
    · rw [h.rowKeyIds_eq (List.mem_append_right _ (h.rows_subset row hrow))
        (List.mem_append_right _ hmem) htoken]
      exact hk
    · rintro token hrevoked ⟨old, hold, rfl, hk'⟩
      obtain ⟨user', hmem', htoken', hgone, -, -⟩ := h.gone_of_revoked hrevoked
      exact (h.gone old hold (fun u hu => htoken' ▸ hgone u hu) k hk').2 ⟨user, hmem, hk⟩

/-- **Step 2** leaves the rows recorded. -/
theorem revoke (h : Halfway D st users rows users' revoked) (hnodup : revoked.Nodup) :
    Recorded D (revoked.foldl State.revokeUser st) users' := by
  obtain ⟨hknows, hactive, hslots⟩ := h.recorded.knows.revokeUsers hnodup h.ledger
  have hstays : ∀ user ∈ users', user.1 ∉ revoked := by
    intro user hmem hrevoked
    obtain ⟨row, hrow, htoken⟩ := h.rows_cover user hmem
    exact ((h.revoked user.1).mp hrevoked).2 row hrow htoken
  have hkeyId : ∀ {user row : String × String}, user ∈ users' → row ∈ users ++ rows →
      row.1 = user.1 → keyIdOf D row.1 row.2 = keyIdOf D user.1 user.2 :=
    fun hmem hrow => h.coherent _ (h.mem_left hrow) _ (List.mem_append_right _ hmem)
  refine ⟨hknows.congr h.derived_iff, fun token htoken => ?_, fun user hmem hne => ?_,
    fun user hmem hne hunique => ?_⟩
  · rw [hactive] at htoken
    split at htoken
    · exact absurd htoken (by simp)
    · rename_i hkept
      by_contra hnone
      push Not at hnone
      exact hkept ((h.revoked token).mpr ⟨htoken, fun row hrow =>
        hnone row (h.rows_subset row hrow)⟩)
  · obtain ⟨row, hrow, htoken⟩ := h.rows_cover user hmem
    have hsame := hkeyId hmem (List.mem_append_right _ hrow) htoken
    rw [hactive, if_neg (hstays user hmem), ← hsame, ← htoken]
    exact h.recorded.activated row (List.mem_append_right _ hrow) (hsame ▸ hne)
  · obtain ⟨row, hrow, htoken⟩ := h.rows_cover user hmem
    have hsame := hkeyId hmem (List.mem_append_right _ hrow) htoken
    have hderived : Derived D users' (keyIdOf D user.1 user.2) := ⟨user, hmem, keyIdOf_mem user⟩
    have hother : ∀ other ∈ users ++ rows, other.1 ≠ row.1 →
        keyIdOf D other.1 other.2 ≠ keyIdOf D row.1 row.2 := by
      intro other hother hne' heq
      rw [hsame] at heq
      by_cases hgone : ∀ user' ∈ users', user'.1 ≠ other.1
      · rcases List.mem_append.mp hother with hother | hother
        · exact (h.gone other hother hgone _ (keyIdOf_mem other)).2 (heq ▸ hderived)
        · exact hgone other (h.rows_subset other hother) rfl
      · push Not at hgone
        obtain ⟨user', hmem', htoken'⟩ := hgone
        refine hunique user' hmem' (fun h' => hne' ?_) ?_
        · rw [← htoken', h', htoken]
        · rw [← hkeyId hmem' hother htoken'.symm, heq]
    obtain ⟨slots, hlookup, hrecorded⟩ := h.recorded.slots row (List.mem_append_right _ hrow)
      (hsame ▸ hne) hother
    refine ⟨slots, ?_, fun k => ?_⟩
    · rw [hslots _ fun token hrevoked heq => ?_, ← hsame]
      · exact hlookup
      · obtain ⟨old, hold, rfl, hgone, -, hlookup'⟩ := h.gone_of_revoked hrevoked
        rw [hlookup', Option.getD_some] at heq
        exact (h.gone old hold hgone _ (keyIdOf_mem old)).2 (heq ▸ hderived)
    · rw [hrecorded, h.rowKeyIds_eq (h.mem_left (List.mem_append_right _ hrow))
        (List.mem_append_right _ hmem) htoken]

end Halfway

/-! ### Runs -/

/-- The server, and the rows it was last synchronised with. -/
structure Synchronized where
  /-- The server. -/
  server : State
  /-- History: the table at the last synchronisation. -/
  table : List UserRow

/-- An operation of the server with a database. -/
inductive DbOperation (S : Type)
  /-- `sync_users_from_db` reads this table; it goes over the map of the rows and over the
  tokens to remove in these orders. -/
  | sync (now : ℤ) (table : List UserRow) (rows : List (String × String)) (revoked : List String)
  /-- A handshake. -/
  | handshake (d : Datagram) (calls : HandshakeCalls S)
  /-- A fast resume. -/
  | fastResume (d : Datagram) (calls : ResumeCalls) (expand : ExpandCalls)
  /-- A PFS resume. -/
  | pfsResume (d : Datagram) (calls : ResumeCalls) (pfs : PfsCalls S)
  /-- `cleanup_maps`. -/
  | cleanup (now : ℤ) (order : List ℕ)

/-- What the server does. -/
def DbOperation.operation : DbOperation S → Operation S
  | .sync now _ rows revoked => .sync now rows revoked
  | .handshake d calls => .handshake d calls
  | .fastResume d calls expand => .fastResume d calls expand
  | .pfsResume d calls pfs => .pfsResume d calls pfs
  | .cleanup now order => .cleanup now order

/-- One operation, if it is one: a synchronisation goes over the map of its table. -/
def dbStep (L : Library S) (T : TokenCipher) (D : KeyDerivation) (st : Synchronized)
    (op : DbOperation S) : Option Synchronized :=
  match op with
  | .sync _ table rows _ =>
    if rows.Perm ((currentDbUsers table).entries.map fun entry => (entry.1, entry.2)) then
      (step L T D st.server op.operation).map fun server => ⟨server, table⟩
    else none
  | _ => (step L T D st.server op.operation).map fun server => ⟨server, st.table⟩

/-- **The condition on a synchronisation**: the table of the last time and this one leave
each other alone. -/
def SyncsSeparate (D : KeyDerivation) (st : Synchronized) : DbOperation S → Prop
  | .sync _ table _ _ => Separate D st.table table
  | _ => True

/-- **In step with the database**: both tables have the key ids of the rows, and no
others. -/
def InStep (D : KeyDerivation) (st : Synchronized) : Prop :=
  Knows st.server (Derived D (st.table.filterMap UserRow.user))

/-- What the records are about is the same. -/
structure SameUsers (st st' : State) : Prop where
  /-- The users are the same. -/
  masterKeys : st'.hs.masterKeys = st.hs.masterKeys
  /-- The sessions are found under the same key ids. -/
  byKeyId : st'.sessions.byKeyId = st.sessions.byKeyId
  /-- The records are the same. -/
  ledger : SameLedger st st'

theorem SameUsers.refl (st : State) : SameUsers st st := ⟨rfl, rfl, rfl, rfl⟩

theorem SameUsers.trans {st st' st'' : State} (h : SameUsers st st') (h' : SameUsers st' st'') :
    SameUsers st st'' :=
  ⟨h'.masterKeys.trans h.masterKeys, h'.byKeyId.trans h.byKeyId, h.ledger.trans h'.ledger⟩

/-- The records stay right. -/
theorem Recorded.congr {st st' : State} {users : List (String × String)} (h : Recorded D st users)
    (hsame : SameUsers st st') : Recorded D st' users := by
  refine ⟨⟨fun k => ?_, fun k => ?_⟩, fun token => ?_, fun user => ?_, fun user => ?_⟩
  · rw [hsame.masterKeys]
    exact h.knows.accepted k
  · rw [SessionTable.findByKeyId, hsame.byKeyId]
    exact h.knows.present k
  · rw [hsame.ledger.2]
    exact h.active token
  · rw [hsame.ledger.2]
    exact h.activated user
  · rw [hsame.ledger.1]
    exact h.slots user

theorem sameUsers_processInit (hs : HandshakeServer) (init : List UInt8) (now : UInt64)
    (addr : Option ℕ) {r : HandshakeServer × Option UInt64} (h : hs.processInit L init now addr = r)
    (st : State) (hst : st.hs = hs) : SameUsers st { st with hs := r.1 } := by
  refine ⟨?_, rfl, rfl, rfl⟩
  rw [← h, hst]
  exact processInit_masterKeys hs now L init addr

theorem sameUsers_assignIp {st st' : State} {p : ℕ} {ip : UInt32}
    (h : st.assignIp p = some (st', ip)) : SameUsers st st' := by
  rw [State.assignIp] at h
  split at h
  · rw [← (Prod.mk.inj (Option.some.inj h)).1]
    exact .refl st
  · split at h
    · exact absurd h (by simp)
    · rw [← (Prod.mk.inj (Option.some.inj h)).1]
      exact ⟨rfl, SessionTable.byKeyId_mapIp _ _ _, rfl, rfl⟩

theorem sameUsers_install (st : State) (keyId : UInt64) (orig p : ℕ) (ip : UInt32) (d : Datagram)
    (calls : HandshakeCalls S) : SameUsers st (st.install L T keyId orig p ip d calls).1 :=
  ⟨(buildResp_shrinks _ _ _ _ _ _ _).masterKeys, rfl, rfl, rfl⟩

theorem sameUsers_handshake (st : State) (d : Datagram) (calls : HandshakeCalls S) :
    SameUsers st (st.handshake L T d calls).1 := by
  rw [State.handshake]
  split
  · rename_i hinit
    exact sameUsers_processInit _ _ _ _ hinit st rfl
  · rename_i hinit
    have hfirst := sameUsers_processInit _ _ _ _ hinit st rfl
    simp only
    split
    · exact hfirst
    · split
      · exact hfirst
      · rename_i hassign
        exact (hfirst.trans (sameUsers_assignIp hassign)).trans (sameUsers_install _ _ _ _ _ _ _)

theorem sameUsers_verifyToken (st : State) (tok : ResumptionToken) (calls : ResumeCalls) :
    SameUsers st (st.verifyToken L T tok calls).1 := by
  rw [State.verifyToken]
  split
  · exact .refl st
  · exact ⟨rfl, rfl, rfl, rfl⟩

theorem sameUsers_resume (st : State) (p : ℕ) (sessionId : UInt64) (ip : UInt32)
    (recvKey sendKey : Vector UInt8 32) (d : Datagram) (calls : ResumeCalls) :
    SameUsers st (st.resume L T p sessionId ip recvKey sendKey d calls).1 :=
  ⟨rfl, SessionTable.byKeyId_mapIp _ _ _, rfl, rfl⟩

theorem sameUsers_fastResume (st : State) (d : Datagram) (calls : ResumeCalls)
    (expand : ExpandCalls) : SameUsers st (st.fastResume L T d calls expand).1 := by
  have hverify := sameUsers_verifyToken (L := L) (T := T) st (ResumptionToken.read d.data 1) calls
  rw [State.fastResume]
  rcases hresult : st.verifyToken L T (ResumptionToken.read d.data 1) calls with ⟨st', payload⟩
  rw [hresult] at hverify
  rcases payload with _ | ⟨p, sessionId, ip⟩
  · exact hverify
  · exact hverify.trans (sameUsers_resume (L := L) (T := T) _ _ _ _ _ _ _ calls)

theorem sameUsers_pfsResume (st : State) (d : Datagram) (calls : ResumeCalls) (pfs : PfsCalls S) :
    SameUsers st (st.pfsResume L T d calls pfs).1 := by
  have hverify := sameUsers_verifyToken (L := L) (T := T) st (ResumptionToken.read d.data 1) calls
  rw [State.pfsResume]
  rcases hresult : st.verifyToken L T (ResumptionToken.read d.data 1) calls with ⟨st', payload⟩
  rw [hresult] at hverify
  rcases payload with _ | ⟨p, sessionId, ip⟩
  · exact hverify
  · simp only
    split
    · exact hverify
    · exact hverify.trans (sameUsers_resume (L := L) (T := T) _ _ _ _ _ _ _ calls)

theorem sameUsers_cleanupSession (st : State) (now : ℤ) (p : ℕ) :
    SameUsers st (st.cleanupSession now p) := by
  simp only [State.cleanupSession]
  split
  · split
    · exact ⟨rfl, SessionTable.byKeyId_unmapIp _ _, rfl, rfl⟩
    · exact ⟨rfl, rfl, rfl, rfl⟩
  · exact .refl st

theorem sameUsers_cleanupMaps (st : State) (now : ℤ) (order : List ℕ) :
    SameUsers st (st.cleanupMaps now order) := by
  rw [State.cleanupMaps]
  split
  · exact .refl st
  · exact List.foldlRecOn (motive := SameUsers st) order _ ⟨rfl, rfl, rfl, rfl⟩
      fun st' h p _ => h.trans (sameUsers_cleanupSession st' now p)

/-- **A synchronisation** leaves the rows of its table recorded. -/
theorem Recorded.sync {table table' : List UserRow} {rows : List (String × String)}
    {revoked : List String} (h : Recorded D st (table.filterMap UserRow.user))
    (hcoherent : Coherent D (table.filterMap UserRow.user)) (hsep : Separate D table table')
    (hrows : rows.Perm ((currentDbUsers table').entries.map fun entry => (entry.1, entry.2)))
    (now : ℤ)
    (hrevoked : revoked.Perm ((st.registerUsers L D now rows).tokensToRemove rows)) :
    Recorded D (revoked.foldl State.revokeUser (st.registerUsers L D now rows))
      (table'.filterMap UserRow.user) := by
  have hmem : ∀ {token kid}, (token, kid) ∈ rows ↔
      (currentDbUsers table').lookup token = some kid := by
    intro token kid
    rw [hrows.mem_iff, List.mem_map, ← Option.mem_def, AList.mem_lookup_iff]
    constructor
    · rintro ⟨entry, hentry, heq⟩
      obtain ⟨rfl, rfl⟩ := Prod.mk.inj heq
      exact hentry
    · exact fun hentry => ⟨⟨token, kid⟩, hentry, rfl⟩
  have hsubset : ∀ row ∈ rows, row ∈ table'.filterMap UserRow.user := fun row hrow =>
    (lookup_currentDbUsers table' row.1).1 row.2 (hmem.mp hrow)
  have hall : Coherent D (table.filterMap UserRow.user ++ table'.filterMap UserRow.user) := by
    intro user huser user' huser' htoken
    rcases List.mem_append.mp huser' with huser' | huser'
    · rcases List.mem_append.mp huser with huser | huser
      · exact hcoherent user huser user' huser' htoken
      · exact (hsep.coherent user' (List.mem_append_left _ huser') user huser htoken.symm).symm
    · exact hsep.coherent user huser user' huser' htoken
  have hregistered : Recorded D (st.registerUsers L D now rows)
      (table.filterMap UserRow.user ++ rows) := by
    refine h.registerUsers now ?_ fun user huser => hsep.derives user.1 user.2 (hmem.mp huser)
    intro user huser user' huser'
    refine hall user ?_ user' ?_
    · exact (List.mem_append.mp huser).elim (List.mem_append_left _) fun hrow =>
        List.mem_append_right _ (hsubset user hrow)
    · exact (List.mem_append.mp huser').elim (List.mem_append_left _) fun hrow =>
        List.mem_append_right _ (hsubset user' hrow)
  have hhalfway : Halfway D (st.registerUsers L D now rows) (table.filterMap UserRow.user) rows
      (table'.filterMap UserRow.user) revoked := by
    refine ⟨hregistered, hall, hsubset, fun user huser => ?_, hsep.gone, hsep.alone,
      fun token => ?_⟩
    · obtain ⟨kid, hkid⟩ := Option.isSome_iff_exists.mp
        ((lookup_currentDbUsers table' user.1).2.mpr ⟨user, huser, rfl⟩)
      exact ⟨(user.1, kid), hmem.mpr hkid, rfl⟩
    · rw [hrevoked.mem_iff, State.tokensToRemove, List.mem_filter, decide_eq_true_eq,
        AList.lookup_isSome]
      simp only [AList.mem_keys, List.mem_map, not_exists, not_and]
  refine hhalfway.revoke (hrevoked.nodup_iff.mpr ?_)
  exact (AList.keys_nodup _).filter _

/-- **The rows of the last synchronisation are recorded**, and agree with each other. -/
def Kept (D : KeyDerivation) (st : Synchronized) : Prop :=
  Recorded D st.server (st.table.filterMap UserRow.user) ∧
    Coherent D (st.table.filterMap UserRow.user)

/-- **Every operation keeps the records.** -/
theorem Kept.dbStep {st st' : Synchronized} {op : DbOperation S} (h : Kept D st)
    (hok : SyncsSeparate D st op) (hstep : dbStep L T D st op = some st') : Kept D st' := by
  have hother : ∀ {server : State}, SameUsers st.server server → Kept D ⟨server, st.table⟩ :=
    fun hsame => ⟨h.1.congr hsame, h.2⟩
  cases op with
  | sync now table rows revoked =>
    obtain ⟨hrows, hmap⟩ := Option.ite_none_right_eq_some.mp hstep
    obtain ⟨server, hserver, rfl⟩ := Option.map_eq_some_iff.mp hmap
    obtain ⟨⟨-, hrevoked⟩, hst⟩ := Option.ite_none_right_eq_some.mp hserver
    rw [← Option.some.inj hst]
    refine ⟨h.1.sync h.2 hok hrows now hrevoked, fun user huser => ?_⟩
    exact hok.coherent user (List.mem_append_right _ huser)
  | handshake d calls =>
    obtain ⟨server, hserver, rfl⟩ := Option.map_eq_some_iff.mp hstep
    obtain ⟨-, hst⟩ := Option.ite_none_right_eq_some.mp hserver
    rw [← Option.some.inj hst]
    exact hother (sameUsers_handshake _ d calls)
  | fastResume d calls expand =>
    obtain ⟨server, hserver, rfl⟩ := Option.map_eq_some_iff.mp hstep
    obtain ⟨-, hst⟩ := Option.ite_none_right_eq_some.mp hserver
    rw [← Option.some.inj hst]
    exact hother (sameUsers_fastResume _ d calls expand)
  | pfsResume d calls pfs =>
    obtain ⟨server, hserver, rfl⟩ := Option.map_eq_some_iff.mp hstep
    obtain ⟨-, hst⟩ := Option.ite_none_right_eq_some.mp hserver
    rw [← Option.some.inj hst]
    exact hother (sameUsers_pfsResume _ d calls pfs)
  | cleanup now order =>
    obtain ⟨server, hserver, rfl⟩ := Option.map_eq_some_iff.mp hstep
    obtain ⟨-, hst⟩ := Option.ite_none_right_eq_some.mp hserver
    rw [← Option.some.inj hst]
    exact hother (sameUsers_cleanupMaps _ now order)

/-- Nothing is recorded at the start, for no rows. -/
theorem kept_init (pool : IpPool) (bootSecret : Vector UInt8 32) :
    Kept D ⟨init pool bootSecret, []⟩ := by
  refine ⟨⟨⟨fun k => ?_, fun k => ?_⟩, fun token htoken => ?_, ?_, ?_⟩, ?_⟩
  · simp [init, HandshakeServer.start, Derived]
  · simp [init, SessionTable.empty, SessionTable.findByKeyId, Derived]
  · exact absurd htoken (by simp [init])
  · exact fun user hmem => absurd hmem (by simp)
  · exact fun user hmem => absurd hmem (by simp)
  · exact fun user hmem => absurd hmem (by simp)

/-- **Incremental synchronisation is a load from scratch**, in every state of a run whose
tables leave each other alone: the handshake server accepts, and the session table has,
exactly the key ids of the rows. -/
theorem inStep_of_meets (L : Library S) (T : TokenCipher) (D : KeyDerivation) (pool : IpPool)
    (bootSecret : Vector UInt8 32) (ops : List (DbOperation S)) (st : Synchronized)
    (hok : Meets (dbStep L T D) (SyncsSeparate D) ⟨init pool bootSecret, []⟩ ops)
    (hrun : runs (dbStep L T D) ⟨init pool bootSecret, []⟩ ops = some st) : InStep D st :=
  (inv_of_meets (I := Kept D) (fun h hok hstep => h.dbStep hok hstep) (kept_init pool bootSecret)
    hok hrun).1.knows

end

/-- After a synchronisation the table is the one it read. -/
theorem table_dbStep {S : Type} {L : Library S} {T : TokenCipher} {D : KeyDerivation}
    {st st' : Synchronized} {now : ℤ} {table : List UserRow} {rows : List (String × String)}
    {revoked : List String} (h : dbStep L T D st (.sync now table rows revoked) = some st') :
    st'.table = table := by
  obtain ⟨-, hmap⟩ := Option.ite_none_right_eq_some.mp h
  obtain ⟨server, -, rfl⟩ := Option.map_eq_some_iff.mp hmap
  rfl

instance (D : KeyDerivation) (users : List (String × String)) (k : UInt64) :
    Decidable (Derived D users k) :=
  inferInstanceAs (Decidable (∃ user ∈ users, k ∈ rowKeyIds D user))

/-! ### A base token and one of its slots -/

/-- Key ids from the last character of a token. -/
def lastDerivation : KeyDerivation where
  computeKeyId name := le64 (name.toList.getLastD 'x').toNat.toUInt64
  scanKeyId kid := (kid.toList.getLastD 'x').toNat.toUInt64
  deriveMasterKey _ _ := some (Vector.replicate 32 9)

/-- A base token with its key id, and its second slot as a row of its own. -/
def phoneTable : List UserRow := [⟨some "p", some "phone"⟩, ⟨some "2", some "phone#2"⟩]

/-- The row of the slot is removed. -/
def slotRemoved : List (DbOperation UInt8) :=
  [.sync 1000 phoneTable [("phone", "p"), ("phone#2", "2")] [],
    .sync 3000 [⟨some "p", some "phone"⟩] [("phone", "p")] ["phone#2"]]

/-- **The slot of the base token is gone** with the row that had it, too. -/
theorem not_inStep : ¬∀ (ops : List (DbOperation UInt8)) (st : Synchronized),
    runs (dbStep smallLibrary smallCipher lastDerivation) ⟨smallStart, []⟩ ops = some st →
      InStep lastDerivation st := by
  intro h
  have hrun : (runs (dbStep smallLibrary smallCipher lastDerivation) ⟨smallStart, []⟩
      slotRemoved).any (fun st => decide (st.table = [⟨some "p", some "phone"⟩]) &&
        (st.server.hs.masterKeys.lookup 50).isNone) = true := by
    decide +kernel
  obtain ⟨st, hst, hbad⟩ := (Option.any_eq_true _ _).mp hrun
  rw [Bool.and_eq_true, decide_eq_true_eq, Option.isNone_iff_eq_none] at hbad
  have hderived : Derived lastDerivation (st.table.filterMap UserRow.user) 50 := by
    rw [hbad.1]
    exact ⟨("phone", "p"), by decide, by decide +kernel⟩
  have haccepted := ((h slotRemoved st hst).accepted 50).mpr hderived
  rw [hbad.2] at haccepted
  exact absurd haccepted (by simp)

/-- A base token is registered with its four slots, and replaced by another device. -/
def deviceReplaced : List (DbOperation UInt8) :=
  [.sync 1000 [⟨some "p", some "phone"⟩] [("phone", "p")] [],
    .sync 3000 [⟨some "b", some "user#b"⟩] [("user#b", "b")] ["phone"]]

theorem inStep_deviceReplaced : ∃ st, runs (dbStep smallLibrary smallCipher lastDerivation)
      ⟨smallStart, []⟩ deviceReplaced = some st ∧
    st.table = [⟨some "b", some "user#b"⟩] ∧ InStep lastDerivation st := by
  have hfirst : Separate lastDerivation [] [⟨some "p", some "phone"⟩] :=
    ⟨by decide +kernel, by decide +kernel, by decide +kernel, fun _ _ _ _ _ _ => rfl⟩
  have hsecond : Separate lastDerivation [⟨some "p", some "phone"⟩]
      [⟨some "b", some "user#b"⟩] := by
    refine ⟨by decide +kernel, ?_, by decide +kernel, fun _ _ _ _ _ _ => rfl⟩
    -- over the list of key ids, which are finitely many also as numbers
    have hkeys : (rowKeyIds lastDerivation ("phone", "p")).all (fun k =>
        decide (k ≠ 0 ∧ ¬Derived lastDerivation [("user#b", "b")] k)) = true := by
      decide +kernel
    intro user huser _ k hk
    obtain rfl : user = ("phone", "p") := List.mem_singleton.mp huser
    exact of_decide_eq_true (List.all_eq_true.mp hkeys k hk)
  obtain ⟨st, hst⟩ : ∃ st, runs (dbStep smallLibrary smallCipher lastDerivation)
      ⟨smallStart, []⟩ deviceReplaced = some st :=
    Option.isSome_iff_exists.mp (by decide +kernel)
  have hlast := hst
  rw [deviceReplaced, runs_cons, Option.bind_eq_some_iff] at hlast
  obtain ⟨st₁, -, hlast⟩ := hlast
  rw [runs_cons, Option.bind_eq_some_iff] at hlast
  obtain ⟨st₂, hst₂, hlast⟩ := hlast
  obtain rfl := Option.some.inj hlast
  refine ⟨st₂, hst, table_dbStep hst₂, inStep_of_meets smallLibrary smallCipher lastDerivation _ _
    deviceReplaced st₂ ⟨hfirst, fun t ht => ⟨?_, fun _ _ => trivial⟩⟩ hst⟩
  rw [SyncsSeparate, table_dbStep ht]
  exact hsecond

end Server

end Aegs
