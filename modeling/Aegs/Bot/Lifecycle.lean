import Std.Data.String.ToInt
import Mathlib.Data.String.Basic
import Mathlib.Data.List.TakeWhile
import Aegs.Lib.BoundedMap
import Aegs.Bot.Billing

/-!
# The bot and its worker

The thread of the bot creates users and keys and credits days; the thread of
`SubscriptionWorker` lists the users whose time is over and takes their keys from the
server, one after the other. Both work on the same two databases, and each call is
several transactions with gaps between them.

Here every transaction is a step: what a call has read and not yet written is where its
thread stands (`Aegs.Bot.Doing`, `Aegs.Bot.Worker`). What is written in a transaction, and
what `sync_add_user_to_server` does, are the functions of `Aegs.Bot.Billing`.
-/

namespace Aegs

namespace Bot

open Transition BoundedMap

/-! ### The state -/

/-- A row of `manual_keys`. -/
structure ManualKey where
  /-- `token`. -/
  token : String
  /-- `days`. -/
  days : ℤ
  /-- `speed_mbps`. -/
  speedMbps : ℤ
  /-- `note`. -/
  note : String
  /-- `created_at`. -/
  createdAt : String
  /-- `expires_at`. -/
  expiresAt : String
  /-- `created_by`. -/
  createdBy : ℤ

/-- What the calls use besides: the hash of a token, and which characters a note keeps. -/
structure Tools (T : Type) extends Library T where
  /-- `compute_key_id`. -/
  computeKeyId : String → String
  /-- `c.isalnum()`. -/
  isAlnum : Char → Bool

/-- The order that an extension is for: `order_id` and `admin_id`. -/
structure Approval where
  /-- `order_id`. -/
  orderId : String
  /-- `admin_id`. -/
  adminId : ℤ

/-- Where the thread of the bot stands. -/
inductive Doing
  /-- Between two calls. -/
  | idle
  /-- `extend_subscription` before its transaction. -/
  | extending (user : User) (payment : Payment) (expiresStr : String) (approval : Option Approval)
  /-- `apply_promocode` before its transaction. -/
  | promoting (user : User) (userId : ℤ) (code : String) (promo : Promocode) (expiresStr : String)
  /-- Before `sync_add_user_to_server`, for a user or for a manual key. -/
  | syncing (owner : Option ℤ) (username keyId token : String) (approval : Option Approval)
  /-- `approve_order` before it writes the status. -/
  | concluding (approval : Approval)

/-- Where the worker stands. -/
inductive Worker
  /-- Between two passes. -/
  | idle
  /-- Before `deactivate_user` for the first of these. -/
  | listed (rest : List ℤ)
  /-- `deactivate_user` has read the user. -/
  | found (userId : ℤ) (keyId : String) (rest : List ℤ)
  /-- `deactivate_user` has cleared `is_active`. -/
  | cleared (userId : ℤ) (keyId : String) (rest : List ℤ)

/-- The databases, the two threads, and the latest reading of the clock. -/
structure State (T : Type) where
  /-- `BOT_DB_PATH`. -/
  bot : BotDb
  /-- Its table `manual_keys`, by `key_id`. -/
  manualKeys : AList fun _ : String => ManualKey
  /-- `AEGIS_DB_PATH`. -/
  server : ServerDb
  /-- The thread of the bot. -/
  doing : Doing
  /-- The worker. -/
  worker : Worker
  /-- The latest reading of the clock. -/
  clock : T

/-- Both threads are between two calls. -/
def State.Idle {T : Type} (st : State T) : Prop := st.doing = .idle ∧ st.worker = .idle

/-- What happens next. -/
inductive Action (T : Type)
  /-- `get_or_create_user`, with the token drawn for a new user. -/
  | getOrCreateUser (userId : ℤ) (username : Option String) (token : String)
  /-- The transaction of `create_manual_key`, with the token drawn for it. -/
  | createManualKey (now : T) (token : String) (days speedMbps : ℤ) (note : String) (adminId : ℤ)
  /-- `extend_subscription` reads the user. -/
  | extend (now : T) (payment : Payment)
  /-- `apply_promocode` reads the promo code and the user. -/
  | promocode (now : T) (userId : ℤ) (code : String)
  /-- `approve_order` reads the order, and its extension the user. -/
  | approve (now : T) (orderId : String) (adminId : ℤ)
  /-- The transaction that credits the days, or what it raises. -/
  | commit (raises : Option String)
  /-- `sync_add_user_to_server`. -/
  | sync (o : Outcomes)
  /-- The status of the order is written. -/
  | conclude (later : T) (raises : Option String)
  /-- `get_expired_active_users`. -/
  | list (now : T)
  /-- `deactivate_user` reads the next user. -/
  | visit
  /-- It clears `is_active`. -/
  | clear
  /-- `sync_remove_user_from_server`. -/
  | remove (o : Outcomes)
  /-- No user is left. -/
  | finish
  /-- `deactivate_user` raises before it has written anything: the pass is over. -/
  | abort

/-! ### The steps -/

/-- `sync_remove_user_from_server`. -/
def syncRemoveUserFromServer (o : Outcomes) (server : ServerDb) (keyId : String) :
    Except String Bool × ServerDb :=
  match o.initServerDb with
  | some e => (.error e, server)
  | none =>
    match o.connectServerDb with
    | some e => (.error e, server)
    | none =>
      match o.syncTransaction with
      | some _ => (.ok false, server)
      | none => (.ok true, purge server fun _ row => row.1 = keyId)

/-- `srv_name` of `create_manual_key`. -/
def srvName {T : Type} (lib : Tools T) (note keyId : String) : String :=
  let safeNote := (note.toList.filter fun c => lib.isAlnum c || c = '_' || c = '-').take 16
  if safeNote = [] then "manual_" ++ String.ofList (keyId.toList.take 8)
  else "manual_" ++ (String.ofList safeNote ++ "_" ++ String.ofList (keyId.toList.take 6))

/-- `SELECT * FROM users WHERE is_active = 1 AND sub_expires_at < ?`: texts are compared, and
no date is not smaller than any. -/
def BotDb.expiredActiveUsers (bot : BotDb) (now : String) : List ℤ :=
  bot.users.entries.filterMap fun e =>
    if e.2.isActive ∧ (∃ date ∈ e.2.subExpiresAt, date < now) then some e.1 else none

/-- `extend_subscription` up to its transaction; it ends at once where there is no user or no
new date. -/
def State.startExtension {T : Type} [LinearOrder T] (lib : Tools T) (st : State T) (now : T)
    (payment : Payment) (approval : Option Approval) : State T :=
  match st.bot.users.lookup payment.userId with
  | none => st
  | some user =>
    match newExpires lib.toLibrary now (user.currentExpires lib.toLibrary) payment.daysAdded with
    | .error _ => st
    | .ok expires => { st with doing := .extending user payment (lib.strftime expires) approval }

/-- Whether a code was used by a user is decided by the equality of such pairs, which is found
here once for the definition below. -/
local instance lawfulUse : LawfulBEq (String × ℤ) := inferInstance

/-- `apply_promocode` up to its transaction. -/
def State.startPromocode {T : Type} [LinearOrder T] (lib : Tools T) (st : State T) (now : T)
    (userId : ℤ) (code : String) : State T :=
  match st.bot.promocodes.lookup code with
  | none => st
  | some promo =>
    if promo.usedCount ≥ promo.maxUses then st
    else if (code, userId) ∈ st.bot.promocodeUses then st
    else
      match st.bot.users.lookup userId with
      | none => st
      | some user =>
        match newExpires lib.toLibrary now (user.currentExpires lib.toLibrary) promo.days with
        | .error _ => st
        | .ok expires =>
          { st with doing := .promoting user userId code promo (lib.strftime expires) }

/-- `approve_order` up to the transaction of its extension. -/
def State.startApproval {T : Type} [LinearOrder T] (lib : Tools T) (st : State T) (now : T)
    (orderId : String) (adminId : ℤ) : State T :=
  match st.bot.orders.lookup orderId with
  | none => st
  | some order =>
    if order.status ≠ "pending" then st
    else st.startExtension lib now (order.payment orderId) (some ⟨orderId, adminId⟩)

/-- The row of a new user. -/
def newUser {T : Type} (lib : Tools T) (username : Option String) (token : String) : User :=
  ⟨username, token, lib.computeKeyId token, none, false, false, false⟩

/-- `get_or_create_user`. -/
def BotDb.getOrCreateUser {T : Type} (lib : Tools T) (bot : BotDb) (userId : ℤ)
    (username : Option String) (token : String) : BotDb :=
  match bot.users.lookup userId with
  | some user => { bot with users := bot.users.insert userId { user with username := username } }
  | none => { bot with users := bot.users.insert userId (newUser lib username token) }

/-- The transaction of `create_manual_key`, and the server next; `key_id` is unique, and a
second one raises. -/
def State.createManualKey {T : Type} (lib : Tools T) (st : State T) (now : T) (token : String)
    (days speedMbps : ℤ) (note : String) (adminId : ℤ) : State T :=
  let keyId := lib.computeKeyId token
  match lib.addDays now days with
  | .error _ => st
  | .ok expires =>
    if keyId ∈ st.manualKeys then st
    else
      let key := ⟨token, days, speedMbps, note, lib.strftime now, lib.strftime expires, adminId⟩
      { st with
        manualKeys := st.manualKeys.insert keyId key
        doing := .syncing none (srvName lib note keyId) keyId token none }

/-- The transaction that credits the days. An exception ends the call. -/
def State.commit {T : Type} (st : State T) (raises : Option String) : Option (State T) :=
  match st.doing with
  | .extending user payment expiresStr approval =>
    match st.bot.credit raises payment expiresStr with
    | .error _ => some { st with doing := .idle }
    | .ok bot => some { st with
        bot := bot
        doing := .syncing (some payment.userId) (srvUsername payment.userId user) user.aegsKeyId
          user.aegsToken approval }
  | .promoting user userId code promo expiresStr =>
    match st.bot.usePromocode raises code promo userId expiresStr with
    | .error _ => some { st with doing := .idle }
    | .ok bot => some { st with
        bot := bot
        doing := .syncing (some userId) ("tg_" ++ toString userId) user.aegsKeyId
          user.aegsToken none }
  | _ => none

/-- `sync_add_user_to_server`: what it raises ends the call, what it returns does not. -/
def State.sync {T : Type} (st : State T) (o : Outcomes) : Option (State T) :=
  match st.doing with
  | .syncing _ username keyId token approval =>
    match syncAddUserToServer o st.server username keyId token with
    | (.error _, server) => some { st with server := server, doing := .idle }
    | (.ok _, server) => some { st with
        server := server
        doing := match approval with
          | some approval => .concluding approval
          | none => .idle }
  | _ => none

/-- The end of `approve_order`. -/
def State.conclude {T : Type} (lib : Tools T) (st : State T) (later : T) (raises : Option String) :
    Option (State T) :=
  match st.doing with
  | .concluding approval =>
    match raises with
    | some _ => some { st with doing := .idle }
    | none => some { st with
        bot := st.bot.setStatus approval.orderId "approved" (lib.strftime later) approval.adminId
        doing := .idle }
  | _ => none

/-- A step of the worker other than the listing. -/
def State.work {T : Type} (st : State T) : Action T → Option (State T)
  | .visit =>
    match st.worker with
    | .listed (userId :: rest) =>
      match st.bot.users.lookup userId with
      | none => some { st with worker := .listed rest }
      | some user => some { st with worker := .found userId user.aegsKeyId rest }
    | _ => none
  | .clear =>
    match st.worker with
    | .found userId keyId rest => some { st with
        bot := st.bot.updateUser userId fun user => { user with isActive := false }
        worker := .cleared userId keyId rest }
    | _ => none
  | .remove o =>
    match st.worker with
    | .cleared _ keyId rest =>
      match syncRemoveUserFromServer o st.server keyId with
      | (.error _, server) => some { st with server := server, worker := .idle }
      | (.ok _, server) => some { st with server := server, worker := .listed rest }
    | _ => none
  | .finish =>
    match st.worker with
    | .listed [] => some { st with worker := .idle }
    | _ => none
  | .abort =>
    match st.worker with
    | .listed _ => some { st with worker := .idle }
    | .found _ _ _ => some { st with worker := .idle }
    | _ => none
  | _ => none

/-- A call of the bot begins, from a state in which none is going on, and the clock does not
go back. -/
def State.begin {T : Type} [LinearOrder T] (st : State T) (now : T) (f : State T → State T) :
    Option (State T) :=
  match st.doing with
  | .idle => if st.clock ≤ now then some (f { st with clock := now }) else none
  | _ => none

/-- **A step of one of the two threads.** -/
def State.step {T : Type} [LinearOrder T] (lib : Tools T) (st : State T) :
    Action T → Option (State T)
  | .getOrCreateUser userId username token => st.begin st.clock fun st =>
      { st with bot := st.bot.getOrCreateUser lib userId username token }
  | .createManualKey now token days speedMbps note adminId => st.begin now fun st =>
      st.createManualKey lib now token days speedMbps note adminId
  | .extend now payment => st.begin now fun st => st.startExtension lib now payment none
  | .promocode now userId code => st.begin now fun st =>
      st.startPromocode lib now userId (lib.stripUpper code)
  | .approve now orderId adminId => st.begin now fun st =>
      st.startApproval lib now orderId adminId
  | .commit raises => st.commit raises
  | .sync o => st.sync o
  | .conclude later raises => st.conclude lib later raises
  | .list now =>
    match st.worker with
    | .idle =>
      if st.clock ≤ now then some { st with
        worker := .listed (st.bot.expiredActiveUsers (lib.strftime now))
        clock := now }
      else none
    | _ => none
  | a => st.work a

/-! ### What a step does -/

/-- All three steps of a call to `aegs_sync` go through. -/
def Outcomes.Succeeds (o : Outcomes) : Prop :=
  o.initServerDb = none ∧ o.connectServerDb = none ∧ o.syncTransaction = none

/-- A renewal: its user, and what the server is to get. -/
structure Renewal where
  /-- `user_id`. -/
  owner : ℤ
  /-- The name at the server. -/
  username : String
  /-- `aegs_key_id`. -/
  keyId : String
  /-- `aegs_token`. -/
  token : String

/-- The renewal that the bot is at. -/
def Doing.renewal : Doing → Option Renewal
  | .extending user payment _ _ =>
    some ⟨payment.userId, srvUsername payment.userId user, user.aegsKeyId, user.aegsToken⟩
  | .promoting user userId _ _ _ =>
    some ⟨userId, "tg_" ++ toString userId, user.aegsKeyId, user.aegsToken⟩
  | .syncing (some owner) username keyId token _ => some ⟨owner, username, keyId, token⟩
  | _ => none

/-- The renewal that is committed, and not yet with the server. -/
def Doing.owed : Doing → Option Renewal
  | .syncing (some owner) username keyId token _ => some ⟨owner, username, keyId, token⟩
  | _ => none

/-- The users whom the worker has listed and is not done with. -/
def Worker.holds : Worker → List ℤ
  | .idle => []
  | .listed rest => rest
  | .found userId _ rest => userId :: rest
  | .cleared userId _ rest => userId :: rest

/-- The names of a user at the server. -/
def Own (userId : ℤ) (name : String) : Prop :=
  name = "tg_" ++ toString userId ∨ ∃ s, name = "tg_" ++ toString userId ++ "_" ++ s

/-- The same rows, but for one user whose row is changed. -/
def Rewrites (bot bot' : BotDb) (userId : ℤ) (f : User → User) : Prop :=
  ∀ v, bot'.users.lookup v =
    if v = userId then (bot.users.lookup v).map f else bot.users.lookup v

/-- **What a step can do.** -/
inductive Effect {T : Type} [LinearOrder T] (lib : Tools T) (st : State T) :
    Action T → State T → Prop
  /-- The bot goes on or gives up, and neither users nor keys change. -/
  | quiet {a st'} (husers : st'.bot.users = st.bot.users) (hserver : st'.server = st.server)
      (hmanual : st'.manualKeys = st.manualKeys) (hworker : st'.worker = st.worker)
      (hclock : st.clock ≤ st'.clock) (hdoing : st'.doing.renewal = none)
      (hkey : ∀ name keyId token approval,
        st'.doing ≠ .syncing none name keyId token approval)
      (howed : st.doing.owed = none ∨ ∃ o, a = .sync o ∧ ¬o.Succeeds) : Effect lib st a st'
  /-- A call has read the user that it renews. -/
  | started {a now doing row} (r : Renewal) (hclock : st.clock ≤ now)
      (hidle : st.doing = .idle) (hrenewal : doing.renewal = some r) (howed : doing.owed = none)
      (hkey : ∀ name keyId token approval, doing ≠ .syncing none name keyId token approval)
      (hrow : st.bot.users.lookup r.owner = some row)
      (hkeyId : r.keyId = row.aegsKeyId) (htoken : r.token = row.aegsToken)
      (hown : Own r.owner r.username) :
      Effect lib st a { st with doing := doing, clock := now }
  /-- A new user. -/
  | created {userId username token} (hidle : st.doing = .idle)
      (hnone : st.bot.users.lookup userId = none) :
      Effect lib st (.getOrCreateUser userId username token) { st with
        bot := { st.bot with users := st.bot.users.insert userId (newUser lib username token) } }
  /-- A user whose name has changed. -/
  | renamed {userId username token bot} (hidle : st.doing = .idle)
      (hrewrites : Rewrites st.bot bot userId fun user => { user with username := username }) :
      Effect lib st (.getOrCreateUser userId username token) { st with bot := bot }
  /-- A manual key. -/
  | keyed {now token days speedMbps note adminId} (key : ManualKey) (hclock : st.clock ≤ now)
      (hidle : st.doing = .idle) :
      Effect lib st (.createManualKey now token days speedMbps note adminId) { st with
        clock := now
        manualKeys := st.manualKeys.insert (lib.computeKeyId token) key
        doing := .syncing none (srvName lib note (lib.computeKeyId token))
          (lib.computeKeyId token) token none }
  /-- The days are credited. -/
  | committed {bot doing} (r : Renewal) (f : User → User)
      (hrenewal : st.doing.renewal = some r) (hpaid : st.doing.owed = none)
      (howed : doing.owed = some r) (hrenewal' : doing.renewal = some r)
      (hkey : ∀ name keyId token approval, doing ≠ .syncing none name keyId token approval)
      (hrewrites : Rewrites st.bot bot r.owner f)
      (hkeyId : ∀ user, (f user).aegsKeyId = user.aegsKeyId)
      (htoken : ∀ user, (f user).aegsToken = user.aegsToken)
      (hactive : ∀ user, (f user).isActive = true) :
      Effect lib st (.commit none) { st with bot := bot, doing := doing }
  /-- The server has the key. -/
  | synced {o owner username keyId token approval doing}
      (hdoing : st.doing = .syncing owner username keyId token approval)
      (hrenewal : doing.renewal = none)
      (hkey : ∀ name keyId token approval, doing ≠ .syncing none name keyId token approval) :
      Effect lib st (.sync o) { st with
        server := st.server.insert username (keyId, token), doing := doing }
  /-- The worker has its list. -/
  | listed {now} (hclock : st.clock ≤ now) (hidle : st.worker = .idle) :
      Effect lib st (.list now) { st with
        worker := .listed (st.bot.expiredActiveUsers (lib.strftime now)), clock := now }
  /-- The worker has read a user. -/
  | found {userId rest user} (hworker : st.worker = .listed (userId :: rest))
      (huser : st.bot.users.lookup userId = some user) :
      Effect lib st .visit { st with worker := .found userId user.aegsKeyId rest }
  /-- There is no such user. -/
  | missing {userId rest} (hworker : st.worker = .listed (userId :: rest))
      (hnone : st.bot.users.lookup userId = none) :
      Effect lib st .visit { st with worker := .listed rest }
  /-- The user is no longer active. -/
  | cleared {userId keyId rest bot} (hworker : st.worker = .found userId keyId rest)
      (hrewrites : Rewrites st.bot bot userId fun user => { user with isActive := false }) :
      Effect lib st .clear { st with bot := bot, worker := .cleared userId keyId rest }
  /-- The key is no longer at the server. -/
  | removed {o userId keyId rest} (hworker : st.worker = .cleared userId keyId rest) :
      Effect lib st (.remove o) { st with
        server := purge st.server fun _ row => row.1 = keyId, worker := .listed rest }
  /-- It is, and the worker goes on or gives up. -/
  | kept {o userId keyId rest worker} (hworker : st.worker = .cleared userId keyId rest)
      (hfails : ¬o.Succeeds) (hnext : worker = .listed rest ∨ worker = .idle) :
      Effect lib st (.remove o) { st with worker := worker }
  /-- The pass ends before a user is touched, or with the last one. -/
  | stopped {a} (ha : a = .finish ∧ st.worker = .listed [] ∨ a = .abort)
      (hworker : ∀ userId keyId rest, st.worker ≠ .cleared userId keyId rest) :
      Effect lib st a { st with worker := .idle }

theorem rewrites_updateUser (bot : BotDb) (userId : ℤ) (f : User → User) :
    Rewrites bot (bot.updateUser userId f) userId f := by
  intro v
  rw [BotDb.updateUser]
  split
  · rename_i hnone
    split
    · rename_i hv
      rw [hv, hnone]
      rfl
    · rfl
  · rename_i user huser
    split
    · rename_i hv
      rw [hv, huser]
      exact AList.lookup_insert _
    · rename_i hv
      exact AList.lookup_insert_ne hv

/-- A rewriting after what leaves the users alone. -/
theorem Rewrites.congr {bot bot₁ bot₂ : BotDb} {userId : ℤ} {f : User → User}
    (h : Rewrites bot₁ bot₂ userId f) (husers : bot₁.users = bot.users) :
    Rewrites bot bot₂ userId f := by
  intro v
  rw [h v, husers]

/-- A committed extension. -/
theorem rewrites_credit {bot bot' : BotDb} {raises : Option String} {payment : Payment}
    {date : String} (h : bot.credit raises payment date = .ok bot') :
    Rewrites bot bot' payment.userId fun user => { user with
      subExpiresAt := some date
      isActive := true
      warned24h := false
      warned72h := false } := by
  rw [BotDb.credit.eq_def] at h
  split at h
  · exact nomatch h
  · split at h
    · exact nomatch h
    · obtain rfl := Except.ok.inj h
      exact (rewrites_updateUser _ _ _).congr rfl

/-- A committed promo code. -/
theorem rewrites_usePromocode {bot bot' : BotDb} {raises : Option String} {code : String}
    {promo : Promocode} {userId : ℤ} {date : String}
    (h : bot.usePromocode raises code promo userId date = .ok bot') :
    Rewrites bot bot' userId fun user => { user with
      subExpiresAt := some date
      isActive := true } := by
  rw [BotDb.usePromocode.eq_def] at h
  split at h
  · exact nomatch h
  · obtain rfl := Except.ok.inj h
    exact (rewrites_updateUser _ _ _).congr rfl

/-- `sync_add_user_to_server` writes the row where all goes through, and nothing where not. -/
theorem syncAddUserToServer_cases (o : Outcomes) (server : ServerDb) (name keyId token : String) :
    (o.Succeeds ∧ syncAddUserToServer o server name keyId token =
      (.ok true, server.insert name (keyId, token))) ∨
    (¬o.Succeeds ∧ (syncAddUserToServer o server name keyId token).2 = server) := by
  rw [syncAddUserToServer, Outcomes.Succeeds]
  cases o.initServerDb with
  | some e => exact .inr ⟨fun h => (by cases h.1), rfl⟩
  | none =>
    cases o.connectServerDb with
    | some e => exact .inr ⟨fun h => (by cases h.2.1), rfl⟩
    | none =>
      cases o.syncTransaction with
      | some e => exact .inr ⟨fun h => (by cases h.2.2), rfl⟩
      | none => exact .inl ⟨⟨rfl, rfl, rfl⟩, rfl⟩

/-- `sync_remove_user_from_server` erases the rows where all goes through, and none where
not. -/
theorem syncRemoveUserFromServer_cases (o : Outcomes) (server : ServerDb) (keyId : String) :
    (o.Succeeds ∧ syncRemoveUserFromServer o server keyId =
      (.ok true, purge server fun _ row => row.1 = keyId)) ∨
    (¬o.Succeeds ∧ (syncRemoveUserFromServer o server keyId).2 = server) := by
  rw [syncRemoveUserFromServer, Outcomes.Succeeds]
  cases o.initServerDb with
  | some e => exact .inr ⟨fun h => (nomatch h.1), rfl⟩
  | none =>
    cases o.connectServerDb with
    | some e => exact .inr ⟨fun h => (nomatch h.2.1), rfl⟩
    | none =>
      cases o.syncTransaction with
      | some e => exact .inr ⟨fun h => (nomatch h.2.2), rfl⟩
      | none => exact .inl ⟨⟨rfl, rfl, rfl⟩, rfl⟩

theorem own_srvUsername (userId : ℤ) (user : User) : Own userId (srvUsername userId user) :=
  .inr ⟨_, rfl⟩

section

variable {T : Type} [LinearOrder T] {lib : Tools T} {st st' : State T} {a : Action T}

/-- A call begins from a state without one. -/
theorem begin_eq_some {now : T} {f : State T → State T} (h : st.begin now f = some st') :
    st.doing = .idle ∧ st.clock ≤ now ∧ st' = f { st with clock := now } := by
  rw [State.begin] at h
  split at h
  · rename_i hidle
    split at h
    · rename_i hle
      exact ⟨hidle, hle, (Option.some.inj h).symm⟩
    · exact nomatch h
  · exact nomatch h

/-- A call that gives up before it has written anything. -/
theorem Effect.refused {now : T} (hidle : st.doing = .idle) (hle : st.clock ≤ now) :
    Effect lib st a { st with clock := now } :=
  .quiet rfl rfl rfl rfl hle (by rw [hidle]; rfl) (by rw [hidle]; exact fun _ _ _ _ h => nomatch h)
    (.inl (by rw [hidle]; rfl))

/-- An extension reads its user, or gives up. -/
theorem Effect.startExtension {now : T} (payment : Payment) (approval : Option Approval)
    (hidle : st.doing = .idle) (hle : st.clock ≤ now) :
    Effect lib st a
      (State.startExtension lib { st with clock := now } now payment approval) := by
  rw [State.startExtension]
  split
  · exact .refused hidle hle
  · rename_i user huser
    split
    · exact .refused hidle hle
    · exact .started ⟨payment.userId, srvUsername payment.userId user, user.aegsKeyId,
        user.aegsToken⟩ hle hidle rfl rfl (fun _ _ _ _ h => nomatch h) huser rfl rfl
        (own_srvUsername _ _)

/-- A promo code reads its user, or gives up. -/
theorem Effect.startPromocode {now : T} (userId : ℤ) (code : String)
    (hidle : st.doing = .idle) (hle : st.clock ≤ now) :
    Effect lib st a
      (State.startPromocode lib { st with clock := now } now userId code) := by
  rw [State.startPromocode]
  split
  · exact .refused hidle hle
  · split
    · exact .refused hidle hle
    · split
      · exact .refused hidle hle
      · split
        · exact .refused hidle hle
        · rename_i user huser
          split
          · exact .refused hidle hle
          · exact .started ⟨userId, "tg_" ++ toString userId, user.aegsKeyId, user.aegsToken⟩ hle
              hidle rfl rfl (fun _ _ _ _ h => nomatch h) huser rfl rfl (.inl rfl)

/-- An approval reads its order and then the user, or gives up. -/
theorem Effect.startApproval {now : T} (orderId : String) (adminId : ℤ)
    (hidle : st.doing = .idle) (hle : st.clock ≤ now) :
    Effect lib st a
      (State.startApproval lib { st with clock := now } now orderId adminId) := by
  rw [State.startApproval]
  split
  · exact .refused hidle hle
  · split
    · exact .refused hidle hle
    · exact .startExtension _ _ hidle hle

/-- The transaction that credits the days. -/
theorem Effect.of_commit {raises : Option String} (h : st.commit raises = some st') :
    Effect lib st (.commit raises) st' := by
  rw [State.commit] at h
  split at h
  · rename_i user payment date approval hdoing
    split at h
    · obtain rfl := Option.some.inj h
      exact .quiet rfl rfl rfl rfl le_rfl rfl (fun _ _ _ _ h => nomatch h)
        (.inl (by rw [hdoing]; rfl))
    · rename_i bot hcredit
      obtain rfl := Option.some.inj h
      obtain rfl : raises = none := by
        cases raises with
        | none => rfl
        | some e => exact nomatch hcredit
      exact .committed ⟨payment.userId, srvUsername payment.userId user, user.aegsKeyId,
        user.aegsToken⟩ _ (by rw [hdoing]; rfl) (by rw [hdoing]; rfl) rfl rfl
        (fun _ _ _ _ h => nomatch h) (rewrites_credit hcredit) (fun _ => rfl) (fun _ => rfl)
        fun _ => rfl
  · rename_i user userId code promo date hdoing
    split at h
    · obtain rfl := Option.some.inj h
      exact .quiet rfl rfl rfl rfl le_rfl rfl (fun _ _ _ _ h => nomatch h)
        (.inl (by rw [hdoing]; rfl))
    · rename_i bot huse
      obtain rfl := Option.some.inj h
      obtain rfl : raises = none := by
        cases raises with
        | none => rfl
        | some e => exact nomatch huse
      exact .committed ⟨userId, "tg_" ++ toString userId, user.aegsKeyId, user.aegsToken⟩ _
        (by rw [hdoing]; rfl) (by rw [hdoing]; rfl) rfl rfl (fun _ _ _ _ h => nomatch h)
        (rewrites_usePromocode huse) (fun _ => rfl) (fun _ => rfl) fun _ => rfl
  · exact nomatch h

/-- The call to the server. -/
theorem Effect.of_sync {o : Outcomes} (h : st.sync o = some st') : Effect lib st (.sync o) st' := by
  rw [State.sync] at h
  split at h
  · rename_i owner name keyId token approval hdoing
    rcases syncAddUserToServer_cases o st.server name keyId token with ⟨_, heq⟩ | ⟨hfails, heq⟩
    · rw [heq] at h
      obtain rfl := Option.some.inj h
      cases approval with
      | none => exact .synced hdoing rfl fun _ _ _ _ h => nomatch h
      | some approval => exact .synced hdoing rfl fun _ _ _ _ h => nomatch h
    · generalize hcall : syncAddUserToServer o st.server name keyId token = call at h heq
      have hfail : st.doing.owed = none ∨
          ∃ o', (Action.sync o : Action T) = .sync o' ∧ ¬o'.Succeeds := .inr ⟨o, rfl, hfails⟩
      obtain ⟨reply, server⟩ := call
      change server = st.server at heq
      cases reply with
      | error e =>
        obtain rfl := Option.some.inj h
        exact .quiet rfl heq rfl rfl le_rfl rfl (fun _ _ _ _ h => nomatch h) hfail
      | ok b =>
        obtain rfl := Option.some.inj h
        cases approval with
        | none => exact .quiet rfl heq rfl rfl le_rfl rfl (fun _ _ _ _ h => nomatch h) hfail
        | some _ => exact .quiet rfl heq rfl rfl le_rfl rfl (fun _ _ _ _ h => nomatch h) hfail
  · exact nomatch h

/-- The end of an approval. -/
theorem Effect.of_conclude {later : T} {raises : Option String}
    (h : st.conclude lib later raises = some st') : Effect lib st (.conclude later raises) st' := by
  rw [State.conclude] at h
  split at h
  · rename_i approval hdoing
    have howed : st.doing.owed = none := by
      rw [hdoing]
      rfl
    split at h
    · obtain rfl := Option.some.inj h
      exact .quiet rfl rfl rfl rfl le_rfl rfl (fun _ _ _ _ h => nomatch h) (.inl howed)
    · obtain rfl := Option.some.inj h
      exact .quiet (users_setStatus _ _ _ _ _) rfl rfl rfl le_rfl rfl
        (fun _ _ _ _ h => nomatch h) (.inl howed)
  · exact nomatch h

/-- A step of the worker. -/
theorem Effect.of_work (h : st.work a = some st') : Effect lib st a st' := by
  cases a with
  | visit =>
    rw [State.work] at h
    split at h
    · rename_i userId rest hworker
      split at h
      · rename_i hnone
        obtain rfl := Option.some.inj h
        exact .missing hworker hnone
      · rename_i user huser
        obtain rfl := Option.some.inj h
        exact .found hworker huser
    · exact nomatch h
  | clear =>
    rw [State.work] at h
    split at h
    · rename_i userId keyId rest hworker
      obtain rfl := Option.some.inj h
      exact .cleared hworker (rewrites_updateUser _ _ _)
    · exact nomatch h
  | remove o =>
    rw [State.work] at h
    split at h
    · rename_i userId keyId rest hworker
      rcases syncRemoveUserFromServer_cases o st.server keyId with ⟨_, heq⟩ | ⟨hfails, heq⟩
      · rw [heq] at h
        obtain rfl := Option.some.inj h
        exact .removed hworker
      · generalize hcall : syncRemoveUserFromServer o st.server keyId = call at h heq
        obtain ⟨reply, server⟩ := call
        change server = st.server at heq
        subst heq
        cases reply with
        | error e =>
          obtain rfl := Option.some.inj h
          exact .kept hworker hfails (.inr rfl)
        | ok b =>
          obtain rfl := Option.some.inj h
          exact .kept hworker hfails (.inl rfl)
    · exact nomatch h
  | finish =>
    rw [State.work] at h
    split at h
    · rename_i hworker
      obtain rfl := Option.some.inj h
      exact .stopped (.inl ⟨rfl, hworker⟩) (by rw [hworker]; exact fun _ _ _ h => nomatch h)
    · exact nomatch h
  | abort =>
    rw [State.work] at h
    split at h
    · rename_i hworker
      obtain rfl := Option.some.inj h
      exact .stopped (.inr rfl) (by rw [hworker]; exact fun _ _ _ h => nomatch h)
    · rename_i hworker
      obtain rfl := Option.some.inj h
      exact .stopped (.inr rfl) (by rw [hworker]; exact fun _ _ _ h => nomatch h)
    · exact nomatch h
  | _ => exact nomatch h

/-- **Every step is one of these.** -/
theorem effect_of_step (h : st.step lib a = some st') : Effect lib st a st' := by
  cases a with
  | getOrCreateUser userId username token =>
    rw [State.step] at h
    obtain ⟨hidle, hle, rfl⟩ := begin_eq_some h
    dsimp only
    cases hrow : st.bot.users.lookup userId with
    | none =>
      rw [BotDb.getOrCreateUser, hrow]
      exact .created hidle hrow
    | some user =>
      have hbot : st.bot.getOrCreateUser lib userId username token =
          st.bot.updateUser userId fun user => { user with username := username } := by
        rw [BotDb.getOrCreateUser, BotDb.updateUser, hrow]
      rw [hbot]
      exact .renamed hidle (rewrites_updateUser _ _ _)
  | createManualKey now token days speedMbps note adminId =>
    rw [State.step] at h
    obtain ⟨hidle, hle, rfl⟩ := begin_eq_some h
    rw [State.createManualKey]
    dsimp only
    split
    · exact .refused hidle hle
    · split
      · exact .refused hidle hle
      · exact .keyed _ hle hidle
  | extend now payment =>
    rw [State.step] at h
    obtain ⟨hidle, hle, rfl⟩ := begin_eq_some h
    exact .startExtension payment none hidle hle
  | promocode now userId code =>
    rw [State.step] at h
    obtain ⟨hidle, hle, rfl⟩ := begin_eq_some h
    exact .startPromocode userId _ hidle hle
  | approve now orderId adminId =>
    rw [State.step] at h
    obtain ⟨hidle, hle, rfl⟩ := begin_eq_some h
    exact .startApproval orderId adminId hidle hle
  | commit raises => exact .of_commit h
  | sync o => exact .of_sync h
  | conclude later raises => exact .of_conclude h
  | list now =>
    rw [State.step] at h
    split at h
    · rename_i hidle
      split at h
      · rename_i hle
        obtain rfl := Option.some.inj h
        exact .listed hle hidle
      · cases h
    · cases h
  | visit => exact .of_work h
  | clear => exact .of_work h
  | remove o => exact .of_work h
  | finish => exact .of_work h
  | abort => exact .of_work h

end

/-- Whom the worker lists. -/
theorem mem_expiredActiveUsers {bot : BotDb} {now : String} {u : ℤ} :
    u ∈ bot.expiredActiveUsers now ↔ ∃ row, bot.users.lookup u = some row ∧
      row.isActive = true ∧ ∃ date ∈ row.subExpiresAt, date < now := by
  rw [BotDb.expiredActiveUsers, List.mem_filterMap]
  constructor
  · rintro ⟨⟨v, row⟩, hmem, hsome⟩
    split at hsome
    · rename_i hrow
      obtain rfl := Option.some.inj hsome
      exact ⟨row, AList.mem_lookup_iff.mpr hmem, hrow⟩
    · exact nomatch hsome
  · rintro ⟨row, hrow, hlisted⟩
    exact ⟨⟨u, row⟩, AList.mem_lookup_iff.mp hrow, if_pos hlisted⟩

/-! ### Names at the server -/

theorem underscore_notMem_toString (n : ℤ) : '_' ∉ (toString n).toList := by
  have hnat : ∀ m : ℕ, '_' ∉ (Nat.repr m).toList := by
    intro m hmem
    rw [Nat.repr, String.toList_ofList] at hmem
    exact absurd (Nat.isDigit_of_mem_toDigits (by decide) (by decide) hmem) (by decide)
  cases n with
  | ofNat m => exact hnat m
  | negSucc m =>
    have hsplit : (toString (Int.negSucc m)).toList = '-' :: (Nat.repr (m + 1)).toList := by
      change (Int.repr (Int.negSucc m)).toList = _
      rw [Int.repr]
      simp [String.toList_append]
    rw [hsplit, List.mem_cons]
    rintro (h | h)
    · exact absurd h (by decide)
    · exact hnat _ h

/-- What stands between the first two underscores. -/
theorem Own.toList {userId : ℤ} {name : String} (h : Own userId name) :
    (name.toList.drop 3).takeWhile (· ≠ '_') = (toString userId).toList := by
  have hall : ∀ c ∈ (toString userId).toList, decide (c ≠ '_') = true := by
    intro c hc
    rw [decide_eq_true_eq]
    rintro rfl
    exact underscore_notMem_toString userId hc
  rcases h with rfl | ⟨s, rfl⟩
  · rw [String.toList_append]
    change (toString userId).toList.takeWhile _ = _
    exact List.takeWhile_eq_self_iff.mpr hall
  · rw [String.toList_append, String.toList_append, String.toList_append]
    change ((toString userId).toList ++ ['_'] ++ s.toList).takeWhile _ = _
    rw [List.append_assoc, List.takeWhile_append_of_pos hall]
    simp

theorem Own.inj {u v : ℤ} {name : String} (hu : Own u name) (hv : Own v name) : u = v :=
  Int.repr_injective (String.toList_inj.mp (hu.toList.symm.trans hv.toList))

/-- A manual key has a name that no user has. -/
theorem Own.ne_manual {u : ℤ} {name s : String} (h : Own u name) : name ≠ "manual_" ++ s := by
  rintro rfl
  have hfirst : ("manual_" ++ s).toList.head? = some 'm' := by
    rw [String.toList_append]
    rfl
  rcases h with h | ⟨s', h⟩
  · rw [h, String.toList_append] at hfirst
    exact absurd hfirst (by simp)
  · rw [h, String.toList_append, String.toList_append, String.toList_append] at hfirst
    exact absurd hfirst (by simp)

theorem srvName_manual {T : Type} (lib : Tools T) (note keyId : String) :
    ∃ s, srvName lib note keyId = "manual_" ++ s := by
  rw [srvName]
  split
  · exact ⟨_, rfl⟩
  · exact ⟨_, rfl⟩

/-! ### What the threads remember -/

/-- The user whom `deactivate_user` has read, and his key. -/
def Worker.victim : Worker → Option (ℤ × String)
  | .found userId keyId _ => some (userId, keyId)
  | .cleared userId keyId _ => some (userId, keyId)
  | _ => none

/-- **What a thread has read is still so**: users stay and keep their keys. -/
structure State.Consistent {T : Type} (st : State T) : Prop where
  renewal : ∀ r, st.doing.renewal = some r → Own r.owner r.username ∧
    ∃ row, st.bot.users.lookup r.owner = some row ∧ row.aegsKeyId = r.keyId ∧
      row.aegsToken = r.token
  manual : ∀ name keyId token approval, st.doing = .syncing none name keyId token approval →
    (∃ s, name = "manual_" ++ s) ∧ keyId ∈ st.manualKeys
  victim : ∀ userId keyId, st.worker.victim = some (userId, keyId) →
    ∃ row, st.bot.users.lookup userId = some row ∧ row.aegsKeyId = keyId

/-- Users stay and keep their keys. -/
def KeepsKeys (bot bot' : BotDb) : Prop :=
  ∀ u row, bot.users.lookup u = some row → ∃ row', bot'.users.lookup u = some row' ∧
    row'.aegsKeyId = row.aegsKeyId ∧ row'.aegsToken = row.aegsToken

theorem keepsKeys_of_eq {bot bot' : BotDb} (h : bot'.users = bot.users) : KeepsKeys bot bot' := by
  intro u row hrow
  exact ⟨row, by rw [h, hrow], rfl, rfl⟩

theorem Rewrites.keepsKeys {bot bot' : BotDb} {userId : ℤ} {f : User → User}
    (h : Rewrites bot bot' userId f) (hkey : ∀ user, (f user).aegsKeyId = user.aegsKeyId)
    (htoken : ∀ user, (f user).aegsToken = user.aegsToken) : KeepsKeys bot bot' := by
  intro u row hrow
  have hu := h u
  rw [hrow] at hu
  split at hu
  · exact ⟨f row, hu, hkey row, htoken row⟩
  · exact ⟨row, hu, rfl, rfl⟩

/-- What a rewriting does to one row. -/
theorem Rewrites.row {bot bot' : BotDb} {userId u : ℤ} {f : User → User} {row : User}
    (h : Rewrites bot bot' userId f) (hrow : bot'.users.lookup u = some row) :
    ∃ row₀, bot.users.lookup u = some row₀ ∧
      (u = userId ∧ row = f row₀ ∨ u ≠ userId ∧ row = row₀) := by
  have hu := h u
  rw [hrow] at hu
  split at hu
  · rename_i heq
    obtain ⟨row₀, h₀, hf⟩ := Option.map_eq_some_iff.mp hu.symm
    exact ⟨row₀, h₀, .inl ⟨heq, hf.symm⟩⟩
  · rename_i hne
    exact ⟨row, hu.symm, .inr ⟨hne, rfl⟩⟩

/-- A row that is rewritten keeps its key. -/
theorem Rewrites.row_key {bot bot' : BotDb} {userId u : ℤ} {f : User → User} {row : User}
    (h : Rewrites bot bot' userId f) (hkeyId : ∀ user, (f user).aegsKeyId = user.aegsKeyId)
    (hrow : bot'.users.lookup u = some row) :
    ∃ row₀, bot.users.lookup u = some row₀ ∧ row.aegsKeyId = row₀.aegsKeyId := by
  obtain ⟨row₀, h₀, ⟨-, rfl⟩ | ⟨-, rfl⟩⟩ := h.row hrow
  · exact ⟨row₀, h₀, hkeyId row₀⟩
  · exact ⟨_, h₀, rfl⟩

/-- Keys stay different where rows keep theirs. -/
theorem Rewrites.keys {bot bot' : BotDb} {userId : ℤ} {f : User → User}
    (h : Rewrites bot bot' userId f) (hkeyId : ∀ user, (f user).aegsKeyId = user.aegsKeyId)
    (hkeys : ∀ u v row row', bot.users.lookup u = some row → bot.users.lookup v = some row' →
      row.aegsKeyId = row'.aegsKeyId → u = v) (u v : ℤ) (row row' : User)
    (hrow : bot'.users.lookup u = some row) (hrow' : bot'.users.lookup v = some row')
    (heq : row.aegsKeyId = row'.aegsKeyId) : u = v := by
  obtain ⟨r₀, h₀, hr₀⟩ := h.row_key hkeyId hrow
  obtain ⟨r₁, h₁, hr₁⟩ := h.row_key hkeyId hrow'
  exact hkeys u v r₀ r₁ h₀ h₁ (by rw [← hr₀, heq, hr₁])

/-- What is owed is a renewal. -/
theorem renewal_of_owed {doing : Doing} {r : Renewal} (h : doing.owed = some r) :
    doing.renewal = some r := by
  rw [Doing.owed.eq_def] at h
  split at h
  · exact h
  · exact nomatch h

section

variable {T : Type} [LinearOrder T] {lib : Tools T} {st st' : State T} {a : Action T}

theorem Effect.keepsKeys (h : Effect lib st a st') : KeepsKeys st.bot st'.bot := by
  cases h with
  | quiet husers => exact keepsKeys_of_eq husers
  | @created userId _ _ hidle hnone =>
    intro u row hrow
    have hne : u ≠ userId := by
      rintro rfl
      exact nomatch hrow.symm.trans hnone
    exact ⟨row, (AList.lookup_insert_ne hne).trans hrow, rfl, rfl⟩
  | renamed hidle hrewrites => exact hrewrites.keepsKeys (fun _ => rfl) fun _ => rfl
  | committed r f hrenewal hpaid howed hrenewal' hkey hrewrites hkeyId htoken =>
    exact hrewrites.keepsKeys hkeyId htoken
  | cleared hworker hrewrites => exact hrewrites.keepsKeys (fun _ => rfl) fun _ => rfl
  | _ => exact keepsKeys_of_eq rfl

/-- **Every step keeps what the threads remember.** -/
theorem State.Consistent.effect (hst : st.Consistent) (h : Effect lib st a st') :
    st'.Consistent := by
  have hkeep := h.keepsKeys
  have hrenewal : ∀ r, st.doing.renewal = some r → Own r.owner r.username ∧
      ∃ row, st'.bot.users.lookup r.owner = some row ∧ row.aegsKeyId = r.keyId ∧
        row.aegsToken = r.token := by
    intro r hr
    obtain ⟨hown, row, hrow, hkeyId, htoken⟩ := hst.renewal r hr
    obtain ⟨row', hrow', hkeyId', htoken'⟩ := hkeep _ _ hrow
    exact ⟨hown, row', hrow', hkeyId'.trans hkeyId, htoken'.trans htoken⟩
  have hvictim : ∀ userId keyId, st.worker.victim = some (userId, keyId) →
      ∃ row, st'.bot.users.lookup userId = some row ∧ row.aegsKeyId = keyId := by
    intro userId keyId hv
    obtain ⟨row, hrow, hkeyId⟩ := hst.victim userId keyId hv
    obtain ⟨row', hrow', hkeyId', -⟩ := hkeep _ _ hrow
    exact ⟨row', hrow', hkeyId'.trans hkeyId⟩
  cases h with
  | quiet husers hserver hmanual hworker hclock hdoing hkey =>
    refine ⟨fun r hr => ?_, fun name keyId token approval h => absurd h (hkey _ _ _ _), ?_⟩
    · exact nomatch hr.symm.trans hdoing
    · rw [hworker]
      exact hvictim
  | started r hclock hidle hr howed hkey hrow hkeyId htoken hown =>
    refine ⟨fun r' hr' => ?_, fun name keyId token approval h => absurd h (hkey _ _ _ _), hvictim⟩
    obtain rfl := Option.some.inj (hr.symm.trans hr')
    exact ⟨hown, _, hrow, hkeyId.symm, htoken.symm⟩
  | created => exact ⟨hrenewal, hst.manual, hvictim⟩
  | renamed => exact ⟨hrenewal, hst.manual, hvictim⟩
  | keyed key hclock hidle =>
    refine ⟨fun r hr => (nomatch hr), ?_, hvictim⟩
    intro name keyId token approval h
    obtain ⟨-, rfl, rfl, rfl, -⟩ := Doing.syncing.inj h
    exact ⟨srvName_manual _ _ _, (AList.mem_insert _).mpr (.inl rfl)⟩
  | committed r f hr hpaid howed hr' hkey hrewrites hkeyId htoken =>
    refine ⟨fun r' hr'' => ?_, fun name keyId token approval h => absurd h (hkey _ _ _ _), hvictim⟩
    obtain rfl := Option.some.inj (hr'.symm.trans hr'')
    exact hrenewal r hr
  | synced hdoing hr hkey =>
    refine ⟨fun r' hr' => ?_, fun name keyId token approval h => absurd h (hkey _ _ _ _), hvictim⟩
    exact nomatch hr'.symm.trans hr
  | listed => exact ⟨hrenewal, hst.manual, fun _ _ h => nomatch h⟩
  | found hworker huser =>
    refine ⟨hrenewal, hst.manual, fun userId keyId h => ?_⟩
    obtain ⟨rfl, rfl⟩ := Prod.mk.inj (Option.some.inj h)
    exact ⟨_, huser, rfl⟩
  | missing => exact ⟨hrenewal, hst.manual, fun _ _ h => nomatch h⟩
  | cleared hworker =>
    refine ⟨hrenewal, hst.manual, fun userId keyId h => hvictim userId keyId ?_⟩
    rw [hworker]
    exact h
  | removed => exact ⟨hrenewal, hst.manual, fun _ _ h => nomatch h⟩
  | kept hworker hfails hnext =>
    refine ⟨hrenewal, hst.manual, fun _ _ h => ?_⟩
    rcases hnext with rfl | rfl
    · exact nomatch h
    · exact nomatch h
  | stopped => exact ⟨hrenewal, hst.manual, fun _ _ h => nomatch h⟩

end

end Bot

end Aegs
