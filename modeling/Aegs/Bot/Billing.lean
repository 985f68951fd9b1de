import Mathlib.Data.List.AList
import Mathlib.Algebra.Order.Ring.Rat
import Aegs.Lib.Transition

/-!
# Crediting paid time

The bot keeps users, payments, promo codes and orders in one database and copies the
keys of those who paid into the database of the server. `extend_subscription` and
`apply_promocode` credit days in a transaction of the first database and then touch the
second; `approve_order` writes the status of the order after that, in a transaction of
its own. Each of these steps may raise.

The calls are functions of the two databases and of how their steps turn out
(`Aegs.Bot.Outcomes`). Whether an attempt credits days is read off the row of the user and
the payments, before it and behind it (`Aegs.Bot.DaysCredited`), and a ledger counts how
often it has happened for each order. `Aegs.Bot.creditsOnce_iff` says exactly when a call
that reports failure has changed nothing, and in which sequences of approvals and
rejections an order is approved exactly when its days were credited once.
-/

namespace Aegs

namespace Bot

open Transition

/-! ### The databases -/

/-- A row of `users`. -/
structure User where
  /-- `username`. -/
  username : Option String
  /-- `aegs_token`. -/
  aegsToken : String
  /-- `aegs_key_id`. -/
  aegsKeyId : String
  /-- `sub_expires_at`. -/
  subExpiresAt : Option String
  /-- `is_active`. -/
  isActive : Bool
  /-- `warned_24h`. -/
  warned24h : Bool
  /-- `warned_72h`. -/
  warned72h : Bool
  deriving DecidableEq

/-- A row of `payments`. -/
structure Payment where
  /-- `user_id`. -/
  userId : ℤ
  /-- `plan_id`. -/
  planId : String
  /-- `days_added`. -/
  daysAdded : ℤ
  /-- `amount`. -/
  amount : ℚ
  /-- `currency`. -/
  currency : String
  /-- `provider`. -/
  provider : String
  /-- `payment_id`, which is unique. -/
  paymentId : String
  deriving DecidableEq

/-- A row of `promocodes`. -/
structure Promocode where
  /-- `days`. -/
  days : ℤ
  /-- `max_uses`. -/
  maxUses : ℤ
  /-- `used_count`. -/
  usedCount : ℤ
  deriving DecidableEq

/-- A row of `orders`. -/
structure Order where
  /-- `user_id`. -/
  userId : ℤ
  /-- `username`. -/
  username : Option String
  /-- `first_name`. -/
  firstName : Option String
  /-- `plan_id`. -/
  planId : String
  /-- `amount`. -/
  amount : ℚ
  /-- `currency`. -/
  currency : String
  /-- `status`. -/
  status : String
  /-- `approved_at`. -/
  approvedAt : Option String
  /-- `approved_by`. -/
  approvedBy : Option ℤ
  deriving DecidableEq

/-- The database of the bot. -/
structure BotDb where
  /-- `users`, by `user_id`. -/
  users : AList fun _ : ℤ => User
  /-- `payments`. -/
  payments : List Payment
  /-- `promocodes`, by `code`. -/
  promocodes : AList fun _ : String => Promocode
  /-- `promocode_uses`. -/
  promocodeUses : List (String × ℤ)
  /-- `orders`, by `order_id`. -/
  orders : AList fun _ : String => Order

/-- The database of the server: `aegis_key_id` and `aegis_token` by `username`. -/
abbrev ServerDb := AList fun _ : String => String × String

/-- The two databases. -/
structure Stores where
  /-- `BOT_DB_PATH`. -/
  bot : BotDb
  /-- `AEGIS_DB_PATH`. -/
  server : ServerDb

/-- How the steps of a call turn out that leave the program: the exception a step
raises, or `none` where it goes through. -/
structure Outcomes where
  /-- `get_order`. -/
  getOrder : Option String
  /-- `get_user`. -/
  getUser : Option String
  /-- The `get_conn` for the days. -/
  getConn : Option String
  /-- The query for the promo code. -/
  readPromo : Option String
  /-- The query for its uses. -/
  readUses : Option String
  /-- The transaction that credits the days, its commit included. -/
  transaction : Option String
  /-- `init_aegis_server_db`. -/
  initServerDb : Option String
  /-- The `sqlite3.connect` after it. -/
  connectServerDb : Option String
  /-- The transaction on the database of the server. -/
  syncTransaction : Option String
  /-- The `get_conn` for the status of the order. -/
  orderConn : Option String
  /-- The transaction that writes it. -/
  orderUpdate : Option String

/-- Nothing raises. -/
def Outcomes.clear : Outcomes :=
  ⟨none, none, none, none, none, none, none, none, none, none, none⟩

/-- What a call hands back: the exception it raises, or its flag and the rest of the
tuple. -/
abbrev Reply (α : Type) := Except String (Bool × α)

/-- Whether the caller is told that the call failed. -/
def reportsFailure {α : Type} : Reply α → Bool
  | .error _ => true
  | .ok (ok, _) => !ok

/-- What `datetime` and the methods of `str` do here, over the type of points in time. -/
structure Library (T : Type) where
  /-- `strptime` with `%Y-%m-%d %H:%M:%S`, which may raise. -/
  strptime : String → Option T
  /-- `strftime` with the same format. -/
  strftime : T → String
  /-- `t + timedelta(days=days)`, which may overflow. -/
  addDays : T → ℤ → Except String T
  /-- `code.strip().upper()`. -/
  stripUpper : String → String

/-! ### The calls -/

/-- `sync_add_user_to_server`: only the last of its three steps is inside its `try`. -/
def syncAddUserToServer (o : Outcomes) (server : ServerDb) (username keyId token : String) :
    Except String Bool × ServerDb :=
  match o.initServerDb with
  | some e => (.error e, server)
  | none =>
    match o.connectServerDb with
    | some e => (.error e, server)
    | none =>
      match o.syncTransaction with
      | some _ => (.ok false, server)
      | none => (.ok true, server.insert username (keyId, token))

section

variable {T : Type} [LT T] [DecidableLT T] (lib : Library T)

/-- `current_expires` as both functions read it: an empty or unreadable date counts as
none. -/
def User.currentExpires (user : User) : Option T :=
  match user.subExpiresAt with
  | none => none
  | some date => if date = "" then none else lib.strptime date

/-- `new_expires`. -/
def newExpires (now : T) (currentExpires : Option T) (days : ℤ) : Except String T :=
  match currentExpires with
  | some t => if now < t then lib.addDays t days else lib.addDays now days
  | none => lib.addDays now days

/-- `UPDATE users … WHERE user_id = ?`. -/
def BotDb.updateUser (bot : BotDb) (userId : ℤ) (f : User → User) : BotDb :=
  match bot.users.lookup userId with
  | none => bot
  | some user => { bot with users := bot.users.insert userId (f user) }

/-- What the transaction of `extend_subscription` writes: the payment, and the new date of
its user. -/
def BotDb.credited (bot : BotDb) (payment : Payment) (newExpiresStr : String) : BotDb :=
  { bot with payments := bot.payments ++ [payment] }.updateUser payment.userId
    fun user => { user with
      subExpiresAt := some newExpiresStr
      isActive := true
      warned24h := false
      warned72h := false }

/-- The transaction of `extend_subscription`. An exception rolls it back. -/
def BotDb.credit (bot : BotDb) (raises : Option String) (payment : Payment)
    (newExpiresStr : String) : Except String BotDb :=
  match raises with
  | some e => .error e
  | none =>
    if payment.paymentId ∈ bot.payments.map (·.paymentId) then
      .error "UNIQUE constraint failed: payments.payment_id"
    else .ok (bot.credited payment newExpiresStr)

/-- `srv_username` of `extend_subscription`: an empty name counts as none. -/
def srvUsername (userId : ℤ) (user : User) : String :=
  "tg_" ++ toString userId ++ "_" ++
    match user.username with
    | none => "user"
    | some name => if name = "" then "user" else name

/-- `extend_subscription`. -/
def extendSubscription (o : Outcomes) (now : T) (st : Stores) (payment : Payment) :
    Reply String × Stores :=
  match o.getUser with
  | some e => (.error e, st)
  | none =>
    match st.bot.users.lookup payment.userId with
    | none => (.ok (false, "Пользователь не найден."), st)
    | some user =>
      match newExpires lib now (user.currentExpires lib) payment.daysAdded with
      | .error e => (.error e, st)
      | .ok expires =>
        match o.getConn with
        | some e => (.error e, st)
        | none =>
          match st.bot.credit o.transaction payment (lib.strftime expires) with
          | .error e => (.ok (false, "Ошибка продления: " ++ e), st)
          | .ok bot =>
            -- committed: what raises from here on is caught, but not undone
            match syncAddUserToServer o st.server (srvUsername payment.userId user)
                user.aegsKeyId user.aegsToken with
            | (.error e, server) => (.ok (false, "Ошибка продления: " ++ e), ⟨bot, server⟩)
            | (.ok _, server) =>
              (.ok (true, "Подписка продлена на " ++ toString payment.daysAdded ++
                " дней. Срок действия: до " ++ lib.strftime expires ++ " UTC."), ⟨bot, server⟩)

/-- The transaction of `apply_promocode`. -/
def BotDb.usePromocode (bot : BotDb) (raises : Option String) (code : String)
    (promo : Promocode) (userId : ℤ) (newExpiresStr : String) : Except String BotDb :=
  match raises with
  | some e => .error e
  | none =>
    .ok ({ bot with
        promocodeUses := bot.promocodeUses ++ [(code, userId)]
        promocodes := bot.promocodes.insert code { promo with usedCount := promo.usedCount + 1 }
      }.updateUser userId fun user => { user with
          subExpiresAt := some newExpiresStr
          isActive := true })

/-- `apply_promocode`. Everything behind `get_conn` is inside its `try`; a user that is
not there raises as well. -/
def applyPromocode (o : Outcomes) (now : T) (st : Stores) (userId : ℤ) (code : String) :
    Reply String × Stores :=
  let code := lib.stripUpper code
  match o.getConn with
  | some e => (.error e, st)
  | none =>
    match o.readPromo with
    | some e => (.ok (false, "Ошибка промокода: " ++ e), st)
    | none =>
      match st.bot.promocodes.lookup code with
      | none => (.ok (false, "Промокод не найден."), st)
      | some promo =>
        if promo.usedCount ≥ promo.maxUses then
          (.ok (false, "Лимит активаций промокода исчерпан."), st)
        else
          match o.readUses with
          | some e => (.ok (false, "Ошибка промокода: " ++ e), st)
          | none =>
            if (code, userId) ∈ st.bot.promocodeUses then
              (.ok (false, "Промокод уже был активирован вами ранее."), st)
            else
              match o.getUser with
              | some e => (.ok (false, "Ошибка промокода: " ++ e), st)
              | none =>
                match st.bot.users.lookup userId with
                | none =>
                  (.ok (false, "Ошибка промокода: 'NoneType' object is not subscriptable"), st)
                | some user =>
                  match newExpires lib now (user.currentExpires lib) promo.days with
                  | .error e => (.ok (false, "Ошибка промокода: " ++ e), st)
                  | .ok expires =>
                    match st.bot.usePromocode o.transaction code promo userId
                        (lib.strftime expires) with
                    | .error e => (.ok (false, "Ошибка промокода: " ++ e), st)
                    | .ok bot =>
                      match syncAddUserToServer o st.server ("tg_" ++ toString userId)
                          user.aegsKeyId user.aegsToken with
                      | (.error e, server) =>
                        (.ok (false, "Ошибка промокода: " ++ e), ⟨bot, server⟩)
                      | (.ok _, server) =>
                        (.ok (true, "Промокод активирован. Начислено: " ++ toString promo.days ++
                          " дней (до " ++ lib.strftime expires ++ " UTC)."), ⟨bot, server⟩)

/-- `config.PLANS`, with the days of each plan. -/
def plans : List (String × ℤ) := [("1_month", 30)]

/-- `plan['days']` as `approve_order` looks it up. -/
def planDays (planId : String) : ℤ :=
  match (plans.lookup planId).or (plans.lookup "1_month") with
  | some days => days
  | none => 30

/-- `f"approved_{order_id}"`. -/
def approvedId (orderId : String) : String := "approved_" ++ orderId

/-- The payment `approve_order` asks `extend_subscription` to record. -/
def Order.payment (order : Order) (orderId : String) : Payment where
  userId := order.userId
  planId := order.planId
  daysAdded := planDays order.planId
  amount := order.amount
  currency := order.currency
  provider := "admin_manual"
  paymentId := approvedId orderId

/-- `UPDATE orders SET status = ?, approved_at = ?, approved_by = ? WHERE order_id = ?`. -/
def BotDb.setStatus (bot : BotDb) (orderId status : String) (approvedAt : String)
    (adminId : ℤ) : BotDb :=
  match bot.orders.lookup orderId with
  | none => bot
  | some order => { bot with orders := bot.orders.insert orderId { order with
      status := status
      approvedAt := some approvedAt
      approvedBy := some adminId } }

/-- How `approve_order` and `reject_order` end: the status is written outside of any
`try`. -/
def writeStatus (o : Outcomes) (later : T) (st : Stores) (orderId status note : String)
    (adminId : ℤ) (order : Order) : Reply (String × Option Order) × Stores :=
  match o.orderConn with
  | some e => (.error e, st)
  | none =>
    match o.orderUpdate with
    | some e => (.error e, st)
    | none => (.ok (true, note, some { order with status := status }),
        { st with bot := st.bot.setStatus orderId status (lib.strftime later) adminId })

/-- What `approve_order` and `reject_order` do with an order that is not pending. -/
def alreadyHandled (order : Order) : Reply (String × Option Order) :=
  .ok (false, "Заказ уже обработан со статусом '" ++ order.status ++ "'.", some order)

/-- `approve_order`; `now` and `later` are its two readings of the clock. -/
def approveOrder (o : Outcomes) (now later : T) (st : Stores) (orderId : String) (adminId : ℤ) :
    Reply (String × Option Order) × Stores :=
  match o.getOrder with
  | some e => (.error e, st)
  | none =>
    match st.bot.orders.lookup orderId with
    | none => (.ok (false, "Заказ не найден.", none), st)
    | some order =>
      if order.status ≠ "pending" then (alreadyHandled order, st)
      else
        match extendSubscription lib o now st (order.payment orderId) with
        | (.error e, st) => (.error e, st)
        | (.ok (false, note), st) =>
          (.ok (false, "Ошибка продления: " ++ note, some order), st)
        | (.ok (true, note), st) =>
          writeStatus lib o later st orderId "approved" note adminId order

/-- `reject_order`. -/
def rejectOrder (o : Outcomes) (later : T) (st : Stores) (orderId : String) (adminId : ℤ) :
    Reply (String × Option Order) × Stores :=
  match o.getOrder with
  | some e => (.error e, st)
  | none =>
    match st.bot.orders.lookup orderId with
    | none => (.ok (false, "Заказ не найден.", none), st)
    | some order =>
      if order.status ≠ "pending" then (alreadyHandled order, st)
      else writeStatus lib o later st orderId "rejected" "Заказ отклонен." adminId order

/-- What the administrator decides about an order. -/
inductive Verdict
  /-- `approve_order`. -/
  | approve
  /-- `reject_order`. -/
  | reject
  deriving DecidableEq

/-- An attempt at an order: the call, and how its steps turn out. -/
structure Decision (T : Type) where
  /-- Which of the two calls it is. -/
  verdict : Verdict
  /-- `order_id`. -/
  orderId : String
  /-- `admin_id`. -/
  adminId : ℤ
  /-- How its steps turn out. -/
  outcomes : Outcomes
  /-- The first reading of the clock. -/
  now : T
  /-- The second one. -/
  later : T

/-- Whether the attempt reports failure, and the databases after it. -/
def Decision.exec (d : Decision T) (st : Stores) : Bool × Stores :=
  match d.verdict with
  | .approve =>
    let (reply, st) := approveOrder lib d.outcomes d.now d.later st d.orderId d.adminId
    (reportsFailure reply, st)
  | .reject =>
    let (reply, st) := rejectOrder lib d.outcomes d.later st d.orderId d.adminId
    (reportsFailure reply, st)

/-- The calls that credit days or decide an order. -/
inductive Call (T : Type)
  /-- `extend_subscription`. -/
  | extendSubscription (o : Outcomes) (now : T) (payment : Payment)
  /-- `apply_promocode`. -/
  | applyPromocode (o : Outcomes) (now : T) (userId : ℤ) (code : String)
  /-- `approve_order` and `reject_order`. -/
  | decide (d : Decision T)

/-- Whether the call reports failure, and the databases after it. -/
def Call.exec (st : Stores) : Call T → Bool × Stores
  | .extendSubscription o now payment =>
    let (reply, st) := Bot.extendSubscription lib o now st payment
    (reportsFailure reply, st)
  | .applyPromocode o now userId code =>
    let (reply, st) := Bot.applyPromocode lib o now st userId code
    (reportsFailure reply, st)
  | .decide d => d.exec lib st

/-- The attempts at orders, one after the other. -/
def step (st : Stores) (d : Decision T) : Option Stores := some (d.exec lib st).2

end

/-! ### What is credited -/

section

variable {T : Type} [LT T] [DecidableLT T] (lib : Library T)

/-- The subscription of the user is active, and runs until `days` behind the later of its
old date and `now`. -/
def extended (now : T) (days : ℤ) : Option User → Option User → Bool
  | some user, some user' =>
    match newExpires lib now (user.currentExpires lib) days with
    | .ok expires => user'.subExpiresAt = some (lib.strftime expires) && user'.isActive
    | .error _ => false
  | _, _ => false

/-- **The days of the order's plan are credited** between the two databases: to the user of
the order, with a payment under the id of an approval. -/
def DaysCredited (now : T) (bot bot' : BotDb) (orderId : String) (order : Order) : Prop :=
  bot'.payments = bot.payments ++ [order.payment orderId] ∧
    extended lib now (planDays order.planId) (bot.users.lookup order.userId)
      (bot'.users.lookup order.userId) = true

instance (now : T) (bot bot' : BotDb) (orderId : String) (order : Order) :
    Decidable (DaysCredited lib now bot bot' orderId order) :=
  inferInstanceAs (Decidable (_ ∧ _))

/-- How often the days of each order were credited. -/
abbrev Ledger := String → ℕ

/-- An attempt credits the days of the order once more, or it does not. -/
def tally (st : Stores) (ledger : Ledger) (d : Decision T) : Ledger := fun orderId =>
  match st.bot.orders.lookup orderId with
  | none => ledger orderId
  | some order =>
    if DaysCredited lib d.now st.bot (d.exec lib st).2.bot orderId order then
      ledger orderId + 1
    else ledger orderId

end

/-- An order is approved if and only if the days of its plan were credited exactly once. -/
def Settled (p : Stores × Ledger) : Prop :=
  ∀ orderId order, p.1.bot.orders.lookup orderId = some order →
    (order.status = "approved" ↔ p.2 orderId = 1)

/-- What was credited for an order has left a payment under the id of its approval. -/
def Recorded (p : Stores × Ledger) : Prop :=
  ∀ orderId, 0 < p.2 orderId → approvedId orderId ∈ p.1.bot.payments.map (·.paymentId)

/-! ### The condition -/

/-- The steps of `sync_add_user_to_server` outside of its `try` go through. -/
def Outcomes.ServerReachable (o : Outcomes) : Prop :=
  o.initServerDb = none ∧ o.connectServerDb = none

/-- The transaction that writes the status of an order goes through. -/
def Outcomes.StatusWritten (o : Outcomes) : Prop :=
  o.orderConn = none ∧ o.orderUpdate = none

section

variable {T : Type} [LT T] [DecidableLT T] (lib : Library T)

/-- `extend_subscription` gets as far as committing its transaction. -/
structure ExtendCommits (o : Outcomes) (now : T) (bot : BotDb) (payment : Payment) : Prop where
  /-- The user is read. -/
  getUser : o.getUser = none
  /-- The user is there, and the new date can be computed. -/
  expires : ∃ user t, bot.users.lookup payment.userId = some user ∧
    newExpires lib now (user.currentExpires lib) payment.daysAdded = .ok t
  /-- The database is opened. -/
  getConn : o.getConn = none
  /-- Nothing raises in the transaction. -/
  transaction : o.transaction = none
  /-- The payment id is new. -/
  unpaid : payment.paymentId ∉ bot.payments.map (·.paymentId)

/-- `apply_promocode` gets as far as committing its transaction. -/
structure PromocodeCommits (o : Outcomes) (now : T) (bot : BotDb) (userId : ℤ)
    (code : String) : Prop where
  /-- The database is opened. -/
  getConn : o.getConn = none
  /-- The promo code is read. -/
  readPromo : o.readPromo = none
  /-- Its uses are read. -/
  readUses : o.readUses = none
  /-- The user is read. -/
  getUser : o.getUser = none
  /-- The code has activations left, the user is there, and the new date can be
  computed. -/
  expires : ∃ promo user t, bot.promocodes.lookup code = some promo ∧
    promo.usedCount < promo.maxUses ∧ bot.users.lookup userId = some user ∧
    newExpires lib now (user.currentExpires lib) promo.days = .ok t
  /-- This user has not used the code. -/
  unused : (code, userId) ∉ bot.promocodeUses
  /-- Nothing raises in the transaction. -/
  transaction : o.transaction = none

/-- **The condition on an attempt**: where an approval commits the days, nothing raises
between that and the end of the call. -/
def Decision.Clean (d : Decision T) (bot : BotDb) : Prop :=
  d.verdict = .approve → d.outcomes.getOrder = none →
    ∀ order, bot.orders.lookup d.orderId = some order → order.status = "pending" →
      ExtendCommits lib d.outcomes d.now bot (order.payment d.orderId) →
      d.outcomes.ServerReachable ∧ d.outcomes.StatusWritten

/-- **The condition on a call**: where it commits the days, nothing raises between that
and the end of the call. -/
def Call.Clean (bot : BotDb) : Call T → Prop
  | .extendSubscription o now payment =>
    ExtendCommits lib o now bot payment → o.ServerReachable
  | .applyPromocode o now userId code =>
    PromocodeCommits lib o now bot userId (lib.stripUpper code) → o.ServerReachable
  | .decide d => d.Clean lib bot

end

/-! ### What each call does -/

theorem syncAddUserToServer_ok {o : Outcomes} (h : o.ServerReachable) (server : ServerDb)
    (username keyId token : String) :
    ∃ b server', syncAddUserToServer o server username keyId token = (.ok b, server') := by
  rw [syncAddUserToServer, h.1, h.2]
  cases o.syncTransaction with
  | none => exact ⟨true, _, rfl⟩
  | some e => exact ⟨false, _, rfl⟩

theorem syncAddUserToServer_error {o : Outcomes} (h : ¬o.ServerReachable) (server : ServerDb)
    (username keyId token : String) :
    ∃ e, syncAddUserToServer o server username keyId token = (.error e, server) := by
  rw [syncAddUserToServer]
  cases hinit : o.initServerDb with
  | some e => exact ⟨e, rfl⟩
  | none =>
    cases hconn : o.connectServerDb with
    | some e => exact ⟨e, rfl⟩
    | none => exact absurd ⟨hinit, hconn⟩ h

@[simp] theorem payments_updateUser (bot : BotDb) (userId : ℤ) (f : User → User) :
    (bot.updateUser userId f).payments = bot.payments := by
  rw [BotDb.updateUser]
  split <;> rfl

@[simp] theorem orders_updateUser (bot : BotDb) (userId : ℤ) (f : User → User) :
    (bot.updateUser userId f).orders = bot.orders := by
  rw [BotDb.updateUser]
  split <;> rfl

@[simp] theorem promocodeUses_updateUser (bot : BotDb) (userId : ℤ) (f : User → User) :
    (bot.updateUser userId f).promocodeUses = bot.promocodeUses := by
  rw [BotDb.updateUser]
  split <;> rfl

@[simp] theorem payments_setStatus (bot : BotDb) (orderId status approvedAt : String)
    (adminId : ℤ) : (bot.setStatus orderId status approvedAt adminId).payments = bot.payments := by
  rw [BotDb.setStatus]
  split <;> rfl

section

variable {T : Type} [LT T] [DecidableLT T] {lib : Library T} {o : Outcomes} {now later : T}
  {st : Stores} {payment : Payment}

theorem payments_credited (bot : BotDb) (payment : Payment) (date : String) :
    (bot.credited payment date).payments = bot.payments ++ [payment] :=
  payments_updateUser _ _ _

theorem orders_credited (bot : BotDb) (payment : Payment) (date : String) :
    (bot.credited payment date).orders = bot.orders :=
  orders_updateUser _ _ _

/-- The date that an extension writes. -/
def NewDate (lib : Library T) (now : T) (bot : BotDb) (payment : Payment) (date : String) :
    Prop :=
  ∃ user t, bot.users.lookup payment.userId = some user ∧
    newExpires lib now (user.currentExpires lib) payment.daysAdded = .ok t ∧
    date = lib.strftime t

/-- **A committed extension**: the days are credited, and only an unreachable server makes
the call report failure. -/
theorem extendSubscription_of_commits (h : ExtendCommits lib o now st.bot payment) :
    ∃ date note server, NewDate lib now st.bot payment date ∧
      (extendSubscription lib o now st payment =
          (.ok (true, note), ⟨st.bot.credited payment date, server⟩) ∧ o.ServerReachable ∨
        extendSubscription lib o now st payment =
          (.ok (false, note), ⟨st.bot.credited payment date, server⟩) ∧ ¬o.ServerReachable) := by
  obtain ⟨user, t, huser, ht⟩ := h.expires
  simp only [extendSubscription, h.getUser, huser, ht, h.getConn, BotDb.credit, h.transaction,
    if_neg h.unpaid]
  by_cases hreach : o.ServerReachable
  · obtain ⟨b, server, hsync⟩ := syncAddUserToServer_ok hreach st.server
      (srvUsername payment.userId user) user.aegsKeyId user.aegsToken
    rw [hsync]
    exact ⟨_, _, _, ⟨user, t, huser, ht, rfl⟩, Or.inl ⟨rfl, hreach⟩⟩
  · obtain ⟨e, hsync⟩ := syncAddUserToServer_error hreach st.server
      (srvUsername payment.userId user) user.aegsKeyId user.aegsToken
    rw [hsync]
    exact ⟨_, _, _, ⟨user, t, huser, ht, rfl⟩, Or.inr ⟨rfl, hreach⟩⟩

/-- An extension that does not get as far changes nothing and reports failure. -/
theorem extendSubscription_of_not_commits (h : ¬ExtendCommits lib o now st.bot payment) :
    (extendSubscription lib o now st payment).2 = st ∧
      reportsFailure (extendSubscription lib o now st payment).1 = true := by
  rw [extendSubscription]
  split
  · exact ⟨rfl, rfl⟩
  rename_i hget
  split
  · exact ⟨rfl, rfl⟩
  rename_i user huser
  split
  · exact ⟨rfl, rfl⟩
  rename_i t ht
  split
  · exact ⟨rfl, rfl⟩
  rename_i hconn
  cases htrans : o.transaction with
  | some e => exact ⟨rfl, rfl⟩
  | none =>
    by_cases hpaid : payment.paymentId ∈ st.bot.payments.map (·.paymentId)
    · simp only [BotDb.credit, if_pos hpaid, reportsFailure]
      exact ⟨trivial, rfl⟩
    · exact absurd ⟨hget, ⟨user, t, huser, ht⟩, hconn, htrans, hpaid⟩ h

/-- **A committed promo code**: its use is recorded, and only an unreachable server makes
the call report failure. -/
theorem applyPromocode_of_commits {userId : ℤ} {code : String}
    (h : PromocodeCommits lib o now st.bot userId (lib.stripUpper code)) :
    (applyPromocode lib o now st userId code).2.bot.promocodeUses =
        st.bot.promocodeUses ++ [(lib.stripUpper code, userId)] ∧
      (reportsFailure (applyPromocode lib o now st userId code).1 = true ↔
        ¬o.ServerReachable) := by
  obtain ⟨promo, user, t, hpromo, hleft, huser, ht⟩ := h.expires
  simp only [applyPromocode, h.getConn, h.readPromo, hpromo, ge_iff_le, if_neg (not_le.mpr hleft),
    h.readUses, if_neg h.unused, h.getUser, huser, ht, BotDb.usePromocode, h.transaction]
  by_cases hreach : o.ServerReachable
  · obtain ⟨b, server, hsync⟩ := syncAddUserToServer_ok hreach st.server
      ("tg_" ++ toString userId) user.aegsKeyId user.aegsToken
    rw [hsync]
    exact ⟨promocodeUses_updateUser _ _ _, iff_of_false Bool.false_ne_true (not_not.mpr hreach)⟩
  · obtain ⟨e, hsync⟩ := syncAddUserToServer_error hreach st.server
      ("tg_" ++ toString userId) user.aegsKeyId user.aegsToken
    rw [hsync]
    exact ⟨promocodeUses_updateUser _ _ _, iff_of_true rfl hreach⟩

/-- A promo code that does not get as far changes nothing and reports failure. -/
theorem applyPromocode_of_not_commits {userId : ℤ} {code : String}
    (h : ¬PromocodeCommits lib o now st.bot userId (lib.stripUpper code)) :
    (applyPromocode lib o now st userId code).2 = st := by
  simp only [applyPromocode]
  split
  · rfl
  rename_i hconn
  split
  · rfl
  rename_i hreadPromo
  split
  · rfl
  rename_i promo hpromo
  split
  · rfl
  rename_i hleft
  split
  · rfl
  rename_i hreadUses
  split
  · rfl
  rename_i hunused
  split
  · rfl
  rename_i hget
  split
  · rfl
  rename_i user huser
  split
  · rfl
  rename_i t ht
  cases htrans : o.transaction with
  | some e => rfl
  | none =>
    exact absurd ⟨hconn, hreadPromo, hreadUses, hget,
      ⟨promo, user, t, hpromo, not_le.mp hleft, huser, ht⟩, hunused, htrans⟩ h

/-- **A committed approval**: the days are credited, whatever becomes of the order; it is
approved only if nothing raises after that, and otherwise the call reports failure. -/
theorem approveOrder_of_commits {orderId : String} {order : Order} (later : T) (adminId : ℤ)
    (hget : o.getOrder = none) (horder : st.bot.orders.lookup orderId = some order)
    (hpending : order.status = "pending")
    (h : ExtendCommits lib o now st.bot (order.payment orderId)) :
    ∃ date, NewDate lib now st.bot (order.payment orderId) date ∧
      ((o.ServerReachable ∧ o.StatusWritten ∧
          (reportsFailure (approveOrder lib o now later st orderId adminId).1 = false ∧
          (approveOrder lib o now later st orderId adminId).2.bot =
            (st.bot.credited (order.payment orderId) date).setStatus orderId "approved"
              (lib.strftime later) adminId)) ∨
        (¬(o.ServerReachable ∧ o.StatusWritten) ∧
          (reportsFailure (approveOrder lib o now later st orderId adminId).1 = true ∧
          (approveOrder lib o now later st orderId adminId).2.bot =
            st.bot.credited (order.payment orderId) date))) := by
  obtain ⟨date, note, server, hdate, ⟨hext, hreach⟩ | ⟨hext, hreach⟩⟩ :=
    extendSubscription_of_commits h
  · refine ⟨date, hdate, ?_⟩
    simp only [approveOrder, hget, horder, hpending, ne_eq, not_true_eq_false, if_false, hext,
      writeStatus]
    cases hconn : o.orderConn with
    | some e =>
      exact Or.inr ⟨fun hall => by simp [Outcomes.StatusWritten, hconn] at hall, rfl, rfl⟩
    | none =>
      cases hupdate : o.orderUpdate with
      | some e =>
        exact Or.inr ⟨fun hall => by simp [Outcomes.StatusWritten, hupdate] at hall, rfl, rfl⟩
      | none => exact Or.inl ⟨hreach, ⟨hconn, hupdate⟩, rfl, rfl⟩
  · refine ⟨date, hdate, Or.inr ⟨fun hall => hreach hall.1, ?_⟩⟩
    simp only [approveOrder, hget, horder, hpending, ne_eq, not_true_eq_false, if_false, hext,
      reportsFailure, Bool.not_false, and_self]

/-- An approval that does not get as far changes nothing and reports failure. -/
theorem approveOrder_of_not_commits {orderId : String} {adminId : ℤ}
    (h : ¬(o.getOrder = none ∧ ∃ order, st.bot.orders.lookup orderId = some order ∧
      order.status = "pending" ∧ ExtendCommits lib o now st.bot (order.payment orderId))) :
    (approveOrder lib o now later st orderId adminId).2 = st := by
  rw [approveOrder]
  split
  · rfl
  rename_i hget
  split
  · rfl
  rename_i order horder
  by_cases hpending : order.status = "pending"
  · have hcommits : ¬ExtendCommits lib o now st.bot (order.payment orderId) :=
      fun hcommits => h ⟨hget, order, horder, hpending, hcommits⟩
    obtain ⟨hst, hfails⟩ := extendSubscription_of_not_commits hcommits
    rcases hext : extendSubscription lib o now st (order.payment orderId) with ⟨reply, st'⟩
    rw [hext] at hst hfails
    obtain rfl : st' = st := hst
    rw [if_neg (not_not.mpr hpending)]
    rcases reply with e | ⟨_ | _, note⟩
    · rfl
    · rfl
    · exact absurd hfails Bool.false_ne_true
  · rw [if_pos hpending]

variable (lib o later st) in
omit [LT T] [DecidableLT T] in
/-- A rejection writes the status of a pending order, or nothing. -/
theorem rejectOrder_cases (orderId : String) (adminId : ℤ) :
    (rejectOrder lib o later st orderId adminId).2 = st ∨
      (reportsFailure (rejectOrder lib o later st orderId adminId).1 = false ∧
        ∃ order, st.bot.orders.lookup orderId = some order ∧ order.status = "pending" ∧
          (rejectOrder lib o later st orderId adminId).2.bot =
            st.bot.setStatus orderId "rejected" (lib.strftime later) adminId) := by
  rw [rejectOrder]
  split
  · exact Or.inl rfl
  split
  · exact Or.inl rfl
  rename_i order horder
  by_cases hpending : order.status = "pending"
  · rw [if_neg (not_not.mpr hpending), writeStatus]
    split
    · exact Or.inl rfl
    split
    · exact Or.inl rfl
    exact Or.inr ⟨rfl, order, horder, hpending, rfl⟩
  · rw [if_pos hpending]
    exact Or.inl rfl

/-! ### A call that reports failure -/

theorem ne_append_singleton {α : Type} (l : List α) (a : α) : l ++ [a] ≠ l := by
  intro h
  have hlength := congrArg List.length h
  rw [List.length_append, List.length_singleton] at hlength
  omega

theorem credited_ne (bot : BotDb) (payment : Payment) (date : String) :
    bot.credited payment date ≠ bot := by
  intro h
  refine ne_append_singleton bot.payments payment ?_
  rw [← payments_credited bot payment date, h]

/-- An attempt that reports failure has changed nothing exactly if it is clean. -/
theorem Decision.unchanged_iff (d : Decision T) (st : Stores) :
    ((d.exec lib st).1 = true → (d.exec lib st).2.bot = st.bot) ↔ d.Clean lib st.bot := by
  cases hverdict : d.verdict with
  | approve =>
    simp only [Decision.exec, Decision.Clean, hverdict, forall_const]
    by_cases hcommits : d.outcomes.getOrder = none ∧
        ∃ order, st.bot.orders.lookup d.orderId = some order ∧ order.status = "pending" ∧
          ExtendCommits lib d.outcomes d.now st.bot (order.payment d.orderId)
    · obtain ⟨hget, order, horder, hpending, hext⟩ := hcommits
      obtain ⟨date, -, ⟨hreach, hwritten, hok, -⟩ | ⟨hraises, hfails, hbot⟩⟩ :=
        approveOrder_of_commits d.later d.adminId hget horder hpending hext
      · rw [hok]
        refine iff_of_true (fun h => absurd h Bool.false_ne_true) fun _ order' horder' _ _ => ?_
        exact ⟨hreach, hwritten⟩
      · rw [hfails, hbot]
        refine iff_of_false (fun h => credited_ne _ _ _ (h rfl)) fun h => ?_
        exact hraises (h hget order horder hpending hext)
    · rw [approveOrder_of_not_commits hcommits]
      refine iff_of_true (fun _ => rfl) fun hget order horder hpending hext => ?_
      exact absurd ⟨hget, order, horder, hpending, hext⟩ hcommits
  | reject =>
    simp only [Decision.exec, Decision.Clean, hverdict]
    refine iff_of_true (fun hfails => ?_) (by simp)
    rcases rejectOrder_cases lib d.outcomes d.later st d.orderId d.adminId with hst | ⟨hok, -⟩
    · rw [hst]
    · rw [hok] at hfails
      exact absurd hfails Bool.false_ne_true

/-- A call that reports failure has changed nothing exactly if it is clean. -/
theorem Call.unchanged_iff (call : Call T) (st : Stores) :
    ((call.exec lib st).1 = true → (call.exec lib st).2.bot = st.bot) ↔
      call.Clean lib st.bot := by
  cases call with
  | extendSubscription o now payment =>
    simp only [Call.exec, Call.Clean]
    by_cases hcommits : ExtendCommits lib o now st.bot payment
    · obtain ⟨date, note, server, -, ⟨hext, hreach⟩ | ⟨hext, hreach⟩⟩ :=
        extendSubscription_of_commits hcommits
      · rw [hext]
        exact iff_of_true (fun h => absurd h Bool.false_ne_true) fun _ => hreach
      · rw [hext]
        exact iff_of_false (fun h => credited_ne _ _ _ (h rfl)) fun h => hreach (h hcommits)
    · rw [(extendSubscription_of_not_commits hcommits).1]
      exact iff_of_true (fun _ => rfl) fun h => absurd h hcommits
  | applyPromocode o now userId code =>
    simp only [Call.exec, Call.Clean]
    by_cases hcommits : PromocodeCommits lib o now st.bot userId (lib.stripUpper code)
    · obtain ⟨huses, hfails⟩ := applyPromocode_of_commits hcommits
      rw [hfails]
      have hchanged : (Bot.applyPromocode lib o now st userId code).2.bot ≠ st.bot := by
        intro h
        rw [h] at huses
        exact ne_append_singleton _ _ huses.symm
      refine ⟨fun h _ => ?_, fun h hraises => absurd (h hcommits) hraises⟩
      by_contra hraises
      exact hchanged (h hraises)
    · rw [applyPromocode_of_not_commits hcommits]
      exact iff_of_true (fun _ => rfl) fun h => absurd h hcommits
  | decide d => exact d.unchanged_iff st

/-! ### A run of attempts -/

theorem approvedId_inj {orderId orderId' : String} :
    approvedId orderId = approvedId orderId' ↔ orderId = orderId' :=
  String.append_right_inj _

/-- Without one payment more nothing is credited. -/
theorem not_daysCredited_of_payments {bot bot' : BotDb} (h : bot'.payments = bot.payments)
    (now : T) (orderId : String) (order : Order) :
    ¬DaysCredited lib now bot bot' orderId order := by
  rintro ⟨hpayments, -⟩
  exact ne_append_singleton _ _ (hpayments.symm.trans h)

/-- An attempt that adds no payment leaves the ledger. -/
theorem tally_of_payments {d : Decision T} {ledger : Ledger}
    (h : (d.exec lib st).2.bot.payments = st.bot.payments) : tally lib st ledger d = ledger := by
  funext orderId
  rw [tally]
  split
  · rfl
  · rw [if_neg (not_daysCredited_of_payments h d.now orderId _)]

/-- The row of the user behind a committed extension. -/
theorem lookup_credited {bot : BotDb} {payment : Payment} {user : User} (date : String)
    (huser : bot.users.lookup payment.userId = some user) :
    (bot.credited payment date).users.lookup payment.userId = some { user with
      subExpiresAt := some date
      isActive := true
      warned24h := false
      warned72h := false } := by
  simp only [BotDb.credited, BotDb.updateUser, huser, AList.lookup_insert]

/-- **A committed approval credits the days** to the user of its order. -/
theorem daysCredited_of_credited {bot bot' : BotDb} {id date : String} {order : Order}
    (hdate : NewDate lib now bot (order.payment id) date)
    (husers : bot'.users = (bot.credited (order.payment id) date).users)
    (hpayments : bot'.payments = (bot.credited (order.payment id) date).payments) :
    DaysCredited lib now bot bot' id order := by
  obtain ⟨user, t, huser, ht, rfl⟩ := hdate
  refine ⟨hpayments.trans (payments_credited _ _ _), ?_⟩
  have huser' := lookup_credited (lib.strftime t) huser
  have hlookup : bot.users.lookup order.userId = some user := huser
  have hexpires : newExpires lib now (user.currentExpires lib) (planDays order.planId) = .ok t := ht
  rw [hlookup, husers, show (bot.credited (order.payment id) (lib.strftime t)).users.lookup
    order.userId = _ from huser']
  simp only [extended, hexpires, decide_true, Bool.and_self]

/-- It credits those of no other order. -/
theorem not_daysCredited_of_ne {bot bot' : BotDb} {id orderId : String} {order : Order}
    (hne : orderId ≠ id) (hpayments : bot'.payments = bot.payments ++ [order.payment id])
    (now : T) (order' : Order) : ¬DaysCredited lib now bot bot' orderId order' := by
  rintro ⟨hpayments', -⟩
  have hpayment := List.append_cancel_left (hpayments.symm.trans hpayments')
  have hid : approvedId id = approvedId orderId :=
    congrArg Payment.paymentId (List.singleton_inj.mp hpayment)
  exact hne (approvedId_inj.mp hid).symm

/-- The ledger behind a committed approval. -/
theorem tally_of_commits {d : Decision T} {ledger : Ledger} {order : Order} {date : String}
    (horder : st.bot.orders.lookup d.orderId = some order)
    (hdate : NewDate lib d.now st.bot (order.payment d.orderId) date)
    (husers : (d.exec lib st).2.bot.users = (st.bot.credited (order.payment d.orderId) date).users)
    (hpayments : (d.exec lib st).2.bot.payments = st.bot.payments ++ [order.payment d.orderId])
    (orderId : String) :
    tally lib st ledger d orderId =
      if orderId = d.orderId then ledger d.orderId + 1 else ledger orderId := by
  rw [tally]
  by_cases heq : orderId = d.orderId
  · have hcredited : DaysCredited lib d.now st.bot (d.exec lib st).2.bot d.orderId order :=
      daysCredited_of_credited hdate husers (hpayments.trans (payments_credited _ _ _).symm)
    subst heq
    rw [if_pos rfl]
    simp only [horder, if_pos hcredited]
  · rw [if_neg heq]
    split
    · rfl
    · rw [if_neg (not_daysCredited_of_ne heq hpayments d.now _)]

/-- Which order is found after a status was written. -/
theorem lookup_setStatus {bot : BotDb} {id status approvedAt : String} {adminId : ℤ}
    {order : Order} (horder : bot.orders.lookup id = some order) (orderId : String) :
    (bot.setStatus id status approvedAt adminId).orders.lookup orderId =
      if orderId = id then some { order with
        status := status
        approvedAt := some approvedAt
        approvedBy := some adminId }
      else bot.orders.lookup orderId := by
  simp only [BotDb.setStatus, horder]
  by_cases heq : orderId = id
  · rw [if_pos heq, heq, AList.lookup_insert]
  · rw [if_neg heq, AList.lookup_insert_ne heq]

@[simp] theorem users_setStatus (bot : BotDb) (orderId status approvedAt : String)
    (adminId : ℤ) : (bot.setStatus orderId status approvedAt adminId).users = bot.users := by
  rw [BotDb.setStatus]
  split <;> rfl

/-- Writing the status of one order keeps the others settled. -/
theorem settled_setStatus {bot : BotDb} {ledger : Ledger} {id status : String} {order : Order}
    (server : ServerDb) (approvedAt : String) (adminId : ℤ)
    (horder : bot.orders.lookup id = some order)
    (hself : status = "approved" ↔ ledger id = 1)
    (hother : ∀ orderId order', orderId ≠ id → bot.orders.lookup orderId = some order' →
      (order'.status = "approved" ↔ ledger orderId = 1)) :
    Settled (⟨bot.setStatus id status approvedAt adminId, server⟩, ledger) := by
  intro orderId order' horder'
  rw [lookup_setStatus horder] at horder'
  split_ifs at horder' with heq
  · obtain rfl := Option.some.inj horder'
    rw [heq]
    exact hself
  · exact hother orderId order' heq horder'

/-- The days of an order that is settled and not yet credited are credited once by a
committed approval. -/
theorem settled_of_commits {d : Decision T} {ledger : Ledger} {order : Order} {date : String}
    (hsettled : Settled (st, ledger)) (hrecorded : Recorded (st, ledger))
    (horder : st.bot.orders.lookup d.orderId = some order)
    (hext : ExtendCommits lib d.outcomes d.now st.bot (order.payment d.orderId))
    (hdate : NewDate lib d.now st.bot (order.payment d.orderId) date)
    (husers : (d.exec lib st).2.bot.users = (st.bot.credited (order.payment d.orderId) date).users)
    (hpayments : (d.exec lib st).2.bot.payments = st.bot.payments ++ [order.payment d.orderId]) :
    tally lib st ledger d d.orderId = 1 ∧
      ∀ orderId order', orderId ≠ d.orderId → st.bot.orders.lookup orderId = some order' →
        (order'.status = "approved" ↔ tally lib st ledger d orderId = 1) := by
  have hzero : ledger d.orderId = 0 := by
    by_contra hne
    exact hext.unpaid (hrecorded d.orderId (Nat.pos_of_ne_zero hne))
  constructor
  · rw [tally_of_commits horder hdate husers hpayments, if_pos rfl, hzero]
  · intro orderId order' hne horder'
    rw [tally_of_commits horder hdate husers hpayments, if_neg hne]
    exact hsettled orderId order' horder'

/-- **What one attempt preserves**: the orders stay settled exactly if it is clean. -/
theorem Decision.settled_iff (d : Decision T) {ledger : Ledger} (hsettled : Settled (st, ledger))
    (hrecorded : Recorded (st, ledger)) :
    Settled ((d.exec lib st).2, tally lib st ledger d) ↔ d.Clean lib st.bot := by
  cases hverdict : d.verdict with
  | approve =>
    have hexec : (d.exec lib st).2 =
        (approveOrder lib d.outcomes d.now d.later st d.orderId d.adminId).2 := by
      simp only [Decision.exec, hverdict]
    simp only [Decision.Clean, hverdict, forall_const]
    by_cases hcommits : d.outcomes.getOrder = none ∧
        ∃ order, st.bot.orders.lookup d.orderId = some order ∧ order.status = "pending" ∧
          ExtendCommits lib d.outcomes d.now st.bot (order.payment d.orderId)
    · obtain ⟨hget, order, horder, hpending, hext⟩ := hcommits
      obtain ⟨date, hdate, ⟨hreach, hwritten, -, hbot⟩ | ⟨hraises, -, hbot⟩⟩ :=
        approveOrder_of_commits d.later d.adminId hget horder hpending hext
      all_goals rw [← hexec] at hbot
      · -- credited and approved by the one attempt
        obtain ⟨hone, hothers⟩ := settled_of_commits hsettled hrecorded horder hext hdate
          (by rw [hbot, users_setStatus]) (by rw [hbot, payments_setStatus, payments_credited])
        refine iff_of_true ?_ fun _ _ _ _ _ => ⟨hreach, hwritten⟩
        have horder' : (st.bot.credited (order.payment d.orderId) date).orders.lookup d.orderId =
            some order := by rw [orders_credited]; exact horder
        have hwrite := settled_setStatus (d.exec lib st).2.server (lib.strftime d.later) d.adminId
          horder' (iff_of_true rfl hone) fun orderId order' hne h =>
            hothers orderId order' hne (by rwa [orders_credited] at h)
        rwa [← hbot] at hwrite
      · -- the days are credited, and the order is still pending
        obtain ⟨hone, -⟩ := settled_of_commits hsettled hrecorded horder hext hdate
          (by rw [hbot]) (by rw [hbot, payments_credited])
        refine iff_of_false (fun h => ?_) fun h => hraises (h hget order horder hpending hext)
        have happroved := (h d.orderId order (by
          rw [hbot, orders_credited]
          exact horder)).mpr hone
        rw [hpending] at happroved
        exact absurd happroved (by decide)
    · -- the attempt ends before its days are committed
      have hst : (d.exec lib st).2 = st := hexec.trans (approveOrder_of_not_commits hcommits)
      rw [tally_of_payments (by rw [hst]), hst]
      refine iff_of_true hsettled fun hget order horder hpending hext => ?_
      exact absurd ⟨hget, order, horder, hpending, hext⟩ hcommits
  | reject =>
    have hexec : (d.exec lib st).2 =
        (rejectOrder lib d.outcomes d.later st d.orderId d.adminId).2 := by
      simp only [Decision.exec, hverdict]
    simp only [Decision.Clean, hverdict]
    refine iff_of_true ?_ (by simp)
    rcases rejectOrder_cases lib d.outcomes d.later st d.orderId d.adminId with
      hst | ⟨-, order, horder, hpending, hbot⟩
    · rw [← hexec] at hst
      rw [tally_of_payments (by rw [hst]), hst]
      exact hsettled
    · -- a pending order is not credited, and neither is a rejected one
      rw [← hexec] at hbot
      rw [tally_of_payments (by rw [hbot, payments_setStatus])]
      have huncredited := (hsettled d.orderId order horder).not.mp (by
        rw [hpending]
        decide)
      have hwrite := settled_setStatus (d.exec lib st).2.server (lib.strftime d.later) d.adminId
        horder (iff_of_false (by decide : ¬"rejected" = "approved") huncredited)
        fun orderId order' _ h => hsettled orderId order' h
      rwa [← hbot] at hwrite

/-- No attempt takes a payment away. -/
theorem mem_payments_exec (d : Decision T) {id : String}
    (h : id ∈ st.bot.payments.map (·.paymentId)) :
    id ∈ (d.exec lib st).2.bot.payments.map (·.paymentId) := by
  cases hverdict : d.verdict with
  | approve =>
    simp only [Decision.exec, hverdict]
    by_cases hcommits : d.outcomes.getOrder = none ∧
        ∃ order, st.bot.orders.lookup d.orderId = some order ∧ order.status = "pending" ∧
          ExtendCommits lib d.outcomes d.now st.bot (order.payment d.orderId)
    · obtain ⟨hget, order, horder, hpending, hext⟩ := hcommits
      obtain ⟨date, -, ⟨-, -, -, hbot⟩ | ⟨-, -, hbot⟩⟩ :=
        approveOrder_of_commits d.later d.adminId hget horder hpending hext
      · rw [hbot, payments_setStatus, payments_credited, List.map_append]
        exact List.mem_append_left _ h
      · rw [hbot, payments_credited, List.map_append]
        exact List.mem_append_left _ h
    · rw [approveOrder_of_not_commits hcommits]
      exact h
  | reject =>
    simp only [Decision.exec, hverdict]
    rcases rejectOrder_cases lib d.outcomes d.later st d.orderId d.adminId with
      hst | ⟨-, order, -, -, hbot⟩
    · rw [hst]
      exact h
    · rw [hbot, payments_setStatus]
      exact h

/-- **What is credited is recorded** behind every attempt. -/
theorem recorded_exec {ledger : Ledger} (hrecorded : Recorded (st, ledger)) (d : Decision T) :
    Recorded ((d.exec lib st).2, tally lib st ledger d) := by
  intro orderId hpos
  simp only [tally] at hpos
  split at hpos
  · exact mem_payments_exec d (hrecorded orderId hpos)
  · rename_i order horder
    split at hpos
    · rename_i hcredited
      rw [hcredited.1, List.map_append]
      exact List.mem_append_right _ (List.mem_singleton.mpr rfl)
    · exact mem_payments_exec d (hrecorded orderId hpos)

/-- **Paid time is credited once exactly if nothing raises behind a commit**: a call that
reports failure has left the database of the bot unchanged if and only if, where it
commits the days, the steps after that go through; and from orders that are settled, a
sequence of approvals and rejections keeps them settled after every attempt if and only
if each of its attempts is of this kind. -/
theorem creditsOnce_iff :
    (∀ (call : Call T) (st : Stores),
      ((call.exec lib st).1 = true → (call.exec lib st).2.bot = st.bot) ↔
        call.Clean lib st.bot) ∧
    ∀ (p : Stores × Ledger) (ds : List (Decision T)), Settled p → Recorded p →
      (Meets (recording (step lib) (tally lib))
          (fun p d => ∀ p' ∈ recording (step lib) (tally lib) p d, Settled p') p ds ↔
        Meets (recording (step lib) (tally lib)) (fun p d => d.Clean lib p.1.bot) p ds) := by
  refine ⟨fun call st => call.unchanged_iff st, fun p ds hsettled hrecorded => ?_⟩
  have hstep : ∀ (p : Stores × Ledger) (d : Decision T),
      recording (step lib) (tally lib) p d = some ((d.exec lib p.1).2, tally lib p.1 p.2 d) :=
    fun _ _ => rfl
  constructor
  · refine Meets.imp (I := fun p => Settled p ∧ Recorded p) ?_ ?_ ⟨hsettled, hrecorded⟩
    · intro p d q h hok hq
      obtain rfl := Option.some.inj ((hstep p d).symm.trans hq)
      exact ⟨hok _ (hstep p d), recorded_exec h.2 d⟩
    · intro p d h hok
      exact (d.settled_iff h.1 h.2).mp (hok _ (hstep p d))
  · refine Meets.imp (I := fun p => Settled p ∧ Recorded p) ?_ ?_ ⟨hsettled, hrecorded⟩
    · intro p d q h hclean hq
      obtain rfl := Option.some.inj ((hstep p d).symm.trans hq)
      exact ⟨(d.settled_iff h.1 h.2).mpr hclean, recorded_exec h.2 d⟩
    · intro p d h hclean q hq
      obtain rfl := Option.some.inj ((hstep p d).symm.trans hq)
      exact (d.settled_iff h.1 h.2).mpr hclean

end

/-! ### A run that credits days without approving the order -/

/-- A calendar that counts the days and writes them as strokes. -/
def dayLibrary : Library ℕ where
  strptime := fun date => some date.toList.length
  strftime := fun t => String.ofList (List.replicate t '|')
  addDays := fun t days => .ok (t + days.toNat)
  stripUpper := id

/-- A user with one pending order. -/
def oneOrder : Stores where
  bot := {
    users := .insert (7 : ℤ) ⟨some "ann", "token", "key", none, false, false, false⟩ ∅
    payments := []
    promocodes := ∅
    promocodeUses := []
    orders := .insert "ORD-10000"
      ⟨7, some "ann", some "Ann", "1_month", 100, "RUB", "pending", none, none⟩ ∅ }
  server := ∅

/-- Approving it while the database of the server cannot be opened. -/
def approveUnsynced : Decision ℕ where
  verdict := .approve
  orderId := "ORD-10000"
  adminId := 1
  outcomes := { Outcomes.clear with initServerDb := some "unable to open database file" }
  now := 0
  later := 0

/-- Approving it again when everything works. -/
def approveAgain : Decision ℕ := { approveUnsynced with outcomes := .clear }

/-- Nothing is credited yet. -/
def noCredits : Ledger := fun _ => 0

theorem settled_oneOrder : Settled (oneOrder, noCredits) := by
  intro orderId order horder
  have hlookup : oneOrder.bot.orders.lookup orderId = some order := horder
  simp only [oneOrder] at hlookup
  by_cases heq : orderId = "ORD-10000"
  · rw [heq, AList.lookup_insert] at hlookup
    obtain rfl := Option.some.inj hlookup
    exact iff_of_false (by decide) (by simp [noCredits])
  · rw [AList.lookup_insert_ne heq, AList.lookup_empty] at hlookup
    cases hlookup

/-- **The days are credited, and the call reports failure**: the order stays pending, and
a second attempt meets the unique payment id. -/
theorem not_creditsOnce :
    ((approveUnsynced.exec dayLibrary oneOrder).1 = true ∧
      (approveUnsynced.exec dayLibrary oneOrder).2.bot ≠ oneOrder.bot) ∧
    Settled (oneOrder, noCredits) ∧
    ∃ p, runs (recording (step dayLibrary) (tally dayLibrary)) (oneOrder, noCredits)
        [approveUnsynced, approveAgain] = some p ∧ ¬Settled p := by
  refine ⟨⟨by decide +kernel, fun h => ?_⟩, settled_oneOrder, _, rfl, fun h => ?_⟩
  · have hlength := congrArg (fun bot => bot.payments.length) h
    exact absurd hlength (by decide +kernel)
  · have horder := h "ORD-10000"
      ⟨7, some "ann", some "Ann", "1_month", 100, "RUB", "pending", none, none⟩ (by decide +kernel)
    exact absurd (horder.mpr (by decide +kernel)) (by decide)

/-- The rule for runs, where everything works: the order is approved, and the user has the
thirty days of its plan once. -/
theorem creditsOnce_approved :
    Meets (recording (step dayLibrary) (tally dayLibrary))
        (fun p d => ∀ p' ∈ recording (step dayLibrary) (tally dayLibrary) p d, Settled p')
        (oneOrder, noCredits) [approveAgain, approveAgain] ∧
      ((approveAgain.exec dayLibrary oneOrder).2.bot.users.lookup 7).map User.subExpiresAt =
        some (some (dayLibrary.strftime 30)) := by
  refine ⟨(creditsOnce_iff.2 (oneOrder, noCredits) _ settled_oneOrder ?_).mpr ?_,
    by decide +kernel⟩
  · exact fun orderId hpos => absurd hpos (Nat.lt_irrefl 0)
  · have hclean : ∀ bot : BotDb, approveAgain.Clean dayLibrary bot :=
      fun bot _ _ _ _ _ _ => ⟨⟨rfl, rfl⟩, rfl, rfl⟩
    exact ⟨hclean _, fun p _ => ⟨hclean _, fun _ _ => trivial⟩⟩

end Bot

end Aegs
