import PolyglotTicketing.Contracts.Payments
import PolyglotTicketing.Transaction.Program

/-!
# The database of Payments

The tables of `apps/payments/migrations` and the SQL statements of
`apps/payments/internal/payment/postgres_repository.go` as an `Engine`.

A payment has two keys: its identifier and its order (`UNIQUE`). The claim of a pending payment
skips the rows that other transactions have locked (`SKIP LOCKED`); all other statements that
meet such a row wait.
-/

namespace Payments

open Platform Contracts Relational Transaction

/-- The enumeration `payment_order_status`. -/
inductive OrderStatus where
  | created
  | canceled
  | awaitingPayment
  | complete
deriving DecidableEq

/-- The enumeration `payment_status`. -/
inductive Status where
  | pending
  | succeeded
  | failed
deriving DecidableEq

/-- The Go type `ProcessorOutcome`, a string with two values that mean something. -/
inductive ProcessorOutcome where
  | success
  | failure
  | other (value : String)
deriving DecidableEq

/-- The errors of `payment.go` that the repository and the handler of order events return. -/
inductive Err where
  | invalidOrderEvent
  | orderEventVersionGap
  | orderNotFound
  | orderNotPayable
  | invalidOutcome (outcome : ProcessorOutcome)
  /-- `cannot publish result for payment status …`. -/
  | unpublishableStatus (status : Status)
deriving DecidableEq

/-- A row of `orders`, the projection of the orders that Payments owns. -/
structure Order where
  aggregateVersion : Int
  id : Uuid
  price : Int
  status : OrderStatus
  userID : String
deriving DecidableEq

/-- A row of `payments`. -/
structure Payment where
  id : Uuid
  orderID : Uuid
  status : Status
deriving DecidableEq

instance : Keyed Order Uuid := ⟨Order.id⟩
instance : Keyed Payment Uuid := ⟨Payment.id⟩

@[simp]
theorem key_order (o : Order) : key o = o.id := rfl

@[simp]
theorem key_payment (p : Payment) : key p = p.id := rfl

/-- The tables of Payments. -/
structure Db where
  orders : Table Order
  payments : Table Payment
  processedEvents : List Uuid
  outboxEvents : Table (OutboxEvent PaymentEvent)

/-- The database after the migrations. -/
def Db.init : Db := ⟨.empty, .empty, [], .empty⟩

/-- A row that a transaction writes. -/
inductive Write where
  | insertOrder (o : Order)
  | updateOrder (o : Order)
  | insertPayment (p : Payment)
  | updatePayment (p : Payment)
  | insertProcessedEvent (eventID : Uuid)
  | insertOutboxEvent (e : OutboxEvent PaymentEvent)

/-- What a row lock is on. -/
inductive Key where
  | order (id : Uuid)
  | payment (id : Uuid)
  | paymentOrder (orderID : Uuid)
  | processedEvent (eventID : Uuid)
  | outboxEvent (eventID : Uuid)
deriving DecidableEq

/-- The statements of the repository. -/
inductive Stmt where
  /-- `SELECT … FROM orders WHERE id = … FOR UPDATE`. -/
  | selectOrderForUpdate (id : Uuid)
  /-- `SELECT … FROM payments WHERE order_id = …`. -/
  | selectPaymentByOrder (orderID : Uuid)
  /-- `INSERT INTO payments … RETURNING …`. -/
  | insertPayment (orderID : Uuid)
  /-- `SELECT … FROM payments WHERE status = 'Pending' ORDER BY id FOR UPDATE SKIP LOCKED
  LIMIT 1`. -/
  | claimPendingPayment
  /-- `UPDATE payments SET status WHERE id = …`. -/
  | updatePaymentStatus (id : Uuid) (status : Status)
  /-- `INSERT INTO outbox_events …`, for an event identifier and a time that the service has
  generated. -/
  | insertOutboxEvent (subject : String) (payload : Uuid → Int → PaymentEvent)
  /-- `INSERT INTO processed_events … ON CONFLICT DO NOTHING RETURNING …`. -/
  | insertProcessedEvent (eventID : Uuid)
  /-- `INSERT INTO orders …`. -/
  | insertOrder (o : Order)
  /-- `UPDATE orders SET status, aggregate_version WHERE id = …`. -/
  | updateOrder (id : Uuid) (status : OrderStatus) (aggregateVersion : Int)

/-- The replies: `none` and `false` stand for `pgx.ErrNoRows`. -/
abbrev Res : Stmt → Type
  | .selectOrderForUpdate _ => Option Order
  | .selectPaymentByOrder _ => Option Payment
  | .insertPayment _ => Payment
  | .claimPendingPayment => Option Payment
  | .updatePaymentStatus _ _ => Unit
  | .insertOutboxEvent _ _ => Unit
  | .insertProcessedEvent _ => Bool
  | .insertOrder _ => Unit
  | .updateOrder _ _ _ => Unit

/-- The payment of an order. -/
def paymentOf (db : Db) (orderID : Uuid) : Option Payment :=
  db.payments.rows.find? fun p => decide (p.orderID = orderID)

/-- The pending payment with the least identifier among those that no one else has locked. -/
def claimablePayment (locked : List Key) (payments : List Payment) : Option Payment :=
  let candidates := payments.filter fun p =>
    decide (p.status = .pending ∧ .payment p.id ∉ locked)
  candidates.find? fun p => candidates.all fun p' => decide (p.id ≤ p'.id)

/-- The effect of a written row. -/
def apply (db : Db) : Write → Db
  | .insertOrder o => { db with orders := db.orders.insert o }
  | .updateOrder o => { db with orders := db.orders.replace o }
  | .insertPayment p => { db with payments := db.payments.insert p }
  | .updatePayment p => { db with payments := db.payments.replace p }
  | .insertProcessedEvent e => { db with processedEvents := e :: db.processedEvents }
  | .insertOutboxEvent e => { db with outboxEvents := db.outboxEvents.insert e }

/-- The row locks a statement takes. -/
def locks (s : Stmt) (context : Context Int Key Fresh) (db : Db) : List Key :=
  match s with
  | .selectOrderForUpdate id => if (db.orders.find? id).isSome then [.order id] else []
  | .selectPaymentByOrder _ => []
  -- The order of a payment is unique, so that its key is locked as well.
  | .insertPayment orderID => [.payment context.fresh.id, .paymentOrder orderID]
  | .claimPendingPayment =>
    ((claimablePayment context.locked db.payments.rows).map fun p => Key.payment p.id).toList
  | .updatePaymentStatus id _ => if (db.payments.find? id).isSome then [.payment id] else []
  | .insertOutboxEvent _ _ => [.outboxEvent context.fresh.id]
  | .insertProcessedEvent e => if e ∈ db.processedEvents then [] else [.processedEvent e]
  | .insertOrder o => [.order o.id]
  | .updateOrder id _ _ => if (db.orders.find? id).isSome then [.order id] else []

/-- The `CHECK` constraints of `orders`. -/
def Order.Checks (o : Order) : Prop := 0 ≤ o.aggregateVersion ∧ 0 < o.price

instance (o : Order) : Decidable o.Checks := inferInstanceAs (Decidable (_ ∧ _))

/-- The effect of a statement. -/
def exec (s : Stmt) (context : Context Int Key Fresh) (db : Db) : Option (Res s × List Write) :=
  match s with
  | .selectOrderForUpdate id => some (db.orders.find? id, [])
  | .selectPaymentByOrder orderID => some (paymentOf db orderID, [])
  | .insertPayment orderID =>
    let row : Payment := { id := context.fresh.id, orderID, status := .pending }
    -- The primary key, the unique order, and the foreign key `order_id`.
    if (db.payments.find? row.id).isNone ∧ (paymentOf db orderID).isNone ∧
        (db.orders.find? orderID).isSome then
      some (row, [.insertPayment row])
    else none
  | .claimPendingPayment => some (claimablePayment context.locked db.payments.rows, [])
  | .updatePaymentStatus id status =>
    match db.payments.find? id with
    | none => some ((), [])
    | some p => some ((), [.updatePayment { p with status := status }])
  | .insertOutboxEvent subject payload =>
    let row := OutboxEvent.write subject payload context.sequence context.fresh
    if (db.outboxEvents.find? row.eventID).isNone then some ((), [.insertOutboxEvent row])
    else none
  | .insertProcessedEvent e =>
    if e ∈ db.processedEvents then some (false, []) else some (true, [.insertProcessedEvent e])
  | .insertOrder o =>
    if o.Checks ∧ (db.orders.find? o.id).isNone then some ((), [.insertOrder o]) else none
  | .updateOrder id status aggregateVersion =>
    match db.orders.find? id with
    | none => some ((), [])
    | some o =>
      let row := { o with status := status, aggregateVersion := aggregateVersion }
      -- The row is checked as it will be.
      if row.Checks then some ((), [.updateOrder row]) else none

/-- Only an insertion into `outbox_events` draws from an identity sequence. -/
def draws : Stmt → ℕ
  | .insertOutboxEvent _ _ => 1
  | _ => 0

/-- The database server of Payments. -/
def engine : Engine Int Db Write Key Fresh Stmt Res := ⟨apply, locks, exec, draws⟩

/-- The result type of transactions of Payments. -/
abbrev Tx (α : Type) := Program Stmt Res Err α

/-- Rows of Payments with the clock and the outbox sequence of their server. -/
abbrev State := World Int Db

/-- The payment of an order is one of the rows, and is the order's. -/
theorem paymentOf_some {db : Db} {orderID : Uuid} {p : Payment}
    (h : paymentOf db orderID = some p) : p ∈ db.payments.rows ∧ p.orderID = orderID :=
  ⟨List.mem_of_find?_eq_some h, by simpa using List.find?_some h⟩

/-- An order without a payment. -/
theorem paymentOf_eq_none_iff {db : Db} {orderID : Uuid} :
    paymentOf db orderID = none ↔ ∀ p ∈ db.payments.rows, p.orderID ≠ orderID := by
  simp [paymentOf, List.find?_eq_none]

/-- A claimed payment is pending, and no one else has locked it. -/
theorem claimablePayment_some {locked : List Key} {payments : List Payment} {p : Payment}
    (h : claimablePayment locked payments = some p) :
    p ∈ payments ∧ p.status = .pending ∧ .payment p.id ∉ locked := by
  have hmem := List.mem_of_find?_eq_some h
  simpa using hmem

section Exec

variable {context : Context Int Key Fresh} {db : Db} {ws : List Write}

/-- Recording an event: it is a duplicate, or it is new and gets locked. -/
theorem exec_insertProcessedEvent {e : Uuid} {r : Bool}
    (h : engine.exec (.insertProcessedEvent e) context db = some (r, ws)) :
    (e ∈ db.processedEvents ∧ r = false ∧ ws = []) ∨
      (e ∉ db.processedEvents ∧ r = true ∧ ws = [.insertProcessedEvent e] ∧
        engine.locks (.insertProcessedEvent e) context db = [.processedEvent e]) := by
  simp only [engine, exec] at h
  split at h
  next hmem => exact Or.inl ⟨hmem, by simpa [eq_comm] using h⟩
  next hmem =>
    obtain ⟨rfl, rfl⟩ : true = r ∧ [.insertProcessedEvent e] = ws := by simpa using h
    exact Or.inr ⟨hmem, rfl, rfl, by simp [engine, locks, hmem]⟩

/-- An order that is selected for an update gets locked. -/
theorem exec_selectOrderForUpdate {id : Uuid} {r : Option Order}
    (h : engine.exec (.selectOrderForUpdate id) context db = some (r, ws)) :
    db.orders.find? id = r ∧ ws = [] ∧
      engine.locks (.selectOrderForUpdate id) context db =
        if r.isSome then [.order id] else [] := by
  obtain ⟨rfl, rfl⟩ : db.orders.find? id = r ∧ [] = ws := by simpa [engine, exec] using h
  exact ⟨rfl, rfl, rfl⟩

/-- The query for the payment of an order. -/
theorem exec_selectPaymentByOrder {orderID : Uuid} {r : Option Payment}
    (h : engine.exec (.selectPaymentByOrder orderID) context db = some (r, ws)) :
    paymentOf db orderID = r ∧ ws = [] := by
  obtain ⟨rfl, rfl⟩ : paymentOf db orderID = r ∧ [] = ws := by simpa [engine, exec] using h
  exact ⟨rfl, rfl⟩

/-- An insertion of a payment that succeeds locks both keys of the new row. -/
theorem exec_insertPayment {orderID : Uuid} {r : Payment}
    (h : engine.exec (.insertPayment orderID) context db = some (r, ws)) :
    r = ⟨context.fresh.id, orderID, .pending⟩ ∧ db.payments.find? context.fresh.id = none ∧
      paymentOf db orderID = none ∧ ws = [.insertPayment r] ∧
      engine.locks (.insertPayment orderID) context db =
        [.payment context.fresh.id, .paymentOrder orderID] := by
  simp only [engine, exec] at h
  split at h
  next hok =>
    obtain ⟨rfl, rfl⟩ : _ = r ∧ _ = ws := by simpa using h
    exact ⟨rfl, by simpa using hok.1, by simpa using hok.2.1, rfl, rfl⟩
  next => simp at h

/-- A claimed payment gets locked. -/
theorem exec_claimPendingPayment {r : Option Payment}
    (h : engine.exec .claimPendingPayment context db = some (r, ws)) :
    claimablePayment context.locked db.payments.rows = r ∧ ws = [] ∧
      engine.locks .claimPendingPayment context db = (r.map fun p => .payment p.id).toList := by
  obtain ⟨rfl, rfl⟩ : claimablePayment context.locked db.payments.rows = r ∧ [] = ws := by
    simpa [engine, exec] using h
  exact ⟨rfl, rfl, rfl⟩

/-- An update of the status of a payment. -/
theorem exec_updatePaymentStatus {id : Uuid} {status : Status} {p : Payment} {r : Unit}
    (h : engine.exec (.updatePaymentStatus id status) context db = some (r, ws))
    (hfind : db.payments.find? id = some p) :
    ws = [.updatePayment { p with status := status }] := by
  simp only [engine, exec, hfind] at h
  simpa [eq_comm] using h

/-- An insertion into the outbox that succeeds locks the key of the new row. -/
theorem exec_insertOutboxEvent {subject : String} {payload : Uuid → Int → PaymentEvent} {r : Unit}
    (h : engine.exec (.insertOutboxEvent subject payload) context db = some (r, ws)) :
    db.outboxEvents.find? context.fresh.id = none ∧
      ws = [.insertOutboxEvent
        (OutboxEvent.write subject payload context.sequence context.fresh)] ∧
      engine.locks (.insertOutboxEvent subject payload) context db =
        [.outboxEvent context.fresh.id] := by
  simp only [engine, exec] at h
  split at h
  next hnone =>
    exact ⟨by simpa [OutboxEvent.write] using hnone, by simpa [eq_comm] using h, rfl⟩
  next => simp at h

/-- An insertion of an order that succeeds locks the key of the new row. -/
theorem exec_insertOrder {o : Order} {r : Unit}
    (h : engine.exec (.insertOrder o) context db = some (r, ws)) :
    o.Checks ∧ db.orders.find? o.id = none ∧ ws = [.insertOrder o] ∧
      engine.locks (.insertOrder o) context db = [.order o.id] := by
  simp only [engine, exec] at h
  split at h
  next hok => exact ⟨hok.1, by simpa using hok.2, by simpa [eq_comm] using h, rfl⟩
  next => simp at h

/-- An update of an order. -/
theorem exec_updateOrder {id : Uuid} {status : OrderStatus} {version : Int} {o : Order} {r : Unit}
    (h : engine.exec (.updateOrder id status version) context db = some (r, ws))
    (hfind : db.orders.find? id = some o) :
    ws = [.updateOrder { o with status := status, aggregateVersion := version }] := by
  simp only [engine, exec, hfind] at h
  split at h
  next => simpa [eq_comm] using h
  next => simp at h

end Exec

end Payments
