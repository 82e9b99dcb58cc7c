import PolyglotTicketing.Contracts.Orders
import PolyglotTicketing.Transaction.Program

/-!
# The database of Orders

The tables of `apps/orders/migrations` and the SQL statements of
`apps/orders/internal/order/postgres_repository.go` as an `Engine`.

A `CHECK`, a primary key or the foreign key `orders.ticket_id → tickets.id` that a write would
violate makes the statement fail. A row lock is taken by `SELECT … FOR UPDATE` and by `UPDATE` on
the row they find, and by an insertion on the key it inserts: until the transaction ends, another
insertion of the same key waits to see whether it becomes a conflict.
-/

namespace Orders

open Platform Contracts Relational Transaction

/-- The enumeration `order_status`. -/
inductive Status where
  | created
  | canceled
  | awaitingPayment
  | complete
deriving DecidableEq

/-- The errors of `order.go` that the repository returns. -/
inductive Err where
  | notFound
  | orderNotCancelable
  | orderNotFound
  | reserved
  | ticketEventVersionGap
deriving DecidableEq

/-- A row of `tickets`, the projection of the tickets that Orders owns. -/
structure Ticket where
  aggregateVersion : Int
  id : Uuid
  title : String
  price : Int
deriving DecidableEq

/-- A row of `orders`. -/
structure Order where
  aggregateVersion : Int
  expiresAt : Int
  id : Uuid
  status : Status
  ticketID : Uuid
  userID : String
deriving DecidableEq

instance : Keyed Ticket Uuid := ⟨Ticket.id⟩
instance : Keyed Order Uuid := ⟨Order.id⟩

@[simp]
theorem key_ticket (t : Ticket) : key t = t.id := rfl

@[simp]
theorem key_order (o : Order) : key o = o.id := rfl

/-- The tables of Orders. -/
structure Db where
  tickets : Table Ticket
  orders : Table Order
  processedEvents : List Uuid
  outboxEvents : Table (OutboxEvent OrderEvent)

/-- The database after the migrations. -/
def Db.init : Db := ⟨.empty, .empty, [], .empty⟩

/-- A row that a transaction writes. -/
inductive Write where
  | insertTicket (t : Ticket)
  | updateTicket (t : Ticket)
  | insertOrder (o : Order)
  | updateOrder (o : Order)
  | insertProcessedEvent (eventID : Uuid)
  | insertOutboxEvent (e : OutboxEvent OrderEvent)

/-- What a row lock is on. -/
inductive Key where
  | ticket (id : Uuid)
  | order (id : Uuid)
  | processedEvent (eventID : Uuid)
  | outboxEvent (eventID : Uuid)
deriving DecidableEq

/-- The statements of the repository. -/
inductive Stmt where
  /-- `SELECT … FROM tickets WHERE id = … FOR UPDATE`. -/
  | selectTicketForUpdate (id : Uuid)
  /-- The query of `findBlockingOrder`. -/
  | selectBlockingOrder (ticketID : Uuid)
  /-- `INSERT INTO orders … RETURNING …`. -/
  | insertOrder (expiresAt : Int) (userID : String) (ticketID : Uuid) (status : Status)
  /-- `INSERT INTO outbox_events …`, for an event identifier and a time that the service has
  generated. -/
  | insertOutboxEvent (subject : String) (payload : Uuid → Int → OrderEvent)
  /-- `UPDATE orders SET status = target, aggregate_version = aggregate_version + 1 WHERE id = …
  [AND user_id = …] AND status IN (sources) RETURNING …`. -/
  | updateOrderStatus (id : Uuid) (userID : Option String) (sources : List Status)
      (target : Status)
  /-- `SELECT … FROM orders WHERE id = … AND user_id = …`. -/
  | selectOrder (id : Uuid) (userID : String)
  /-- `INSERT INTO processed_events … ON CONFLICT DO NOTHING RETURNING …`. -/
  | insertProcessedEvent (eventID : Uuid)
  /-- `INSERT INTO tickets …`. -/
  | insertTicket (t : Ticket)
  /-- `UPDATE tickets SET title, price, aggregate_version WHERE id = …`. -/
  | updateTicket (t : Ticket)

/-- The replies: `none` and `false` stand for `pgx.ErrNoRows`. -/
abbrev Res : Stmt → Type
  | .selectTicketForUpdate _ => Option Ticket
  | .selectBlockingOrder _ => Option Order
  | .insertOrder _ _ _ _ => Order
  | .insertOutboxEvent _ _ => Unit
  | .updateOrderStatus _ _ _ _ => Option Order
  | .selectOrder _ _ => Option Order
  | .insertProcessedEvent _ => Bool
  | .insertTicket _ => Unit
  | .updateTicket _ => Unit

/-- The `WHERE` clause of `findBlockingOrder`. -/
def Order.Blocks (now : Int) (ticketID : Uuid) (o : Order) : Prop :=
  o.ticketID = ticketID ∧
    (o.status = .complete ∨ (o.status ∈ [.created, .awaitingPayment] ∧ now < o.expiresAt))

instance (now : Int) (ticketID : Uuid) (o : Order) : Decidable (o.Blocks now ticketID) :=
  inferInstanceAs (Decidable (_ ∧ _))

/-- `CASE WHEN status = 'Complete' THEN 0 ELSE 1 END`. -/
def Order.rank (o : Order) : ℕ := if o.status = .complete then 0 else 1

/-- The `ORDER BY` clause of `findBlockingOrder` lets `o` come before `o'`. -/
def Order.Precedes (o o' : Order) : Prop :=
  o.rank < o'.rank ∨ (o.rank = o'.rank ∧ o'.expiresAt ≤ o.expiresAt)

instance (o o' : Order) : Decidable (o.Precedes o') := inferInstanceAs (Decidable (_ ∨ _))

/-- The row that the query of `findBlockingOrder` returns. Among rows that `ORDER BY` does not
tell apart, `tie` chooses. -/
def blockingOrder (now : Int) (ticketID : Uuid) (tie : ℕ) (orders : List Order) : Option Order :=
  let candidates := orders.filter fun o => decide (o.Blocks now ticketID)
  -- `LIMIT 1`, after the `ORDER BY` clause.
  let first := candidates.filter fun o => candidates.all fun o' => decide (o.Precedes o')
  first[tie]?.or first.head?

/-- The row that an `UPDATE` of the status finds. -/
def updatableOrder (db : Db) (id : Uuid) (userID : Option String) (sources : List Status) :
    Option Order :=
  (db.orders.find? id).filter fun o =>
    decide ((∀ user ∈ userID, o.userID = user) ∧ o.status ∈ sources)

/-- The row after an `UPDATE` of the status. -/
def Order.withStatus (o : Order) (target : Status) : Order :=
  { o with status := target, aggregateVersion := o.aggregateVersion + 1 }

/-- The effect of a written row. -/
def apply (db : Db) : Write → Db
  | .insertTicket t => { db with tickets := db.tickets.insert t }
  | .updateTicket t => { db with tickets := db.tickets.replace t }
  | .insertOrder o => { db with orders := db.orders.insert o }
  | .updateOrder o => { db with orders := db.orders.replace o }
  | .insertProcessedEvent e => { db with processedEvents := e :: db.processedEvents }
  | .insertOutboxEvent e => { db with outboxEvents := db.outboxEvents.insert e }

/-- The row locks a statement takes. -/
def locks (s : Stmt) (context : Context Int Key Fresh) (db : Db) : List Key :=
  match s with
  | .selectTicketForUpdate id => if (db.tickets.find? id).isSome then [.ticket id] else []
  | .selectBlockingOrder _ => []
  | .insertOrder _ _ _ _ => [.order context.fresh.id]
  | .insertOutboxEvent _ _ => [.outboxEvent context.fresh.id]
  | .updateOrderStatus id userID sources _ =>
    if (updatableOrder db id userID sources).isSome then [.order id] else []
  | .selectOrder _ _ => []
  -- With `ON CONFLICT DO NOTHING` a key that is taken is not waited for.
  | .insertProcessedEvent e => if e ∈ db.processedEvents then [] else [.processedEvent e]
  | .insertTicket t => [.ticket t.id]
  | .updateTicket t => if (db.tickets.find? t.id).isSome then [.ticket t.id] else []

/-- The `CHECK` constraints of `tickets`. -/
def Ticket.Checks (t : Ticket) : Prop := 0 < t.price ∧ 0 ≤ t.aggregateVersion

instance (t : Ticket) : Decidable t.Checks := inferInstanceAs (Decidable (_ ∧ _))

/-- The effect of a statement. -/
def exec (s : Stmt) (context : Context Int Key Fresh) (db : Db) : Option (Res s × List Write) :=
  match s with
  | .selectTicketForUpdate id => some (db.tickets.find? id, [])
  | .selectBlockingOrder ticketID =>
    some (blockingOrder context.now ticketID context.fresh.tie db.orders.rows, [])
  | .insertOrder expiresAt userID ticketID status =>
    let row : Order :=
      { aggregateVersion := 0, expiresAt, id := context.fresh.id, status, ticketID, userID }
    -- The primary key and the foreign key `ticket_id`.
    if (db.orders.find? row.id).isNone ∧ (db.tickets.find? ticketID).isSome then
      some (row, [.insertOrder row])
    else none
  | .insertOutboxEvent subject payload =>
    let row := OutboxEvent.write subject payload context.sequence context.fresh
    if (db.outboxEvents.find? row.eventID).isNone then some ((), [.insertOutboxEvent row])
    else none
  | .updateOrderStatus id userID sources target =>
    match updatableOrder db id userID sources with
    | none => some (none, [])
    | some o => some (some (o.withStatus target), [.updateOrder (o.withStatus target)])
  | .selectOrder id userID =>
    some ((db.orders.find? id).filter fun o => decide (o.userID = userID), [])
  | .insertProcessedEvent e =>
    if e ∈ db.processedEvents then some (false, []) else some (true, [.insertProcessedEvent e])
  | .insertTicket t =>
    if t.Checks ∧ (db.tickets.find? t.id).isNone then some ((), [.insertTicket t]) else none
  | .updateTicket t =>
    -- An update that finds no row violates no constraint.
    if t.Checks ∨ (db.tickets.find? t.id).isNone then some ((), [.updateTicket t]) else none

/-- Only an insertion into `outbox_events` draws from an identity sequence. -/
def draws : Stmt → ℕ
  | .insertOutboxEvent _ _ => 1
  | _ => 0

/-- The database server of Orders. -/
def engine : Engine Int Db Write Key Fresh Stmt Res := ⟨apply, locks, exec, draws⟩

/-- The result type of transactions of Orders. -/
abbrev Tx (α : Type) := Program Stmt Res Err α

/-- Rows of Orders with the clock and the outbox sequence of their server. -/
abbrev State := World Int Db

section BlockingOrder

variable {now : Int} {ticketID : Uuid} {tie : ℕ} {orders : List Order}

theorem Order.Precedes.refl (o : Order) : o.Precedes o := Or.inr ⟨rfl, Int.le_refl _⟩

theorem Order.Precedes.total (o o' : Order) : o.Precedes o' ∨ o'.Precedes o := by
  unfold Order.Precedes
  omega

theorem Order.Precedes.trans {a b c : Order} (hab : a.Precedes b) (hbc : b.Precedes c) :
    a.Precedes c := by
  unfold Order.Precedes at *
  omega

/-- Of two orders that are not complete, the one that expires last comes first. -/
theorem Order.Precedes.expiresAt_le {o o' : Order} (h : o.Precedes o')
    (hstatus : o.status ≠ .complete) : o'.expiresAt ≤ o.expiresAt := by
  unfold Order.Precedes Order.rank at h
  rw [if_neg hstatus] at h
  split at h <;> omega

/-- A nonempty list of orders has one that precedes all of them. -/
private theorem exists_first (o : Order) (rest : List Order) :
    ∃ f ∈ o :: rest, ∀ x ∈ o :: rest, f.Precedes x := by
  induction rest generalizing o with
  | nil => exact ⟨o, by simp, by simpa using Order.Precedes.refl o⟩
  | cons o' rest ih =>
    obtain ⟨f, hf, hfirst⟩ := ih o'
    rcases Order.Precedes.total o f with hof | hfo
    · refine ⟨o, by simp, ?_⟩
      intro x hx
      rcases List.mem_cons.mp hx with rfl | hx
      · exact Order.Precedes.refl x
      · exact hof.trans (hfirst x hx)
    · refine ⟨f, List.mem_cons_of_mem _ hf, ?_⟩
      intro x hx
      rcases List.mem_cons.mp hx with rfl | hx
      · exact hfo
      · exact hfirst x hx

/-- The row that `findBlockingOrder` returns blocks the ticket, and `ORDER BY` puts no other such
row before it. -/
theorem blockingOrder_some {o : Order}
    (h : blockingOrder now ticketID tie orders = some o) :
    o ∈ orders ∧ o.Blocks now ticketID ∧
      ∀ o' ∈ orders, o'.Blocks now ticketID → o.Precedes o' := by
  unfold blockingOrder at h
  dsimp only at h
  have hmem : o ∈ (orders.filter fun o => decide (o.Blocks now ticketID)).filter fun o =>
      (orders.filter fun o => decide (o.Blocks now ticketID)).all
        fun o' => decide (o.Precedes o') := by
    rcases Option.or_eq_some_iff.mp h with h | ⟨-, h⟩
    · exact List.mem_of_getElem? h
    · exact List.mem_of_head? h
  simp only [List.mem_filter, List.all_eq_true, decide_eq_true_eq] at hmem
  obtain ⟨⟨hin, hblocks⟩, hfirst⟩ := hmem
  exact ⟨hin, hblocks, fun o' hin' hblocks' => hfirst o' ⟨hin', hblocks'⟩⟩

/-- `findBlockingOrder` finds nothing exactly if no row blocks the ticket. -/
theorem blockingOrder_eq_none_iff :
    blockingOrder now ticketID tie orders = none ↔ ∀ o ∈ orders, ¬o.Blocks now ticketID := by
  constructor
  · -- A row that blocks the ticket is a candidate, and one of the candidates comes first.
    intro h o hin hblocks
    unfold blockingOrder at h
    dsimp only at h
    generalize hcands : (orders.filter fun o => decide (o.Blocks now ticketID)) = candidates at h
    have ho : o ∈ candidates := by
      rw [← hcands]
      simpa using ⟨hin, hblocks⟩
    cases candidates with
    | nil => simp at ho
    | cons c rest =>
      obtain ⟨f, hf, hfirst⟩ := exists_first c rest
      have hmem : f ∈ (c :: rest).filter fun o =>
          (c :: rest).all fun o' => decide (o.Precedes o') := by
        rw [List.mem_filter, List.all_eq_true]
        exact ⟨hf, fun x hx => by simpa using hfirst x hx⟩
      obtain ⟨-, hhead⟩ := Option.or_eq_none_iff.mp h
      rw [List.head?_eq_none_iff] at hhead
      rw [hhead] at hmem
      simp at hmem
  · intro h
    cases hfind : blockingOrder now ticketID tie orders with
    | none => rfl
    | some o =>
      obtain ⟨hin, hblocks, -⟩ := blockingOrder_some hfind
      exact absurd hblocks (h o hin)

end BlockingOrder

/-- The rows that `updatableOrder` finds. -/
theorem updatableOrder_eq_some_iff {db : Db} {id : Uuid} {userID : Option String}
    {sources : List Status} {o : Order} :
    updatableOrder db id userID sources = some o ↔
      db.orders.find? id = some o ∧ (∀ user ∈ userID, o.userID = user) ∧ o.status ∈ sources := by
  simp [updatableOrder, Option.filter_eq_some_iff]

/-- When `updatableOrder` finds nothing. -/
theorem updatableOrder_eq_none_iff {db : Db} {id : Uuid} {userID : Option String}
    {sources : List Status} :
    updatableOrder db id userID sources = none ↔
      ∀ o, db.orders.find? id = some o → (∀ user ∈ userID, o.userID = user) →
        o.status ∉ sources := by
  simp [updatableOrder, Option.filter_eq_none_iff]

section Exec

variable {context : Context Int Key Fresh} {db : Db} {ws : List Write}

/-- Recording an event: it is a duplicate, or it is new and gets locked. -/
theorem exec_insertProcessedEvent {e : Uuid} {r : Bool}
    (h : engine.exec (.insertProcessedEvent e) context db = some (r, ws)) :
    (e ∈ db.processedEvents ∧ r = false ∧ ws = []) ∨
      (e ∉ db.processedEvents ∧ r = true ∧ ws = [.insertProcessedEvent e] ∧
        engine.locks (.insertProcessedEvent e) context db = [.processedEvent e]) := by
  simp only [engine, exec] at h
  split at h
  next hmem => exact Or.inl ⟨hmem, by simpa [eq_comm] using h⟩
  next hmem =>
    obtain ⟨rfl, rfl⟩ : true = r ∧ [.insertProcessedEvent e] = ws := by simpa using h
    exact Or.inr ⟨hmem, rfl, rfl, by simp [engine, locks, hmem]⟩

/-- An update of the status of an order: there is none to update, or it gets locked. -/
theorem exec_updateOrderStatus {id : Uuid} {userID : Option String} {sources : List Status}
    {target : Status} {r : Option Order}
    (h : engine.exec (.updateOrderStatus id userID sources target) context db = some (r, ws)) :
    (updatableOrder db id userID sources = none ∧ r = none ∧ ws = [] ∧
        engine.locks (.updateOrderStatus id userID sources target) context db = []) ∨
      ∃ o, updatableOrder db id userID sources = some o ∧ r = some (o.withStatus target) ∧
        ws = [.updateOrder (o.withStatus target)] ∧
        engine.locks (.updateOrderStatus id userID sources target) context db = [.order id] := by
  simp only [engine, exec] at h
  split at h
  next hnone =>
    obtain ⟨rfl, rfl⟩ : none = r ∧ [] = ws := by simpa using h
    exact Or.inl ⟨hnone, rfl, rfl, by simp [engine, locks, hnone]⟩
  next o hsome =>
    obtain ⟨rfl, rfl⟩ : some (o.withStatus target) = r ∧
        [.updateOrder (o.withStatus target)] = ws := by
      simpa using h
    exact Or.inr ⟨o, hsome, rfl, rfl, by simp [engine, locks, hsome]⟩

/-- An insertion into the outbox that succeeds locks the key of the new row. -/
theorem exec_insertOutboxEvent {subject : String} {payload : Uuid → Int → OrderEvent} {r : Unit}
    (h : engine.exec (.insertOutboxEvent subject payload) context db = some (r, ws)) :
    db.outboxEvents.find? context.fresh.id = none ∧
      ws = [.insertOutboxEvent
        (OutboxEvent.write subject payload context.sequence context.fresh)] ∧
      engine.locks (.insertOutboxEvent subject payload) context db =
        [.outboxEvent context.fresh.id] := by
  simp only [engine, exec] at h
  split at h
  next hnone =>
    exact ⟨by simpa [OutboxEvent.write] using hnone, by simpa [eq_comm] using h, rfl⟩
  next => simp at h

/-- An insertion of an order that succeeds locks the key of the new row. -/
theorem exec_insertOrder {expiresAt : Int} {userID : String} {ticketID : Uuid} {status : Status}
    {r : Order} (h : engine.exec (.insertOrder expiresAt userID ticketID status) context db =
      some (r, ws)) :
    r = ⟨0, expiresAt, context.fresh.id, status, ticketID, userID⟩ ∧
      db.orders.find? context.fresh.id = none ∧ ws = [.insertOrder r] ∧
      engine.locks (.insertOrder expiresAt userID ticketID status) context db =
        [.order context.fresh.id] := by
  simp only [engine, exec] at h
  split at h
  next hok =>
    obtain ⟨rfl, rfl⟩ : _ = r ∧ _ = ws := by simpa using h
    exact ⟨rfl, by simpa using hok.1, rfl, rfl⟩
  next => simp at h

/-- A ticket that is selected for an update gets locked. -/
theorem exec_selectTicketForUpdate {id : Uuid} {r : Option Ticket}
    (h : engine.exec (.selectTicketForUpdate id) context db = some (r, ws)) :
    db.tickets.find? id = r ∧ ws = [] ∧
      engine.locks (.selectTicketForUpdate id) context db =
        if r.isSome then [.ticket id] else [] := by
  obtain ⟨rfl, rfl⟩ : db.tickets.find? id = r ∧ [] = ws := by simpa [engine, exec] using h
  exact ⟨rfl, rfl, rfl⟩

/-- The query of `findBlockingOrder`. -/
theorem exec_selectBlockingOrder {ticketID : Uuid} {r : Option Order}
    (h : engine.exec (.selectBlockingOrder ticketID) context db = some (r, ws)) :
    blockingOrder context.now ticketID context.fresh.tie db.orders.rows = r ∧ ws = [] := by
  obtain ⟨hr, rfl⟩ : _ = r ∧ [] = ws := by simpa [engine, exec] using h
  exact ⟨hr, rfl⟩

/-- An order is selected for its user only. -/
theorem exec_selectOrder {id : Uuid} {userID : String} {r : Option Order}
    (h : engine.exec (.selectOrder id userID) context db = some (r, ws)) :
    (∀ o ∈ r, db.orders.find? id = some o ∧ o.userID = userID) ∧ ws = [] := by
  obtain ⟨rfl, rfl⟩ :
      ((db.orders.find? id).filter fun o => decide (o.userID = userID)) = r ∧ [] = ws := by
    simpa [engine, exec] using h
  exact ⟨fun o ho => by simpa [Option.filter_eq_some_iff] using ho, rfl⟩

/-- An insertion of a ticket that succeeds locks the key of the new row. -/
theorem exec_insertTicket {t : Ticket} {r : Unit}
    (h : engine.exec (.insertTicket t) context db = some (r, ws)) :
    t.Checks ∧ db.tickets.find? t.id = none ∧ ws = [.insertTicket t] ∧
      engine.locks (.insertTicket t) context db = [.ticket t.id] := by
  simp only [engine, exec] at h
  split at h
  next hok => exact ⟨hok.1, by simpa using hok.2, by simpa [eq_comm] using h, rfl⟩
  next => simp at h

/-- What an update of a ticket writes. -/
theorem exec_updateTicket {t : Ticket} {r : Unit}
    (h : engine.exec (.updateTicket t) context db = some (r, ws)) :
    (t.Checks ∨ db.tickets.find? t.id = none) ∧ ws = [.updateTicket t] := by
  simp only [engine, exec] at h
  split at h
  next hok => exact ⟨by simpa using hok, by simpa [eq_comm] using h⟩
  next => simp at h

end Exec

end Orders
