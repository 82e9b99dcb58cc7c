import PolyglotTicketing.Contracts.Tickets
import PolyglotTicketing.Transaction.Program

/-!
# The database of Tickets

The tables of `apps/tickets/migrations` and the SQL statements of
`apps/tickets/internal/ticket/postgres_repository.go` as an `Engine`.

The column `reserved_by_order_id` holds the order that has locked a ticket against updates. The
three statements that change a ticket differ in the rows they match and in what they set; each of
them counts up the version.
-/

namespace Tickets

open Platform Contracts Relational Transaction

/-- The errors of `ticket.go` that the repository returns. -/
inductive Err where
  | notFound
  | orderReservationPending
  | reserved
  /-- `pgx.ErrNoRows`, where a method hands it on. -/
  | noRows
deriving DecidableEq

/-- A row of `tickets`. -/
structure Ticket where
  aggregateVersion : Int
  id : Uuid
  title : String
  price : Int
  reservedByOrderID : Option Uuid
  userID : String
deriving DecidableEq

instance : Keyed Ticket Uuid := ⟨Ticket.id⟩

@[simp]
theorem key_ticket (t : Ticket) : key t = t.id := rfl

/-- The tables of Tickets. -/
structure Db where
  tickets : Table Ticket
  processedEvents : List Uuid
  outboxEvents : Table (OutboxEvent TicketEvent)

/-- The database after the migrations. -/
def Db.init : Db := ⟨.empty, [], .empty⟩

/-- A row that a transaction writes. -/
inductive Write where
  | insertTicket (t : Ticket)
  | updateTicket (t : Ticket)
  | insertProcessedEvent (eventID : Uuid)
  | insertOutboxEvent (e : OutboxEvent TicketEvent)

/-- What a row lock is on. -/
inductive Key where
  | ticket (id : Uuid)
  | processedEvent (eventID : Uuid)
  | outboxEvent (eventID : Uuid)
deriving DecidableEq

/-- The statements of the repository. -/
inductive Stmt where
  /-- `INSERT INTO tickets … RETURNING …`. -/
  | insertTicket (title : String) (price : Int) (userID : String)
  /-- `SELECT reserved_by_order_id IS NOT NULL FROM tickets WHERE id = … AND user_id = …
  FOR UPDATE`. -/
  | selectReservedForUpdate (id : Uuid) (userID : String)
  /-- `UPDATE tickets SET title, price, aggregate_version WHERE id = … AND user_id = …
  RETURNING …`. -/
  | updateTicket (id : Uuid) (userID title : String) (price : Int)
  /-- `SELECT reserved_by_order_id FROM tickets WHERE id = … FOR UPDATE`. -/
  | selectReservationForUpdate (id : Uuid)
  /-- `UPDATE tickets SET reserved_by_order_id, aggregate_version WHERE id = … RETURNING …`. -/
  | reserveTicket (id orderID : Uuid)
  /-- `UPDATE tickets SET reserved_by_order_id = NULL, aggregate_version WHERE id = … AND
  reserved_by_order_id = … RETURNING …`. -/
  | unreserveTicket (id orderID : Uuid)
  /-- `INSERT INTO processed_events … ON CONFLICT DO NOTHING RETURNING …`. -/
  | insertProcessedEvent (eventID : Uuid)
  /-- `INSERT INTO outbox_events …`, for an event identifier and a time that the service has
  generated. -/
  | insertOutboxEvent (subject : String) (payload : Uuid → Int → TicketEvent)

/-- The replies: `none` and `false` stand for `pgx.ErrNoRows`. -/
abbrev Res : Stmt → Type
  | .insertTicket _ _ _ => Ticket
  | .selectReservedForUpdate _ _ => Option Bool
  | .updateTicket _ _ _ _ => Option Ticket
  | .selectReservationForUpdate _ => Option (Option Uuid)
  | .reserveTicket _ _ => Option Ticket
  | .unreserveTicket _ _ => Option Ticket
  | .insertProcessedEvent _ => Bool
  | .insertOutboxEvent _ _ => Unit

/-- The ticket under an identifier, if it belongs to the user. -/
def ownedTicket (db : Db) (id : Uuid) (userID : String) : Option Ticket :=
  (db.tickets.find? id).filter fun t => decide (t.userID = userID)

/-- The ticket under an identifier, if the order has locked it. -/
def reservedTicket (db : Db) (id orderID : Uuid) : Option Ticket :=
  (db.tickets.find? id).filter fun t => decide (t.reservedByOrderID = some orderID)

/-- The row of a ticket after an update by its owner. -/
def Ticket.edit (t : Ticket) (title : String) (price : Int) : Ticket :=
  { t with title := title, price := price, aggregateVersion := t.aggregateVersion + 1 }

/-- The row of a ticket after the lock on it was set or released. -/
def Ticket.mark (t : Ticket) (reservedByOrderID : Option Uuid) : Ticket :=
  { t with
    reservedByOrderID := reservedByOrderID
    aggregateVersion := t.aggregateVersion + 1 }

/-- The effect of a written row. -/
def apply (db : Db) : Write → Db
  | .insertTicket t => { db with tickets := db.tickets.insert t }
  | .updateTicket t => { db with tickets := db.tickets.replace t }
  | .insertProcessedEvent e => { db with processedEvents := e :: db.processedEvents }
  | .insertOutboxEvent e => { db with outboxEvents := db.outboxEvents.insert e }

/-- The lock on a row that a statement has matched. -/
def lockOf (matched : Option Ticket) : List Key := (matched.map fun t => Key.ticket t.id).toList

/-- The row locks a statement takes. -/
def locks (s : Stmt) (context : Context Int Key Fresh) (db : Db) : List Key :=
  match s with
  | .insertTicket _ _ _ => [.ticket context.fresh.id]
  | .selectReservedForUpdate id userID => lockOf (ownedTicket db id userID)
  | .updateTicket id userID _ _ => lockOf (ownedTicket db id userID)
  | .selectReservationForUpdate id => lockOf (db.tickets.find? id)
  | .reserveTicket id _ => lockOf (db.tickets.find? id)
  | .unreserveTicket id orderID => lockOf (reservedTicket db id orderID)
  -- With `ON CONFLICT DO NOTHING` a key that is taken is not waited for.
  | .insertProcessedEvent e => if e ∈ db.processedEvents then [] else [.processedEvent e]
  | .insertOutboxEvent _ _ => [.outboxEvent context.fresh.id]

/-- The `CHECK` constraints of `tickets`. -/
def Ticket.Checks (t : Ticket) : Prop := 0 ≤ t.aggregateVersion ∧ 0 < t.price

instance (t : Ticket) : Decidable t.Checks := inferInstanceAs (Decidable (_ ∧ _))

/-- An `UPDATE tickets … RETURNING …` that turns the row it matches into another one. -/
def updateMatched (matched : Option Ticket) (change : Ticket → Ticket) :
    Option (Option Ticket × List Write) :=
  match matched with
  | none => some (none, [])
  | some t =>
    if (change t).Checks then some (some (change t), [.updateTicket (change t)]) else none

/-- The effect of a statement. -/
def exec (s : Stmt) (context : Context Int Key Fresh) (db : Db) : Option (Res s × List Write) :=
  match s with
  | .insertTicket title price userID =>
    let row : Ticket :=
      { aggregateVersion := 0, id := context.fresh.id, title, price, reservedByOrderID := none,
        userID }
    -- The `CHECK` constraints and the primary key.
    if row.Checks ∧ (db.tickets.find? row.id).isNone then some (row, [.insertTicket row]) else none
  | .selectReservedForUpdate id userID =>
    some ((ownedTicket db id userID).map fun t => t.reservedByOrderID.isSome, [])
  | .updateTicket id userID title price =>
    updateMatched (ownedTicket db id userID) fun t => t.edit title price
  | .selectReservationForUpdate id => some ((db.tickets.find? id).map Ticket.reservedByOrderID, [])
  | .reserveTicket id orderID => updateMatched (db.tickets.find? id) fun t => t.mark (some orderID)
  | .unreserveTicket id orderID => updateMatched (reservedTicket db id orderID) fun t => t.mark none
  | .insertProcessedEvent e =>
    if e ∈ db.processedEvents then some (false, []) else some (true, [.insertProcessedEvent e])
  | .insertOutboxEvent subject payload =>
    let row := OutboxEvent.write subject payload context.sequence context.fresh
    if (db.outboxEvents.find? row.eventID).isNone then some ((), [.insertOutboxEvent row])
    else none

/-- Only an insertion into `outbox_events` draws from an identity sequence. -/
def draws : Stmt → ℕ
  | .insertOutboxEvent _ _ => 1
  | _ => 0

/-- The database server of Tickets. -/
def engine : Engine Int Db Write Key Fresh Stmt Res := ⟨apply, locks, exec, draws⟩

/-- The result type of transactions of Tickets. -/
abbrev Tx (α : Type) := Program Stmt Res Err α

/-- Rows of Tickets with the clock and the outbox sequence of their server. -/
abbrev State := World Int Db

/-- A ticket that is selected by its owner. -/
theorem ownedTicket_eq_some_iff {db : Db} {id : Uuid} {userID : String} {t : Ticket} :
    ownedTicket db id userID = some t ↔ db.tickets.find? id = some t ∧ t.userID = userID := by
  simp [ownedTicket, Option.filter_eq_some_iff]

/-- A ticket that is selected by the order that has locked it. -/
theorem reservedTicket_eq_some_iff {db : Db} {id orderID : Uuid} {t : Ticket} :
    reservedTicket db id orderID = some t ↔
      db.tickets.find? id = some t ∧ t.reservedByOrderID = some orderID := by
  simp [reservedTicket, Option.filter_eq_some_iff]

section Exec

variable {context : Context Int Key Fresh} {db : Db} {ws : List Write}

/-- Recording an event: it is a duplicate, or it is new and gets locked. -/
theorem exec_insertProcessedEvent {e : Uuid} {r : Bool}
    (h : engine.exec (.insertProcessedEvent e) context db = some (r, ws)) :
    (e ∈ db.processedEvents ∧ r = false ∧ ws = []) ∨
      (e ∉ db.processedEvents ∧ r = true ∧ ws = [.insertProcessedEvent e] ∧
        engine.locks (.insertProcessedEvent e) context db = [.processedEvent e]) := by
  simp only [engine, exec] at h
  split at h
  next hmem => exact Or.inl ⟨hmem, by simpa [eq_comm] using h⟩
  next hmem =>
    obtain ⟨rfl, rfl⟩ : true = r ∧ [.insertProcessedEvent e] = ws := by simpa using h
    exact Or.inr ⟨hmem, rfl, rfl, by simp [engine, locks, hmem]⟩

/-- An insertion of a ticket that succeeds locks the key of the new row. -/
theorem exec_insertTicket {title : String} {price : Int} {userID : String} {r : Ticket}
    (h : engine.exec (.insertTicket title price userID) context db = some (r, ws)) :
    r = ⟨0, context.fresh.id, title, price, none, userID⟩ ∧ r.Checks ∧
      db.tickets.find? context.fresh.id = none ∧ ws = [.insertTicket r] ∧
      engine.locks (.insertTicket title price userID) context db = [.ticket context.fresh.id] := by
  simp only [engine, exec] at h
  split at h
  next hok =>
    obtain ⟨rfl, rfl⟩ : _ = r ∧ _ = ws := by simpa using h
    exact ⟨rfl, hok.1, by simpa using hok.2, rfl, rfl⟩
  next => simp at h

/-- A ticket that its owner selects for an update gets locked. -/
theorem exec_selectReservedForUpdate {id : Uuid} {userID : String} {r : Option Bool}
    (h : engine.exec (.selectReservedForUpdate id userID) context db = some (r, ws)) :
    ws = [] ∧ (r = none ∨ ∃ t, r = some t.reservedByOrderID.isSome ∧
      db.tickets.find? id = some t ∧ t.userID = userID ∧
      engine.locks (.selectReservedForUpdate id userID) context db = [.ticket id]) := by
  obtain ⟨rfl, rfl⟩ : ((ownedTicket db id userID).map fun t => t.reservedByOrderID.isSome) = r ∧
      [] = ws := by simpa [engine, exec] using h
  refine ⟨rfl, ?_⟩
  cases howned : ownedTicket db id userID with
  | none => exact Or.inl rfl
  | some t =>
    obtain ⟨hfind, huser⟩ := ownedTicket_eq_some_iff.mp howned
    have hid : t.id = id := Table.key_of_find? hfind
    exact Or.inr ⟨t, rfl, hfind, huser, by simp [engine, locks, lockOf, howned, hid]⟩

/-- A ticket whose lock is looked up for an update gets locked. -/
theorem exec_selectReservationForUpdate {id : Uuid} {r : Option (Option Uuid)}
    (h : engine.exec (.selectReservationForUpdate id) context db = some (r, ws)) :
    ws = [] ∧ ((r = none ∧ db.tickets.find? id = none) ∨
      ∃ t, r = some t.reservedByOrderID ∧ db.tickets.find? id = some t ∧
        engine.locks (.selectReservationForUpdate id) context db = [.ticket id]) := by
  obtain ⟨rfl, rfl⟩ : (db.tickets.find? id).map Ticket.reservedByOrderID = r ∧ [] = ws := by
    simpa [engine, exec] using h
  refine ⟨rfl, ?_⟩
  cases hfind : db.tickets.find? id with
  | none => exact Or.inl ⟨rfl, rfl⟩
  | some t =>
    have hid : t.id = id := Table.key_of_find? hfind
    exact Or.inr ⟨t, rfl, rfl, by simp [engine, locks, lockOf, hfind, hid]⟩

/-- An update of a row that is matched. -/
theorem updateMatched_some {t : Ticket} {change : Ticket → Ticket} {r : Option Ticket}
    (h : updateMatched (some t) change = some (r, ws)) :
    r = some (change t) ∧ ws = [.updateTicket (change t)] := by
  simp only [updateMatched] at h
  split at h
  next => simpa [eq_comm] using h
  next => simp at h

/-- An update by the owner. -/
theorem exec_updateTicket {id : Uuid} {userID title : String} {price : Int} {t : Ticket}
    {r : Option Ticket}
    (h : engine.exec (.updateTicket id userID title price) context db = some (r, ws))
    (hfind : db.tickets.find? id = some t) (huser : t.userID = userID) :
    r = some (t.edit title price) ∧ ws = [.updateTicket (t.edit title price)] := by
  simp only [engine, exec, ownedTicket_eq_some_iff.mpr ⟨hfind, huser⟩] at h
  exact updateMatched_some h

/-- A ticket is locked against updates. -/
theorem exec_reserveTicket {id orderID : Uuid} {t : Ticket} {r : Option Ticket}
    (h : engine.exec (.reserveTicket id orderID) context db = some (r, ws))
    (hfind : db.tickets.find? id = some t) :
    r = some (t.mark (some orderID)) ∧ ws = [.updateTicket (t.mark (some orderID))] := by
  simp only [engine, exec, hfind] at h
  exact updateMatched_some h

/-- The lock on a ticket is released. -/
theorem exec_unreserveTicket {id orderID : Uuid} {t : Ticket} {r : Option Ticket}
    (h : engine.exec (.unreserveTicket id orderID) context db = some (r, ws))
    (hfind : db.tickets.find? id = some t) (hreserved : t.reservedByOrderID = some orderID) :
    r = some (t.mark none) ∧ ws = [.updateTicket (t.mark none)] := by
  simp only [engine, exec, reservedTicket_eq_some_iff.mpr ⟨hfind, hreserved⟩] at h
  exact updateMatched_some h

/-- An insertion into the outbox that succeeds locks the key of the new row. -/
theorem exec_insertOutboxEvent {subject : String} {payload : Uuid → Int → TicketEvent} {r : Unit}
    (h : engine.exec (.insertOutboxEvent subject payload) context db = some (r, ws)) :
    db.outboxEvents.find? context.fresh.id = none ∧
      ws = [.insertOutboxEvent
        (OutboxEvent.write subject payload context.sequence context.fresh)] ∧
      engine.locks (.insertOutboxEvent subject payload) context db =
        [.outboxEvent context.fresh.id] := by
  simp only [engine, exec] at h
  split at h
  next hnone =>
    exact ⟨by simpa [OutboxEvent.write] using hnone, by simpa [eq_comm] using h, rfl⟩
  next => simp at h

end Exec

end Tickets
