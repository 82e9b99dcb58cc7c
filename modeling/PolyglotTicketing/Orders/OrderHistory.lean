import PolyglotTicketing.Orders.Serial

/-!
# Orders and their outbox rows

What the outbox says about an order agrees with the row of the order (`Announced`): one
`OrderCreated` row and, exactly if the order is canceled, one `OrderCanceled` row after it.
`consistent_run` shows it for every run, with failing statements and commits.

The version of an order counts its changes of status (`aggregateVersion_eq_statusChanges`), and an
order that is no longer open stays as it is (`closed_run`).
-/

namespace Orders

open Platform Contracts Relational Transaction Transition

/-- `e` is an `OrderCreated` row of `o`. -/
def AnnouncesCreation (o : Order) (e : OutboxEvent OrderEvent) : Prop :=
  e.subject = orderCreatedSubject ∧ ∃ occurredAt price, 0 < price ∧ e.payload = .created
    { eventID := e.eventID
      occurredAt
      orderID := o.id
      orderStatus := .created
      userID := o.userID
      expiresAt := o.expiresAt
      aggregateVersion := 0
      ticket := { id := o.ticketID, price } }

/-- `e` is an `OrderCanceled` row of `o`. -/
def AnnouncesCancellation (o : Order) (e : OutboxEvent OrderEvent) : Prop :=
  e.subject = orderCanceledSubject ∧ ∃ occurredAt, e.payload = .canceled
    { eventID := e.eventID
      occurredAt
      orderID := o.id
      aggregateVersion := o.aggregateVersion
      ticket := { id := o.ticketID } }

/-- The outbox rows about an order agree with it. -/
def Announced (outbox : Table (OutboxEvent OrderEvent)) (o : Order) : Prop :=
  if o.status = .canceled then
    ∃ created canceled, eventsAbout OrderEvent.orderID outbox o.id = [created, canceled] ∧
      AnnouncesCreation o created ∧ AnnouncesCancellation o canceled ∧
      created.sequence < canceled.sequence
  else ∃ created, eventsAbout OrderEvent.orderID outbox o.id = [created] ∧
    AnnouncesCreation o created

/-- The database of Orders and its outbox agree. -/
structure Consistent (db : Db) : Prop where
  /-- The projected tickets meet the `CHECK` constraints. -/
  tickets : ∀ t ∈ db.tickets.rows, t.Checks
  /-- The outbox announces every order. -/
  announced : ∀ o ∈ db.orders.rows, Announced db.outboxEvents o
  /-- The outbox announces nothing else. -/
  known : ∀ e ∈ db.outboxEvents.rows, db.orders.find? e.payload.orderID ≠ none

theorem consistent_init : Consistent Db.init := by
  constructor <;> simp [Db.init]

/-- The outbox announces nothing but the creation of an open order. -/
theorem Announced.of_open {outbox : Table (OutboxEvent OrderEvent)} {o : Order}
    (h : Announced outbox o) (hopen : o.status.Open) :
    ∃ created, eventsAbout OrderEvent.orderID outbox o.id = [created] ∧
      AnnouncesCreation o created := by
  rwa [Announced, if_neg] at h
  rcases hopen with hstatus | hstatus <;> simp [hstatus]

/-- An order stays announced when a row about another one is added. -/
theorem Announced.insert_of_ne {outbox : Table (OutboxEvent OrderEvent)}
    {e : OutboxEvent OrderEvent} {o : Order} (h : Announced outbox o)
    (hnew : outbox.find? e.eventID = none) (hne : e.payload.orderID ≠ o.id) :
    Announced (outbox.insert e) o := by
  unfold Announced at *
  rwa [eventsAbout_insert_of_ne hnew hne]

section Change

variable {call : Call} {opened w : State} {held : List Key} {r : Reply} {db' : Db}

/-- An unknown order has no rows in the outbox. -/
theorem Consistent.eventsAbout_eq_nil {db : Db} (hcons : Consistent db) {id : Uuid}
    (hnone : db.orders.find? id = none) :
    eventsAbout OrderEvent.orderID db.outboxEvents id = [] := by
  rw [eventsAbout_eq_nil_iff]
  rintro e he rfl
  exact hcons.known e he hnone

/-- Orders that are known stay known. -/
theorem known_of_change (h : Change call opened held w r db') {id : Uuid}
    (hknown : w.db.orders.find? id ≠ none) : db'.orders.find? id ≠ none := by
  obtain ⟨o, hfind⟩ := Option.ne_none_iff_exists'.mp hknown
  obtain ⟨o', hfind', -⟩ := h.frame.evolves id o hfind
  simp [hfind']

/-- Every row of the outbox is about a known order, if the new one is. -/
private theorem known_insert {orders : Table Order} {e : OutboxEvent OrderEvent}
    (hcons : Consistent w.db) (hnew : w.db.outboxEvents.find? e.eventID = none)
    (hknown : ∀ id, w.db.orders.find? id ≠ none → orders.find? id ≠ none)
    (he : orders.find? e.payload.orderID ≠ none) :
    ∀ x ∈ (w.db.outboxEvents.insert e).rows, orders.find? x.payload.orderID ≠ none := by
  intro x hx
  rcases (Table.mem_insert hnew).mp hx with hx | rfl
  · exact hknown _ (hcons.known x hx)
  · exact he

/-- A new order is announced by the row that is written along with it. -/
theorem announcesCreation_orderCreatedEvent {input : TicketReservationInput} {ticket : Ticket}
    {id : Uuid} {n : ℕ} {fresh : Fresh} (hid : ticket.id = input.ticketID)
    (hprice : 0 < ticket.price) :
    AnnouncesCreation (newOrder input id)
      (orderCreatedEvent (newOrder input id) ticket n fresh) := by
  refine ⟨rfl, fresh.occurredAt, ticket.price, hprice, ?_⟩
  rw [show (newOrder input id).ticketID = ticket.id from hid.symm]
  rfl

/-- What a commit does to the outbox: nothing, or it adds a row about the order that it has created
or canceled. -/
theorem Change.outbox_cases (h : Change call opened held w r db') :
    db'.outboxEvents = w.db.outboxEvents ∨
      ∃ e, w.db.outboxEvents.find? e.eventID = none ∧
        db'.outboxEvents = w.db.outboxEvents.insert e ∧
        ((∃ input ticket id n fresh, w.db.tickets.find? input.ticketID = some ticket ∧
          w.db.orders.find? id = none ∧ db'.orders = w.db.orders.insert (newOrder input id) ∧
          e = orderCreatedEvent (newOrder input id) ticket n fresh) ∨
        ∃ o n fresh, w.db.orders.find? o.id = some o ∧ o.status.Open ∧
          e = orderCanceledEvent (o.withStatus .canceled) n fresh) := by
  cases h with
  | unchanged => exact Or.inl rfl
  | recorded => exact Or.inl rfl
  | projected => exact Or.inl rfl
  | advanced => exact Or.inl rfl
  | @reserved input ticket id n fresh _ hticket _ hnew _ _ _ happends =>
    exact Or.inr ⟨_, happends.new, rfl,
      Or.inl ⟨input, ticket, id, n, fresh, hticket, hnew, rfl, rfl⟩⟩
  | @canceled m o n fresh _ hmove hfind _ _ hsource _ _ happends =>
    have hid : o.id = m.orderID := Table.key_of_find? hfind
    exact Or.inr ⟨_, happends.new, rfl,
      Or.inr ⟨o, n, fresh, hid ▸ hfind, (Call.move?_spec hmove).1 _ hsource, rfl⟩⟩

/-- Rows of the outbox stay. -/
theorem Change.outbox_subset (h : Change call opened held w r db') :
    ∀ e ∈ w.db.outboxEvents.rows, e ∈ db'.outboxEvents.rows := by
  intro e he
  rcases h.outbox_cases with hsame | ⟨x, hnew, hinsert, -⟩
  · rwa [hsame]
  · rw [hinsert]
    exact (Table.mem_insert hnew).mpr (Or.inl he)

/-- Commits keep the database and its outbox in agreement. -/
theorem Consistent.change (hcons : Consistent w.db) (h : Change call opened held w r db') :
    Consistent db' := by
  have hknown : ∀ id, w.db.orders.find? id ≠ none → db'.orders.find? id ≠ none :=
    fun _ => known_of_change h
  cases h with
  | unchanged => exact hcons
  | recorded => exact ⟨hcons.tickets, hcons.announced, hcons.known⟩
  -- The database has checked the price of the ticket.
  | @projected e t hcall hrecords hlock hchecks =>
    refine ⟨?_, hcons.announced, hcons.known⟩
    intro x hx
    have hfind := Table.find?_of_mem hx
    rw [Table.find?_upsert] at hfind
    split at hfind
    next =>
      obtain rfl := Option.some.inj hfind
      exact hchecks
    next => exact hcons.tickets x (Table.mem_of_find? hfind)
  -- The row that is written along with the order is the only one about it.
  | @reserved input ticket id n fresh hcall hticket hlock hnew horder _ _ happends =>
    have hchecks := hcons.tickets ticket (Table.mem_of_find? hticket)
    have hid : (orderCreatedEvent (newOrder input id) ticket n fresh).payload.orderID = id := rfl
    refine ⟨hcons.tickets, ?_, known_insert hcons happends.new hknown ?_⟩
    · intro o ho
      rcases (Table.mem_insert hnew).mp ho with ho | rfl
      · refine (hcons.announced o ho).insert_of_ne happends.new ?_
        rintro hoid
        exact absurd (Table.find?_of_mem ho) (by simp [← hoid, hid, hnew])
      · have hevents := eventsAbout_insert happends.new hid
        rw [hcons.eventsAbout_eq_nil hnew] at hevents
        rw [Announced, if_neg (by simp [newOrder])]
        exact ⟨_, hevents,
          announcesCreation_orderCreatedEvent (Table.key_of_find? hticket) hchecks.1⟩
    · have hself := Table.find?_insert_self (r := newOrder input id) hnew
      exact fun hnone => absurd (hself.symm.trans hnone) (by simp)
  -- A move to another open status or to `Complete` is not announced.
  | @advanced m o hmove hfind _ _ hsource _ htarget =>
    have ho := Table.mem_of_find? hfind
    refine ⟨hcons.tickets, ?_, fun e he => hknown _ (hcons.known e he)⟩
    intro y hy
    rcases (mem_move _ ho).mp hy with rfl | ⟨hy, -⟩
    · rw [Announced, if_neg (show (o.withStatus m.target).status ≠ .canceled from htarget)]
      exact (hcons.announced o ho).of_open ((Call.move?_spec hmove).1 _ hsource)
    · exact hcons.announced y hy
  -- The cancellation of an open order is its second row.
  | @canceled m o n fresh _ hmove hfind _ _ hsource _ htarget happends =>
    have ho := Table.mem_of_find? hfind
    have hid : (orderCanceledEvent (o.withStatus .canceled) n fresh).payload.orderID = o.id := rfl
    refine ⟨hcons.tickets, ?_, known_insert hcons happends.new hknown ?_⟩
    · intro y hy
      rcases (mem_move _ ho).mp hy with rfl | ⟨hy, hne⟩
      · obtain ⟨created, hevents, hcreated⟩ :=
          (hcons.announced o ho).of_open ((Call.move?_spec hmove).1 _ hsource)
        have hmem : created ∈ eventsAbout OrderEvent.orderID w.db.outboxEvents o.id := by
          simp [hevents]
        obtain ⟨hrow, habout⟩ := mem_eventsAbout.mp hmem
        -- The cancellation comes after the creation, as its place is drawn while the order is
        -- locked.
        have hlt := happends.after created hrow (habout.trans hid.symm)
        rw [Announced, if_pos (show (o.withStatus .canceled).status = .canceled from rfl)]
        refine ⟨created, _, ?_, hcreated, ⟨rfl, fresh.occurredAt, rfl⟩, hlt⟩
        exact (eventsAbout_insert happends.new hid).trans (by rw [hevents, List.singleton_append])
      · exact (hcons.announced y hy).insert_of_ne happends.new (Ne.symm hne)
    · rw [hid]
      exact hknown _ (by simp [show w.db.orders.find? o.id = some o from Table.find?_of_mem ho])

/-- What a commit does to one order: nothing, or it adds one to the version and changes the
status. -/
theorem Change.order_cases (h : Change call opened held w r db') {id : Uuid} {o : Order}
    (hfind : w.db.orders.find? id = some o) :
    db'.orders.find? id = some o ∨
      ∃ target ≠ o.status, db'.orders.find? id = some (o.withStatus target) := by
  -- Of the known orders only the one that is moved changes.
  rcases h.orders_cases with hsame | ⟨input, x, -, hnew, -, hinsert⟩ | hmove
  · exact Or.inl (hsame ▸ hfind)
  · exact Or.inl (hinsert ▸ Table.find?_insert_of_some (r := newOrder input x) hnew hfind)
  · obtain ⟨m, x, hmove, hx, -, hsource, -, hreplace⟩ := hmove
    rw [hreplace, find?_move m.target hx]
    split
    next hid =>
      obtain rfl : x = o := Option.some.inj (hx.symm.trans (hid ▸ hfind))
      -- A move never leads to the status in which it finds the order.
      refine Or.inr ⟨m.target, ?_, rfl⟩
      rintro heq
      exact Call.target_not_mem_sources hmove (heq ▸ hsource)
    next => exact Or.inl hfind

/-- Orders begin at version 0. -/
theorem Change.aggregateVersion_new (h : Change call opened held w r db') {id : Uuid} {o : Order}
    (hnone : w.db.orders.find? id = none) (hfind : db'.orders.find? id = some o) :
    o.aggregateVersion = 0 := by
  rcases h.orders_cases with hsame | ⟨input, x, -, hnew, -, hinsert⟩ | hmove
  · rw [hsame, hnone] at hfind
    simp at hfind
  · rw [hinsert, Table.find?_insert (r := newOrder input x) hnew] at hfind
    split at hfind
    next =>
      obtain rfl := Option.some.inj hfind
      rfl
    next => simp [hnone] at hfind
  · obtain ⟨m, x, -, -, -, -, -, hreplace⟩ := hmove
    rw [hreplace, Table.find?_replace_eq_none_iff.mpr hnone] at hfind
    simp at hfind

end Change

/-- The status of an order, if it is known. -/
def statusOf (db : Db) (id : Uuid) : Option Status := (db.orders.find? id).map Order.status

/-- The version of an order, 0 for one that is not known yet. -/
def versionOf (db : Db) (id : Uuid) : Int := (db.orders.find? id).elim 0 Order.aggregateVersion

/-- The attempt changes the status of a known order. -/
def ChangesStatus (id : Uuid) (w : State) (a : Try) : Prop :=
  statusOf w.db id ≠ none ∧ statusOf (step w a).db id ≠ statusOf w.db id

instance (id : Uuid) (w : State) (a : Try) : Decidable (ChangesStatus id w a) :=
  inferInstanceAs (Decidable (_ ∧ _))

/-- How often a run changes the status of an order. -/
def statusChanges (id : Uuid) : State → List Try → ℕ
  | _, [] => 0
  | w, a :: as => (if ChangesStatus id w a then 1 else 0) + statusChanges id (step w a) as

/-- An attempt adds one to the version of an order if it changes its status, and nothing
otherwise. -/
theorem versionOf_step {w : State} (hinv : discipline.Inv w) (a : Try) (id : Uuid) :
    versionOf (step w a).db id = versionOf w.db id + if ChangesStatus id w a then 1 else 0 := by
  have hsame (heq : (step w a).db.orders.find? id = w.db.orders.find? id) :
      versionOf (step w a).db id = versionOf w.db id + if ChangesStatus id w a then 1 else 0 := by
    simp [versionOf, ChangesStatus, statusOf, heq]
  rcases attempt_cases hinv a with ⟨-, hdb⟩ | ⟨r, held, n, hchange⟩
  · exact hsame (by rw [hdb])
  -- Where an order comes into being, its version is 0, as for an unknown one.
  cases hfind : w.db.orders.find? id with
  | none =>
    cases hfind' : (step w a).db.orders.find? id with
    | none => exact hsame (hfind'.trans hfind.symm)
    | some o =>
      have hzero := hchange.aggregateVersion_new hfind hfind'
      simp [versionOf, ChangesStatus, statusOf, hfind, hfind', hzero]
  | some o =>
    rcases hchange.order_cases hfind with hfind' | ⟨target, hne, hfind'⟩
    · exact hsame (hfind'.trans hfind.symm)
    · simp [versionOf, ChangesStatus, statusOf, hfind, hfind', Order.withStatus, hne]

/-- Over a run, the version of an order grows by the number of its changes of status. -/
theorem versionOf_run {w : State} (hinv : discipline.Inv w) (attempts : List Try) (id : Uuid) :
    versionOf (run step w attempts).db id = versionOf w.db id + statusChanges id w attempts := by
  induction attempts generalizing w with
  | nil => simp [statusChanges]
  | cons a as ih =>
    rw [run_cons, ih (inv_step hinv a), versionOf_step hinv a, statusChanges]
    split <;> push_cast <;> omega

/-- An order that is no longer open stays as it is. -/
theorem closed_step {w : State} (hinv : discipline.Inv w) (a : Try) {o : Order}
    (ho : o ∈ w.db.orders.rows) (hclosed : ¬o.status.Open) : o ∈ (step w a).db.orders.rows := by
  rcases attempt_cases hinv a with ⟨-, hdb⟩ | ⟨r, held, n, hchange⟩
  · rwa [hdb]
  · obtain ⟨o', hfind', hevolves⟩ := hchange.frame.evolves _ o (Table.find?_of_mem ho)
    rw [hevolves.closed hclosed] at hfind'
    exact Table.mem_of_find? hfind'

section Run

variable (clock : Int) (attempts : List Try)

/-- In every run, the outbox stays consistent with the orders. -/
theorem consistent_run : Consistent (run step (State.init clock) attempts).db :=
  (eachState_db consistent_init (inv_init clock) (fun hcons h => hcons.change h) attempts).last.2

variable {clock attempts} {o : Order}

/-- The version of an order is the number of its changes of status. -/
theorem aggregateVersion_eq_statusChanges
    (ho : o ∈ (run step (State.init clock) attempts).db.orders.rows) :
    o.aggregateVersion = statusChanges o.id (State.init clock) attempts := by
  have hversion := versionOf_run (inv_init clock) attempts o.id
  have hfind : (run step (State.init clock) attempts).db.orders.find? o.id = some o :=
    Table.find?_of_mem ho
  rw [versionOf, hfind, show versionOf (State.init clock).db o.id = 0 from rfl] at hversion
  simpa using hversion

/-- Orders that are no longer open stay as they are. -/
theorem closed_run {w : State} (hinv : discipline.Inv w) (ho : o ∈ w.db.orders.rows)
    (hclosed : ¬o.status.Open) (later : List Try) : o ∈ (run step w later).db.orders.rows :=
  (run_invariant (P := fun w => discipline.Inv w ∧ o ∈ w.db.orders.rows)
    (fun _ a h => ⟨inv_step h.1 a, closed_step h.1 a h.2 hclosed⟩) ⟨hinv, ho⟩ later).2

end Run

/-- In every state of every run, the outbox announces each order as it is, the version of each
order is the number of its changes of status, and orders that are no longer open never change
again. -/
theorem outbox_agrees (clock : Int) (attempts : List Try) {o : Order}
    (ho : o ∈ (run step (State.init clock) attempts).db.orders.rows) :
    Announced (run step (State.init clock) attempts).db.outboxEvents o ∧
      o.aggregateVersion = statusChanges o.id (State.init clock) attempts ∧
      (¬o.status.Open → ∀ later,
        o ∈ (run step (State.init clock) (attempts ++ later)).db.orders.rows) := by
  refine ⟨(consistent_run clock attempts).announced o ho, aggregateVersion_eq_statusChanges ho, ?_⟩
  intro hclosed later
  rw [run_append]
  exact closed_run (inv_run (inv_init clock) attempts) ho hclosed later

/-- An order that expires after its payment has begun to be processed, and fails then. -/
def failedPayment : List Try :=
  [.healthy (.upsertTicketFromEvent 1 ⟨0, 7, "seat", 100⟩) 0 10,
   .healthy (.reserveTicket ⟨minutes 15, 7, "alice"⟩) 0 20,
   .healthy (.applyPaymentCreated 2 22) (minutes 1) 30,
   .healthy (.applyExpirationComplete 3 22) (minutes 15) 40,
   .healthy (.applyPaymentFailed 4 22) (minutes 16) 50]

theorem outbox_agrees_failedPayment :
    let w := run step (State.init 0) failedPayment
    Announced w.db.outboxEvents ⟨2, minutes 15, 22, .canceled, 7, "alice"⟩ ∧
      (2 : Int) = statusChanges 22 (State.init 0) failedPayment := by
  obtain ⟨hannounced, hversion, -⟩ := outbox_agrees 0 failedPayment
    (o := ⟨2, minutes 15, 22, .canceled, 7, "alice"⟩) (by decide +kernel)
  exact ⟨hannounced, hversion⟩

end Orders
