import PolyglotTicketing.Payments.Repository
import PolyglotTicketing.Transaction.RelyGuarantee

/-!
# What the transactions of Payments commit

`Change` lists everything that a committed transaction of the repository can have done to the
database, with what it knows about the rows at its commit because of the locks it owns, and
`Change.frame` says what a transaction leaves alone without a lock on it, in the way of
`Orders.Commit`.
-/

namespace Payments

open Platform Contracts Relational Transaction

/-- The event that an operation handles. -/
def Call.eventID? : Call → Option Uuid
  | .create _ => none
  | .resolveNextPending _ => none
  | .upsertOrderFromEvent eventID _ => some eventID
  | .cancelOrderFromEvent eventID _ _ => some eventID

/-- The row of an order after `CancelOrderFromEvent`. -/
def Order.cancel (o : Order) : Order :=
  { o with status := .canceled, aggregateVersion := o.aggregateVersion + 1 }

/-- The row that `insertPaymentCreatedEvent` writes. -/
def paymentCreatedEvent (created : Payment) (sequence : ℕ) (fresh : Fresh) :
    OutboxEvent PaymentEvent :=
  OutboxEvent.write paymentCreatedSubject (fun eventID occurredAt =>
    .created { eventID, occurredAt, paymentID := created.id, orderID := created.orderID })
    sequence fresh

/-- The row that `insertPaymentResultEvent` writes for a payment that succeeded. -/
def paymentSucceededEvent (resolved : Payment) (sequence : ℕ) (fresh : Fresh) :
    OutboxEvent PaymentEvent :=
  OutboxEvent.write paymentSucceededSubject (fun eventID occurredAt =>
    .succeeded { eventID, occurredAt, paymentID := resolved.id, orderID := resolved.orderID })
    sequence fresh

/-- The row that `insertPaymentResultEvent` writes for a payment that failed. -/
def paymentFailedEvent (resolved : Payment) (sequence : ℕ) (fresh : Fresh) :
    OutboxEvent PaymentEvent :=
  OutboxEvent.write paymentFailedSubject (fun eventID occurredAt =>
    .failed { eventID, occurredAt, paymentID := resolved.id, orderID := resolved.orderID })
    sequence fresh

/-- `e` is the row that `insertPaymentResultEvent` writes for a payment. -/
def ResultEvent (resolved : Payment) (e : OutboxEvent PaymentEvent) : Prop :=
  ∃ sequence fresh,
    (resolved.status = .succeeded ∧ e = paymentSucceededEvent resolved sequence fresh) ∨
      (resolved.status = .failed ∧ e = paymentFailedEvent resolved sequence fresh)

/-- A transaction with the locks `held` adds `e` to the outbox. -/
structure Appends (held : List Key) (w : State) (e : OutboxEvent PaymentEvent) : Prop extends
    Platform.Appends PaymentEvent.paymentID w.db.outboxEvents w.sequence e where
  held : .outboxEvent e.eventID ∈ held

/-- The event that an operation handles is new, and the transaction records it. -/
def Records (held : List Key) (db : Db) (e : Uuid) : Prop :=
  e ∉ db.processedEvents ∧ .processedEvent e ∈ held

/-- What a transaction that owns the locks `held` and commits in `w` can have done. -/
inductive Change (call : Call) (held : List Key) (w : State) : Reply → Db → Prop
  /-- Nothing: the order had been paid before, no payment was pending, or the event had been
  handled before. -/
  | unchanged {r : Reply} (hevent : ∀ e ∈ call.eventID?, e ∈ w.db.processedEvents)
      (hcreated : ∀ p new, r = .created p new → new = false ∧ ∃ input, call = .create input ∧
        p.orderID = input.orderID ∧
        ∃ p', w.db.payments.find? p.id = some p' ∧ p'.orderID = p.orderID) :
      Change call held w r w.db
  /-- It has recorded an event that comes too late. -/
  | recorded {e : Uuid} (hevent : call.eventID? = some e) (hrecords : Records held w.db e)
      (hupsert : ∀ e' o, call = .upsertOrderFromEvent e' o → w.db.orders.find? o.id ≠ none)
      (hcancel : ∀ e' id version, call = .cancelOrderFromEvent e' id version →
        ∃ o, w.db.orders.find? id = some o ∧ version ≤ o.aggregateVersion) :
      Change call held w .applied { w.db with processedEvents := e :: w.db.processedEvents }
  /-- It has stored an order. -/
  | projected {e : Uuid} {o : Order} (hcall : call = .upsertOrderFromEvent e o)
      (hrecords : Records held w.db e) (hlock : .order o.id ∈ held) (hchecks : o.Checks)
      (hversion : o.aggregateVersion = 0) (hnew : w.db.orders.find? o.id = none) :
      Change call held w .applied
        { w.db with
          processedEvents := e :: w.db.processedEvents
          orders := w.db.orders.insert o }
  /-- It has canceled an order. -/
  | canceled {e id : Uuid} {version : Int} {o : Order}
      (hcall : call = .cancelOrderFromEvent e id version) (hrecords : Records held w.db e)
      (hlock : .order id ∈ held) (hfind : w.db.orders.find? id = some o)
      (hversion : version = o.aggregateVersion + 1) :
      Change call held w .applied
        { w.db with
          processedEvents := e :: w.db.processedEvents
          orders := w.db.orders.replace o.cancel }
  /-- It has created a payment. -/
  | paid {input : CreateInput} {o : Order} {id : Uuid} {n : ℕ} {fresh : Fresh}
      (hcall : call = .create input) (hfind : w.db.orders.find? input.orderID = some o)
      (huser : o.userID = input.userID) (hstatus : o.status = .created)
      (hnew : w.db.payments.find? id = none) (hlock : .payment id ∈ held)
      (hunpaid : ∀ p ∈ w.db.payments.rows, p.orderID ≠ input.orderID)
      (horder : .paymentOrder input.orderID ∈ held)
      (happends : Appends held w (paymentCreatedEvent ⟨id, input.orderID, .pending⟩ n fresh)) :
      Change call held w (.created ⟨id, input.orderID, .pending⟩ true)
        { w.db with
          payments := w.db.payments.insert ⟨id, input.orderID, .pending⟩
          outboxEvents := w.db.outboxEvents.insert
            (paymentCreatedEvent ⟨id, input.orderID, .pending⟩ n fresh) }
  /-- It has resolved a payment. -/
  | settled {outcome : ProcessorOutcome} {p : Payment} {status : Status}
      {e : OutboxEvent PaymentEvent} (hcall : call = .resolveNextPending outcome)
      (houtcome : statusForOutcome outcome = .ok status)
      (hfind : w.db.payments.find? p.id = some p) (hlock : .payment p.id ∈ held)
      (hpending : p.status = .pending) (hresult : ResultEvent { p with status := status } e)
      (happends : Appends held w e) :
      Change call held w (.resolved (some { p with status := status }))
        { w.db with
          payments := w.db.payments.replace { p with status := status }
          outboxEvents := w.db.outboxEvents.insert e }

/-- A payment is resolved as succeeded or failed. -/
theorem ne_pending_of_statusForOutcome {outcome : ProcessorOutcome} {status : Status}
    (h : statusForOutcome outcome = .ok status) : status ≠ .pending := by
  cases outcome <;> simp_all [statusForOutcome] <;> simp [← h]

/-- A result event is about its payment. -/
theorem ResultEvent.paymentID {p : Payment} {e : OutboxEvent PaymentEvent} (h : ResultEvent p e) :
    e.payload.paymentID = p.id := by
  obtain ⟨n, fresh, ⟨-, rfl⟩ | ⟨-, rfl⟩⟩ := h <;> rfl

/-- What one commit can do to a payment. -/
structure Payment.Evolves (p p' : Payment) : Prop where
  orderID : p'.orderID = p.orderID
  settled : p.status ≠ .pending → p' = p

theorem Payment.Evolves.refl (p : Payment) : p.Evolves p := ⟨rfl, fun _ => rfl⟩

/-- What one commit can do to the projection of an order. -/
structure Order.Evolves (o o' : Order) : Prop where
  userID : o'.userID = o.userID
  canceled : o' = o ∨ o' = o.cancel

theorem Order.Evolves.refl (o : Order) : o.Evolves o := ⟨rfl, Or.inl rfl⟩

/-- What a commit by a transaction with the locks `held` leaves alone. -/
structure Frame (held : List Key) (db db' : Db) : Prop where
  order : ∀ id, .order id ∉ held → db'.orders.find? id = db.orders.find? id
  orderEvolves : ∀ id o, db.orders.find? id = some o →
    ∃ o', db'.orders.find? id = some o' ∧ o.Evolves o'
  payment : ∀ id, .payment id ∉ held → db'.payments.find? id = db.payments.find? id
  paymentEvolves : ∀ id p, db.payments.find? id = some p →
    ∃ p', db'.payments.find? id = some p' ∧ p.Evolves p'
  paymentNew : ∀ id p, db.payments.find? id = none → db'.payments.find? id = some p →
    .paymentOrder p.orderID ∈ held
  processed : ∀ e ∈ db.processedEvents, e ∈ db'.processedEvents
  processedNew : ∀ e ∈ db'.processedEvents, e ∈ db.processedEvents ∨ .processedEvent e ∈ held
  outbox : ∀ e, .outboxEvent e ∉ held → db'.outboxEvents.find? e = db.outboxEvents.find? e
  outboxNew : ∀ x ∈ db'.outboxEvents.rows,
    x ∈ db.outboxEvents.rows ∨ .payment x.payload.paymentID ∈ held

theorem Frame.refl (held : List Key) (db : Db) : Frame held db db where
  order := fun _ _ => rfl
  orderEvolves := fun _ o hfind => ⟨o, hfind, .refl o⟩
  payment := fun _ _ => rfl
  paymentEvolves := fun _ p hfind => ⟨p, hfind, .refl p⟩
  paymentNew := fun _ _ hnone hsome => by simp [hnone] at hsome
  processed := fun _ he => he
  processedNew := fun _ he => Or.inl he
  outbox := fun _ _ => rfl
  outboxNew := fun _ hx => Or.inl hx

section Frame

variable {call : Call} {w : State} {held : List Key} {r : Reply} {db' : Db}

/-- Recording an event leaves the processed events of others alone. -/
private theorem Records.frame {db : Db} {e : Uuid} (h : Records held db e) :
    ∀ x ∈ e :: db.processedEvents, x ∈ db.processedEvents ∨ .processedEvent x ∈ held := by
  intro x hx
  rcases List.mem_cons.mp hx with rfl | hx
  · exact Or.inr h.2
  · exact Or.inl hx

/-- Adding a row to the outbox leaves the others alone. -/
private theorem Appends.frame {e : OutboxEvent PaymentEvent} (h : Appends held w e) (x : Uuid)
    (hx : .outboxEvent x ∉ held) :
    (w.db.outboxEvents.insert e).find? x = w.db.outboxEvents.find? x := by
  rw [Table.find?_insert h.new, if_neg]
  rintro rfl
  exact hx h.held

/-- A new row of the outbox is about a payment that its transaction has locked. -/
private theorem Appends.frameNew {e : OutboxEvent PaymentEvent} (h : Appends held w e)
    (hlock : .payment e.payload.paymentID ∈ held) :
    ∀ x ∈ (w.db.outboxEvents.insert e).rows,
      x ∈ w.db.outboxEvents.rows ∨ .payment x.payload.paymentID ∈ held := by
  intro x hx
  rcases (Table.mem_insert h.new).mp hx with hx | rfl
  · exact Or.inl hx
  · exact Or.inr hlock

/-- The orders after one of them was canceled. -/
theorem find?_cancel {orders : Table Order} {o : Order} {id : Uuid}
    (hfind : orders.find? id = some o) (x : Uuid) :
    (orders.replace o.cancel).find? x = if x = id then some o.cancel else orders.find? x := by
  have hid : key o = id := Table.key_of_find? hfind
  rw [Table.find?_replace, show key o.cancel = id from hid]
  split
  next heq => rw [heq, hfind, Option.map_some]
  next => rfl

/-- The payments after one of them was resolved. -/
theorem find?_settle {payments : Table Payment} {p : Payment} (status : Status)
    (hfind : payments.find? p.id = some p) (x : Uuid) :
    (payments.replace { p with status := status }).find? x =
      if x = p.id then some { p with status := status } else payments.find? x := by
  rw [Table.find?_replace, key_payment]
  split
  next heq => rw [heq, hfind, Option.map_some]
  next => rfl

/-- The rows after one of the payments was resolved. -/
theorem mem_settle {payments : Table Payment} {p y : Payment} (status : Status)
    (hp : p ∈ payments.rows) :
    y ∈ (payments.replace { p with status := status }).rows ↔
      y = { p with status := status } ∨ (y ∈ payments.rows ∧ y.id ≠ p.id) := by
  have hfind : payments.find? (key ({ p with status := status } : Payment)) = some p :=
    Table.find?_of_mem hp
  exact Table.mem_replace hfind

/-- A commit changes nothing that its transaction has not locked. -/
theorem Change.frame (h : Change call held w r db') : Frame held w.db db' := by
  cases h with
  | unchanged => exact .refl held w.db
  | recorded hevent hrecords =>
    refine { Frame.refl held w.db with processed := ?_, processedNew := hrecords.frame }
    exact fun e he => List.mem_cons_of_mem _ he
  -- The transaction has inserted the row, and owns its key.
  | @projected e o hcall hrecords hlock hchecks hversion hnew =>
    refine { Frame.refl held w.db with
      order := ?_, orderEvolves := ?_, processed := ?_, processedNew := hrecords.frame }
    · intro id hid
      rw [Table.find?_insert hnew, if_neg]
      rintro rfl
      exact hid hlock
    · intro id x hfind
      exact ⟨x, Table.find?_insert_of_some hnew hfind, .refl x⟩
    · exact fun e he => List.mem_cons_of_mem _ he
  -- It has selected the row for an update.
  | @canceled e id version o hcall hrecords hlock hfind =>
    refine { Frame.refl held w.db with
      order := ?_, orderEvolves := ?_, processed := ?_, processedNew := hrecords.frame }
    · intro x hx
      rw [find?_cancel hfind, if_neg]
      rintro rfl
      exact hx hlock
    · intro x y hy
      by_cases hx : x = id
      · obtain rfl : o = y := Option.some.inj (hfind.symm.trans (hx ▸ hy))
        exact ⟨o.cancel, by rw [find?_cancel hfind, if_pos hx], rfl, Or.inr rfl⟩
      · exact ⟨y, by rw [find?_cancel hfind, if_neg hx, hy], .refl y⟩
    · exact fun e he => List.mem_cons_of_mem _ he
  -- It owns the key of the payment, and the one of its order, which is unique.
  | @paid input o id n fresh _ _ _ _ hnew hlock _ horder happends =>
    have hnew' : w.db.payments.find? (key (⟨id, input.orderID, .pending⟩ : Payment)) = none := hnew
    refine { Frame.refl held w.db with
      payment := ?_, paymentEvolves := ?_, paymentNew := ?_
      outbox := happends.frame, outboxNew := happends.frameNew hlock }
    · intro x hx
      rw [Table.find?_insert hnew', if_neg]
      rintro rfl
      exact hx hlock
    · intro x p hfind
      exact ⟨p, Table.find?_insert_of_some hnew' hfind, .refl p⟩
    · intro x p hnone hsome
      rw [Table.find?_insert hnew'] at hsome
      split at hsome
      next =>
        obtain rfl := Option.some.inj hsome
        exact horder
      next => simp [hnone] at hsome
  -- It has claimed the payment; a pending payment may change.
  | @settled outcome p status e _ houtcome hfind hlock hpending hresult happends =>
    refine { Frame.refl held w.db with
      payment := ?_, paymentEvolves := ?_, paymentNew := ?_
      outbox := happends.frame, outboxNew := happends.frameNew ?_ }
    · intro x hx
      rw [find?_settle status hfind, if_neg]
      rintro rfl
      exact hx hlock
    · intro x y hy
      by_cases hx : x = p.id
      · obtain rfl : p = y := Option.some.inj (hfind.symm.trans (hx ▸ hy))
        exact ⟨{ p with status := status }, by rw [find?_settle status hfind, if_pos hx], rfl,
          fun hsettled => absurd hpending hsettled⟩
      · exact ⟨y, by rw [find?_settle status hfind, if_neg hx, hy], .refl y⟩
    · intro x y hnone hsome
      rw [Table.find?_replace_eq_none_iff.mpr hnone] at hsome
      simp at hsome
    · rw [hresult.paymentID]
      exact hlock

/-- A commit of an operation that handles an event has processed that event and no other one. -/
theorem Change.mem_processedEvents (h : Change call held w r db') {e : Uuid} :
    e ∈ db'.processedEvents ↔ e ∈ w.db.processedEvents ∨ call.eventID? = some e := by
  have hrecorded : ∀ {x : Uuid}, call.eventID? = some x →
      (e ∈ x :: w.db.processedEvents ↔ e ∈ w.db.processedEvents ∨ call.eventID? = some e) := by
    intro x hx
    rw [List.mem_cons, hx, Option.some.injEq, eq_comm, or_comm]
  cases h with
  | unchanged hevent => exact (or_iff_left_of_imp fun he => hevent e he).symm
  | recorded hevent => exact hrecorded hevent
  | projected hcall => exact hrecorded (by rw [hcall, Call.eventID?])
  | canceled hcall => exact hrecorded (by rw [hcall, Call.eventID?])
  | paid hcall => simp [hcall, Call.eventID?]
  | settled hcall => simp [hcall, Call.eventID?]

/-- A commit of an operation that handles an event which has been processed changes nothing. -/
theorem Change.eq_of_processed (h : Change call held w r db') {e : Uuid}
    (hevent : call.eventID? = some e) (hmem : e ∈ w.db.processedEvents) : db' = w.db := by
  -- In all other cases the event is recorded, so that it has been new.
  have hnew : ∀ {x : Uuid}, Records held w.db x → call.eventID? ≠ some x := by
    intro x hrecords hx
    obtain rfl := Option.some.inj (hevent.symm.trans hx)
    exact hrecords.1 hmem
  cases h with
  | unchanged => rfl
  | recorded hevent' hrecords => exact absurd hevent' (hnew hrecords)
  | projected hcall hrecords => exact absurd (by rw [hcall, Call.eventID?]) (hnew hrecords)
  | canceled hcall hrecords => exact absurd (by rw [hcall, Call.eventID?]) (hnew hrecords)
  | paid hcall => simp [hcall, Call.eventID?] at hevent
  | settled hcall => simp [hcall, Call.eventID?] at hevent

/-- A commit leaves the outbox alone, or adds an announcement of a payment to it. -/
theorem Change.outbox_cases (h : Change call held w r db') :
    db'.outboxEvents = w.db.outboxEvents ∨ ∃ p e, Appends held w e ∧
      ((∃ n fresh, e = paymentCreatedEvent p n fresh) ∨ ResultEvent p e) ∧
      db'.outboxEvents = w.db.outboxEvents.insert e := by
  cases h with
  | unchanged => exact Or.inl rfl
  | recorded => exact Or.inl rfl
  | projected => exact Or.inl rfl
  | canceled => exact Or.inl rfl
  | @paid input o id n fresh _ _ _ _ _ _ _ _ happends =>
    exact Or.inr ⟨_, _, happends, Or.inl ⟨n, fresh, rfl⟩, rfl⟩
  | settled _ _ _ _ _ hresult happends =>
    exact Or.inr ⟨_, _, happends, Or.inr hresult, rfl⟩

/-- Only `Create` adds a payment, and it returns what it has added. -/
theorem Change.payment_of_new (h : Change call held w r db') {p : Payment}
    (hp : p ∈ db'.payments.rows) (hnone : w.db.payments.find? p.id = none) :
    ∃ input o, call = .create input ∧ r = .created p true ∧
      p = ⟨p.id, input.orderID, .pending⟩ ∧ w.db.orders.find? input.orderID = some o ∧
      o.userID = input.userID ∧ o.status = .created := by
  have hold : p ∉ w.db.payments.rows := fun hmem => Table.find?_eq_none_iff.mp hnone p hmem rfl
  cases h with
  | unchanged => exact absurd hp hold
  | recorded => exact absurd hp hold
  | projected => exact absurd hp hold
  | canceled => exact absurd hp hold
  | @paid input o id n fresh hcall hfind huser hstatus hnew =>
    have hnew' : w.db.payments.find? (key (⟨id, input.orderID, .pending⟩ : Payment)) = none := hnew
    rcases (Table.mem_insert hnew').mp hp with hp | rfl
    · exact absurd hp hold
    · exact ⟨input, o, hcall, rfl, rfl, hfind, huser, hstatus⟩
  | @settled outcome q status e _ _ hfind =>
    -- The row that was replaced had the same key.
    rcases (mem_settle status (Table.mem_of_find? hfind)).mp hp with rfl | ⟨hp, -⟩
    · simp [hfind] at hnone
    · exact absurd hp hold

end Frame

end Payments
