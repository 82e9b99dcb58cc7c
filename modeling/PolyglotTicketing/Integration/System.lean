import PolyglotTicketing.Orders.OrderHistory
import PolyglotTicketing.Orders.Reservations
import PolyglotTicketing.Payments.Ledger
import PolyglotTicketing.Payments.Projection

/-!
# Orders and Payments together

The servers of Orders and Payments, each with any number of transactions whose statements
interleave, and the messages between them. A message is in flight once the row of the outbox that
holds it is committed: a transaction that handles it can begin at any later time, any number of
times (`Allowed`). `Coherent` is what holds of the two databases together in every reachable
state.
-/

namespace Integration

open Platform Contracts Relational Transaction Transition

/-- The servers of Orders and Payments. -/
structure System where
  orders : Orders.System
  payments : Payments.System

/-- Something happens on one of the servers. -/
inductive Event where
  | orders (e : Transaction.Event Int Fresh Orders.Call)
  | payments (e : Transaction.Event Int Fresh Payments.Call)

/-- Both servers with migrated databases. -/
def System.init (clock clock' : Int) : System :=
  ⟨⟨Orders.State.init clock, []⟩, ⟨Payments.State.init clock', []⟩⟩

/-- Transactions that handle messages begin only with a message from the outbox of the other
service. -/
def Allowed (s : System) : Event → Prop
  | .orders (.start call) => call.HandlesPayment = true →
      ∃ e ∈ s.payments.world.db.outboxEvents.rows, Orders.handle e.payload = call
  | .payments (.start call) => call.ProjectsOrder = true →
      ∃ e ∈ s.orders.world.db.outboxEvents.rows, Payments.handle e.payload = .ok call
  | _ => True

instance (s : System) : (e : Event) → Decidable (Allowed s e)
  | .orders (.start _) => inferInstanceAs (Decidable (_ → _))
  | .payments (.start _) => inferInstanceAs (Decidable (_ → _))
  | .orders (.tick _) => inferInstanceAs (Decidable True)
  | .orders (.statement _ _) => inferInstanceAs (Decidable True)
  | .orders (.crash _) => inferInstanceAs (Decidable True)
  | .orders (.finish _) => inferInstanceAs (Decidable True)
  | .payments (.tick _) => inferInstanceAs (Decidable True)
  | .payments (.statement _ _) => inferInstanceAs (Decidable True)
  | .payments (.crash _) => inferInstanceAs (Decidable True)
  | .payments (.finish _) => inferInstanceAs (Decidable True)

/-- One event. -/
def step (s : System) (e : Event) : System :=
  if Allowed s e then
    match e with
    | .orders e => { s with orders := s.orders.step Orders.engine Orders.program e }
    | .payments e => { s with payments := s.payments.step Payments.engine Payments.program e }
  else s

/-- What holds of the two servers in every reachable state. -/
structure Coherent (s : System) : Prop where
  orders : Orders.discipline.Sound Orders.engine s.orders
  payments : Payments.discipline.Sound Payments.engine s.payments
  consistent : Orders.Consistent s.orders.world.db
  balanced : Payments.Balanced s.payments.world.db
  /-- Payments knows only orders of Orders. -/
  projected : ∀ x ∈ s.payments.world.db.orders.rows, s.orders.world.db.orders.find? x.id ≠ none
  /-- Payments are for orders of Orders. -/
  paid : ∀ p ∈ s.payments.world.db.payments.rows, s.orders.world.db.orders.find? p.orderID ≠ none
  /-- Complete orders have been paid. -/
  complete : ∀ o ∈ s.orders.world.db.orders.rows, o.status = .complete →
    ∃ p ∈ s.payments.world.db.payments.rows, p.orderID = o.id ∧ p.status = .succeeded
  /-- What Orders handles is in the outbox of Payments, and about an order that was known when the
  transaction began. -/
  handled : ∀ t ∈ s.orders.sessions, t.call.HandlesPayment = true →
    ∃ e ∈ s.payments.world.db.outboxEvents.rows, Orders.handle e.payload = t.call ∧
      t.opened.db.orders.find? e.payload.orderID ≠ none
  /-- What Payments is about to project is an order of Orders. -/
  projects : ∀ t ∈ s.payments.sessions, ∀ e o, t.call = .upsertOrderFromEvent e o →
    s.orders.world.db.orders.find? o.id ≠ none

theorem coherent_init (clock clock' : Int) : Coherent (System.init clock clock') where
  orders := Discipline.sound_init (Orders.inv_init clock)
  payments := Discipline.sound_init (Payments.inv_init clock')
  consistent := Orders.consistent_init
  balanced := Payments.balanced_init clock'
  projected := by simp [System.init, Payments.State.init, Payments.Db.init]
  paid := by simp [System.init, Payments.State.init, Payments.Db.init]
  complete := by simp [System.init, Orders.State.init, Orders.Db.init]
  handled := by simp [System.init]
  projects := by simp [System.init]

/-- The order that a message of Orders is projected to is the one it is about. -/
theorem orderID_of_handle {m : OrderEvent} {e : Uuid} {o : Payments.Order}
    (h : Payments.handle m = .ok (.upsertOrderFromEvent e o)) : o.id = m.orderID := by
  cases m with
  | created m =>
    simp only [Payments.handle, Payments.handleCreated] at h
    split at h
    next => simp at h
    next =>
      obtain ⟨-, rfl⟩ := Payments.Call.upsertOrderFromEvent.inj (Except.ok.inj h)
      rfl
  | canceled m =>
    simp only [Payments.handle, Payments.handleCanceled] at h
    split at h <;> simp at h

/-- A message of Payments is about an order that Orders knows. -/
theorem Coherent.known_of_row {s : System} (h : Coherent s) {e : OutboxEvent PaymentEvent}
    (he : e ∈ s.payments.world.db.outboxEvents.rows) :
    s.orders.world.db.orders.find? e.payload.orderID ≠ none := by
  obtain ⟨p, hp, horder, -⟩ := h.balanced.payment_of_row he
  rw [← horder]
  exact h.paid p hp

section Orders

variable {s : System} {e : Transaction.Event Int Fresh Orders.Call}

/-- What an event does to the orders. -/
theorem Coherent.orders_cases (h : Coherent s) (e : Transaction.Event Int Fresh Orders.Call) :
    (s.orders.step Orders.engine Orders.program e).world.db = s.orders.world.db ∨
      ∃ i t r, e = .finish i ∧ s.orders.sessions[i]? = some t ∧ t.phase = .running (.done r) ∧
        Orders.Change t.call t.opened t.held s.orders.world r
          (s.orders.step Orders.engine Orders.program e).world.db := by
  refine (Server.step_world_cases s.orders e).imp_right ?_
  rintro ⟨i, t, r, he, ht, hphase, hdb⟩
  rw [hdb]
  exact ⟨i, t, r, he, ht, hphase, (h.orders.guar_of_commit ht hphase).2⟩

/-- An event of Orders keeps the servers coherent. -/
theorem Coherent.step_orders (h : Coherent s) (hallowed : Allowed s (.orders e)) :
    Coherent { s with orders := s.orders.step Orders.engine Orders.program e } := by
  -- Orders are not deleted, so that what Payments knows stays known.
  have hknown : ∀ id, s.orders.world.db.orders.find? id ≠ none →
      (s.orders.step Orders.engine Orders.program e).world.db.orders.find? id ≠ none := by
    intro id hid
    rcases h.orders_cases e with hdb | ⟨i, t, r, -, -, -, hchange⟩
    · rwa [hdb]
    · exact Orders.known_of_change hchange hid
  refine ⟨Discipline.sound_step Orders.allSafe h.orders e, h.payments, ?_, h.balanced,
    fun x hx => hknown _ (h.projected x hx), fun p hp => hknown _ (h.paid p hp), ?_, ?_,
    fun t ht e' o hcall => hknown _ (h.projects t ht e' o hcall)⟩
  · -- The rows of Orders stay consistent with each other.
    rcases h.orders_cases e with hdb | ⟨i, t, r, -, -, -, hchange⟩
    · exact hdb ▸ h.consistent
    · exact h.consistent.change hchange
  · -- An order is complete from the commit on that moves it there.
    intro o ho hstatus
    rcases h.orders_cases e with hdb | ⟨i, t, r, -, ht, -, hchange⟩
    · exact h.complete o (hdb ▸ ho) hstatus
    rcases hchange.orders_cases with hsame | ⟨input, id, -, hnew, -, hinsert⟩ |
      ⟨m, x, hmove, hfind, -, -, -, hreplace⟩
    · exact h.complete o (hsame ▸ ho) hstatus
    · rw [hinsert, Table.mem_insert hnew] at ho
      rcases ho with ho | rfl
      · exact h.complete o ho hstatus
      · simp [Orders.newOrder] at hstatus
    · rw [hreplace, Orders.mem_move _ (Table.mem_of_find? hfind)] at ho
      rcases ho with rfl | ⟨ho, -⟩
      · -- The order is completed by a message that says that its payment has succeeded.
        obtain ⟨e', hcall, -⟩ := Orders.Call.of_target_complete hmove hstatus
        have hid : x.id = m.orderID := Table.key_of_find? hfind
        obtain ⟨row, hrow, hhandle, -⟩ :=
          h.handled t (List.mem_of_getElem? ht) (by rw [hcall]; rfl)
        obtain ⟨p, hp, horder, hsucceeded, -⟩ := h.balanced.payment_of_row hrow
        rw [hcall] at hhandle
        cases hpayload : row.payload with
        | created m => simp [hpayload, Orders.handle] at hhandle
        | failed m => simp [hpayload, Orders.handle] at hhandle
        | succeeded m' =>
          rw [hpayload] at hhandle horder
          obtain ⟨-, horderID⟩ := Orders.Call.applyPaymentSucceeded.inj hhandle
          exact ⟨p, hp, horder.trans (horderID.trans hid.symm), hsucceeded m' hpayload⟩
      · exact h.complete o ho hstatus
  · -- A transaction that begins handles a message of the outbox.
    intro t ht hhandles
    rcases Server.step_session_cases ht with ⟨t', ht', hcall, hopened⟩ | ⟨rfl, hopened⟩
    · rw [hcall, hopened]
      exact h.handled t' ht' (hcall ▸ hhandles)
    · obtain ⟨row, hrow, hhandle⟩ := hallowed hhandles
      rw [hopened]
      exact ⟨row, hrow, hhandle, h.known_of_row hrow⟩

end Orders

section Payments

variable {s : System} {e : Transaction.Event Int Fresh Payments.Call}

/-- What an event does to the payments. -/
theorem Coherent.payments_cases (h : Coherent s) (e : Transaction.Event Int Fresh Payments.Call) :
    (s.payments.step Payments.engine Payments.program e).world.db = s.payments.world.db ∨
      ∃ (t : Payments.Tran) (r : Payments.Reply), t ∈ s.payments.sessions ∧
        Payments.Change t.call t.held s.payments.world r
          (s.payments.step Payments.engine Payments.program e).world.db := by
  refine (Server.step_world_cases s.payments e).imp_right ?_
  rintro ⟨i, t, r, -, ht, hphase, hdb⟩
  rw [hdb]
  exact ⟨t, r, List.mem_of_getElem? ht, h.payments.guar_of_commit ht hphase⟩

/-- Payments projects only orders of Orders. -/
theorem Coherent.projected_of_change (h : Coherent s) {t : Payments.Tran}
    (ht : t ∈ s.payments.sessions) {r : Payments.Reply} {db' : Payments.Db}
    (hchange : Payments.Change t.call t.held s.payments.world r db') :
    ∀ x ∈ db'.orders.rows, s.orders.world.db.orders.find? x.id ≠ none := by
  generalize hcall : t.call = call at hchange
  cases hchange with
  | unchanged => exact h.projected
  | recorded => exact h.projected
  -- The transaction has begun with a message of Orders.
  | @projected e o hcall' _ _ _ _ hnew =>
    intro x hx
    rcases (Table.mem_insert hnew).mp hx with hx | rfl
    · exact h.projected x hx
    · exact h.projects t ht e x (hcall.trans hcall')
  | @canceled e id version o _ _ _ hfind =>
    have ho := Table.mem_of_find? hfind
    intro x hx
    have hfind' : s.payments.world.db.orders.find? (key o.cancel) = some o := Table.find?_of_mem ho
    rcases (Table.mem_replace hfind').mp hx with rfl | ⟨hx, -⟩
    · exact h.projected o ho
    · exact h.projected x hx
  | paid => exact h.projected
  | settled => exact h.projected

/-- Payments are made only for orders of Orders. -/
theorem Coherent.paid_of_change (h : Coherent s) {call : Payments.Call} {held : List Payments.Key}
    {r : Payments.Reply} {db' : Payments.Db}
    (hchange : Payments.Change call held s.payments.world r db') :
    ∀ p ∈ db'.payments.rows, s.orders.world.db.orders.find? p.orderID ≠ none := by
  intro p hp
  cases hfind : s.payments.world.db.payments.find? p.id with
  | none =>
    -- A new payment is for an order that Payments has projected.
    obtain ⟨input, o, -, -, heq, horder, -⟩ := hchange.payment_of_new hp hfind
    have hid : o.id = input.orderID := Table.key_of_find? horder
    rw [heq, ← hid]
    exact h.projected o (Table.mem_of_find? horder)
  | some q =>
    -- A payment that was there before is still for the same order.
    obtain ⟨p', hfind', hevolves⟩ := hchange.frame.paymentEvolves p.id q hfind
    obtain rfl : p = p' := Option.some.inj ((Table.find?_of_mem hp).symm.trans hfind')
    rw [hevolves.orderID]
    exact h.paid q (Table.mem_of_find? hfind)

/-- An event of Payments keeps the servers coherent. -/
theorem Coherent.step_payments (h : Coherent s) (hallowed : Allowed s (.payments e)) :
    Coherent { s with payments := s.payments.step Payments.engine Payments.program e } := by
  refine ⟨h.orders, Discipline.sound_step Payments.allSafe h.payments e, h.consistent, ?_, ?_, ?_,
    ?_, ?_, ?_⟩
  · -- The books stay balanced, and projections and payments are of known orders.
    rcases h.payments_cases e with hdb | ⟨t, r, -, hchange⟩
    · exact hdb ▸ h.balanced
    · exact h.balanced.change hchange
  · rcases h.payments_cases e with hdb | ⟨t, r, ht, hchange⟩
    · exact hdb ▸ h.projected
    · exact h.projected_of_change ht hchange
  · rcases h.payments_cases e with hdb | ⟨t, r, ht, hchange⟩
    · exact hdb ▸ h.paid
    · exact h.paid_of_change hchange
  · -- A payment that has succeeded stays as it is.
    intro o ho hstatus
    obtain ⟨p, hp, horder, hsucceeded⟩ := h.complete o ho hstatus
    rcases h.payments_cases e with hdb | ⟨t, r, ht, hchange⟩
    · exact ⟨p, hdb ▸ hp, horder, hsucceeded⟩
    · obtain ⟨p', hp', -, hevolves⟩ := hchange.grows.payment p hp
      obtain rfl := hevolves.settled (by simp [hsucceeded])
      exact ⟨p', hp', horder, hsucceeded⟩
  · -- Rows of the outbox stay.
    intro t ht hhandles
    obtain ⟨row, hrow, hhandle, hopened⟩ := h.handled t ht hhandles
    rcases h.payments_cases e with hdb | ⟨t', r, -, hchange⟩
    · exact ⟨row, hdb ▸ hrow, hhandle, hopened⟩
    · exact ⟨row, hchange.outbox_subset row hrow, hhandle, hopened⟩
  · -- A transaction that begins handles a message of Orders.
    intro t ht e' o hcall
    rcases Server.step_session_cases ht with ⟨t', ht', hcall', -⟩ | ⟨rfl, -⟩
    · exact h.projects t' ht' e' o (hcall' ▸ hcall)
    · obtain ⟨row, hrow, hhandle⟩ := hallowed (by rw [hcall]; rfl)
      rw [hcall] at hhandle
      rw [orderID_of_handle hhandle]
      exact h.consistent.known row hrow

end Payments

/-- Every event keeps the servers coherent. -/
theorem coherent_step {s : System} (h : Coherent s) (e : Event) : Coherent (step s e) := by
  unfold Integration.step
  split
  next hallowed =>
    cases e with
    | orders e => exact h.step_orders hallowed
    | payments e => exact h.step_payments hallowed
  next => exact h

/-- The servers are coherent in every reachable state. -/
theorem coherent_run (clock clock' : Int) (events : List Event) :
    Coherent (run step (System.init clock clock') events) :=
  run_invariant (P := Coherent) (fun _ e h => coherent_step h e) (coherent_init clock clock') events

end Integration
