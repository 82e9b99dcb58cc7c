import PolyglotTicketing.Integration.System

/-!
# The outcome of a payment and of its order

`outcomes_agree` says what becomes of an order once Orders has applied every message about its
payment, whatever happened in between: a failed payment cancels the order, a complete order has a
payment that succeeded, and a payment that succeeded completes the order unless the order was
canceled by its user or by its expiration before (`Withdraws`). That can happen
(`not_always_complete`): Orders takes no notice of the result of the payment of an order that it
has canceled.
-/

namespace Integration

open Platform Contracts Relational Transaction Transition

/-- With the event, Orders applies the message of a row: the transaction that handles it commits,
and it has not been processed before. -/
def Applies (e : OutboxEvent PaymentEvent) (s : System) (l : Event) : Prop :=
  ∃ i t r, l = .orders (.finish i) ∧ s.orders.sessions[i]? = some t ∧
    t.phase = .running (.done r) ∧ t.call = Orders.handle e.payload ∧
    e.eventID ∉ s.orders.world.db.processedEvents

/-- Orders has applied the message of a row. -/
def Applied (e : OutboxEvent PaymentEvent) (s : System) (events : List Event) : Prop :=
  ∃ front l back, events = front ++ l :: back ∧ Applies e (run step s front) l

/-- With the event, the user of an order or its expiration cancels it. -/
def Withdraws (id : Uuid) (s : System) (l : Event) : Prop :=
  ∃ i t r, l = .orders (.finish i) ∧ s.orders.sessions[i]? = some t ∧
    t.phase = .running (.done r) ∧
    ((∃ user, t.call = .cancelByIDAndUser id user) ∨
      ∃ e, t.call = .applyExpirationComplete e id) ∧
    Orders.statusOf s.orders.world.db id ≠ some .canceled ∧
    Orders.statusOf (step s l).orders.world.db id = some .canceled

/-- A message that can close an order finds it closed, or closes it. -/
theorem closes_of_change {call : Orders.Call} {opened w : Orders.State} {held : List Orders.Key}
    {r : Orders.Reply} {db' : Orders.Db} (h : Orders.Change call opened held w r db')
    {m : Orders.Move} {e : Uuid} (hmove : call.move? = some m)
    (hsources : m.sources = [.created, .awaitingPayment]) (hevent : m.eventID = some e)
    (hknown : opened.db.orders.find? m.orderID ≠ none) (hnew : e ∉ w.db.processedEvents) :
    ∃ o, db'.orders.find? m.orderID = some o ∧ ¬o.status.Open := by
  have heventID : call.eventID? = some e := (Orders.Call.eventID?_of_move hmove).trans hevent
  -- The message closes what is open, so that it finds every other order closed.
  have hclosed : ∀ s : Orders.Status, s ∉ m.sources → ¬s.Open := by
    intro s hs hopen
    rw [hsources] at hs
    exact hs (by simpa [Orders.Status.Open] using hopen)
  have htarget := hclosed _ (Orders.Call.target_not_mem_sources hmove)
  cases h with
  | unchanged hwhy =>
    rcases hwhy with ⟨x, hx, hmem⟩ | ⟨hnone, -⟩
    · obtain rfl := Option.some.inj (heventID.symm.trans hx)
      exact absurd hmem hnew
    · simp [heventID] at hnone
  -- The order was known when the transaction began, so it is the status that has come too late.
  | recorded _ _ hlate =>
    rcases hlate.order m hmove with hnone | ⟨o, hfind, hstatus⟩
    · exact absurd hnone hknown
    · exact ⟨o, hfind, hclosed _ hstatus⟩
  | projected hcall => simp [hcall, Orders.Call.move?] at hmove
  | reserved hcall => simp [hcall, Orders.Call.move?] at hmove
  | advanced hmove' hfind =>
    obtain rfl := Option.some.inj (hmove'.symm.trans hmove)
    exact ⟨_, by rw [Orders.find?_move _ hfind, if_pos rfl], htarget⟩
  | canceled hmove' hfind _ _ _ _ hcanceled =>
    obtain rfl := Option.some.inj (hmove'.symm.trans hmove)
    rw [hcanceled] at htarget
    exact ⟨_, by rw [Orders.find?_move _ hfind, if_pos rfl], htarget⟩

section Step

variable {s : System}

/-- What an event does to the orders of the system. -/
theorem Coherent.step_orders_cases (h : Coherent s) (l : Event) :
    (step s l).orders.world.db = s.orders.world.db ∨
      ∃ (i : ℕ) (t : Orders.Tran) (r : Orders.Reply), l = .orders (.finish i) ∧
        s.orders.sessions[i]? = some t ∧ t.phase = .running (.done r) ∧
        Orders.Change t.call t.opened t.held s.orders.world r (step s l).orders.world.db := by
  unfold Integration.step
  split
  next =>
    cases l with
    | orders e =>
      refine (h.orders_cases e).imp_right ?_
      rintro ⟨i, t, r, rfl, ht, hphase, hchange⟩
      exact ⟨i, t, r, rfl, ht, hphase, hchange⟩
    | payments e => exact Or.inl rfl
  next => exact Or.inl rfl

/-- Closed orders stay as they are. -/
theorem closed_run {o : Orders.Order} (h : Coherent s) (ho : o ∈ s.orders.world.db.orders.rows)
    (hclosed : ¬o.status.Open) (later : List Event) :
    o ∈ (run step s later).orders.world.db.orders.rows := by
  refine (run_invariant (P := fun s => Coherent s ∧ o ∈ s.orders.world.db.orders.rows) ?_
    ⟨h, ho⟩ later).2
  rintro s l ⟨h, ho⟩
  refine ⟨coherent_step h l, ?_⟩
  rcases h.step_orders_cases l with hdb | ⟨i, t, r, -, -, -, hchange⟩
  · rwa [hdb]
  · -- What one commit does to an order leaves a closed one alone.
    obtain ⟨o', hfind', hevolves⟩ := hchange.frame.evolves _ o (Table.find?_of_mem ho)
    obtain rfl := hevolves.closed hclosed
    exact Table.mem_of_find? hfind'

/-- Resolved payments stay as they are. -/
theorem resolved_run {p : Payments.Payment} (h : Coherent s)
    (hp : p ∈ s.payments.world.db.payments.rows) (hresolved : p.status ≠ .pending)
    (later : List Event) : p ∈ (run step s later).payments.world.db.payments.rows := by
  refine (run_invariant (P := fun s => Coherent s ∧ p ∈ s.payments.world.db.payments.rows) ?_
    ⟨h, hp⟩ later).2
  rintro s l ⟨h, hp⟩
  refine ⟨coherent_step h l, ?_⟩
  unfold Integration.step
  split
  next =>
    cases l with
    | orders e => exact hp
    | payments e =>
      rcases h.payments_cases e with hdb | ⟨t, r, -, hchange⟩
      · exact hdb ▸ hp
      · obtain ⟨p', hp', -, hevolves⟩ := hchange.grows.payment p hp
        obtain rfl := hevolves.settled hresolved
        exact hp'
  next => exact hp

/-- When Orders applies the result of a payment, the order is closed. -/
theorem Applies.closes {e : OutboxEvent PaymentEvent} {l : Event} (h : Coherent s)
    (happlies : Applies e s l) {m : Orders.Move} (hmove : (Orders.handle e.payload).move? = some m)
    (hsources : m.sources = [.created, .awaitingPayment]) (hevent : m.eventID = some e.eventID) :
    ∃ o, (step s l).orders.world.db.orders.find? m.orderID = some o ∧ ¬o.status.Open := by
  obtain ⟨i, t, r, rfl, ht, hphase, hcall, hnew⟩ := happlies
  -- The message is a row of the outbox of Payments, about an order that is known to Orders.
  obtain ⟨row, hrow, hhandle, hopened⟩ := h.handled t (List.mem_of_getElem? ht) (by
    rw [hcall]
    cases e.payload <;> rfl)
  have hid : row.payload.orderID = m.orderID := by
    rw [← hcall, ← hhandle] at hmove
    cases hpayload : row.payload <;>
      simp only [hpayload, Orders.handle, Orders.Call.move?, Option.some.injEq] at hmove <;>
      rw [← hmove] <;> rfl
  have hchange := (h.orders.guar_of_commit ht hphase).2
  have hdb : (step s (.orders (.finish i))).orders.world.db =
      Orders.engine.applyAll t.pending s.orders.world.db := by
    simp [step, Allowed, Server.step, ht, hphase]
  rw [hcall] at hchange
  rw [hdb]
  exact closes_of_change hchange hmove hsources hevent (hid ▸ hopened) hnew

/-- The messages that cancel an order say that its payment has failed. -/
theorem Coherent.withdraws_or_failed (h : Coherent s) {l : Event} {id : Uuid}
    (hbefore : Orders.statusOf s.orders.world.db id ≠ some .canceled)
    (hafter : Orders.statusOf (step s l).orders.world.db id = some .canceled) :
    Withdraws id s l ∨
      ∃ p ∈ s.payments.world.db.payments.rows, p.orderID = id ∧ p.status = .failed := by
  rcases h.step_orders_cases l with hdb | ⟨i, t, r, rfl, ht, hphase, hchange⟩
  · rw [hdb] at hafter
    exact absurd hafter hbefore
  have hwithdraws : ((∃ user, t.call = .cancelByIDAndUser id user) ∨
      ∃ e, t.call = .applyExpirationComplete e id) → Withdraws id s (.orders (.finish i)) :=
    fun hcall => ⟨i, t, r, rfl, ht, hphase, hcall, hbefore, hafter⟩
  -- The commit moves the order, to `Canceled`.
  rcases hchange.orders_cases with hsame | ⟨input, x, -, hnew, -, hinsert⟩ |
    ⟨m, o, hmove, hfind, -, -, -, hreplace⟩
  · rw [Orders.statusOf, hsame] at hafter
    exact absurd hafter hbefore
  · rw [Orders.statusOf, hinsert,
      Table.find?_insert (r := Orders.newOrder input x) hnew] at hafter
    split at hafter
    next => simp [Orders.newOrder] at hafter
    next => exact absurd hafter hbefore
  rw [Orders.statusOf, hreplace, Orders.find?_move _ hfind] at hafter
  split at hafter
  next hid =>
    subst hid
    have htarget : m.target = .canceled := Option.some.inj hafter
    cases hcall : t.call with
    | cancelByIDAndUser orderID user =>
      rw [hcall] at hmove
      obtain rfl := Option.some.inj hmove
      exact Or.inl (hwithdraws (Or.inl ⟨user, hcall⟩))
    | applyExpirationComplete e orderID =>
      rw [hcall] at hmove
      obtain rfl := Option.some.inj hmove
      exact Or.inl (hwithdraws (Or.inr ⟨e, hcall⟩))
    -- This message was written with the payment that has failed.
    | applyPaymentFailed e orderID =>
      rw [hcall] at hmove
      obtain rfl := Option.some.inj hmove
      obtain ⟨row, hrow, hhandle, -⟩ := h.handled t (List.mem_of_getElem? ht) (by rw [hcall]; rfl)
      obtain ⟨p, hp, horder, -, hfailed⟩ := h.balanced.payment_of_row hrow
      rw [hcall] at hhandle
      cases hpayload : row.payload with
      | created m => simp [hpayload, Orders.handle] at hhandle
      | succeeded m => simp [hpayload, Orders.handle] at hhandle
      | failed m =>
        rw [hpayload] at hhandle horder
        obtain ⟨-, horderID⟩ := Orders.Call.applyPaymentFailed.inj hhandle
        exact Or.inr ⟨p, hp, horder.trans horderID, hfailed m hpayload⟩
    | reserveTicket input => simp [hcall, Orders.Call.move?] at hmove
    | upsertTicketFromEvent e ticket => simp [hcall, Orders.Call.move?] at hmove
    | applyPaymentCreated e orderID =>
      rw [hcall] at hmove
      obtain rfl := Option.some.inj hmove
      simp at htarget
    | applyPaymentSucceeded e orderID =>
      rw [hcall] at hmove
      obtain rfl := Option.some.inj hmove
      simp at htarget
  next => exact absurd hafter hbefore

end Step

section Run

variable {clock clock' : Int} {events : List Event}

/-- Once Orders has applied the result of a payment, the order stays closed. -/
theorem Applied.closed {e : OutboxEvent PaymentEvent}
    (happlied : Applied e (System.init clock clock') events) {m : Orders.Move}
    (hmove : (Orders.handle e.payload).move? = some m)
    (hsources : m.sources = [.created, .awaitingPayment]) (hevent : m.eventID = some e.eventID) :
    ∃ o, (run step (System.init clock clock') events).orders.world.db.orders.find? m.orderID =
      some o ∧ ¬o.status.Open := by
  obtain ⟨front, l, back, rfl, happlies⟩ := happlied
  have hcoh := coherent_run clock clock' front
  obtain ⟨o, hfind, hclosed⟩ := happlies.closes hcoh hmove hsources hevent
  have hid : o.id = m.orderID := Table.key_of_find? hfind
  rw [run_append, run_cons]
  have hstill := closed_run (coherent_step hcoh l) (Table.mem_of_find? hfind) hclosed back
  exact ⟨o, hid ▸ Table.find?_of_mem hstill, hclosed⟩

/-- An order whose payment has not failed was canceled by its user or its expiration. -/
theorem exists_withdraws {id : Uuid}
    (hcanceled : Orders.statusOf (run step (System.init clock clock') events).orders.world.db id =
      some .canceled)
    (hfailed : ∀ p ∈ (run step (System.init clock clock') events).payments.world.db.payments.rows,
      p.orderID = id → p.status ≠ .failed) :
    ∃ front l back, events = front ++ l :: back ∧
      Withdraws id (run step (System.init clock clock') front) l := by
  -- The order is canceled in some step of the run.
  obtain ⟨front, l, back, rfl, hbefore, hafter⟩ := exists_step_of_run
    (P := fun s : System => Orders.statusOf s.orders.world.db id = some .canceled)
    (by simp [System.init, Orders.State.init, Orders.Db.init, Orders.statusOf]) hcanceled
  have hcoh := coherent_run clock clock' front
  rcases hcoh.withdraws_or_failed hbefore hafter with hwithdraws | ⟨p, hp, horder, hstatus⟩
  · exact ⟨front, l, back, rfl, hwithdraws⟩
  · -- A payment that had failed then has failed for good.
    have hstill := resolved_run hcoh hp (by simp [hstatus]) (l :: back)
    rw [← run_append] at hstill
    exact absurd hstatus (hfailed p hstill horder)

/-- When Orders has applied every message about a payment: if the payment has failed, its order is
canceled; if it has succeeded, its order is complete, or its user or its expiration has canceled
it; and if its order is complete, it has succeeded. -/
theorem outcomes_agree (clock clock' : Int) (events : List Event) {p : Payments.Payment}
    (hp : p ∈ (run step (System.init clock clock') events).payments.world.db.payments.rows)
    (happlied : ∀ e ∈ eventsAbout PaymentEvent.paymentID
      (run step (System.init clock clock') events).payments.world.db.outboxEvents p.id,
        Applied e (System.init clock clock') events) :
    ∃ o, (run step (System.init clock clock') events).orders.world.db.orders.find? p.orderID =
        some o ∧
      (p.status = .failed → o.status = .canceled) ∧
      (p.status = .succeeded → o.status = .complete ∨ o.status = .canceled ∧
        ∃ front l back, events = front ++ l :: back ∧
          Withdraws p.orderID (run step (System.init clock clock') front) l) ∧
      (o.status = .complete → p.status = .succeeded) := by
  have hcoh := coherent_run clock clock' events
  obtain ⟨o, hfind⟩ := Option.ne_none_iff_exists'.mp (hcoh.paid p hp)
  have hid : o.id = p.orderID := Table.key_of_find? hfind
  have honly : ∀ p' ∈ (run step (System.init clock clock') events).payments.world.db.payments.rows,
      p'.orderID = p.orderID → p' = p :=
    fun p' hp' horder => hcoh.payments.inv.2 p' hp' p hp horder
  have hcomplete : o.status = .complete → p.status = .succeeded := by
    intro hstatus
    obtain ⟨p', hp', horder, hsucceeded⟩ := hcoh.complete o (Table.mem_of_find? hfind) hstatus
    rwa [← honly p' hp' (horder.trans hid)]
  -- The payment is pending, or the outbox has a row with its result.
  obtain ⟨n, fresh, ⟨hpending, -⟩ | ⟨e, ⟨n', fresh', hresult⟩, -, hrows⟩⟩ :=
    hcoh.balanced.booked p hp
  · exact ⟨o, hfind, by simp [hpending], by simp [hpending], hcomplete⟩
  have happlied' := happlied e (by simp [hrows])
  -- Either way, the result of the payment has closed the order.
  have hclosed : ¬o.status.Open := by
    rcases hresult with ⟨-, rfl⟩ | ⟨-, rfl⟩
    · obtain ⟨o', hfind', hclosed⟩ := happlied'.closed rfl rfl rfl
      obtain rfl := Option.some.inj (hfind.symm.trans hfind')
      exact hclosed
    · obtain ⟨o', hfind', hclosed⟩ := happlied'.closed rfl rfl rfl
      obtain rfl := Option.some.inj (hfind.symm.trans hfind')
      exact hclosed
  have hends : o.status = .complete ∨ o.status = .canceled := by
    cases hstatus : o.status <;> simp_all [Orders.Status.Open]
  refine ⟨o, hfind, ?_, ?_, hcomplete⟩
  · intro hfailed
    refine hends.resolve_left fun hstatus => ?_
    simp [hfailed] at hcomplete
    exact hcomplete hstatus
  · intro hsucceeded
    refine hends.imp_right fun hcanceled => ⟨hcanceled, exists_withdraws ?_ ?_⟩
    · simp [Orders.statusOf, hfind, hcanceled]
    · intro p' hp' horder
      rw [honly p' hp' horder, hsucceeded]
      simp

end Run

/-- The `i`-th transaction of Orders runs on its own, with `n` statements whose identifiers count
from `id`. -/
def ordersRun (i : ℕ) (call : Orders.Call) (n id : ℕ) : List Event :=
  .orders (.start call) ::
    ((List.range n).map fun k => .orders (.statement i ⟨.ofNat 128 (id + k), 0, 0⟩)) ++
      [.orders (.finish i)]

/-- The same for Payments. -/
def paymentsRun (i : ℕ) (call : Payments.Call) (n id : ℕ) : List Event :=
  .payments (.start call) ::
    ((List.range n).map fun k => .payments (.statement i ⟨.ofNat 128 (id + k), 0, 0⟩)) ++
      [.payments (.finish i)]

/-- A user cancels an order whose payment has succeeded, before Orders hears of it. -/
def canceledBeforeSuccess : List Event :=
  ordersRun 0 (.upsertTicketFromEvent 1 ⟨0, 7, "seat", 100⟩) 3 10 ++
  ordersRun 1 (.reserveTicket ⟨minutes 15, 7, "alice"⟩) 4 20 ++
  paymentsRun 0 (.upsertOrderFromEvent 23 ⟨0, 22, 100, .created, "alice"⟩) 3 30 ++
  paymentsRun 1 (.create ⟨22, "alice"⟩) 4 40 ++
  paymentsRun 2 (.resolveNextPending .success) 3 50 ++
  ordersRun 2 (.cancelByIDAndUser 22 "alice") 2 60 ++
  ordersRun 3 (.applyPaymentCreated 43 22) 2 70 ++
  ordersRun 4 (.applyPaymentSucceeded 52 22) 2 80

/-- The payment that has succeeded. -/
def succeededPayment : Payments.Payment := ⟨42, 22, .succeeded⟩

theorem succeededPayment_mem : succeededPayment ∈
    (run step (System.init 0 0) canceledBeforeSuccess).payments.world.db.payments.rows := by
  decide +kernel

theorem succeededPayment_applied :
    ∀ e ∈ eventsAbout PaymentEvent.paymentID
      (run step (System.init 0 0) canceledBeforeSuccess).payments.world.db.outboxEvents
        succeededPayment.id, Applied e (System.init 0 0) canceledBeforeSuccess := by
  have hrows : eventsAbout PaymentEvent.paymentID
      (run step (System.init 0 0) canceledBeforeSuccess).payments.world.db.outboxEvents
        succeededPayment.id = [Payments.paymentCreatedEvent succeededPayment 1 ⟨43, 0, 0⟩,
          Payments.paymentSucceededEvent succeededPayment 2 ⟨52, 0, 0⟩] := by
    decide +kernel
  intro e he
  rw [hrows, List.mem_pair] at he
  rcases he with rfl | rfl
  · exact ⟨canceledBeforeSuccess.take 34, _, canceledBeforeSuccess.drop 35, rfl, 3, _, _, rfl, rfl,
      rfl, rfl, by decide +kernel⟩
  · exact ⟨canceledBeforeSuccess.take 38, _, canceledBeforeSuccess.drop 39, rfl, 4, _, _, rfl, rfl,
      rfl, rfl, by decide +kernel⟩

/-- The outcome of this payment: the user has withdrawn the order. -/
theorem outcomes_agree_succeededPayment :
    ∃ o, (run step (System.init 0 0) canceledBeforeSuccess).orders.world.db.orders.find? 22 =
        some o ∧
      (o.status = .complete ∨ o.status = .canceled ∧
        ∃ front l back, canceledBeforeSuccess = front ++ l :: back ∧
          Withdraws 22 (run step (System.init 0 0) front) l) := by
  obtain ⟨o, hfind, -, hsucceeded, -⟩ :=
    outcomes_agree 0 0 canceledBeforeSuccess succeededPayment_mem succeededPayment_applied
  exact ⟨o, hfind, hsucceeded rfl⟩

/-- A payment that has succeeded need not complete its order. -/
theorem not_always_complete :
    ¬∀ clock clock' events,
      ∀ p ∈ (run step (System.init clock clock') events).payments.world.db.payments.rows,
        (∀ e ∈ eventsAbout PaymentEvent.paymentID
          (run step (System.init clock clock') events).payments.world.db.outboxEvents p.id,
            Applied e (System.init clock clock') events) →
        ∃ o, (run step (System.init clock clock') events).orders.world.db.orders.find? p.orderID =
            some o ∧
          (p.status = .succeeded → o.status = .complete) ∧
          (p.status = .failed → o.status = .canceled) := by
  intro h
  obtain ⟨o, hfind, hcomplete, -⟩ := h 0 0 canceledBeforeSuccess succeededPayment
    succeededPayment_mem succeededPayment_applied
  have hcanceled : (run step (System.init 0 0) canceledBeforeSuccess).orders.world.db.orders.find?
      22 = some ⟨1, minutes 15, 22, .canceled, 7, "alice"⟩ := by
    decide +kernel
  obtain rfl := Option.some.inj (hfind.symm.trans hcanceled)
  simpa using hcomplete rfl

end Integration
