import PolyglotTicketing.Integration.PaymentOutcome
import PolyglotTicketing.Integration.Schedule

/-!
# How an order ends

An order ends when it is paid, or when its time is up. `never_early` says that Orders does not let
an order expire before its time, up to the rounding of times to milliseconds. `settles` says that an
order does not stay open: once Orders has applied the message about its expiration, and everything
that Payments has announced about its payments, none of which is pending any more, it is canceled or
complete.
-/

namespace Integration

open Platform Contracts Relational Transaction Transition Wire

/-- After a message that is not a duplicate, the order it is about is past the states in which the
message can change it. -/
theorem past_of_change {call : Orders.Call} {opened w : Orders.State} {held : List Orders.Key}
    {r : Orders.Reply} {db' : Orders.Db} (h : Orders.Change call opened held w r db')
    {m : Orders.Move} {e : Uuid} (hmove : call.move? = some m) (hevent : m.eventID = some e)
    (hknown : opened.db.orders.find? m.orderID ≠ none) (hnew : e ∉ w.db.processedEvents) :
    ∃ o, db'.orders.find? m.orderID = some o ∧ o.status ∉ m.sources := by
  have heventID : call.eventID? = some e := (Orders.Call.eventID?_of_move hmove).trans hevent
  have htarget := Orders.Call.target_not_mem_sources hmove
  cases h with
  | unchanged hwhy =>
    rcases hwhy with ⟨x, hx, hmem⟩ | ⟨hnone, -⟩
    · obtain rfl := Option.some.inj (heventID.symm.trans hx)
      exact absurd hmem hnew
    · cases hnone.symm.trans heventID
  | recorded _ _ hlate => exact (hlate.order m hmove).resolve_left hknown
  | projected hcall => simp [hcall, Orders.Call.move?] at hmove
  | reserved hcall => simp [hcall, Orders.Call.move?] at hmove
  | @advanced m' o hmove' hfind =>
    obtain rfl := Option.some.inj (hmove'.symm.trans hmove)
    exact ⟨_, by rw [Orders.find?_move _ hfind, if_pos rfl], htarget⟩
  | @canceled m' o _ _ _ hmove' hfind _ _ _ _ hcanceled =>
    obtain rfl := Option.some.inj (hmove'.symm.trans hmove)
    rw [hcanceled] at htarget
    exact ⟨_, by rw [Orders.find?_move _ hfind, if_pos rfl], htarget⟩

namespace Services

variable {protobuf : Protobuf} {s s' : Services}

/-- With the event, Orders commits what Expiration has asked for: it lets the order expire, unless
it is too late for that. -/
def Expires (id : Uuid) (s : Services) (e : Event) : Prop :=
  ∃ i t r eventID, e = .orders (.finish i) ∧ s.orders.sessions[i]? = some t ∧
    t.phase = .running (.done r) ∧ t.call = .applyExpirationComplete eventID id

/-- A time that has come in milliseconds has come, or will within half a millisecond. -/
theorem lt_of_timestampMs_le {time clock : Int}
    (h : Expiration.timestampMs (.new time) ≤ Expiration.dateNow clock) : time < clock + 500 := by
  simp only [Expiration.timestampMs, Timestamp.new, Expiration.dateNow] at h
  omega

/-- In every run of the services, whatever is repeated, delayed or lost, Orders lets no order expire
half a millisecond before its time or earlier, by the clock of Expiration. -/
theorem never_early (protobuf : Protobuf) (tickets orders payments expiration : Int)
    (events : List Event) :
    EachStep (step protobuf)
      (fun s e => ∀ o ∈ s.orders.world.db.orders.rows, Expires o.id s e →
        o.expiresAt < s.expiration.clock + 500)
      (init tickets orders payments expiration) events := by
  rw [eachStep_iff_forall_segment]
  rintro front e back - o ho ⟨i, t, r, eventID, -, ht, -, hcall⟩
  have h := linked_run protobuf tickets orders payments expiration front
  obtain ⟨-, x, hfind, hexpires⟩ := h.expires t (List.mem_of_getElem? ht) eventID o.id hcall
  obtain rfl : o = x := Option.some.inj ((Table.find?_of_mem ho).symm.trans hfind)
  exact lt_of_timestampMs_le hexpires

/-- Orders wait only for payments that have been created. -/
def Awaited (s : Services) : Prop :=
  ∀ o ∈ s.orders.world.db.orders.rows, o.status = .awaitingPayment →
    ∃ p ∈ s.payments.world.db.payments.rows, p.orderID = o.id

/-- Only the creation of a payment makes an order wait. -/
theorem call_of_target_awaiting {call : Orders.Call} {m : Orders.Move}
    (hmove : call.move? = some m) (htarget : m.target = .awaitingPayment) :
    ∃ e, call = .applyPaymentCreated e m.orderID := by
  cases call with
  | applyPaymentCreated e id =>
    obtain rfl := Option.some.inj hmove
    exact ⟨e, rfl⟩
  | reserveTicket input => cases hmove
  | upsertTicketFromEvent e t => cases hmove
  | _ =>
    obtain rfl := Option.some.inj hmove
    cases htarget

/-- Every event keeps the payments of the orders that wait. -/
theorem Awaited.move (hawaited : Awaited s) (h : Linked protobuf s) (hmoves : Moves s s') :
    Awaited s' := by
  intro o ho hstatus
  cases hmoves with
  | quiet tickets orders payments =>
    rw [payments]
    exact hawaited o (orders ▸ ho) hstatus
  | tickets ht hchange orders payments =>
    rw [payments]
    exact hawaited o (orders ▸ ho) hstatus
  | @orders t r ht hchange tickets payments =>
    rw [payments]
    rcases hchange.orders_cases with hsame | ⟨input, id, -, hnew, -, hinsert⟩ |
      ⟨m, x, hmove, hfind, -, -, -, hreplace⟩
    · exact hawaited o (hsame ▸ ho) hstatus
    · rw [hinsert, Table.mem_insert hnew] at ho
      rcases ho with ho | rfl
      · exact hawaited o ho hstatus
      · cases hstatus
    · rw [hreplace, Orders.mem_move _ (Table.mem_of_find? hfind)] at ho
      rcases ho with rfl | ⟨ho, -⟩
      · -- The order waits because Payments has announced a payment for it.
        obtain ⟨e, hcall⟩ := call_of_target_awaiting hmove hstatus
        obtain ⟨row, hrow, hhandle, -⟩ := h.coherent.handled t ht (by rw [hcall]; rfl)
        obtain ⟨p, hp, horder, -⟩ := h.coherent.balanced.payment_of_row hrow
        refine ⟨p, hp, horder.trans ?_⟩
        show _ = x.id
        rw [show x.id = m.orderID from Table.key_of_find? hfind]
        rw [hcall] at hhandle
        cases hpayload : row.payload with
        | created event =>
          rw [hpayload] at hhandle
          exact (Orders.Call.applyPaymentCreated.inj hhandle).2
        | succeeded event => simp [hpayload, Orders.handle] at hhandle
        | failed event => simp [hpayload, Orders.handle] at hhandle
      · exact hawaited o ho hstatus
  | payments ht hchange tickets orders =>
    obtain ⟨p, hp, horder⟩ := hawaited o (orders ▸ ho) hstatus
    obtain ⟨p', hp', -, hevolves⟩ := hchange.grows.payment p hp
    exact ⟨p', hp', hevolves.orderID.trans horder⟩

variable (protobuf) in
theorem awaited_run (tickets orders payments expiration : Int) (events : List Event) :
    Awaited (run (step protobuf) (init tickets orders payments expiration) events) :=
  (run_invariant (P := fun s => Linked protobuf s ∧ Awaited s)
    (fun _ e h => ⟨h.1.step e, h.2.move h.1 (h.1.moves e)⟩)
    ⟨linked_init protobuf tickets orders payments expiration,
      by simp [Awaited, init, Orders.State.init, Orders.Db.init]⟩ events).2

/-- What an event does to an order. -/
theorem Moves.order_evolves (hmoves : Moves s s') {id : Uuid} {o : Orders.Order}
    (hfind : s.orders.world.db.orders.find? id = some o) :
    ∃ o', s'.orders.world.db.orders.find? id = some o' ∧ o.Evolves o' := by
  cases hmoves with
  | quiet tickets orders payments => exact ⟨o, orders ▸ hfind, .refl o⟩
  | tickets ht hchange orders payments => exact ⟨o, orders ▸ hfind, .refl o⟩
  | orders ht hchange tickets payments => exact hchange.frame.evolves id o hfind
  | payments ht hchange tickets orders => exact ⟨o, orders ▸ hfind, .refl o⟩

/-- The order is in none of the states. -/
def Past (id : Uuid) (sources : List Orders.Status) (s : Services) : Prop :=
  ∃ o, s.orders.world.db.orders.find? id = some o ∧ o.status ∉ sources

/-- An order does not go back to the states in which a message can change it. -/
theorem Past.step {call : Orders.Call} {m : Orders.Move} (hmove : call.move? = some m)
    (h : Linked protobuf s) (e : Event) (hpast : Past m.orderID m.sources s) :
    Past m.orderID m.sources (s.step protobuf e) := by
  obtain ⟨o, hfind, hstatus⟩ := hpast
  obtain ⟨o', hfind', hevolves⟩ := (h.moves e).order_evolves hfind
  exact ⟨o', hfind', hevolves.not_mem_sources hmove hstatus⟩

/-- Orders has known the order of a message when the transaction began that handles it. -/
theorem Linked.known_of_handled (h : Linked protobuf s) {t : Orders.Tran}
    (ht : t ∈ s.orders.sessions) {m : Orders.Move} (hmove : t.call.move? = some m)
    (hevent : m.eventID ≠ none) : t.opened.db.orders.find? m.orderID ≠ none := by
  -- The messages of Payments are about an order in their outbox, the others have a timer.
  have hpayment : t.call.HandlesPayment = true →
      t.opened.db.orders.find? m.orderID ≠ none := by
    intro hhandles
    obtain ⟨row, hrow, hhandle, hknown⟩ := h.coherent.handled t ht hhandles
    rw [← hhandle] at hmove
    have hid : m.orderID = row.payload.orderID := by
      cases hpayload : row.payload <;>
        simp only [hpayload, Orders.handle, Orders.Call.move?, Option.some.injEq] at hmove <;>
        rw [← hmove] <;> rfl
    rwa [hid]
  cases hcall : t.call with
  | reserveTicket input => simp [hcall, Orders.Call.move?] at hmove
  | upsertTicketFromEvent e x => simp [hcall, Orders.Call.move?] at hmove
  | cancelByIDAndUser id user =>
    rw [hcall] at hmove
    obtain rfl := Option.some.inj hmove
    exact absurd rfl hevent
  | applyExpirationComplete e id =>
    rw [hcall] at hmove
    obtain rfl := Option.some.inj hmove
    exact (h.expires t ht e id hcall).1
  | _ => exact hpayment (by rw [hcall]; rfl)

/-- When Orders applies a message about an order, the order is past the states in which the message
can change it. -/
theorem Applies.past {call : Orders.Call} {m : Orders.Move} {x : Uuid} {e : Event}
    (h : Linked protobuf s) (hmove : call.move? = some m) (hevent : m.eventID = some x)
    (happlies : Applies call s e) : Past m.orderID m.sources (s.step protobuf e) := by
  obtain ⟨t, ht, rfl, ⟨r, hchange⟩, hnew⟩ := happlies.change h
  have hknown := h.known_of_handled ht hmove (by simp [hevent])
  refine past_of_change hchange hmove hevent hknown (hnew x ?_)
  exact (Orders.Call.eventID?_of_move hmove).trans hevent

/-- Orders that have been told so stay past the states in which the message could change them. -/
theorem Applied.past {call : Orders.Call} {m : Orders.Move} {x : Uuid} {events : List Event}
    (happlied : Applied protobuf call s events) (h : Linked protobuf s)
    (hmove : call.move? = some m) (hevent : m.eventID = some x) :
    Past m.orderID m.sources (run (Services.step protobuf) s events) :=
  happlied.lasting h (fun _ _ hs => Applies.past hs hmove hevent)
    fun _ e hs => Past.step hmove hs e

/-- Everything has been said about an order: Orders has applied the message about its expiration,
and everything that Payments has announced about its payments, all of which are resolved. -/
structure Told (protobuf : Protobuf) (init : Services) (events : List Event) (id : Uuid) :
    Prop where
  expired : ∃ e, Applied protobuf (.applyExpirationComplete e id) init events
  resolved : ∀ p ∈ (run (step protobuf) init events).payments.world.db.payments.rows,
    p.orderID = id → p.status ≠ .pending
  applied : ∀ row ∈ (run (step protobuf) init events).payments.world.db.outboxEvents.rows,
    row.payload.orderID = id → Applied protobuf (Orders.handle row.payload) init events

/-- Every order about which everything has been said is canceled or complete. -/
def Settled (protobuf : Protobuf) (init : Services) (events : List Event) : Prop :=
  ∀ o ∈ (run (step protobuf) init events).orders.world.db.orders.rows,
    Told protobuf init events o.id → o.status = .canceled ∨ o.status = .complete

/-- In every run of the services, every order about which everything has been said is canceled or
complete. -/
theorem settles (protobuf : Protobuf) (tickets orders payments expiration : Int)
    (events : List Event) :
    Settled protobuf (init tickets orders payments expiration) events := by
  intro o ho htold
  have hstart := linked_init protobuf tickets orders payments expiration
  have h := linked_run protobuf tickets orders payments expiration events
  have hfind := Table.find?_of_mem ho
  -- The expiration has found the order paid for, or it has let it expire.
  obtain ⟨e, hexpired⟩ := htold.expired
  obtain ⟨x, hx, hcreated⟩ :=
    hexpired.past hstart (m := ⟨o.id, none, [.created], .canceled, some e⟩) rfl rfl
  obtain rfl : o = x := Option.some.inj (hfind.symm.trans hx)
  cases hstatus : o.status with
  | canceled => exact Or.inl rfl
  | complete => exact Or.inr rfl
  | created => simp [hstatus] at hcreated
  | awaitingPayment =>
    -- An order that waits has a payment, whose result would have closed the order.
    obtain ⟨p, hp, horder⟩ :=
      awaited_run protobuf tickets orders payments expiration events o ho hstatus
    have hresolved := htold.resolved p hp horder
    obtain ⟨n, fresh, ⟨hpending, -⟩ | ⟨result, ⟨n', fresh', hresult⟩, -, hrows⟩⟩ :=
      h.coherent.balanced.booked p hp
    · exact absurd hpending hresolved
    have hmem : result ∈ eventsAbout PaymentEvent.paymentID
        (run (step protobuf) (init tickets orders payments expiration)
          events).payments.world.db.outboxEvents p.id := by
      rw [hrows]
      simp
    obtain ⟨hrow, -⟩ := mem_eventsAbout.mp hmem
    have hsources : ∃ m : Orders.Move, (Orders.handle result.payload).move? = some m ∧
        m.orderID = o.id ∧ m.sources = [.created, .awaitingPayment] ∧
        m.eventID = some result.eventID ∧ result.payload.orderID = o.id := by
      rcases hresult with ⟨-, rfl⟩ | ⟨-, rfl⟩
      · exact ⟨_, rfl, horder, rfl, rfl, horder⟩
      · exact ⟨_, rfl, horder, rfl, rfl, horder⟩
    obtain ⟨m, hmove, hid, hsources, hevent, habout⟩ := hsources
    obtain ⟨x, hx, hclosed⟩ :=
      (htold.applied result hrow habout).past hstart hmove hevent
    rw [hid] at hx
    obtain rfl : o = x := Option.some.inj (hfind.symm.trans hx)
    simp [hsources, hstatus] at hclosed

/-- Everything has been said about the order of the sale. -/
theorem told_sale (protobuf : Protobuf) : Told protobuf (init 0 0 0 0) (sale protobuf) 22 := by
  have hrows : ∀ row ∈ (Payments.serve 0 paying).world.db.outboxEvents.rows,
      row.payload = begun ∨ row.payload = succeeded := by decide +kernel
  refine ⟨⟨22, applied_sale protobuf 16 5 rfl rfl (by decide +kernel) (by decide +kernel)
    (by decide +kernel)⟩, ?_, ?_⟩
  · rw [run_sale]
    simp only [after]
    decide +kernel
  · rw [run_sale]
    simp only [after]
    intro row hrow _
    rcases hrows row hrow with heq | heq
    · rw [heq]
      exact applied_sale protobuf 8 3 rfl rfl (by decide +kernel) (by decide +kernel)
        (by decide +kernel)
    · rw [heq]
      exact applied_sale protobuf 12 4 rfl rfl (by decide +kernel) (by decide +kernel)
        (by decide +kernel)

/-- The order of the sale ends. -/
theorem settles_sale : ∃ o ∈ (run (step .unary) (init 0 0 0 0)
    (sale .unary)).orders.world.db.orders.rows,
      o.id = 22 ∧ (o.status = .canceled ∨ o.status = .complete) := by
  have horder : ∃ o ∈ (Orders.serve 0 (ordering ++ closing)).world.db.orders.rows, o.id = 22 := by
    decide +kernel
  obtain ⟨o, ho, hid⟩ := horder
  have hmem : o ∈ (run (step .unary) (init 0 0 0 0) (sale .unary)).orders.world.db.orders.rows := by
    rw [run_sale]
    exact ho
  exact ⟨o, hmem, hid, settles .unary 0 0 0 0 (sale .unary) o hmem (hid ▸ told_sale .unary)⟩

end Services

end Integration
