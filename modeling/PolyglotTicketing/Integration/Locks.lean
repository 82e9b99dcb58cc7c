import PolyglotTicketing.Integration.Schedule
import PolyglotTicketing.Tickets.EditLock

/-!
# The edit lock and the orders

Tickets locks a ticket for an order, and knows of the orders only what Orders has announced. The
orders on a ticket, as `Tickets.TicketOrders` has them, are the rows of Orders (`ordersOn`), which
come and go while Tickets follows (`Extends`). `lock_follows` says where this leads: a lock is that
of an order on the ticket, and once Tickets would reject everything that it has not handled yet, the
ticket is free exactly if all of its orders are canceled.
-/

namespace Tickets.TicketOrders

open Platform Contracts

/-- The orders `h'` are the orders `h` and others, and what is new of them has not been
processed. -/
structure Extends (h h' : TicketOrders) (processed : List Uuid) : Prop where
  ticketID : h'.ticketID = h.ticketID
  old : ∀ o ∈ h.orders, ∃ o' ∈ h'.orders, o'.orderID = o.orderID ∧
    o'.createdEventID = o.createdEventID ∧
    (∀ e ∈ o.canceledEventID, e ∈ o'.canceledEventID) ∧
    ∀ e ∈ o'.canceledEventID, e ∈ processed → e ∈ o.canceledEventID
  new : ∀ o' ∈ h'.orders, ∀ e ∈ o'.eventIDs, e ∈ processed →
    ∃ o ∈ h.orders, o.orderID = o'.orderID

variable {h h' : TicketOrders} {db : Db}

/-- An order with a processed event is an old one. -/
theorem Extends.exists_old {processed : List Uuid} (hext : Extends h h' processed)
    {o' : TicketOrder} (ho' : o' ∈ h'.orders) {e : Uuid} (he : e ∈ o'.eventIDs)
    (hmem : e ∈ processed) :
    ∃ o ∈ h.orders, o'.orderID = o.orderID ∧ o'.createdEventID = o.createdEventID ∧
      (∀ e ∈ o.canceledEventID, e ∈ o'.canceledEventID) ∧
      ∀ e ∈ o'.canceledEventID, e ∈ processed → e ∈ o.canceledEventID := by
  obtain ⟨o, ho, hid⟩ := hext.new o' ho' e he hmem
  obtain ⟨o'', ho'', hid'', hrest⟩ := hext.old o ho
  obtain rfl := eq_of_orderID ho' ho'' (hid.symm.trans hid''.symm)
  exact ⟨o, ho, hid.symm, hrest⟩

/-- New orders do not matter for the lock as long as they have not been processed. -/
theorem Settling.extend (hdb : h.Settling db) (hext : Extends h h' db.processedEvents) :
    h'.Settling db := by
  have hholder : h'.holder db = h.holder db := by
    rw [holder, holder, hext.ticketID]
  have hcreated : ∀ {o : TicketOrder}, o.createdEventID ∈ o.eventIDs := by
    simp [TicketOrder.eventIDs]
  constructor
  · rw [hext.ticketID]
    exact hdb.known
  · intro id hid
    obtain ⟨o, ho, rfl, hin, hout⟩ := hdb.held id (hholder ▸ hid)
    obtain ⟨o', ho', horder, hsame, -, hback⟩ := hext.old o ho
    exact ⟨o', ho', horder, hsame ▸ hin, fun e he hmem => hout e (hback e he hmem) hmem⟩
  · intro o' ho' hmem
    obtain ⟨o, ho, horder, hsame, hforth, -⟩ := hext.exists_old ho' hcreated hmem
    rw [hholder, horder]
    rcases hdb.created o ho (hsame ▸ hmem) with hheld | ⟨e, he, hprocessed⟩
    · exact Or.inl hheld
    · exact Or.inr ⟨e, hforth e he, hprocessed⟩
  · intro o' ho' e he hmem
    have hevent : e ∈ o'.eventIDs := List.mem_cons_of_mem _ (Option.mem_toList.mpr he)
    obtain ⟨o, ho, -, hsame, -, hback⟩ := hext.exists_old ho' hevent hmem
    rw [hsame]
    exact hdb.canceled o ho e (hback e he hmem) hmem

end Tickets.TicketOrders

namespace Integration

open Platform Contracts Relational Transaction Transition Wire

/-- The events about an order that Orders has announced. -/
def eventIDsOf (db : Orders.Db) (id : Uuid) : List Uuid :=
  (eventsAbout OrderEvent.orderID db.outboxEvents id).map OutboxEvent.eventID

/-- An order as Tickets gets to know it. -/
def ticketOrder (db : Orders.Db) (o : Orders.Order) : Tickets.TicketOrder where
  orderID := o.id
  createdEventID := (eventIDsOf db o.id).headD 0
  canceledEventID := (eventIDsOf db o.id).tail.head?

section TicketOrder

variable {db : Orders.Db} {o : Orders.Order}

/-- The rows about an order are its creation and, if it is canceled, its cancellation. -/
theorem ticketOrder_cases (hdb : Orders.Consistent db) (ho : o ∈ db.orders.rows) :
    ∃ created ∈ db.outboxEvents.rows, Orders.AnnouncesCreation o created ∧
      ((o.status ≠ .canceled ∧ eventIDsOf db o.id = [created.eventID] ∧
          ticketOrder db o = ⟨o.id, created.eventID, none⟩) ∨
        ∃ canceled ∈ db.outboxEvents.rows, o.status = .canceled ∧
          Orders.AnnouncesCancellation o canceled ∧
          eventIDsOf db o.id = [created.eventID, canceled.eventID] ∧
          ticketOrder db o = ⟨o.id, created.eventID, some canceled.eventID⟩) := by
  have hrows : ∀ {x}, x ∈ eventsAbout OrderEvent.orderID db.outboxEvents o.id →
      x ∈ db.outboxEvents.rows := fun hx => (mem_eventsAbout.mp hx).1
  have hannounced := hdb.announced o ho
  unfold Orders.Announced at hannounced
  split at hannounced
  next hcanceled =>
    obtain ⟨created, canceled, hevents, hcreation, hcancellation, -⟩ := hannounced
    have hids : eventIDsOf db o.id = [created.eventID, canceled.eventID] := by
      rw [eventIDsOf, hevents]
      rfl
    refine ⟨created, hrows (by simp [hevents]), hcreation, Or.inr ⟨canceled,
      hrows (by simp [hevents]), hcanceled, hcancellation, hids, ?_⟩⟩
    simp [ticketOrder, hids]
  next hnot =>
    obtain ⟨created, hevents, hcreation⟩ := hannounced
    have hids : eventIDsOf db o.id = [created.eventID] := by
      rw [eventIDsOf, hevents]
      rfl
    refine ⟨created, hrows (by simp [hevents]), hcreation, Or.inl ⟨hnot, hids, ?_⟩⟩
    simp [ticketOrder, hids]

/-- The events of an order are those of the rows about it. -/
theorem eventIDs_ticketOrder (hdb : Orders.Consistent db) (ho : o ∈ db.orders.rows) :
    (ticketOrder db o).eventIDs = eventIDsOf db o.id := by
  obtain ⟨created, -, -, ⟨-, hids, heq⟩ | ⟨canceled, -, -, -, hids, heq⟩⟩ :=
    ticketOrder_cases hdb ho
  · rw [heq, hids]
    rfl
  · rw [heq, hids]
    rfl

/-- An event is that of one row. -/
theorem mem_eventIDsOf {id x : Uuid} :
    x ∈ eventIDsOf db id ↔ ∃ e ∈ db.outboxEvents.rows, e.payload.orderID = id ∧ e.eventID = x := by
  simp [eventIDsOf, mem_eventsAbout, and_assoc]

/-- The orders on a ticket. -/
def ordersOn (hdb : Orders.Consistent db) (ticketID : Uuid) : Tickets.TicketOrders where
  ticketID := ticketID
  orders := (db.orders.rows.filter fun o => decide (o.ticketID = ticketID)).map (ticketOrder db)
  orderID := by
    rw [List.map_map]
    exact (List.filter_sublist.map key).nodup db.orders.nodup
  eventID := by
    rw [List.flatMap_map, List.nodup_flatMap]
    refine ⟨?_, ?_⟩
    · intro o ho
      rw [eventIDs_ticketOrder hdb (List.mem_filter.mp ho).1]
      exact (List.filter_sublist.map key).nodup db.outboxEvents.nodup
    · -- A row is about one order, so that two orders have no event in common.
      have hne : (db.orders.rows.filter fun o => decide (o.ticketID = ticketID)).Pairwise
          fun o o' => o.id ≠ o'.id :=
        List.pairwise_map.mp ((List.filter_sublist.map key).nodup db.orders.nodup)
      refine hne.imp_of_mem fun {o o'} ho ho' hid => ?_
      show List.Disjoint (ticketOrder db o).eventIDs (ticketOrder db o').eventIDs
      rw [eventIDs_ticketOrder hdb (List.mem_filter.mp ho).1,
        eventIDs_ticketOrder hdb (List.mem_filter.mp ho').1]
      intro x hx hx'
      obtain ⟨e, he, habout, rfl⟩ := mem_eventIDsOf.mp hx
      obtain ⟨e', he', habout', heq⟩ := mem_eventIDsOf.mp hx'
      obtain rfl := Table.eq_of_key_eq he he' heq.symm
      exact hid (habout.symm.trans habout')

theorem mem_ordersOn {hdb : Orders.Consistent db} {ticketID : Uuid} {x : Tickets.TicketOrder} :
    x ∈ (ordersOn hdb ticketID).orders ↔
      ∃ o ∈ db.orders.rows, o.ticketID = ticketID ∧ ticketOrder db o = x := by
  simp [ordersOn, and_assoc]

/-- An order is announced by its identifiers. -/
theorem createdEventID_of_announces (hdb : Orders.Consistent db) (ho : o ∈ db.orders.rows)
    {e : OutboxEvent OrderEvent} (he : e ∈ db.outboxEvents.rows)
    (hcreation : Orders.AnnouncesCreation o e) :
    (ticketOrder db o).createdEventID = e.eventID := by
  obtain ⟨-, occurredAt, price, -, hpayload⟩ := hcreation
  have hmem : e.eventID ∈ eventIDsOf db o.id :=
    mem_eventIDsOf.mpr ⟨e, he, by rw [hpayload]; rfl, rfl⟩
  obtain ⟨created, hcreated, -, ⟨-, hids, heq⟩ | ⟨canceled, hrow, -, hcancellation, hids, heq⟩⟩ :=
    ticketOrder_cases hdb ho
  · rw [hids, List.mem_singleton] at hmem
    rw [heq, hmem]
  · rw [hids, List.mem_pair] at hmem
    rcases hmem with hmem | hmem
    · rw [heq, hmem]
    · -- A row does not announce a creation and a cancellation.
      obtain rfl := Table.eq_of_key_eq he hrow hmem
      obtain ⟨-, occurredAt', hpayload'⟩ := hcancellation
      cases hpayload.symm.trans hpayload'

/-- A canceled order is announced by its identifiers. -/
theorem canceledEventID_of_announces (hdb : Orders.Consistent db) (ho : o ∈ db.orders.rows)
    {e : OutboxEvent OrderEvent} (he : e ∈ db.outboxEvents.rows)
    (hcancellation : Orders.AnnouncesCancellation o e) :
    (ticketOrder db o).canceledEventID = some e.eventID := by
  obtain ⟨-, occurredAt, hpayload⟩ := hcancellation
  have hmem : e.eventID ∈ eventIDsOf db o.id :=
    mem_eventIDsOf.mpr ⟨e, he, by rw [hpayload]; rfl, rfl⟩
  obtain ⟨created, hrow, ⟨-, occurredAt', price, -, hpayload'⟩,
    ⟨-, hids, heq⟩ | ⟨canceled, -, -, -, hids, heq⟩⟩ := ticketOrder_cases hdb ho
  · rw [hids, List.mem_singleton] at hmem
    obtain rfl := Table.eq_of_key_eq he hrow hmem
    cases hpayload.symm.trans hpayload'
  · rw [hids, List.mem_pair] at hmem
    rcases hmem with hmem | hmem
    · obtain rfl := Table.eq_of_key_eq he hrow hmem
      cases hpayload.symm.trans hpayload'
    · rw [heq, hmem]

/-- What Tickets makes of a row is a delivery, or is about another ticket. -/
theorem allows_handle (hdb : Orders.Consistent db) {e : OutboxEvent OrderEvent}
    (he : e ∈ db.outboxEvents.rows) (ticketID : Uuid) :
    (ordersOn hdb ticketID).Allows (Tickets.handle e.payload) := by
  obtain ⟨o, ho, hannounces⟩ := announces_of_row hdb he
  have hpayload : e.payload.orderID = o.id ∧ (Tickets.handle e.payload).eventID? = some e.eventID ∧
      ((Tickets.handle e.payload = .reserveTicketFromOrder e.eventID o.id o.ticketID ∧
        Orders.AnnouncesCreation o e) ∨
      (Tickets.handle e.payload = .unreserveTicketFromOrder e.eventID o.id o.ticketID ∧
        Orders.AnnouncesCancellation o e)) := by
    rcases hannounces with hcreation | ⟨-, hcancellation⟩
    · obtain ⟨-, occurredAt, price, -, hpayload⟩ := id hcreation
      rw [hpayload]
      exact ⟨rfl, rfl, Or.inl ⟨rfl, hcreation⟩⟩
    · obtain ⟨-, occurredAt, hpayload⟩ := id hcancellation
      rw [hpayload]
      exact ⟨rfl, rfl, Or.inr ⟨rfl, hcancellation⟩⟩
  obtain ⟨horder, hevent, hcall⟩ := hpayload
  by_cases hticket : o.ticketID = ticketID
  · left
    have hmem : ticketOrder db o ∈ (ordersOn hdb ticketID).orders :=
      mem_ordersOn.mpr ⟨o, ho, hticket, rfl⟩
    rcases hcall with ⟨hcall, hcreation⟩ | ⟨hcall, hcancellation⟩
    · rw [hcall, hticket, ← createdEventID_of_announces hdb ho he hcreation]
      exact .created hmem
    · rw [hcall, hticket]
      exact .canceled hmem (canceledEventID_of_announces hdb ho he hcancellation)
  · right
    refine ⟨?_, ?_⟩
    · intro eventID orderID
      rcases hcall with ⟨hcall, -⟩ | ⟨hcall, -⟩
      · rw [hcall]
        exact ⟨fun heq => hticket (Tickets.Call.reserveTicketFromOrder.inj heq).2.2, nofun⟩
      · rw [hcall]
        exact ⟨nofun, fun heq => hticket (Tickets.Call.unreserveTicketFromOrder.inj heq).2.2⟩
    · -- The row is about an order on another ticket.
      intro x hx hmem
      obtain rfl := Option.some.inj (hevent.symm.trans hx)
      obtain ⟨y, hy, hin⟩ := List.mem_flatMap.mp hmem
      obtain ⟨o', ho', hticket', rfl⟩ := mem_ordersOn.mp hy
      rw [eventIDs_ticketOrder hdb ho'] at hin
      obtain ⟨e', he', habout, heq⟩ := mem_eventIDsOf.mp hin
      obtain rfl := Table.eq_of_key_eq he' he heq
      obtain rfl := Table.eq_of_key_eq ho ho' (horder.symm.trans habout)
      exact hticket hticket'

end TicketOrder

section Extends

variable {call : Orders.Call} {opened w : Orders.State} {held : List Orders.Key}
  {r : Orders.Reply} {db' : Orders.Db}

/-- The events about an order after a commit: those before, and at most one that is new. -/
theorem eventIDsOf_change (hchange : Orders.Change call opened held w r db') (id : Uuid) :
    eventIDsOf db' id = eventIDsOf w.db id ∨
      ∃ x, (∀ e ∈ w.db.outboxEvents.rows, e.eventID ≠ x) ∧
        eventIDsOf db' id = eventIDsOf w.db id ++ [x] := by
  rcases hchange.outbox_cases with hsame | ⟨e, hnew, hinsert, -⟩
  · left
    rw [eventIDsOf, hsame, eventIDsOf]
  by_cases hid : e.payload.orderID = id
  · refine Or.inr ⟨e.eventID, ?_, ?_⟩
    · intro x hx heq
      have hfind : w.db.outboxEvents.find? e.eventID = some x := heq ▸ Table.find?_of_mem hx
      simp [hnew] at hfind
    · rw [eventIDsOf, hinsert, eventsAbout_insert hnew hid, List.map_append]
      rfl
  · left
    rw [eventIDsOf, hinsert, eventsAbout_insert_of_ne hnew hid, eventIDsOf]

/-- The orders on a ticket after a commit of Orders. -/
theorem extends_of_change (hdb : Orders.Consistent w.db) (hdb' : Orders.Consistent db')
    (hchange : Orders.Change call opened held w r db') {processed : List Uuid}
    (hprocessed : ∀ x ∈ processed, ∃ e ∈ w.db.outboxEvents.rows, e.eventID = x)
    (ticketID : Uuid) : (ordersOn hdb ticketID).Extends (ordersOn hdb' ticketID) processed where
  ticketID := rfl
  old := by
    intro x hx
    obtain ⟨o, ho, rfl, rfl⟩ := mem_ordersOn.mp hx
    obtain ⟨o', hfind', hevolves⟩ := hchange.frame.evolves o.id o (Table.find?_of_mem ho)
    refine ⟨ticketOrder db' o', mem_ordersOn.mpr
      ⟨o', Table.mem_of_find? hfind', hevolves.ticketID, rfl⟩, hevolves.id, ?_⟩
    -- The first event about the order is still the first one.
    have hnonempty : eventIDsOf w.db o.id ≠ [] := by
      obtain ⟨created, -, -, ⟨-, hids, -⟩ | ⟨canceled, -, -, -, hids, -⟩⟩ :=
        ticketOrder_cases hdb ho <;> simp [hids]
    obtain ⟨first, rest, hcons⟩ := List.exists_cons_of_ne_nil hnonempty
    simp only [ticketOrder, hevolves.id]
    rcases eventIDsOf_change hchange o.id with hsame | ⟨y, hnew, hconcat⟩
    · rw [hsame]
      exact ⟨rfl, fun e he => he, fun e he _ => he⟩
    · rw [hconcat, hcons]
      refine ⟨rfl, ?_, ?_⟩
      · intro e he
        cases rest with
        | nil => cases he
        | cons z rest => exact he
      · intro e he hmem
        cases rest with
        | nil =>
          -- What is new has not been processed.
          obtain rfl : y = e := by simpa using he
          obtain ⟨row, hrow, heq⟩ := hprocessed y hmem
          exact absurd heq (hnew row hrow)
        | cons z rest => exact he
  new := by
    intro x' hx' e he hmem
    obtain ⟨o', ho', rfl, rfl⟩ := mem_ordersOn.mp hx'
    rw [eventIDs_ticketOrder hdb' ho'] at he
    have hold : e ∈ eventIDsOf w.db o'.id := by
      rcases eventIDsOf_change hchange o'.id with hsame | ⟨y, hnew, hconcat⟩
      · rwa [hsame] at he
      · rw [hconcat, List.mem_append, List.mem_singleton] at he
        rcases he with he | rfl
        · exact he
        · obtain ⟨row, hrow, heq⟩ := hprocessed e hmem
          exact absurd heq (hnew row hrow)
    obtain ⟨row, hrow, habout, -⟩ := mem_eventIDsOf.mp hold
    obtain ⟨o, hfind⟩ := Option.ne_none_iff_exists'.mp (habout ▸ hdb.known row hrow)
    obtain ⟨o'', hfind'', hevolves⟩ := hchange.frame.evolves _ o hfind
    obtain rfl : o' = o'' := Option.some.inj ((Table.find?_of_mem ho').symm.trans hfind'')
    exact ⟨ticketOrder w.db o, mem_ordersOn.mpr
      ⟨o, Table.mem_of_find? hfind, hevolves.ticketID.symm, rfl⟩, hevolves.id.symm⟩

end Extends

namespace Services

variable {protobuf : Protobuf} {s s' : Services}

/-- How a ticket, its lock and the orders on it belong together, and that Tickets has processed only
what Orders has announced. -/
structure Follows (s : Services) : Prop where
  processed : ∀ x ∈ s.tickets.world.db.processedEvents,
    ∃ e ∈ s.orders.world.db.outboxEvents.rows, e.eventID = x
  /-- Nothing about an unknown ticket has been processed. -/
  unknown : ∀ (hdb : Orders.Consistent s.orders.world.db) id,
    s.tickets.world.db.tickets.find? id = none → ∀ o ∈ (ordersOn hdb id).orders,
      ∀ e ∈ o.eventIDs, e ∉ s.tickets.world.db.processedEvents
  /-- The lock of a ticket is the one of its orders. -/
  settling : ∀ (hdb : Orders.Consistent s.orders.world.db) id,
    s.tickets.world.db.tickets.find? id ≠ none → (ordersOn hdb id).Settling s.tickets.world.db

theorem follows_init (tickets orders payments expiration : Int) :
    Follows (init tickets orders payments expiration) := by
  constructor <;> simp [init, Tickets.State.init, Tickets.Db.init]

/-- What Tickets handles is allowed for the orders on any ticket. -/
theorem Linked.allows (h : Linked protobuf s) {t : Tickets.Tran} (ht : t ∈ s.tickets.sessions)
    (ticketID : Uuid) : (ordersOn h.coherent.consistent ticketID).Allows t.call := by
  by_cases hevent : t.call.eventID? = none
  · right
    refine ⟨fun eventID orderID => ⟨?_, ?_⟩, by simp [hevent]⟩
    · intro hcall
      simp [hcall, Tickets.Call.eventID?] at hevent
    · intro hcall
      simp [hcall, Tickets.Call.eventID?] at hevent
  · obtain ⟨e, he, hcall⟩ := h.reserves t ht hevent
    rw [hcall]
    exact allows_handle h.coherent.consistent he ticketID

section Tickets

variable {call : Tickets.Call} {w : Tickets.State} {held : List Tickets.Key} {r : Tickets.Reply}
  {db' : Tickets.Db} {orders : Tickets.TicketOrders}

/-- A commit processes the event that it handles. -/
theorem processed_of_change (hchange : Tickets.Change call held w r db') {x : Uuid}
    (hx : x ∈ db'.processedEvents) : x ∈ w.db.processedEvents ∨ call.eventID? = some x := by
  cases hchange with
  | duplicate => exact Or.inl hx
  | recorded hcall =>
    rcases List.mem_cons.mp hx with rfl | hx
    · exact Or.inr (by rw [hcall]; rfl)
    · exact Or.inl hx
  | created => exact Or.inl hx
  | changed =>
    rcases List.mem_append.mp hx with hx | hx
    · exact Or.inr (Option.mem_toList.mp hx)
    · exact Or.inl hx

/-- A commit about an unknown ticket: it creates the ticket, or it is about another one. -/
theorem unknown_of_change (hchange : Tickets.Change call held w r db')
    (hallows : orders.Allows call) (hnone : w.db.tickets.find? orders.ticketID = none)
    (hnew : ∀ o ∈ orders.orders, ∀ e ∈ o.eventIDs, e ∉ w.db.processedEvents) :
    (∀ o ∈ orders.orders, ∀ e ∈ o.eventIDs, e ∉ db'.processedEvents) ∧
      ∀ t, db'.tickets.find? orders.ticketID = some t → t.reservedByOrderID = none := by
  -- A transaction that handles an event of the orders finds their ticket.
  have hother : ∀ {t : Tickets.Ticket}, w.db.tickets.find? t.id = some t →
      t.id ≠ orders.ticketID := by
    rintro t hfind hid
    rw [hid, hnone] at hfind
    cases hfind
  have hunrelated : ∀ {t : Tickets.Ticket} {e orderID : Uuid},
      w.db.tickets.find? t.id = some t →
      (call = .reserveTicketFromOrder e orderID t.id ∨
        call = .unreserveTicketFromOrder e orderID t.id) →
      ∀ o ∈ orders.orders, ∀ x ∈ o.eventIDs, x ≠ e := by
    rintro t e orderID hfind hcall o ho x hx rfl
    have hevent : call.eventID? = some x := by
      rcases hcall with rfl | rfl <;> rfl
    rcases hallows with hdelivers | hunrelated
    · rcases hcall with rfl | rfl
      · obtain ⟨-, -, -, -, hid⟩ := hdelivers.of_reserve
        exact hother hfind hid
      · obtain ⟨-, -, -, -, hid⟩ := hdelivers.of_unreserve
        exact hother hfind hid
    · exact hunrelated.2 x hevent (Tickets.TicketOrders.mem_eventIDs ho hx)
  cases hchange with
  | duplicate => exact ⟨hnew, by simp [hnone]⟩
  | @recorded e orderID t hcall hrecords hfind =>
    refine ⟨?_, by simp [hnone]⟩
    intro o ho x hx hmem
    rcases List.mem_cons.mp hmem with heq | hmem
    · exact hunrelated hfind (Or.inl hcall) o ho x hx heq
    · exact hnew o ho x hx hmem
  | @created input id n fresh hcall hnew' =>
    refine ⟨hnew, ?_⟩
    intro t hfind
    rw [Tickets.find?_create hnew'] at hfind
    split at hfind
    next =>
      obtain rfl := Option.some.inj hfind
      rfl
    next => simp [hnone] at hfind
  | @changed r t t' n fresh hnext hfind =>
    have hid := hother hfind
    refine ⟨?_, ?_⟩
    · intro o ho x hx hmem
      rcases List.mem_append.mp hmem with hevent | hold
      · have hevent := Option.mem_toList.mp hevent
        cases hnext with
        | updated => cases hevent
        | reserved => exact hunrelated hfind (Or.inl rfl) o ho x hx (Option.some.inj hevent).symm
        | unreserved => exact hunrelated hfind (Or.inr rfl) o ho x hx (Option.some.inj hevent).symm
      · exact hnew o ho x hx hold
    · intro y hy
      rw [Tickets.find?_change hfind hnext.id, if_neg (Ne.symm hid), hnone] at hy
      cases hy

end Tickets

section Moves

/-- Databases that stay as they are keep the locks and the orders together. -/
theorem Follows.congr (hfollows : Follows s)
    (tickets : s'.tickets.world.db = s.tickets.world.db)
    (orders : s'.orders.world.db = s.orders.world.db) : Follows s' := by
  constructor
  · simpa only [tickets, orders] using hfollows.processed
  · simpa only [tickets, orders] using hfollows.unknown
  · simpa only [tickets, orders] using hfollows.settling

/-- What Tickets handles is about the event of a row. -/
theorem Linked.exists_row_of_handled (h : Linked protobuf s) {t : Tickets.Tran}
    (ht : t ∈ s.tickets.sessions) {x : Uuid} (hevent : t.call.eventID? = some x) :
    ∃ e ∈ s.orders.world.db.outboxEvents.rows, e.eventID = x := by
  obtain ⟨e, he, hcall⟩ := h.reserves t ht (by simp [hevent])
  refine ⟨e, he, ?_⟩
  obtain ⟨o, ho, ⟨-, occurredAt, price, -, hpayload⟩ | ⟨-, -, occurredAt, hpayload⟩⟩ :=
    announces_of_row h.coherent.consistent he
  · rw [hcall, hpayload] at hevent
    exact Option.some.inj hevent
  · rw [hcall, hpayload] at hevent
    exact Option.some.inj hevent

/-- A commit of Tickets keeps the locks and the orders together. -/
theorem Follows.tickets (hfollows : Follows s) (h : Linked protobuf s) (h' : Linked protobuf s')
    {t : Tickets.Tran} {r : Tickets.Reply} (ht : t ∈ s.tickets.sessions)
    (hchange : Tickets.Change t.call t.held s.tickets.world r s'.tickets.world.db)
    (orders : s'.orders.world.db = s.orders.world.db) : Follows s' := by
  have hallows := fun id => h.allows ht id
  have hsettling : ∀ id, s.tickets.world.db.tickets.find? id = none →
      (∀ o ∈ (ordersOn h.coherent.consistent id).orders, ∀ e ∈ o.eventIDs,
        e ∉ s'.tickets.world.db.processedEvents) ∧
      ∀ t, s'.tickets.world.db.tickets.find? id = some t → t.reservedByOrderID = none :=
    fun id hnone => unknown_of_change hchange (hallows id) hnone
      (hfollows.unknown h.coherent.consistent id hnone)
  constructor
  · intro x hx
    rw [orders]
    rcases processed_of_change hchange hx with hx | hevent
    · exact hfollows.processed x hx
    · exact h.exists_row_of_handled ht hevent
  · simp only [orders]
    intro hdb id hnone
    refine (hsettling id ?_).1
    -- A ticket that is unknown now has been unknown before.
    cases hbefore : s.tickets.world.db.tickets.find? id with
    | none => rfl
    | some x =>
      have hknown := ((hfollows.settling h.coherent.consistent id (by simp [hbefore])).change
        (hallows id) hchange).known
      exact absurd hnone hknown
  · simp only [orders]
    intro hdb id hknown
    by_cases hbefore : s.tickets.world.db.tickets.find? id = none
    · -- The commit has created the ticket.
      obtain ⟨hnew, hfree⟩ := hsettling id hbefore
      obtain ⟨x, hfind⟩ := Option.ne_none_iff_exists'.mp hknown
      exact Tickets.TicketOrders.Ready.settling (w := s'.tickets.world)
        ⟨h'.tickets.inv, ⟨x, hfind, hfree x hfind⟩, hnew⟩
    · exact (hfollows.settling h.coherent.consistent id hbefore).change (hallows id) hchange

/-- A commit of Orders keeps the locks and the orders together. -/
theorem Follows.orders (hfollows : Follows s) (h : Linked protobuf s) (h' : Linked protobuf s')
    {t : Orders.Tran} {r : Orders.Reply}
    (hchange : Orders.Change t.call t.opened t.held s.orders.world r s'.orders.world.db)
    (tickets : s'.tickets.world.db = s.tickets.world.db) : Follows s' := by
  have hextends := fun id => extends_of_change h.coherent.consistent h'.coherent.consistent
    hchange hfollows.processed id
  constructor
  · rw [tickets]
    intro x hx
    obtain ⟨e, he, heq⟩ := hfollows.processed x hx
    exact ⟨e, hchange.outbox_subset e he, heq⟩
  · rw [tickets]
    intro hdb id hnone o ho e he hmem
    -- An order with a processed event has been there before.
    obtain ⟨o', ho', -, hcreated, -, hcanceled⟩ := (hextends id).exists_old ho he hmem
    refine hfollows.unknown h.coherent.consistent id hnone o' ho' e ?_ hmem
    rcases List.mem_cons.mp he with rfl | he
    · rw [hcreated]
      exact List.mem_cons_self
    · exact List.mem_cons_of_mem _
        (Option.mem_toList.mpr (hcanceled e (Option.mem_toList.mp he) hmem))
  · rw [tickets]
    intro hdb id hknown
    exact (hfollows.settling h.coherent.consistent id hknown).extend (hextends id)

end Moves

/-- Every event keeps the locks and the orders together. -/
theorem Follows.move (hfollows : Follows s) (h : Linked protobuf s) (h' : Linked protobuf s')
    (hmoves : Moves s s') : Follows s' := by
  cases hmoves with
  | quiet tickets orders => exact hfollows.congr tickets orders
  | payments _ _ tickets orders => exact hfollows.congr tickets orders
  | tickets ht hchange orders => exact hfollows.tickets h h' ht hchange orders
  | orders _ hchange tickets => exact hfollows.orders h h' hchange tickets

variable (protobuf) in
theorem follows_run (tickets orders payments expiration : Int) (events : List Event) :
    Follows (run (step protobuf) (init tickets orders payments expiration) events) :=
  (run_invariant (P := fun s => Linked protobuf s ∧ Follows s)
    (fun _ e h => ⟨h.1.step e, h.2.move h.1 (h.1.step e) (h.1.moves e)⟩)
    ⟨linked_init protobuf tickets orders payments expiration,
      follows_init tickets orders payments expiration⟩ events).2

/-- Tickets would reject every message of Orders that it has not handled yet. -/
def Caught (s : Services) : Prop :=
  ∀ e ∈ s.orders.world.db.outboxEvents.rows, e.eventID ∉ s.tickets.world.db.processedEvents →
    Tickets.Rejected s.tickets.world (Tickets.handle e.payload)

/-- Every lock is that of an order on the ticket. Where Tickets has caught up with Orders, a ticket
is free exactly if all orders on it are canceled, and otherwise the order that has it is not. -/
def LockFollows (s : Services) : Prop :=
  ∀ t ∈ s.tickets.world.db.tickets.rows,
    (∀ id, t.reservedByOrderID = some id →
      ∃ o ∈ s.orders.world.db.orders.rows, o.id = id ∧ o.ticketID = t.id) ∧
    (Caught s →
      (t.reservedByOrderID = none ↔
        ∀ o ∈ s.orders.world.db.orders.rows, o.ticketID = t.id → o.status = .canceled) ∧
      ∀ id, t.reservedByOrderID = some id →
        ∃ o ∈ s.orders.world.db.orders.rows, o.id = id ∧ o.ticketID = t.id ∧
          o.status ≠ .canceled)

/-- The orders on a ticket without a cancellation are those that are not canceled. -/
theorem canceledEventID_eq_none_iff {db : Orders.Db} (hdb : Orders.Consistent db)
    {o : Orders.Order} (ho : o ∈ db.orders.rows) :
    (ticketOrder db o).canceledEventID = none ↔ o.status ≠ .canceled := by
  obtain ⟨created, -, -, ⟨hnot, -, heq⟩ | ⟨canceled, -, hcanceled, -, -, heq⟩⟩ :=
    ticketOrder_cases hdb ho
  · simp [heq, hnot]
  · simp [heq, hcanceled]

/-- A delivery of an event of the orders is what Tickets makes of a row. -/
theorem exists_row_of_delivers {db : Orders.Db} (hdb : Orders.Consistent db) {ticketID : Uuid}
    {call : Tickets.Call} (hdelivers : (ordersOn hdb ticketID).Delivers call) :
    ∃ e ∈ db.outboxEvents.rows, call = Tickets.handle e.payload ∧
      call.eventID? = some e.eventID := by
  cases hdelivers with
  | created hmem =>
    obtain ⟨o, ho, hticket, rfl⟩ := mem_ordersOn.mp hmem
    obtain ⟨e, he, hcreation, -⟩ := ticketOrder_cases hdb ho
    rw [createdEventID_of_announces hdb ho he hcreation]
    obtain ⟨-, occurredAt, price, -, hpayload⟩ := hcreation
    subst hticket
    exact ⟨e, he, by rw [hpayload]; rfl, rfl⟩
  | canceled hmem hcanceled =>
    obtain ⟨o, ho, hticket, rfl⟩ := mem_ordersOn.mp hmem
    obtain ⟨created, -, -, ⟨-, -, heq⟩ | ⟨e, he, -, hcancellation, -, heq⟩⟩ :=
      ticketOrder_cases hdb ho
    · simp [heq] at hcanceled
    · rw [heq] at hcanceled
      obtain rfl := Option.some.inj hcanceled
      obtain ⟨-, occurredAt, hpayload⟩ := hcancellation
      subst hticket
      exact ⟨e, he, by rw [hpayload]; rfl, rfl⟩

/-- In every state of every run of the services, the locks follow the orders. -/
theorem lock_follows (protobuf : Protobuf) (tickets orders payments expiration : Int)
    (events : List Event) :
    EachState (step protobuf) LockFollows (init tickets orders payments expiration) events := by
  rw [eachState_iff_forall_segment]
  rintro front back - t ht
  have h := linked_run protobuf tickets orders payments expiration front
  have hfollows := follows_run protobuf tickets orders payments expiration front
  generalize run (step protobuf) (init tickets orders payments expiration) front = s at *
  have hdb := h.coherent.consistent
  have hfind : s.tickets.world.db.tickets.find? t.id = some t := Table.find?_of_mem ht
  have hsettling := hfollows.settling hdb t.id (by simp [hfind])
  have hholder : (ordersOn hdb t.id).holder s.tickets.world.db = t.reservedByOrderID := by
    show (s.tickets.world.db.tickets.find? t.id).bind _ = _
    rw [hfind, Option.bind_some]
  refine ⟨?_, fun hcaught => ?_⟩
  · intro id hreserved
    obtain ⟨x, hx, rfl, -⟩ := hsettling.held id (hholder.trans hreserved)
    obtain ⟨o, ho, hticket, rfl⟩ := mem_ordersOn.mp hx
    exact ⟨o, ho, rfl, hticket⟩
  · have hstuck : (ordersOn hdb t.id).Stuck s.tickets.world := by
      intro call hdelivers hnew
      obtain ⟨e, he, hcall, hevent⟩ := exists_row_of_delivers hdb hdelivers
      rw [hcall]
      exact hcaught e he (hnew e.eventID hevent)
    obtain ⟨hfree, howned⟩ := hsettling.settled hstuck
    rw [hholder] at hfree howned
    refine ⟨hfree.trans ⟨?_, ?_⟩, ?_⟩
    · intro hall o ho hticket
      have hcanceled := hall _ (mem_ordersOn.mpr ⟨o, ho, hticket, rfl⟩)
      rwa [Ne, canceledEventID_eq_none_iff hdb ho, not_not] at hcanceled
    · intro hall x hx
      obtain ⟨o, ho, hticket, rfl⟩ := mem_ordersOn.mp hx
      rw [Ne, canceledEventID_eq_none_iff hdb ho, not_not]
      exact hall o ho hticket
    · intro id hreserved
      obtain ⟨x, hx, rfl, hcanceled⟩ := howned id hreserved
      obtain ⟨o, ho, hticket, rfl⟩ := mem_ordersOn.mp hx
      exact ⟨o, ho, rfl, hticket, (canceledEventID_eq_none_iff hdb ho).mp hcanceled⟩

/-- After the sale, Tickets has caught up with Orders. -/
theorem caught_sale (protobuf : Protobuf) :
    Caught (run (step protobuf) (init 0 0 0 0) (sale protobuf)) := by
  have hprocessed : ∀ e ∈ (Orders.serve 0 (ordering ++ closing)).world.db.outboxEvents.rows,
      e.eventID ∈ (Tickets.serve 0 (offering ++ locking)).world.db.processedEvents := by
    decide +kernel
  rw [run_sale]
  exact fun e he hnew => absurd (hprocessed e he) hnew

/-- After the sale, the ticket is locked by its order. -/
theorem lock_follows_sale :
    let s := run (step .unary) (init 0 0 0 0) (sale .unary)
    ∃ t ∈ s.tickets.world.db.tickets.rows, t.reservedByOrderID = some 22 ∧
      ∃ o ∈ s.orders.world.db.orders.rows, o.id = 22 ∧ o.ticketID = t.id ∧
        o.status ≠ .canceled := by
  intro s
  have hsale : s = _ := run_sale .unary
  have hlocked : ∃ t ∈ (Tickets.serve 0 (offering ++ locking)).world.db.tickets.rows,
      t.reservedByOrderID = some 22 := by decide +kernel
  obtain ⟨t, ht, hreserved⟩ := hlocked
  have hmem : t ∈ s.tickets.world.db.tickets.rows := by
    rw [hsale]
    exact ht
  have hfollows : LockFollows s := (lock_follows .unary 0 0 0 0 (sale .unary)).last
  exact ⟨t, hmem, hreserved, ((hfollows t hmem).2 (caught_sale .unary)).2 22 hreserved⟩

end Services

end Integration
