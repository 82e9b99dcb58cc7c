import Mathlib.Data.List.Pairwise
import PolyglotTicketing.Tickets.VersionHistory
import PolyglotTicketing.Transaction.Serial

/-!
# The edit lock of a ticket

The orders on a ticket (`TicketOrders`) lock and release it by their events, which the two
consumers of Tickets deliver to `ReserveTicketFromOrder` and `UnreserveTicketFromOrder` in any order
and any number of times, whatever became of earlier deliveries. The processed events and the lock
depend on each other (`Settling`), whatever interleaves; `lock_settles` says where this leads: once
no event is left that would be accepted, the ticket is free exactly if all orders are canceled,
and otherwise an order has it that was not canceled.
-/

namespace Tickets

open Platform Contracts Relational Transaction Transition

/-- An attempt at an operation of the repository. -/
abbrev Try := Attempt Int Fresh Call

/-- The operation is rejected: an attempt in which nothing fails by itself ends with an error of
the repository. -/
def Rejected (w : State) (call : Call) : Prop :=
  ∀ a : Try, a.call = call → a.Healthy → ∃ e, outcome engine program w a = .failed e

/-- An attempt none of whose statements fails by itself. -/
def Try.healthy (call : Call) (now : Int) (fresh : Fresh) : Try where
  call := call
  now := now
  fates _ := some fresh
  commits := true

theorem healthy_healthy (call : Call) (now : Int) (fresh : Fresh) :
    (Try.healthy call now fresh).Healthy := ⟨fun _ => ⟨_, rfl⟩, rfl⟩

section Rejected

variable {w : State} {t : Ticket} {e orderID : Uuid}

/-- Nothing fails with an error after a ticket was changed. -/
private theorem execute_announce_ne_failed (t : Ticket) (fates : ℕ → Option Fresh) (w : State)
    (err : Err) :
    (((insertTicketUpdatedEvent t).bind fun _ => .done .applied : Tx Reply).execute engine
      fates w).1 ≠ .failed err := by
  refine execute_stmt_ne_failed fun fresh r ws hexec => ?_
  change Outcome.committed Reply.applied ≠ _
  simp

/-- An order that finds the ticket free or locked by itself does not fail with an error. -/
private theorem execute_reserve_ne_failed (hnew : e ∉ w.db.processedEvents)
    (hfind : w.db.tickets.find? t.id = some t)
    (hfree : t.reservedByOrderID = none ∨ t.reservedByOrderID = some orderID)
    (fates : ℕ → Option Fresh) (err : Err) :
    ((program (.reserveTicketFromOrder e orderID t.id)).execute engine fates w).1 ≠
      .failed err := by
  refine execute_stmt_ne_failed fun fresh₁ r₁ ws₁ hexec₁ => ?_
  rcases exec_insertProcessedEvent hexec₁ with ⟨hmem, -, -⟩ | ⟨-, rfl, rfl, -⟩
  · exact absurd hmem hnew
  refine execute_stmt_ne_failed fun fresh₂ r₂ ws₂ hexec₂ => ?_
  -- The event is new, and the ticket is there.
  obtain ⟨rfl, ⟨-, hnone⟩ | ⟨t', rfl, hfind', -⟩⟩ := exec_selectReservationForUpdate hexec₂
  · exact absurd (hfind.symm.trans hnone) (by simp)
  obtain rfl : t = t' := Option.some.inj (hfind.symm.trans hfind')
  rcases hfree with hfree | hfree
  · -- A free ticket gets locked, which is announced.
    rw [hfree]
    refine execute_stmt_ne_failed fun fresh₃ r₃ ws₃ hexec₃ => ?_
    obtain ⟨rfl, rfl⟩ := exec_reserveTicket hexec₃ hfind
    exact execute_announce_ne_failed _ _ _ err
  · -- A ticket that the order has locked before stays as it is.
    rw [hfree]
    change (((if orderID = orderID then pure () else .fail .reserved : Tx Unit).bind
      _).execute engine _ _).1 ≠ _
    rw [if_pos rfl]
    change Outcome.committed Reply.applied ≠ _
    simp

/-- An order that has locked the ticket does not fail with an error when it is canceled. -/
private theorem execute_unreserve_ne_failed (hnew : e ∉ w.db.processedEvents)
    (hfind : w.db.tickets.find? t.id = some t) (hheld : t.reservedByOrderID = some orderID)
    (fates : ℕ → Option Fresh) (err : Err) :
    ((program (.unreserveTicketFromOrder e orderID t.id)).execute engine fates w).1 ≠
      .failed err := by
  refine execute_stmt_ne_failed fun fresh₁ r₁ ws₁ hexec₁ => ?_
  rcases exec_insertProcessedEvent hexec₁ with ⟨hmem, -, -⟩ | ⟨-, rfl, rfl, -⟩
  · exact absurd hmem hnew
  refine execute_stmt_ne_failed fun fresh₂ r₂ ws₂ hexec₂ => ?_
  -- The event is new, and the ticket is there and locked by the order.
  obtain ⟨rfl, ⟨-, hnone⟩ | ⟨t', rfl, hfind', -⟩⟩ := exec_selectReservationForUpdate hexec₂
  · exact absurd (hfind.symm.trans hnone) (by simp)
  obtain rfl : t = t' := Option.some.inj (hfind.symm.trans hfind')
  change (((if t.reservedByOrderID ≠ some orderID then .fail .orderReservationPending else _ :
    Tx Unit).bind _).execute engine _ _).1 ≠ _
  rw [if_neg (not_not.mpr hheld)]
  refine execute_stmt_ne_failed fun fresh₃ r₃ ws₃ hexec₃ => ?_
  obtain ⟨rfl, rfl⟩ := exec_unreserveTicket hexec₃ hfind hheld
  exact execute_announce_ne_failed _ _ _ err

/-- A new event is recorded. -/
private theorem exec_insertProcessedEvent_of_new {context : Context Int Key Fresh} {db : Db}
    (hnew : e ∉ db.processedEvents) :
    engine.exec (.insertProcessedEvent e) context db =
      some (true, [.insertProcessedEvent e]) := by
  simp [engine, exec, hnew]

/-- The rows of the tickets do not change when an event is recorded. -/
private theorem exec_selectReservation_of_find? {context : Context Int Key Fresh} {db : Db}
    {id : Uuid} (hfind : db.tickets.find? id = some t) :
    engine.exec (.selectReservationForUpdate id) context
      (engine.applyAll [.insertProcessedEvent e] db) = some (some t.reservedByOrderID, []) := by
  change some (Option.map Ticket.reservedByOrderID (db.tickets.find? id), []) = _
  rw [hfind]
  rfl

/-- A new event of an order is rejected exactly if another order has the ticket. -/
theorem rejected_reserve_iff (hnew : e ∉ w.db.processedEvents)
    (hfind : w.db.tickets.find? t.id = some t) :
    Rejected w (.reserveTicketFromOrder e orderID t.id) ↔
      ∃ other, t.reservedByOrderID = some other ∧ other ≠ orderID := by
  constructor
  · intro hrejected
    -- It suffices to look at one attempt that does not fail by itself.
    obtain ⟨err, hout⟩ := hrejected _ rfl
      (healthy_healthy (.reserveTicketFromOrder e orderID t.id) w.clock ⟨0, w.clock, 0⟩)
    have hrun := outcome_eq_failed_iff.mp hout
    by_contra hnot
    refine execute_reserve_ne_failed hnew hfind ?_ _ err hrun
    cases hreserved : t.reservedByOrderID with
    | none => exact Or.inl rfl
    | some other =>
      have heq : other = orderID := not_not.mp fun hne => hnot ⟨other, hreserved, hne⟩
      exact Or.inr (congrArg some heq)
  · rintro ⟨other, hreserved, hne⟩ a hcall ha
    obtain ⟨fresh₀, hfate₀⟩ := ha.fates 0
    obtain ⟨fresh₁, hfate₁⟩ := ha.fates 1
    refine ⟨.reserved, outcome_eq_failed_iff.mpr ?_⟩
    rw [hcall]
    -- The transaction fails after two statements, when it finds the other order.
    refine execute_stmt_fst hfate₀ (exec_insertProcessedEvent_of_new hnew) ?_
    refine execute_stmt_fst hfate₁ (exec_selectReservation_of_find? hfind) ?_
    rw [hreserved]
    change (((if other = orderID then pure () else .fail .reserved : Tx Unit).bind
      _).execute engine _ _).1 = _
    rw [if_neg hne]
    rfl

/-- A new event of a cancellation is rejected exactly if the order does not have the ticket. -/
theorem rejected_unreserve_iff (hnew : e ∉ w.db.processedEvents)
    (hfind : w.db.tickets.find? t.id = some t) :
    Rejected w (.unreserveTicketFromOrder e orderID t.id) ↔
      t.reservedByOrderID ≠ some orderID := by
  constructor
  · intro hrejected hheld
    obtain ⟨err, hout⟩ := hrejected _ rfl
      (healthy_healthy (.unreserveTicketFromOrder e orderID t.id) w.clock ⟨0, w.clock, 0⟩)
    exact execute_unreserve_ne_failed hnew hfind hheld _ err (outcome_eq_failed_iff.mp hout)
  · rintro hne a hcall ha
    obtain ⟨fresh₀, hfate₀⟩ := ha.fates 0
    obtain ⟨fresh₁, hfate₁⟩ := ha.fates 1
    refine ⟨.orderReservationPending, outcome_eq_failed_iff.mpr ?_⟩
    rw [hcall]
    -- The transaction fails after two statements, when it does not find its order.
    refine execute_stmt_fst hfate₀ (exec_insertProcessedEvent_of_new hnew) ?_
    refine execute_stmt_fst hfate₁ (exec_selectReservation_of_find? hfind) ?_
    change (((if t.reservedByOrderID ≠ some orderID then .fail .orderReservationPending else _ :
      Tx Unit).bind _).execute engine _ _).1 = _
    rw [if_pos hne]
    rfl

end Rejected

/-- An order on a ticket, by its events. -/
structure TicketOrder where
  /-- The order. -/
  orderID : Uuid
  /-- The identifier of its `OrderCreated`. -/
  createdEventID : Uuid
  /-- The identifier of its `OrderCanceled`, if it was canceled. -/
  canceledEventID : Option Uuid
deriving DecidableEq

/-- The identifiers of the events of an order. -/
def TicketOrder.eventIDs (o : TicketOrder) : List Uuid :=
  o.createdEventID :: o.canceledEventID.toList

/-- The orders on one ticket. -/
structure TicketOrders where
  /-- The ticket. -/
  ticketID : Uuid
  /-- Its orders. -/
  orders : List TicketOrder
  /-- Orders have identifiers of their own. -/
  orderID : (orders.map TicketOrder.orderID).Nodup
  /-- Events have identifiers of their own. -/
  eventID : (orders.flatMap TicketOrder.eventIDs).Nodup

namespace TicketOrders

variable (h : TicketOrders)

/-- The call delivers an event of one of the orders. -/
inductive Delivers : Call → Prop
  | created {o : TicketOrder} (ho : o ∈ h.orders) :
      Delivers (.reserveTicketFromOrder o.createdEventID o.orderID h.ticketID)
  | canceled {o : TicketOrder} {eventID : Uuid} (ho : o ∈ h.orders)
      (hcanceled : o.canceledEventID = some eventID) :
      Delivers (.unreserveTicketFromOrder eventID o.orderID h.ticketID)

/-- The call is not an event about the ticket, and does not take an event of the orders for its
own. -/
def Unrelated (call : Call) : Prop :=
  (∀ eventID orderID, call ≠ .reserveTicketFromOrder eventID orderID h.ticketID ∧
    call ≠ .unreserveTicketFromOrder eventID orderID h.ticketID) ∧
  ∀ e ∈ call.eventID?, e ∉ h.orders.flatMap TicketOrder.eventIDs

/-- What may happen: deliveries of the events of the orders, and operations besides. -/
def Allows (call : Call) : Prop := h.Delivers call ∨ h.Unrelated call

variable {h}

theorem eq_of_orderID {o o' : TicketOrder} (ho : o ∈ h.orders) (ho' : o' ∈ h.orders)
    (hid : o.orderID = o'.orderID) : o = o' :=
  List.inj_on_of_nodup_map h.orderID ho ho' hid

/-- An event belongs to one order. -/
theorem eq_of_eventID {o o' : TicketOrder} {e : Uuid} (ho : o ∈ h.orders) (ho' : o' ∈ h.orders)
    (he : e ∈ o.eventIDs) (he' : e ∈ o'.eventIDs) : o = o' := by
  -- The lists of the events of two orders are disjoint.
  by_contra hne
  have hsymm : Std.Symm (Function.onFun List.Disjoint TicketOrder.eventIDs) :=
    ⟨fun _ _ hdisj => hdisj.symm⟩
  exact (List.nodup_flatMap.mp h.eventID).2.forall ho ho' hne he he'

/-- The creation and the cancellation of an order are two events. -/
theorem created_ne_canceled {o : TicketOrder} {e : Uuid} (ho : o ∈ h.orders)
    (hcanceled : o.canceledEventID = some e) : o.createdEventID ≠ e := by
  have hnodup := (List.nodup_flatMap.mp h.eventID).1 o ho
  rintro rfl
  simp [TicketOrder.eventIDs, hcanceled] at hnodup

theorem mem_eventIDs {o : TicketOrder} {e : Uuid} (ho : o ∈ h.orders) (he : e ∈ o.eventIDs) :
    e ∈ h.orders.flatMap TicketOrder.eventIDs := List.mem_flatMap.mpr ⟨o, ho, he⟩

variable (h)

/-- The order that has locked the ticket. -/
def holder (db : Db) : Option Uuid := (db.tickets.find? h.ticketID).bind Ticket.reservedByOrderID

/-- What a commit does to the lock and to the processed events of the orders. -/
inductive Moves (db db' : Db) : Prop
  /-- Nothing. -/
  | keeps (hholder : h.holder db' = h.holder db)
      (hevents : ∀ o ∈ h.orders, ∀ e ∈ o.eventIDs,
        (e ∈ db'.processedEvents ↔ e ∈ db.processedEvents))
  /-- A new event of an order that locks the ticket, or has it already. -/
  | locks {o : TicketOrder} (ho : o ∈ h.orders) (hnew : o.createdEventID ∉ db.processedEvents)
      (hfree : h.holder db = none ∨ h.holder db = some o.orderID)
      (hholder : h.holder db' = some o.orderID)
      (hevents : ∀ e, e ∈ db'.processedEvents ↔ e = o.createdEventID ∨ e ∈ db.processedEvents)
  /-- A new event of a cancellation that releases the ticket. -/
  | releases {o : TicketOrder} {eventID : Uuid} (ho : o ∈ h.orders)
      (hcanceled : o.canceledEventID = some eventID) (hnew : eventID ∉ db.processedEvents)
      (hheld : h.holder db = some o.orderID) (hholder : h.holder db' = none)
      (hevents : ∀ e, e ∈ db'.processedEvents ↔ e = eventID ∨ e ∈ db.processedEvents)

/-- How the lock and the processed events belong together. -/
structure Settling (db : Db) : Prop where
  /-- The ticket is there. -/
  known : db.tickets.find? h.ticketID ≠ none
  /-- An order has the lock from its creation to its cancellation. -/
  held : ∀ id, h.holder db = some id → ∃ o ∈ h.orders, o.orderID = id ∧
    o.createdEventID ∈ db.processedEvents ∧
    ∀ e ∈ o.canceledEventID, e ∉ db.processedEvents
  /-- An order that was created has the lock, or was canceled. -/
  created : ∀ o ∈ h.orders, o.createdEventID ∈ db.processedEvents →
    h.holder db = some o.orderID ∨ ∃ e ∈ o.canceledEventID, e ∈ db.processedEvents
  /-- A cancellation comes after the creation. -/
  canceled : ∀ o ∈ h.orders, ∀ e ∈ o.canceledEventID, e ∈ db.processedEvents →
    o.createdEventID ∈ db.processedEvents

/-- A state in which the ticket is there and unlocked, and no event has been handled. -/
structure Ready (w : State) : Prop where
  inv : discipline.Inv w
  ticket : ∃ t, w.db.tickets.find? h.ticketID = some t ∧ t.reservedByOrderID = none
  unprocessed : ∀ o ∈ h.orders, ∀ e ∈ o.eventIDs, e ∉ w.db.processedEvents

variable {h}

theorem Ready.settling {w : State} (hw : h.Ready w) : h.Settling w.db := by
  obtain ⟨t, hfind, hfree⟩ := hw.ticket
  refine ⟨by simp [hfind], ?_, ?_, ?_⟩
  · intro id hid
    simp [holder, hfind, hfree] at hid
  · intro o ho hmem
    exact absurd hmem (hw.unprocessed o ho _ (by simp [TicketOrder.eventIDs]))
  · intro o ho e he hmem
    refine absurd hmem (hw.unprocessed o ho e ?_)
    exact List.mem_cons_of_mem _ (Option.mem_toList.mpr he)

section Moves

variable {db db' : Db}

/-- Every move keeps the lock and the processed events together. -/
theorem Settling.move (hdb : h.Settling db) (hknown : db'.tickets.find? h.ticketID ≠ none)
    (hmoves : h.Moves db db') : h.Settling db' := by
  have hcreated : ∀ {o : TicketOrder}, o.createdEventID ∈ o.eventIDs := by
    simp [TicketOrder.eventIDs]
  have hcanceled : ∀ {o : TicketOrder} {e}, e ∈ o.canceledEventID → e ∈ o.eventIDs :=
    fun he => List.mem_cons_of_mem _ (Option.mem_toList.mpr he)
  cases hmoves with
  -- Everything that `Settling` speaks of is as it was before.
  | keeps hholder hevents =>
    refine ⟨hknown, ?_, ?_, ?_⟩
    · intro id hid
      obtain ⟨o, ho, hoid, hin, hout⟩ := hdb.held id (hholder ▸ hid)
      refine ⟨o, ho, hoid, (hevents o ho _ hcreated).mpr hin, ?_⟩
      exact fun e he hmem => hout e he ((hevents o ho e (hcanceled he)).mp hmem)
    · intro o ho hmem
      rcases hdb.created o ho ((hevents o ho _ hcreated).mp hmem) with hheld | ⟨e, he, hmem⟩
      · exact Or.inl (hholder.trans hheld)
      · exact Or.inr ⟨e, he, (hevents o ho e (hcanceled he)).mpr hmem⟩
    · intro o ho e he hmem
      refine (hevents o ho _ hcreated).mpr (hdb.canceled o ho e he ?_)
      exact (hevents o ho e (hcanceled he)).mp hmem
  -- Now `o` has the lock, and its creation has been handled.
  | @locks o ho hnew hfree hholder hevents =>
    refine ⟨hknown, ?_, ?_, ?_⟩
    · intro id hid
      obtain rfl : o.orderID = id := Option.some.inj (hholder.symm.trans hid)
      refine ⟨o, ho, rfl, (hevents _).mpr (Or.inl rfl), ?_⟩
      -- The cancellation of `o` cannot have been handled before its creation.
      intro e he hmem
      rcases (hevents e).mp hmem with rfl | hmem
      · exact created_ne_canceled ho he rfl
      · exact hnew (hdb.canceled o ho e he hmem)
    · intro o' ho' hmem
      rcases (hevents _).mp hmem with heq | hmem
      · obtain rfl : o' = o := eq_of_eventID ho' ho hcreated (heq ▸ hcreated)
        exact Or.inl hholder
      · -- An order that had the lock before is `o` itself.
        rcases hdb.created o' ho' hmem with hheld | ⟨e, he, hmem⟩
        · rcases hfree with hfree | hfree
          · exact absurd (hfree.symm.trans hheld) (by simp)
          · have hid := Option.some.inj (hheld.symm.trans hfree)
            exact Or.inl (hid ▸ hholder)
        · exact Or.inr ⟨e, he, (hevents e).mpr (Or.inr hmem)⟩
    · intro o' ho' e he hmem
      rcases (hevents e).mp hmem with rfl | hmem
      · obtain rfl : o' = o := eq_of_eventID ho' ho (hcanceled he) hcreated
        exact absurd rfl (created_ne_canceled ho he)
      · exact (hevents _).mpr (Or.inr (hdb.canceled o' ho' e he hmem))
  -- Nobody has the lock, and the cancellation of `o` has been handled.
  | @releases o eventID ho hcancel hnew hheld hholder hevents =>
    refine ⟨hknown, ?_, ?_, ?_⟩
    · intro id hid
      simp [hholder] at hid
    · intro o' ho' hmem
      -- What has just been handled is not the creation of an order.
      have hold : o'.createdEventID ∈ db.processedEvents := by
        rcases (hevents _).mp hmem with heq | hmem
        · obtain rfl : o' = o := eq_of_eventID ho' ho hcreated (heq ▸ hcanceled hcancel)
          exact absurd heq (created_ne_canceled ho hcancel)
        · exact hmem
      rcases hdb.created o' ho' hold with hheld' | ⟨e, he, hmem⟩
      · have hid := Option.some.inj (hheld'.symm.trans hheld)
        obtain rfl := eq_of_orderID ho' ho hid
        exact Or.inr ⟨eventID, hcancel, (hevents _).mpr (Or.inl rfl)⟩
      · exact Or.inr ⟨e, he, (hevents e).mpr (Or.inr hmem)⟩
    · intro o' ho' e he hmem
      rcases (hevents e).mp hmem with rfl | hmem
      · obtain rfl : o' = o := eq_of_eventID ho' ho (hcanceled he) (hcanceled hcancel)
        -- The order that had the lock had been created.
        obtain ⟨o'', ho'', hid, hin, -⟩ := hdb.held _ hheld
        obtain rfl := eq_of_orderID ho'' ho' hid
        exact (hevents _).mpr (Or.inr hin)
      · exact (hevents _).mpr (Or.inr (hdb.canceled o' ho' e he hmem))

end Moves

section Change

variable {call : Call} {w : State} {held : List Key} {r : Reply} {db' : Db}

/-- A commit that handles no event of the orders and leaves the lock alone. -/
private theorem Moves.of_unrelated {db : Db} (hunrelated : h.Unrelated call)
    (hholder : h.holder db' = h.holder db)
    (hprocessed : db'.processedEvents = call.eventID?.toList ++ db.processedEvents) :
    h.Moves db db' := by
  refine .keeps hholder fun o ho e he => ?_
  rw [hprocessed, List.mem_append, Option.mem_toList]
  constructor
  · rintro (hevent | hmem)
    · exact absurd (mem_eventIDs ho he) (hunrelated.2 e hevent)
    · exact hmem
  · exact Or.inr

/-- The lock of the ticket after a change of a ticket. -/
theorem holder_change {db : Db} {t t' : Ticket} (hfind : db.tickets.find? t.id = some t)
    (hid : t'.id = t.id) {processed : List Uuid} {outbox : Table (OutboxEvent TicketEvent)} :
    h.holder ⟨db.tickets.replace t', processed, outbox⟩ =
      if h.ticketID = t.id then t'.reservedByOrderID else h.holder db := by
  rw [holder, find?_change hfind hid]
  split <;> rfl

/-- A delivery to `ReserveTicketFromOrder` is of the creation of an order. -/
theorem Delivers.of_reserve {e orderID ticketID : Uuid}
    (hdelivers : h.Delivers (.reserveTicketFromOrder e orderID ticketID)) :
    ∃ o ∈ h.orders, e = o.createdEventID ∧ orderID = o.orderID ∧ ticketID = h.ticketID := by
  generalize hcall : Call.reserveTicketFromOrder e orderID ticketID = call at hdelivers
  cases hdelivers with
  | created ho =>
    obtain ⟨rfl, rfl, rfl⟩ := Call.reserveTicketFromOrder.inj hcall
    exact ⟨_, ho, rfl, rfl, rfl⟩
  | canceled => simp at hcall

/-- A delivery to `UnreserveTicketFromOrder` is of the cancellation of an order. -/
theorem Delivers.of_unreserve {e orderID ticketID : Uuid}
    (hdelivers : h.Delivers (.unreserveTicketFromOrder e orderID ticketID)) :
    ∃ o ∈ h.orders, o.canceledEventID = some e ∧ orderID = o.orderID ∧ ticketID = h.ticketID := by
  generalize hcall : Call.unreserveTicketFromOrder e orderID ticketID = call at hdelivers
  cases hdelivers with
  | created => simp at hcall
  | canceled ho hcanceled =>
    obtain ⟨rfl, rfl, rfl⟩ := Call.unreserveTicketFromOrder.inj hcall
    exact ⟨_, ho, hcanceled, rfl, rfl⟩

/-- What the commits of the allowed operations do to the lock. -/
theorem moves_of_change (hchange : Change call held w r db') (hallows : h.Allows call)
    (hknown : w.db.tickets.find? h.ticketID ≠ none) : h.Moves w.db db' := by
  have hholder_of : ∀ {t}, w.db.tickets.find? t.id = some t → t.id = h.ticketID →
      h.holder w.db = t.reservedByOrderID := by
    intro t hfind hid
    rw [holder, ← hid, hfind, Option.bind_some]
  cases hchange with
  | duplicate => exact .keeps rfl fun _ _ _ _ => Iff.rfl
  -- The order has the ticket already.
  | @recorded e orderID t hcall hrecords hfind hreserved =>
    subst hcall
    rcases hallows with hdelivers | hunrelated
    · obtain ⟨o, ho, rfl, rfl, hid⟩ := hdelivers.of_reserve
      have hheld := (hholder_of hfind hid).trans hreserved
      exact .locks ho hrecords.1 (Or.inr hheld) hheld fun _ => List.mem_cons
    · exact .of_unrelated hunrelated rfl rfl
  -- A new ticket is another one.
  | @created input id n fresh hcall hnew =>
    refine .keeps ?_ fun _ _ _ _ => Iff.rfl
    rw [holder, find?_create hnew, if_neg]
    · rfl
    · rintro hid
      exact hknown (hid ▸ hnew)
  | @changed r t t' n fresh hnext hfind hlock hrecords =>
    have hholder : ∀ {processed outbox}, h.holder ⟨w.db.tickets.replace t', processed, outbox⟩ =
        if h.ticketID = t.id then t'.reservedByOrderID else h.holder w.db :=
      holder_change hfind hnext.id
    cases hnext with
    -- The owner changes a ticket that is not locked, and does not lock it.
    | @updated input huser hfree =>
      refine .keeps ?_ fun _ _ _ _ => by simp [Call.eventID?]
      rw [hholder]
      split
      next hid => exact (hholder_of hfind hid.symm).symm
      next => rfl
    | @reserved e orderID hfree =>
      rcases hallows with hdelivers | hunrelated
      · obtain ⟨o, ho, rfl, rfl, hid⟩ := hdelivers.of_reserve
        rw [if_pos hid.symm] at hholder
        refine .locks ho (hrecords _ rfl).1 (Or.inl ((hholder_of hfind hid).trans hfree)) hholder ?_
        exact fun _ => List.mem_cons
      · have hid : h.ticketID ≠ t.id := fun hid => (hunrelated.1 e orderID).1 (hid ▸ rfl)
        exact .of_unrelated hunrelated (hholder.trans (if_neg hid)) rfl
    | @unreserved e orderID hreserved =>
      rcases hallows with hdelivers | hunrelated
      · obtain ⟨o, ho, hcanceled, rfl, hid⟩ := hdelivers.of_unreserve
        rw [if_pos hid.symm] at hholder
        refine .releases ho hcanceled (hrecords _ rfl).1 ((hholder_of hfind hid).trans hreserved)
          hholder ?_
        exact fun _ => List.mem_cons
      · have hid : h.ticketID ≠ t.id := fun hid => (hunrelated.1 e orderID).2 (hid ▸ rfl)
        exact .of_unrelated hunrelated (hholder.trans (if_neg hid)) rfl

/-- The allowed operations keep the lock and the processed events together. -/
theorem Settling.change (hdb : h.Settling w.db) (hallows : h.Allows call)
    (hchange : Change call held w r db') : h.Settling db' := by
  refine hdb.move ?_ (moves_of_change hchange hallows hdb.known)
  obtain ⟨t, hfind⟩ := Option.ne_none_iff_exists'.mp hdb.known
  cases hchange with
  | duplicate => exact hdb.known
  | recorded => exact hdb.known
  | created _ hnew =>
    rw [show _ = some t from Table.find?_insert_of_some hnew hfind]
    simp
  | @changed r t₀ t' n fresh hnext =>
    rw [Ne, Table.find?_replace_eq_none_iff]
    exact hdb.known

end Change

section Run

variable {w : State} (events : List (Event Int Fresh Call))

/-- The server after the events, when it started in the state `w`. -/
def resume (w : State) (events : List (Event Int Fresh Call)) : System :=
  run (Server.step engine program) ⟨w, []⟩ events

theorem settling_resume (hw : h.Ready w) (hevents : ∀ call, .start call ∈ events → h.Allows call) :
    h.Settling (resume w events).world.db :=
  (Discipline.begun_run allSafe hw.inv (P := fun w => h.Settling w.db) (fun hdb _ _ => hdb)
    (fun hallows _ hdb hguar => hdb.change hallows hguar) hw.settling hevents).1

/-- Processed events stay processed. -/
theorem processed_resume (hw : h.Ready w) (later : List (Event Int Fresh Call)) {e : Uuid}
    (he : e ∈ (resume w events).world.db.processedEvents) :
    e ∈ (resume w (events ++ later)).world.db.processedEvents := by
  have hsound : discipline.Sound engine (resume w events) :=
    Discipline.sound_run allSafe (Discipline.sound_init hw.inv) events
  rw [resume, run_append]
  refine Discipline.extend_run (G := fun db db' => e ∈ db.processedEvents → e ∈ db'.processedEvents)
    allSafe (fun _ he => he) (fun hfirst hsecond he => hsecond (hfirst he)) ?_ hsound later he
  intro call opened r held w db' hinv hguar
  exact (Change.frame hguar).processed e

end Run

/-- Every event of the orders that has not been handled would be rejected. -/
def Stuck (h : TicketOrders) (w : State) : Prop :=
  ∀ call, h.Delivers call → (∀ e ∈ call.eventID?, e ∉ w.db.processedEvents) → Rejected w call

/-- Where nothing is left to handle, the ticket is free if and only if all orders were canceled,
and otherwise an order has it that was not canceled. -/
theorem Settling.settled {w : State} (hdb : h.Settling w.db) (hstuck : h.Stuck w) :
    (h.holder w.db = none ↔ ∀ o ∈ h.orders, o.canceledEventID ≠ none) ∧
      ∀ id, h.holder w.db = some id →
        ∃ o ∈ h.orders, o.orderID = id ∧ o.canceledEventID = none := by
  obtain ⟨t, hfind⟩ := Option.ne_none_iff_exists'.mp hdb.known
  have hid : t.id = h.ticketID := Table.key_of_find? hfind
  have hholder : h.holder w.db = t.reservedByOrderID := by rw [holder, hfind, Option.bind_some]
  have hfind' : w.db.tickets.find? t.id = some t := hid ▸ hfind
  have howned : ∀ id, h.holder w.db = some id →
      ∃ o ∈ h.orders, o.orderID = id ∧ o.canceledEventID = none := by
    intro id hheld
    obtain ⟨o, ho, rfl, -, hout⟩ := hdb.held id hheld
    refine ⟨o, ho, rfl, ?_⟩
    by_contra hne
    obtain ⟨e, hcanceled⟩ := Option.ne_none_iff_exists'.mp hne
    -- The cancellation would release the ticket.
    have hnew := hout e hcanceled
    have hrejected := hstuck _ (.canceled ho hcanceled) (by simpa [Call.eventID?] using hnew)
    rw [← hid] at hrejected
    exact (rejected_unreserve_iff hnew hfind').mp hrejected (hholder.symm.trans hheld)
  refine ⟨⟨?_, ?_⟩, howned⟩
  · intro hfree o ho
    by_cases hmem : o.createdEventID ∈ w.db.processedEvents
    · rcases hdb.created o ho hmem with hheld | ⟨e, he, -⟩
      · exact absurd (hfree.symm.trans hheld) (by simp)
      · rw [Option.mem_def.mp he]
        exact Option.some_ne_none e
    · -- The creation would lock the ticket.
      have hrejected := hstuck _ (.created ho) (by simpa [Call.eventID?] using hmem)
      rw [← hid] at hrejected
      obtain ⟨other, hreserved, -⟩ := (rejected_reserve_iff hmem hfind').mp hrejected
      rw [← hholder, hfree] at hreserved
      simp at hreserved
  · intro hall
    cases hheld : h.holder w.db with
    | none => rfl
    | some id =>
      obtain ⟨o, ho, -, hcanceled⟩ := howned id hheld
      exact absurd hcanceled (hall o ho)

/-- An order that had the ticket and has it no longer does not get it again. -/
theorem not_locked_again {w : State} {front middle back : List (Event Int Fresh Call)}
    (hw : h.Ready w)
    (hevents : ∀ call, .start call ∈ front ++ middle ++ back → h.Allows call) {id : Uuid}
    (hheld : h.holder (resume w front).world.db = some id)
    (hreleased : h.holder (resume w (front ++ middle)).world.db ≠ some id) :
    h.holder (resume w (front ++ middle ++ back)).world.db ≠ some id := by
  have hfront := settling_resume front hw fun call hcall => hevents call (by simp [hcall])
  have hmiddle := settling_resume (front ++ middle) hw fun call hcall =>
    hevents call (List.mem_append_left _ hcall)
  have hback := settling_resume (front ++ middle ++ back) hw hevents
  obtain ⟨o, ho, rfl, hcreated, -⟩ := hfront.held id hheld
  have hstill := processed_resume front hw middle hcreated
  -- The order was created, and has the lock no longer: its cancellation has been handled.
  rcases hmiddle.created o ho hstill with hheld' | ⟨e, he, hcanceled⟩
  · exact absurd hheld' hreleased
  · -- Had it the lock again, its cancellation would not have been handled.
    intro hagain
    obtain ⟨o', ho', hid, -, hout⟩ := hback.held _ hagain
    obtain rfl := eq_of_orderID ho' ho hid
    exact hout e he (processed_resume (front ++ middle) hw back hcanceled)

end TicketOrders

/-- A ticket that is there and unlocked, and the orders on it: in every interleaving of the
deliveries of their events with each other, with repetitions of them and with other operations, if
every event that has not been handled would be rejected, then the ticket is unlocked if and only if
all orders were canceled, and otherwise it is locked by an order that was never canceled; and an
order that has locked the ticket and released it does not lock it again. -/
theorem lock_settles (h : TicketOrders) {w : State} (hw : h.Ready w)
    (events : List (Event Int Fresh Call))
    (hevents : ∀ call, .start call ∈ events → h.Allows call) :
    (∃ t, (TicketOrders.resume w events).world.db.tickets.find? h.ticketID = some t ∧
      (h.Stuck (TicketOrders.resume w events).world →
        (t.reservedByOrderID = none ↔ ∀ o ∈ h.orders, o.canceledEventID ≠ none) ∧
        ∀ id, t.reservedByOrderID = some id →
          ∃ o ∈ h.orders, o.orderID = id ∧ o.canceledEventID = none)) ∧
    ∀ front middle back, events = front ++ middle ++ back → ∀ id,
      h.holder (TicketOrders.resume w front).world.db = some id →
      h.holder (TicketOrders.resume w (front ++ middle)).world.db ≠ some id →
        h.holder (TicketOrders.resume w events).world.db ≠ some id := by
  have hdb := TicketOrders.settling_resume events hw hevents
  obtain ⟨t, hfind⟩ := Option.ne_none_iff_exists'.mp hdb.known
  refine ⟨⟨t, hfind, fun hstuck => ?_⟩, ?_⟩
  · have hsettled := hdb.settled hstuck
    rwa [TicketOrders.holder, hfind, Option.bind_some] at hsettled
  · rintro front middle back rfl id hheld hreleased
    exact TicketOrders.not_locked_again hw hevents hheld hreleased

/-- Three orders on a ticket, the first of which was canceled. -/
def crossedOrders : TicketOrders where
  ticketID := 7
  orders := [⟨21, 31, some 41⟩, ⟨22, 32, none⟩, ⟨23, 33, none⟩]
  orderID := by decide
  eventID := by decide

/-- A ticket is created. -/
def creation : List (Event Int Fresh Call) :=
  [.start (.create ⟨"seat", 100, "alice"⟩), .statement 0 ⟨7, 0, 0⟩, .statement 0 ⟨1, 0, 0⟩,
    .finish 0]

/-- The new ticket. -/
def newTicket : State := (serve 0 creation).world

/-- A delivery whose transaction runs alone. -/
def deliver (i : ℕ) (call : Call) : List (Event Int Fresh Call) :=
  [.start call, .statement i ⟨.ofNat 128 (100 + i), 0, 0⟩,
    .statement i ⟨.ofNat 128 (100 + i), 0, 0⟩, .statement i ⟨.ofNat 128 (100 + i), 0, 0⟩,
    .statement i ⟨.ofNat 128 (100 + i), 0, 0⟩, .finish i]

/-- The cancellation comes before the creation, and the second creation before both. -/
def crossedDeliveries : List (Event Int Fresh Call) :=
  deliver 0 (.unreserveTicketFromOrder 41 21 7) ++ deliver 1 (.reserveTicketFromOrder 31 21 7) ++
    deliver 2 (.reserveTicketFromOrder 32 22 7) ++ deliver 3 (.unreserveTicketFromOrder 41 21 7) ++
    deliver 4 (.reserveTicketFromOrder 32 22 7) ++ deliver 5 (.reserveTicketFromOrder 31 21 7) ++
    deliver 6 (.reserveTicketFromOrder 33 23 7)

theorem ready_newTicket : crossedOrders.Ready newTicket := by
  have hinv : discipline.Inv newTicket := (sound_serve 0 creation).inv
  have hfind : newTicket.db.tickets.find? 7 = some ⟨0, 7, "seat", 100, none, "alice"⟩ := by
    decide +kernel
  have hempty : newTicket.db.processedEvents = [] := by decide +kernel
  exact ⟨hinv, ⟨_, hfind, rfl⟩, fun o ho e he => hempty ▸ List.not_mem_nil⟩

theorem allows_crossedDeliveries (call : Call) (hcall : .start call ∈ crossedDeliveries) :
    crossedOrders.Allows call := by
  left
  simp only [crossedDeliveries, deliver, List.cons_append, List.nil_append, List.mem_cons,
    List.not_mem_nil, or_false, Event.start.injEq, reduceCtorEq, false_or] at hcall
  have hfirst : (⟨21, 31, some 41⟩ : TicketOrder) ∈ crossedOrders.orders := by decide
  have hsecond : (⟨22, 32, none⟩ : TicketOrder) ∈ crossedOrders.orders := by decide
  have hthird : (⟨23, 33, none⟩ : TicketOrder) ∈ crossedOrders.orders := by decide
  rcases hcall with rfl | rfl | rfl | rfl | rfl | rfl | rfl
  · exact .canceled hfirst rfl
  · exact .created hfirst
  · exact .created hsecond
  · exact .canceled hfirst rfl
  · exact .created hsecond
  · exact .created hfirst
  · exact .created hthird

theorem stuck_crossedDeliveries :
    crossedOrders.Stuck (TicketOrders.resume newTicket crossedDeliveries).world := by
  have hfind : (TicketOrders.resume newTicket crossedDeliveries).world.db.tickets.find? 7 =
      some ⟨3, 7, "seat", 100, some 22, "alice"⟩ := by decide +kernel
  have hlist : ∀ o ∈ crossedOrders.orders, o = ⟨21, 31, some 41⟩ ∨ o = ⟨22, 32, none⟩ ∨
      o = ⟨23, 33, none⟩ := by decide
  intro call hdelivers hnew
  cases hdelivers with
  | created ho =>
    rcases hlist _ ho with rfl | rfl | rfl
    · exact absurd (by decide +kernel) (hnew 31 rfl)
    · exact absurd (by decide +kernel) (hnew 32 rfl)
    · -- The third order finds the ticket locked by the second one.
      exact (rejected_reserve_iff (t := ⟨3, 7, "seat", 100, some 22, "alice"⟩)
        (hnew 33 rfl) hfind).mpr ⟨22, rfl, by decide⟩
  | canceled ho hcanceled =>
    rcases hlist _ ho with rfl | rfl | rfl
    · obtain rfl := Option.some.inj hcanceled
      exact absurd (by decide +kernel) (hnew 41 rfl)
    · simp at hcanceled
    · simp at hcanceled

theorem lock_settles_crossedDeliveries :
    ∃ t, (TicketOrders.resume newTicket crossedDeliveries).world.db.tickets.find? 7 = some t ∧
      (t.reservedByOrderID = none ↔ ∀ o ∈ crossedOrders.orders, o.canceledEventID ≠ none) ∧
      ∀ id, t.reservedByOrderID = some id →
        ∃ o ∈ crossedOrders.orders, o.orderID = id ∧ o.canceledEventID = none := by
  obtain ⟨t, hfind, hsettled⟩ := (lock_settles crossedOrders ready_newTicket crossedDeliveries
    allows_crossedDeliveries).1
  exact ⟨t, hfind, hsettled stuck_crossedDeliveries⟩

end Tickets
