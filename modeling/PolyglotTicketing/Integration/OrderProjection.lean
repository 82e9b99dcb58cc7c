import PolyglotTicketing.Orders.Versions
import PolyglotTicketing.Payments.Projection

/-!
# Payments as a follower of Orders

Payments projects the orders from the messages that Orders publishes, and takes only the next
version of an order it knows. `accepted_iff` says which orders it can follow: in a run of Orders,
the messages about an order are all applied, and leave the projection canceled exactly if the order
is, if and only if no operation has canceled the order while it awaited its payment. The move to
`AwaitingPayment` takes a version that is never published, so that the cancellation after it comes
with a gap.
-/

namespace Integration

open Platform Contracts Relational Transaction Transition

/-- The messages in the outbox of Orders about an order, oldest first. -/
def messagesAbout (db : Orders.Db) (id : Uuid) : List OrderEvent :=
  (eventsAbout OrderEvent.orderID db.outboxEvents id).map OutboxEvent.payload

/-- Payments can follow the order through the messages: however it handles each of them once and in
order, with any other operations in between, each of them is applied, and afterwards the projection
is canceled exactly if the order is. -/
def Accepted (o : Orders.Order) (messages : List OrderEvent) : Prop :=
  ∃ calls, messages.mapM Payments.handle = .ok calls ∧
    ∀ clock attempts, Payments.Delivers o.id calls attempts →
      EachStep Payments.step (fun w a => a.call.About o.id → Payments.Commits w a)
        (Payments.State.init clock) attempts ∧
      ∃ x, (run Payments.step (Payments.State.init clock) attempts).db.orders.find? o.id = some x ∧
        (x.status = .canceled ↔ o.status = .canceled)

section Users

open Orders

/-- The orders of validated requests have a user. -/
theorem users_run (clock : Int) {attempts : List Orders.Try}
    (hvalid : ∀ a ∈ attempts, a.call.Validated) :
    ∀ o ∈ (run Orders.step (Orders.State.init clock) attempts).db.orders.rows, ¬Blank o.userID := by
  have hlabels : EachStep Orders.step (fun _ a => a.call.Validated) (State.init clock) attempts :=
    eachStep_of_forall hvalid _
  refine (run_induction (P := fun w => discipline.Inv w ∧ ∀ o ∈ w.db.orders.rows, ¬Blank o.userID)
    ?_ ⟨inv_init clock, by simp [State.init, Db.init]⟩ hlabels).2
  rintro w a ⟨hinv, husers⟩ hvalid
  refine ⟨inv_step hinv a, ?_⟩
  rcases attempt_cases hinv a with ⟨-, hdb⟩ | ⟨r, held, n, hchange⟩
  · rwa [hdb]
  -- The user of an order is the one of the request that has created it.
  rcases hchange.orders_cases with hsame | ⟨input, id, hcall, hnew, -, hinsert⟩ |
    ⟨m, x, -, hfind, -, -, -, hreplace⟩
  · rwa [hsame]
  · intro o ho
    rw [hinsert, Table.mem_insert hnew] at ho
    rcases ho with ho | rfl
    · exact husers o ho
    · rw [hcall] at hvalid
      exact hvalid
  · have hx : x ∈ w.db.orders.rows := Table.mem_of_find? hfind
    intro o ho
    rw [hreplace, mem_move _ hx] at ho
    rcases ho with rfl | ⟨ho, -⟩
    · exact husers x hx
    · exact husers o ho

end Users

/-- The projection of an order that was just created. -/
def projectionOf (o : Orders.Order) (price : Int) : Payments.Order where
  aggregateVersion := 0
  id := o.id
  price := price
  status := .created
  userID := o.userID

/-- The handler takes the message about the creation of an order. -/
theorem handle_creation {o : Orders.Order} {e : OutboxEvent OrderEvent}
    (h : Orders.AnnouncesCreation o e) (huser : ¬Blank o.userID) :
    ∃ price, 0 < price ∧
      Payments.handle e.payload = .ok (.upsertOrderFromEvent e.eventID (projectionOf o price)) := by
  obtain ⟨-, occurredAt, price, hprice, hpayload⟩ := h
  refine ⟨price, hprice, ?_⟩
  rw [hpayload]
  simp [Payments.handle, Payments.handleCreated, huser, hprice, projectionOf]

/-- The handler takes the message about the cancellation of an order. -/
theorem handle_cancellation {o : Orders.Order} {e : OutboxEvent OrderEvent}
    (h : Orders.AnnouncesCancellation o e) (hversion : 0 ≤ o.aggregateVersion) :
    Payments.handle e.payload =
      .ok (.cancelOrderFromEvent e.eventID o.id o.aggregateVersion) := by
  obtain ⟨-, occurredAt, hpayload⟩ := h
  rw [hpayload]
  simp [Payments.handle, Payments.handleCanceled, hversion]

section Accepted

open Payments

variable {o : Orders.Order} {price : Int} {e e' : Uuid}

theorem checks_projectionOf (hprice : 0 < price) : (projectionOf o price).Checks :=
  ⟨Int.le_refl 0, hprice⟩

/-- Payments can follow the creation of an order. -/
theorem stored_of_delivers (hprice : 0 < price) (clock : Int) {attempts : List Try}
    (h : Delivers o.id [.upsertOrderFromEvent e (projectionOf o price)] attempts) :
    EachStep step (fun w a => a.call.About o.id → Commits w a) (State.init clock) attempts ∧
      (run step (State.init clock) attempts).db.orders.find? o.id =
        some (projectionOf o price) := by
  obtain ⟨front, back, rfl, hback, hfront, hfind, -⟩ :=
    Delivers.upsert (o := projectionOf o price) h (inv_init clock)
      (by simp [AllNew, State.init, Db.init]) (by simp) rfl (checks_projectionOf hprice) rfl
  -- After the only call nothing is about the order.
  obtain ⟨hrest, hsame⟩ := hback.rest (inv_run (inv_init clock) front)
  rw [eachStep_append, run_append]
  exact ⟨⟨hfront, hrest⟩, hsame.trans hfind⟩

/-- Payments can follow the cancellation of an order that was its first change of status. -/
theorem canceled_of_delivers (hprice : 0 < price) (hne : e ≠ e') (clock : Int)
    {attempts : List Try}
    (h : Delivers o.id [.upsertOrderFromEvent e (projectionOf o price),
      .cancelOrderFromEvent e' o.id 1] attempts) :
    EachStep step (fun w a => a.call.About o.id → Commits w a) (State.init clock) attempts ∧
      (run step (State.init clock) attempts).db.orders.find? o.id =
        some (projectionOf o price).cancel := by
  obtain ⟨front, back, rfl, hback, hfront, hfind, hnew⟩ :=
    Delivers.upsert (o := projectionOf o price) h (inv_init clock)
      (by simp [AllNew, State.init, Db.init]) (by simpa [Call.eventID?] using hne.symm) rfl
      (checks_projectionOf hprice) rfl
  -- The second call cancels what the first one has stored.
  have hinv := inv_run (inv_init clock) front
  obtain ⟨middle, back, rfl, hback', hmiddle, hfind', -⟩ :=
    Delivers.cancel (o := projectionOf o price) hback hinv hnew (by simp) hfind
      (checks_projectionOf hprice)
  obtain ⟨hrest, hsame⟩ := hback'.rest (inv_run hinv middle)
  rw [eachStep_append, eachStep_append, run_append, run_append]
  exact ⟨⟨hfront, hmiddle, hrest⟩, hsame.trans hfind'⟩

/-- Payments cannot follow a later cancellation. -/
theorem exists_refused (price : Int) (hne : e ≠ e') {version : Int} (hgap : 1 < version) :
    ∃ attempts, Delivers o.id [.upsertOrderFromEvent e (projectionOf o price),
        .cancelOrderFromEvent e' o.id version] attempts ∧
      ¬EachStep step (fun w a => a.call.About o.id → Commits w a) (State.init 0) attempts := by
  -- Two calls without anything in between, none of whose statements fails by itself.
  let a := Try.healthy (.upsertOrderFromEvent e (projectionOf o price)) 0 0
  let b := Try.healthy (.cancelOrderFromEvent e' o.id version) 0 0
  refine ⟨[a, b], ⟨?_, ?_, ?_⟩, ?_⟩
  · simp [a, b, Try.healthy, Call.About, projectionOf]
  · intro x hx _
    rcases List.mem_pair.mp hx with rfl | rfl
    · exact healthy_healthy _ _ _
    · exact healthy_healthy _ _ _
  · intro x hx hnot
    rcases List.mem_pair.mp hx with rfl | rfl
    · exact absurd rfl hnot
    · exact absurd rfl hnot
  · rintro ⟨ha, hb, -⟩
    -- The first call commits, so that the second one finds version 0.
    obtain ⟨r, held, n, hchange⟩ := change_of_commits (inv_init 0) (ha rfl)
    have hcall : a.call = .upsertOrderFromEvent e (projectionOf o price) := rfl
    have hfind : (step (State.init 0) a).db.orders.find? o.id = some (projectionOf o price) :=
      Change.find?_upsert (hcall ▸ hchange) (by simp [State.init, Db.init]) rfl
    have hnew : e' ∉ (step (State.init 0) a).db.processedEvents := by
      intro hmem
      have hevent := hchange.eventID?_of_processed (by simp [State.init, Db.init]) hmem
      exact hne (Option.some.inj hevent)
    have hrefused : ¬Commits (step (State.init 0) a) b :=
      not_commits_cancel (healthy_healthy _ _ _) rfl hnew hfind (by simpa [projectionOf])
    exact hrefused (hb rfl)

end Accepted

/-- Payments can follow an order if and only if its cancellation comes at version 1. -/
theorem accepted_iff_timely (clock : Int) {attempts : List Orders.Try}
    (hvalid : ∀ a ∈ attempts, a.call.Validated) {o : Orders.Order}
    (ho : o ∈ (run Orders.step (Orders.State.init clock) attempts).db.orders.rows) :
    Accepted o (messagesAbout (run Orders.step (Orders.State.init clock) attempts).db o.id) ↔
      Orders.Timely o.id (run Orders.step (Orders.State.init clock) attempts).db := by
  have huser := users_run clock hvalid o ho
  have hannounced := (Orders.consistent_run clock attempts).announced o ho
  have hversion := (Orders.versioned_run clock attempts).canceled o ho
  generalize (run Orders.step (Orders.State.init clock) attempts).db = db at *
  have htimely : Orders.Timely o.id db ↔ (o.status = .canceled → o.aggregateVersion = 1) := by
    have hfind : db.orders.find? o.id = some o := Table.find?_of_mem ho
    simp [Orders.Timely, hfind]
  rw [htimely]
  -- A canceled order has two messages, any other order one.
  by_cases hcanceled : o.status = .canceled
  · rw [Orders.Announced, if_pos hcanceled] at hannounced
    obtain ⟨created, canceled, hevents, hcreation, hcancellation, hlt⟩ := hannounced
    obtain ⟨price, hprice, hcreated⟩ := handle_creation hcreation huser
    have hpositive := hversion hcanceled
    have hcalls : (messagesAbout db o.id).mapM Payments.handle =
        .ok [.upsertOrderFromEvent created.eventID (projectionOf o price),
          .cancelOrderFromEvent canceled.eventID o.id o.aggregateVersion] := by
      simp only [messagesAbout, hevents, List.map_cons, List.map_nil, List.mapM_cons,
        List.mapM_nil, hcreated, handle_cancellation hcancellation hpositive.le]
      rfl
    -- Two rows of the outbox have different events.
    have hne : created.eventID ≠ canceled.eventID := by
      intro heq
      have hmem := fun x (hx : x ∈ [created, canceled]) => (mem_eventsAbout.mp (hevents ▸ hx)).1
      obtain rfl := Table.eq_of_key_eq (hmem created (by simp)) (hmem canceled (by simp)) heq
      exact lt_irrefl _ hlt
    constructor
    · -- Were the version a later one, Payments would refuse the cancellation.
      rintro ⟨calls, hmap, hall⟩ -
      obtain rfl := Except.ok.inj (hcalls.symm.trans hmap)
      by_contra hlate
      have hgap : 1 < o.aggregateVersion := by omega
      obtain ⟨refused, hdeliver, hnot⟩ := exists_refused (o := o) price hne hgap
      exact hnot (hall 0 refused hdeliver).1
    · intro hone
      rw [hone hcanceled] at hcalls
      refine ⟨_, hcalls, fun clock attempts hdeliver => ?_⟩
      obtain ⟨hsteps, hfind⟩ := canceled_of_delivers hprice hne clock hdeliver
      exact ⟨hsteps, _, hfind, by simp [hcanceled, Payments.Order.cancel]⟩
  · rw [Orders.Announced, if_neg hcanceled] at hannounced
    obtain ⟨created, hevents, hcreation⟩ := hannounced
    obtain ⟨price, hprice, hcreated⟩ := handle_creation hcreation huser
    have hcalls : (messagesAbout db o.id).mapM Payments.handle =
        .ok [.upsertOrderFromEvent created.eventID (projectionOf o price)] := by
      simp only [messagesAbout, hevents, List.map_cons, List.map_nil, List.mapM_cons,
        List.mapM_nil, hcreated]
      rfl
    refine iff_of_true ⟨_, hcalls, ?_⟩ (absurd · hcanceled)
    intro clock attempts hdeliver
    obtain ⟨hsteps, hfind⟩ := stored_of_delivers hprice clock hdeliver
    exact ⟨hsteps, _, hfind, by simp [hcanceled, projectionOf]⟩

/-- In a run of Orders, Payments can follow an order if and only if no operation has canceled it
while it awaited its payment. -/
theorem accepted_iff (clock : Int) {attempts : List Orders.Try}
    (hvalid : ∀ a ∈ attempts, a.call.Validated) {o : Orders.Order}
    (ho : o ∈ (run Orders.step (Orders.State.init clock) attempts).db.orders.rows) :
    Accepted o (messagesAbout (run Orders.step (Orders.State.init clock) attempts).db o.id) ↔
      EachStep Orders.step (fun w a => ¬Orders.CancelsAwaiting o.id w a)
        (Orders.State.init clock) attempts := by
  rw [accepted_iff_timely clock hvalid ho, Orders.timely_iff]

/-- A user cancels an order after its payment has begun to be processed. -/
def canceledAwaiting : List Orders.Try :=
  [.healthy (.upsertTicketFromEvent 1 ⟨0, 7, "seat", 100⟩) 0 10,
   .healthy (.reserveTicket ⟨minutes 15, 7, "alice"⟩) 0 20,
   .healthy (.applyPaymentCreated 2 22) (minutes 1) 30,
   .healthy (.cancelByIDAndUser 22 "alice") (minutes 2) 40]

/-- The order that was canceled. -/
def canceledOrder : Orders.Order := ⟨2, minutes 15, 22, .canceled, 7, "alice"⟩

theorem canceledAwaiting_validated : ∀ a ∈ canceledAwaiting, a.call.Validated := by
  decide +kernel

theorem canceledOrder_mem :
    canceledOrder ∈ (run Orders.step (Orders.State.init 0) canceledAwaiting).db.orders.rows := by
  decide +kernel

/-- The equivalence on this order. -/
theorem accepted_iff_canceledAwaiting :
    Accepted canceledOrder (messagesAbout
        (run Orders.step (Orders.State.init 0) canceledAwaiting).db canceledOrder.id) ↔
      EachStep Orders.step (fun w a => ¬Orders.CancelsAwaiting canceledOrder.id w a)
        (Orders.State.init 0) canceledAwaiting :=
  accepted_iff 0 canceledAwaiting_validated canceledOrder_mem

/-- Payments cannot follow every order. -/
theorem exists_not_accepted :
    ¬∀ clock attempts, (∀ a ∈ attempts, a.call.Validated) →
      ∀ o ∈ (run Orders.step (Orders.State.init clock) attempts).db.orders.rows,
        Accepted o
          (messagesAbout (run Orders.step (Orders.State.init clock) attempts).db o.id) := by
  intro h
  have haccepted := h 0 canceledAwaiting canceledAwaiting_validated canceledOrder canceledOrder_mem
  have htimely := (accepted_iff_timely 0 canceledAwaiting_validated canceledOrder_mem).mp haccepted
  exact absurd (htimely canceledOrder (Table.find?_of_mem canceledOrder_mem) rfl) (by decide)

end Integration
