import PolyglotTicketing.Orders.OrderHistory

/-!
# The version at which an order is canceled

Every change of the status of an order takes the next version, but only its creation and its
cancellation are published. The published versions are contiguous if the order is canceled at
version 1 (`Timely`). `timely_iff` says when that is so: no operation cancels the order while it
awaits its payment.
-/

namespace Orders

open Platform Contracts Relational Transaction Transition

/-- The versions of the orders. -/
structure Versioned (db : Db) : Prop where
  created : ∀ o ∈ db.orders.rows, o.status = .created → o.aggregateVersion = 0
  awaiting : ∀ o ∈ db.orders.rows, o.status = .awaitingPayment → o.aggregateVersion = 1
  canceled : ∀ o ∈ db.orders.rows, o.status = .canceled → 0 < o.aggregateVersion

theorem versioned_init : Versioned Db.init := by
  constructor <;> simp [Db.init]

/-- If the order is canceled, that was its first change of status. -/
def Timely (id : Uuid) (db : Db) : Prop :=
  ∀ o, db.orders.find? id = some o → o.status = .canceled → o.aggregateVersion = 1

/-- The operation cancels the order while it awaits its payment. -/
def CancelsAwaiting (id : Uuid) (w : State) (a : Try) : Prop :=
  Commits w a ∧ ∃ o, w.db.orders.find? id = some o ∧ o.status = .awaitingPayment ∧
    (a.call = .cancelByIDAndUser id o.userID ∨
      ∃ e, a.call = .applyPaymentFailed e id ∧ e ∉ w.db.processedEvents)

/-- Commits keep the versions of the orders. -/
theorem Versioned.change {call : Call} {opened w : State} {held : List Key} {r : Reply} {db' : Db}
    (hver : Versioned w.db) (h : Change call opened held w r db') : Versioned db' := by
  -- A commit leaves the orders alone, creates one, or moves one to its next status.
  rcases h.orders_cases with hsame | ⟨input, id, -, hnew, -, hinsert⟩ |
    ⟨m, x, hmove, hfind, -, hsource, -, hreplace⟩
  · exact ⟨hsame ▸ hver.created, hsame ▸ hver.awaiting, hsame ▸ hver.canceled⟩
  · constructor
    · intro o ho hstatus
      rw [hinsert, Table.mem_insert hnew] at ho
      rcases ho with ho | rfl
      · exact hver.created o ho hstatus
      · rfl
    · intro o ho hstatus
      rw [hinsert, Table.mem_insert hnew] at ho
      rcases ho with ho | rfl
      · exact hver.awaiting o ho hstatus
      · simp [newOrder] at hstatus
    · intro o ho hstatus
      rw [hinsert, Table.mem_insert hnew] at ho
      rcases ho with ho | rfl
      · exact hver.canceled o ho hstatus
      · simp [newOrder] at hstatus
  · have hx := Table.mem_of_find? hfind
    -- No move ends in `created`; the one to `awaitingPayment` starts there; the version counts up.
    obtain ⟨hopen, -, htarget, hawaiting⟩ := Call.move?_spec hmove
    constructor
    · intro o ho hstatus
      rw [hreplace, mem_move _ hx] at ho
      rcases ho with rfl | ⟨ho, -⟩
      · exact absurd hstatus htarget
      · exact hver.created o ho hstatus
    · intro o ho hstatus
      rw [hreplace, mem_move _ hx] at ho
      rcases ho with rfl | ⟨ho, -⟩
      · rw [hawaiting hstatus, List.mem_singleton] at hsource
        simp [Order.withStatus, hver.created x hx hsource]
      · exact hver.awaiting o ho hstatus
    · intro o ho hstatus
      rw [hreplace, mem_move _ hx] at ho
      rcases ho with rfl | ⟨ho, -⟩
      · rcases hopen _ hsource with hcreated | hwaits
        · simp [Order.withStatus, hver.created x hx hcreated]
        · simp [Order.withStatus, hver.awaiting x hx hwaits]
      · exact hver.canceled o ho hstatus

/-- The only operations that cancel an order that awaits its payment. -/
theorem Call.of_target_canceled {call : Call} {m : Move} (hmove : call.move? = some m)
    (htarget : m.target = .canceled) (hsource : .awaitingPayment ∈ m.sources) :
    (∃ user, call = .cancelByIDAndUser m.orderID user ∧ m.userID = some user) ∨
      ∃ e, call = .applyPaymentFailed e m.orderID ∧ m.eventID = some e := by
  cases call <;> simp_all only [Call.move?, reduceCtorEq, Option.some.injEq] <;>
    subst hmove <;> simp_all

section Step

variable {w : State} {a : Try} {id : Uuid}

/-- An order that is canceled while it awaits its payment takes version 2. -/
theorem CancelsAwaiting.version (h : CancelsAwaiting id w a) (hinv : discipline.Inv w)
    (hver : Versioned w.db) : ∃ o, (step w a).db.orders.find? id = some o ∧
      o.status = .canceled ∧ o.aggregateVersion = 2 := by
  obtain ⟨⟨r, hout⟩, o, hfind, hstatus, hcall⟩ := h
  obtain ⟨held, n, hchange⟩ := change_of_committed hinv hout
  have hversion := hver.awaiting o (Table.mem_of_find? hfind) hstatus
  -- Both operations move the order to `canceled`, whoever asks for it.
  have hreplace : (step w a).db.orders = w.db.orders.replace (o.withStatus .canceled) := by
    rcases hcall with hcall | ⟨e, hcall, hnew⟩
    · exact hchange.moves rfl
        (m := ⟨id, some o.userID, [.created, .awaitingPayment], .canceled, none⟩)
        (by rw [hcall]; rfl) hfind (by simp) (by simp [hstatus]) (by simp)
    · exact hchange.moves rfl
        (m := ⟨id, none, [.created, .awaitingPayment], .canceled, some e⟩)
        (by rw [hcall]; rfl) hfind (by simp) (by simp [hstatus]) (by simpa using hnew)
  refine ⟨o.withStatus .canceled, ?_, rfl, by simp [Order.withStatus, hversion]⟩
  rw [hreplace, find?_move _ hfind, if_pos rfl]

/-- A step keeps an order timely exactly if it does not cancel it while it awaits its payment. -/
theorem timely_step_iff (hinv : discipline.Inv w) (hver : Versioned w.db)
    (htimely : Timely id w.db) : Timely id (step w a).db ↔ ¬CancelsAwaiting id w a := by
  constructor
  · -- Such a cancellation takes version 2, which is not timely.
    intro htimely' hcancels
    obtain ⟨o, hfind, hstatus, hversion⟩ := hcancels.version hinv hver
    have := htimely' o hfind hstatus
    omega
  · intro hnot
    -- Conversely, follow the order through the step; only a commit changes it.
    by_cases hcommit : Commits w a
    swap
    · rwa [Timely, show (step w a).db = w.db from
        attempt_db_of_not_committed fun r hr => hcommit ⟨r, hr⟩]
    have ⟨r, hout⟩ := hcommit
    obtain ⟨held, n, hchange⟩ := change_of_committed hinv hout
    intro o hfind' hcanceled
    rcases hchange.orders_cases with hsame | ⟨input, id', -, hnew, -, hinsert⟩ |
      ⟨m, x, hmove, hfind, huser, hsource, hevent, hreplace⟩
    · exact htimely o (hsame ▸ hfind') hcanceled
    · rw [hinsert, Table.find?_insert (r := newOrder input id') hnew] at hfind'
      split at hfind'
      next =>
        obtain rfl := Option.some.inj hfind'
        -- A new order is not canceled.
        simp [newOrder] at hcanceled
      next => exact htimely o hfind' hcanceled
    · rw [hreplace, find?_move m.target hfind] at hfind'
      split at hfind'
      next hid =>
        subst hid
        obtain rfl := Option.some.inj hfind'
        have hx := Table.mem_of_find? hfind
        -- The step moves this very order: from `created` it takes version 1, and from
        -- `awaitingPayment` the step would be one that is excluded.
        rcases (Call.move?_spec hmove).1 _ hsource with hcreated | hawaiting
        · simp [Order.withStatus, hver.created x hx hcreated]
        · refine absurd ⟨hcommit, x, hfind, hawaiting, ?_⟩ hnot
          rcases Call.of_target_canceled hmove hcanceled (hawaiting ▸ hsource) with
            ⟨user, hcall, hm⟩ | ⟨e, hcall, hm⟩
          · exact Or.inl (by rw [hcall, huser user hm])
          · exact Or.inr ⟨e, hcall, hevent e hm⟩
      next => exact htimely o hfind' hcanceled

end Step

section Run

variable (clock : Int) (attempts : List Try) (id : Uuid)

theorem versioned_run : Versioned (run step (State.init clock) attempts).db :=
  (eachState_db versioned_init (inv_init clock) (fun hver h => hver.change h) attempts).last.2

/-- An order that was canceled late stays so. -/
theorem not_timely_run {w : State} (hinv : discipline.Inv w) (hnot : ¬Timely id w.db)
    (later : List Try) : ¬Timely id (run step w later).db := by
  simp only [Timely, not_forall] at hnot
  obtain ⟨o, hfind, hcanceled, hversion⟩ := hnot
  -- A canceled order is closed: no later operation moves it.
  have hstill := closed_run hinv (Table.mem_of_find? hfind) (by simp [Status.Open, hcanceled]) later
  have hid : o.id = id := Table.key_of_find? hfind
  exact fun htimely => hversion (htimely o (hid ▸ Table.find?_of_mem hstill) hcanceled)

/-- At the end of a run an order is timely exactly if no step has canceled it while it awaited its
payment. -/
theorem timely_iff : Timely id (run step (State.init clock) attempts).db ↔
    EachStep step (fun w a => ¬CancelsAwaiting id w a) (State.init clock) attempts := by
  -- All states are timely exactly if all steps are harmless, by one step at a time.
  have hiff : EachState step (fun w => Timely id w.db) (State.init clock) attempts ↔
      EachStep step (fun w a => ¬CancelsAwaiting id w a) (State.init clock) attempts := by
    refine eachState_iff_eachStep (I := fun w => discipline.Inv w ∧ Versioned w.db)
      (C := fun _ _ => True) ?_ ?_ ⟨inv_init clock, versioned_init⟩
      (by simp [Timely, State.init, Db.init]) (eachStep_true _ attempts)
    · rintro w a ⟨hinv, hver⟩ -
      refine ⟨inv_step hinv a, ?_⟩
      rcases attempt_cases hinv a with ⟨-, hdb⟩ | ⟨r, held, n, hchange⟩
      · rwa [hdb]
      · exact Versioned.change (w := ⟨w.db, a.now, n⟩) hver hchange
    · rintro w a ⟨hinv, hver⟩ htimely -
      exact timely_step_iff hinv hver htimely
  rw [← hiff]
  refine ⟨fun htimely => ?_, EachState.last⟩
  -- The last state speaks for all of them, since an order that was canceled late stays so.
  rw [eachState_iff_forall_segment]
  rintro front back rfl
  by_contra hnot
  rw [run_append] at htimely
  exact not_timely_run id (inv_run (inv_init clock) front) hnot back htimely

end Run

end Orders
