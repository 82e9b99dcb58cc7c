import PolyglotTicketing.Contracts.Orders
import PolyglotTicketing.Payments.Serial

/-!
# The order projection of Payments

The handler of `apps/payments/internal/projection/order_handler.go` turns the messages of Orders
into calls of the repository (`handle`). `Delivers` says that a run of Payments makes given calls
for one order, and makes them once and in order; `Delivers.upsert` and `Delivers.cancel` say what
becomes of the projected row.
-/

namespace Payments

open Platform Contracts Relational Transaction Transition

def handleCreated (event : OrderCreated) : Except Err Call :=
  if Blank event.userID ∨ event.aggregateVersion < 0 ∨ event.orderStatus ≠ .created ∨
      event.ticket.price ≤ 0 then .error .invalidOrderEvent
  else .ok (.upsertOrderFromEvent event.eventID
    { aggregateVersion := event.aggregateVersion
      id := event.orderID
      price := event.ticket.price
      status := .created
      userID := event.userID })

def handleCanceled (event : OrderCanceled) : Except Err Call :=
  if event.aggregateVersion < 0 then .error .invalidOrderEvent
  else .ok (.cancelOrderFromEvent event.eventID event.orderID event.aggregateVersion)

/-- The call that the handler makes for a message. -/
def handle : OrderEvent → Except Err Call
  | .created event => handleCreated event
  | .canceled event => handleCanceled event

section Execute

variable {w : State} {a : Try} {context : Context Int Key Fresh} {db : Db} {e : Uuid}

/-- A new event is recorded. -/
theorem exec_insertProcessedEvent_of_new (hnew : e ∉ db.processedEvents) :
    engine.exec (.insertProcessedEvent e) context db =
      some (true, [.insertProcessedEvent e]) := by
  simp [engine, exec, hnew]

/-- The rows of the orders do not change when an event is recorded. -/
theorem exec_selectOrderForUpdate_of_find? {id : Uuid} {x : Option Order}
    (hfind : db.orders.find? id = x) :
    engine.exec (.selectOrderForUpdate id) context
      (engine.applyAll [.insertProcessedEvent e] db) = some (x, []) := by
  rw [← hfind]
  rfl

/-- A new order is stored. -/
theorem commits_upsert {o : Order} (ha : a.Healthy)
    (hcall : a.call = .upsertOrderFromEvent e o) (hnew : e ∉ w.db.processedEvents)
    (hnone : w.db.orders.find? o.id = none) (hchecks : o.Checks)
    (hversion : o.aggregateVersion = 0) : Commits w a := by
  obtain ⟨fresh₀, hfate₀⟩ := ha.fates 0
  obtain ⟨fresh₁, hfate₁⟩ := ha.fates 1
  obtain ⟨fresh₂, hfate₂⟩ := ha.fates 2
  have hvalid : validateOrderVersion false 0 o.aggregateVersion = .ok () := by
    simp [validateOrderVersion, hversion]
  have hinsert : ∀ context, engine.exec (.insertOrder o) context
      (engine.applyAll [.insertProcessedEvent e] w.db) = some ((), [.insertOrder o]) := by
    intro context
    simp [engine, exec, apply, Engine.applyAll, hnone, hchecks]
  refine ha.commits_of_execute (r := .applied) ?_
  rw [hcall]
  -- The statements one after the other: the event, the row of the order, the new row.
  refine execute_stmt_fst hfate₀ (exec_insertProcessedEvent_of_new hnew) ?_
  refine execute_stmt_fst hfate₁ (exec_selectOrderForUpdate_of_find? hnone) ?_
  change (Program.execute engine ((Program.ofExcept (validateOrderVersion false 0
    o.aggregateVersion)).bind _ |>.bind _) _ _).1 = _
  rw [hvalid]
  exact execute_stmt_fst hfate₂ (hinsert _) rfl

/-- The next version of a stored order cancels it. -/
theorem commits_cancel {id : Uuid} {o : Order} (ha : a.Healthy)
    (hcall : a.call = .cancelOrderFromEvent e id (o.aggregateVersion + 1))
    (hnew : e ∉ w.db.processedEvents) (hfind : w.db.orders.find? id = some o) (hchecks : o.Checks) :
    Commits w a := by
  obtain ⟨fresh₀, hfate₀⟩ := ha.fates 0
  obtain ⟨fresh₁, hfate₁⟩ := ha.fates 1
  obtain ⟨fresh₂, hfate₂⟩ := ha.fates 2
  have hvalid : validateOrderVersion true o.aggregateVersion (o.aggregateVersion + 1) =
      .ok () := by
    simp [validateOrderVersion]
  have hchecks' : 0 ≤ o.aggregateVersion + 1 ∧ 0 < o.price := by
    have hpos := hchecks.1
    exact ⟨by omega, hchecks.2⟩
  have hupdate : ∀ context, engine.exec (.updateOrder id .canceled (o.aggregateVersion + 1)) context
      (engine.applyAll [.insertProcessedEvent e] w.db) = some ((), [.updateOrder o.cancel]) := by
    intro context
    simp [engine, exec, apply, Engine.applyAll, hfind, Order.Checks, hchecks', Order.cancel]
  refine ha.commits_of_execute (r := .applied) ?_
  rw [hcall]
  -- The statements one after the other: the event, the row of the order, its next version.
  refine execute_stmt_fst hfate₀ (exec_insertProcessedEvent_of_new hnew) ?_
  refine execute_stmt_fst hfate₁ (exec_selectOrderForUpdate_of_find? hfind) ?_
  change (Program.execute engine ((Program.ofExcept (validateOrderVersion true o.aggregateVersion
    (o.aggregateVersion + 1))).bind _ |>.bind _) _ _).1 = _
  rw [hvalid]
  change (Program.execute engine ((if o.aggregateVersion + 1 ≤ o.aggregateVersion then
    pure () else _ : Tx Unit).bind _) _ _).1 = _
  rw [if_neg (by omega)]
  exact execute_stmt_fst hfate₂ (hupdate _) rfl

/-- A version further ahead is refused. -/
theorem not_commits_cancel {id : Uuid} {version : Int} {o : Order} (ha : a.Healthy)
    (hcall : a.call = .cancelOrderFromEvent e id version)
    (hnew : e ∉ w.db.processedEvents) (hfind : w.db.orders.find? id = some o)
    (hgap : o.aggregateVersion + 1 < version) : ¬Commits w a := by
  obtain ⟨fresh₀, hfate₀⟩ := ha.fates 0
  obtain ⟨fresh₁, hfate₁⟩ := ha.fates 1
  have hrefuse : validateOrderVersion true o.aggregateVersion version =
      .error .orderEventVersionGap := by
    simp [validateOrderVersion, hgap]
  refine not_commits_of_execute (e := .orderEventVersionGap) ?_
  rw [hcall]
  -- The transaction fails after two statements, when it compares the versions.
  refine execute_stmt_fst hfate₀ (exec_insertProcessedEvent_of_new hnew) ?_
  refine execute_stmt_fst hfate₁ (exec_selectOrderForUpdate_of_find? hfind) ?_
  change (Program.execute engine ((Program.ofExcept (validateOrderVersion true o.aggregateVersion
    version)).bind _ |>.bind _) _ _).1 = _
  rw [hrefuse]
  rfl

end Execute

section Change

variable {call : Call} {w : State} {held : List Key} {r : Reply} {db' : Db}

/-- The call is about the projection of an order. -/
def Call.About (id : Uuid) : Call → Prop
  | .create _ => False
  | .resolveNextPending _ => False
  | .upsertOrderFromEvent _ incoming => incoming.id = id
  | .cancelOrderFromEvent _ orderID _ => orderID = id

instance (id : Uuid) : (call : Call) → Decidable (call.About id)
  | .create _ => inferInstanceAs (Decidable False)
  | .resolveNextPending _ => inferInstanceAs (Decidable False)
  | .upsertOrderFromEvent _ incoming => inferInstanceAs (Decidable (incoming.id = id))
  | .cancelOrderFromEvent _ orderID _ => inferInstanceAs (Decidable (orderID = id))

/-- Only the calls about an order change its projection. -/
theorem Change.find?_of_not_about (h : Change call held w r db') {id : Uuid}
    (hnot : ¬call.About id) : db'.orders.find? id = w.db.orders.find? id := by
  cases h with
  | unchanged => rfl
  | recorded => rfl
  | @projected e o hcall _ _ _ _ hnew =>
    subst hcall
    rw [Table.find?_insert hnew, if_neg]
    exact fun hid => hnot hid.symm
  | @canceled e id' version o hcall _ _ hfind =>
    subst hcall
    rw [find?_cancel hfind, if_neg]
    exact fun hid => hnot hid.symm
  | paid => rfl
  | settled => rfl

/-- A commit processes only the event of its call. -/
theorem Change.eventID?_of_processed (h : Change call held w r db') {e : Uuid}
    (hnew : e ∉ w.db.processedEvents) (he : e ∈ db'.processedEvents) : call.eventID? = some e := by
  cases h with
  | unchanged => exact absurd he hnew
  | recorded hevent =>
    obtain rfl := (List.mem_cons.mp he).resolve_right hnew
    exact hevent
  | projected hcall =>
    obtain rfl := (List.mem_cons.mp he).resolve_right hnew
    rw [hcall, Call.eventID?]
  | canceled hcall =>
    obtain rfl := (List.mem_cons.mp he).resolve_right hnew
    rw [hcall, Call.eventID?]
  | paid => exact absurd he hnew
  | settled => exact absurd he hnew

/-- A new order is stored as it came. -/
theorem Change.find?_upsert {e : Uuid} {o : Order}
    (h : Change (.upsertOrderFromEvent e o) held w r db') (hnew : e ∉ w.db.processedEvents)
    (hnone : w.db.orders.find? o.id = none) : db'.orders.find? o.id = some o := by
  cases h with
  | unchanged hevent => exact absurd (hevent e rfl) hnew
  | recorded _ _ hupsert => exact absurd hnone (hupsert e o rfl)
  | projected hcall _ _ _ _ hnone' =>
    obtain ⟨-, rfl⟩ := Call.upsertOrderFromEvent.inj hcall
    exact Table.find?_insert_self hnone'
  | canceled hcall => simp at hcall
  | paid hcall => simp at hcall
  | settled hcall => simp at hcall

/-- A cancellation that comes in time cancels its order. -/
theorem Change.find?_cancel {e id : Uuid} {o : Order}
    (h : Change (.cancelOrderFromEvent e id (o.aggregateVersion + 1)) held w r db')
    (hnew : e ∉ w.db.processedEvents) (hfind : w.db.orders.find? id = some o) :
    db'.orders.find? id = some o.cancel := by
  cases h with
  | unchanged hevent => exact absurd (hevent e rfl) hnew
  | recorded _ _ _ hcancel =>
    obtain ⟨o', hfind', hle⟩ := hcancel _ _ _ rfl
    obtain rfl := Option.some.inj (hfind.symm.trans hfind')
    omega
  | projected hcall => simp at hcall
  | canceled hcall _ _ hfind' =>
    obtain ⟨-, rfl, -⟩ := Call.cancelOrderFromEvent.inj hcall
    obtain rfl := Option.some.inj (hfind.symm.trans hfind')
    rw [Payments.find?_cancel hfind, if_pos rfl]
  | paid hcall => simp at hcall
  | settled hcall => simp at hcall

end Change

/-- The run makes the calls about the order once and in order, and no other operation takes their
events for its own. -/
structure Delivers (id : Uuid) (calls : List Call) (attempts : List Try) : Prop where
  delivered : (attempts.filter fun a => decide (a.call.About id)).map Attempt.call = calls
  healthy : ∀ a ∈ attempts, a.call.About id → a.Healthy
  others : ∀ a ∈ attempts, ¬a.call.About id → ∀ c ∈ calls, ∀ e ∈ c.eventID?,
    a.call.eventID? ≠ some e

/-- The events of the calls have not been processed. -/
def AllNew (calls : List Call) (db : Db) : Prop :=
  ∀ c ∈ calls, ∀ e ∈ c.eventID?, e ∉ db.processedEvents

section Delivers

variable {id : Uuid} {c : Call} {calls : List Call} {attempts : List Try}

/-- After the last call nothing is about the order. -/
theorem Delivers.not_about (h : Delivers id [] attempts) : ∀ a ∈ attempts, ¬a.call.About id := by
  intro a ha habout
  have hmem : a ∈ attempts.filter fun a => decide (a.call.About id) := by simp [ha, habout]
  rw [List.map_eq_nil_iff.mp h.delivered] at hmem
  simp at hmem

/-- If nothing is about the order, all calls about it commit. -/
theorem eachStep_of_not_about (hnot : ∀ a ∈ attempts, ¬a.call.About id) (w : State) :
    EachStep step (fun w a => a.call.About id → Commits w a) w attempts := by
  have hsteps : EachStep step (fun _ a => ¬a.call.About id) w attempts := eachStep_of_forall hnot w
  exact hsteps.mono fun _ _ hnot habout => absurd habout hnot

/-- The first call and what comes before it. -/
theorem Delivers.first (h : Delivers id (c :: calls) attempts) :
    ∃ front a back, attempts = front ++ a :: back ∧ (∀ b ∈ front, ¬b.call.About id) ∧
      a.call = c ∧ a.call.About id ∧ a.Healthy ∧ Delivers id calls back := by
  -- The first call is the first one among the attempts about the order.
  obtain ⟨a, as, hfilter, hcall, hcalls⟩ := List.map_eq_cons_iff.mp h.delivered
  obtain ⟨front, back, rfl, hfront, habout, hback⟩ := List.filter_eq_cons_iff.mp hfilter
  refine ⟨front, a, back, rfl, by simpa using hfront, hcall, by simpa using habout,
    h.healthy a (by simp) (by simpa using habout), ?_, ?_, ?_⟩
  · rw [hback, hcalls]
  · exact fun b hb => h.healthy b (by simp [hb])
  · exact fun b hb hnot c' hc' => h.others b (by simp [hb]) hnot c' (by simp [hc'])

/-- As long as nothing is about the order, its projection stays as it is, and its events stay
new. -/
theorem Delivers.unaffected {front back : List Try} {w : State}
    (h : Delivers id calls (front ++ back)) (hinv : discipline.Inv w) (hnew : AllNew calls w.db)
    (hfront : ∀ b ∈ front, ¬b.call.About id) :
    (run step w front).db.orders.find? id = w.db.orders.find? id ∧
      AllNew calls (run step w front).db := by
  have hothers : ∀ b ∈ front, ∀ c ∈ calls, ∀ e ∈ c.eventID?, b.call.eventID? ≠ some e :=
    fun b hb => h.others b (List.mem_append_left _ hb) (hfront b hb)
  clear h
  induction front generalizing w with
  | nil => exact ⟨rfl, hnew⟩
  | cons b bs ih =>
    have hfront' : ∀ b ∈ bs, ¬b.call.About id := fun b hb => hfront b (by simp [hb])
    have hothers' : ∀ b ∈ bs, ∀ c ∈ calls, ∀ e ∈ c.eventID?, b.call.eventID? ≠ some e :=
      fun b hb => hothers b (by simp [hb])
    -- One step: it fails and changes nothing, or it commits an operation about something else.
    rcases attempt_cases hinv b with ⟨-, hdb⟩ | ⟨r, held, n, hchange⟩
    · rw [← hdb] at hnew ⊢
      exact ih (inv_step hinv b) hnew hfront' hothers'
    · have hfind : (step w b).db.orders.find? id = w.db.orders.find? id :=
        hchange.find?_of_not_about (hfront b (by simp))
      rw [← hfind]
      refine ih (inv_step hinv b) (fun c hc e he hmem => ?_) hfront' hothers'
      exact hothers b (by simp) c hc e he (hchange.eventID?_of_processed (hnew c hc e he) hmem)

/-- The steps of a run up to the next call, which turns the projection `x` into `y`. -/
theorem Delivers.next {w : State} {x y : Option Order} (h : Delivers id (c :: calls) attempts)
    (hinv : discipline.Inv w) (hnew : AllNew (c :: calls) w.db)
    (hdistinct : ∀ c' ∈ calls, ∀ e ∈ c'.eventID?, c.eventID? ≠ some e)
    (hfind : w.db.orders.find? id = x)
    (hcall : ∀ {w : State} {a : Try}, discipline.Inv w → a.Healthy → a.call = c →
      (∀ e ∈ c.eventID?, e ∉ w.db.processedEvents) → w.db.orders.find? id = x →
        Commits w a ∧ (step w a).db.orders.find? id = y) :
    ∃ front back, attempts = front ++ back ∧ Delivers id calls back ∧
      EachStep step (fun w a => a.call.About id → Commits w a) w front ∧
      (run step w front).db.orders.find? id = y ∧ AllNew calls (run step w front).db := by
  -- Up to the call nothing happens to the order; the call itself does what `hcall` says.
  obtain ⟨front, a, back, rfl, hfront, rfl, habout, ha, hback⟩ := h.first
  obtain ⟨hsame, hstill⟩ := h.unaffected hinv hnew hfront
  have hinv' := inv_run hinv front
  obtain ⟨hcommit, hnext⟩ := hcall hinv' ha rfl (hstill a.call (by simp)) (hsame.trans hfind)
  obtain ⟨r, held, n, hchange⟩ := change_of_commits hinv' hcommit
  refine ⟨front ++ [a], back, by simp, hback, ?_, by rwa [run_concat], ?_⟩
  · rw [eachStep_concat]
    exact ⟨eachStep_of_not_about hfront w, fun _ => hcommit⟩
  · rw [run_concat]
    intro c' hc' e he hmem
    have hold := hstill c' (by simp [hc']) e he
    exact hdistinct c' hc' e he (hchange.eventID?_of_processed hold hmem)

/-- The next call stores a new order. -/
theorem Delivers.upsert {w : State} {e : Uuid} {o : Order}
    (h : Delivers o.id (.upsertOrderFromEvent e o :: calls) attempts) (hinv : discipline.Inv w)
    (hnew : AllNew (.upsertOrderFromEvent e o :: calls) w.db)
    (hdistinct : ∀ c ∈ calls, c.eventID? ≠ some e) (hnone : w.db.orders.find? o.id = none)
    (hchecks : o.Checks) (hversion : o.aggregateVersion = 0) :
    ∃ front back, attempts = front ++ back ∧ Delivers o.id calls back ∧
      EachStep step (fun w a => a.call.About o.id → Commits w a) w front ∧
      (run step w front).db.orders.find? o.id = some o ∧ AllNew calls (run step w front).db := by
  refine h.next hinv hnew ?_ hnone ?_
  · rintro c hc e' he' heq
    obtain rfl := Option.some.inj heq
    exact hdistinct c hc he'
  · intro w a hinv ha hcall hnew hnone
    have hcommit := commits_upsert ha hcall (hnew e rfl) hnone hchecks hversion
    obtain ⟨r, held, n, hchange⟩ := change_of_commits hinv hcommit
    rw [hcall] at hchange
    exact ⟨hcommit, hchange.find?_upsert (hnew e rfl) hnone⟩

/-- The next call cancels a stored order. -/
theorem Delivers.cancel {w : State} {e : Uuid} {o : Order}
    (h : Delivers id (.cancelOrderFromEvent e id (o.aggregateVersion + 1) :: calls) attempts)
    (hinv : discipline.Inv w)
    (hnew : AllNew (.cancelOrderFromEvent e id (o.aggregateVersion + 1) :: calls) w.db)
    (hdistinct : ∀ c ∈ calls, c.eventID? ≠ some e) (hfind : w.db.orders.find? id = some o)
    (hchecks : o.Checks) :
    ∃ front back, attempts = front ++ back ∧ Delivers id calls back ∧
      EachStep step (fun w a => a.call.About id → Commits w a) w front ∧
      (run step w front).db.orders.find? id = some o.cancel ∧
      AllNew calls (run step w front).db := by
  refine h.next hinv hnew ?_ hfind ?_
  · rintro c hc e' he' heq
    obtain rfl := Option.some.inj heq
    exact hdistinct c hc he'
  · intro w a hinv ha hcall hnew hfind
    have hcommit := commits_cancel ha hcall (hnew e rfl) hfind hchecks
    obtain ⟨r, held, n, hchange⟩ := change_of_commits hinv hcommit
    rw [hcall] at hchange
    exact ⟨hcommit, hchange.find?_cancel (hnew e rfl) hfind⟩

/-- When all calls have been made, nothing happens any more. -/
theorem Delivers.rest {w : State} (h : Delivers id [] attempts) (hinv : discipline.Inv w) :
    EachStep step (fun w a => a.call.About id → Commits w a) w attempts ∧
      (run step w attempts).db.orders.find? id = w.db.orders.find? id := by
  constructor
  · exact eachStep_of_not_about h.not_about w
  · have h' : Delivers id [] (attempts ++ []) := by simpa using h
    exact (h'.unaffected hinv (by simp [AllNew]) h.not_about).1

end Delivers

end Payments
