import Mathlib.Data.Int.Order.Basic
import PolyglotTicketing.Payments.Commit

/-!
# The transactions of Payments under any interleaving

The programs of the repository keep `discipline`, whose guarantee is `Change`, in the way of
`Orders.Safety`. The lock on the row of an order serializes the transactions that create its
payment; the resolution of a payment locks the row of the payment only.
-/

namespace Payments

open Platform Contracts Relational Transaction

/-- A commit adds only rows to the outbox whose places in the sequence have been drawn. -/
theorem Change.sequence_lt {call : Call} {w : State} {held : List Key} {r : Reply}
    {db' : Db} (h : Change call held w r db')
    (hinv : ∀ e ∈ w.db.outboxEvents.rows, e.sequence < w.sequence) :
    ∀ e ∈ db'.outboxEvents.rows, e.sequence < w.sequence := by
  rcases h.outbox_cases with hsame | ⟨p, e, happends, -, hinsert⟩
  · rwa [hsame]
  · rw [hinsert]
    exact happends.rows_lt hinv

/-- Each order has at most one payment. -/
def OnePayment (db : Db) : Prop :=
  ∀ p ∈ db.payments.rows, ∀ p' ∈ db.payments.rows, p.orderID = p'.orderID → p = p'

/-- A commit adds no second payment for an order. -/
theorem Change.onePayment {call : Call} {w : State} {held : List Key} {r : Reply} {db' : Db}
    (h : Change call held w r db') (hone : OnePayment w.db) : OnePayment db' := by
  cases h with
  | unchanged => exact hone
  | recorded => exact hone
  | projected => exact hone
  | canceled => exact hone
  | @paid input o id n fresh _ _ _ _ hnew _ hunpaid =>
    have hnew' : w.db.payments.find? (key (⟨id, input.orderID, .pending⟩ : Payment)) = none := hnew
    intro p hp p' hp' horder
    rcases (Table.mem_insert hnew').mp hp with hp | rfl
    · rcases (Table.mem_insert hnew').mp hp' with hp' | rfl
      · exact hone p hp p' hp' horder
      · exact absurd horder (hunpaid p hp)
    · rcases (Table.mem_insert hnew').mp hp' with hp' | rfl
      · exact absurd horder.symm (hunpaid p' hp')
      · rfl
  | @settled _ q status _ _ _ hfind =>
    have hq := Table.mem_of_find? hfind
    intro p hp p' hp' horder
    rcases (mem_settle status hq).mp hp with rfl | ⟨hp, hne⟩
    · rcases (mem_settle status hq).mp hp' with rfl | ⟨hp', hne'⟩
      · rfl
      · exact absurd (congrArg Payment.id (hone q hq p' hp' horder).symm) hne'
    · rcases (mem_settle status hq).mp hp' with rfl | ⟨hp', hne'⟩
      · exact absurd (congrArg Payment.id (hone p hp q hq horder)) hne
      · exact hone p hp p' hp' horder

/-- The discipline of Payments: the places of all outbox rows in the sequence have been drawn, no
order has two payments, and every commit is a `Change`. -/
def discipline : Discipline Int Db Key Reply Call where
  Inv w := (∀ e ∈ w.db.outboxEvents.rows, e.sequence < w.sequence) ∧ OnePayment w.db
  Guar call _ r held w db' := Change call held w r db'
  Frame := Frame
  inv_elapse hinv _ hn := ⟨fun e he => (hinv.1 e he).trans_le hn, hinv.2⟩
  inv_commit hinv hguar := ⟨hguar.sequence_lt hinv.1, hguar.onePayment hinv.2⟩
  frame hguar := hguar.frame

section Stable

variable {held : List Key} {id : Uuid}

theorem stable_order (hlock : .order id ∈ held) (x : Option Order) :
    discipline.Stable held fun db => db.orders.find? id = x := by
  intro others db db' hdisj (hframe : Frame others db db') hfind
  rw [hframe.order id fun hmem => hdisj hmem hlock, hfind]

theorem stable_payment (hlock : .payment id ∈ held) (x : Option Payment) :
    discipline.Stable held fun db => db.payments.find? id = x := by
  intro others db db' hdisj (hframe : Frame others db db') hfind
  rw [hframe.payment id fun hmem => hdisj hmem hlock, hfind]

/-- A payment stays the payment of its order. -/
theorem stable_paymentOf (orderID : Uuid) :
    discipline.Stable held fun db => ∃ p, db.payments.find? id = some p ∧ p.orderID = orderID := by
  rintro others db db' - (hframe : Frame others db db') ⟨p, hfind, horder⟩
  obtain ⟨p', hfind', hevolves⟩ := hframe.paymentEvolves id p hfind
  exact ⟨p', hfind', hevolves.orderID.trans horder⟩

/-- While the key of its payment is locked, an order stays without one. -/
theorem stable_unpaid (hlock : .paymentOrder id ∈ held) :
    discipline.Stable held fun db => ∀ p ∈ db.payments.rows, p.orderID ≠ id := by
  intro others db db' hdisj (hframe : Frame others db db') hunpaid p' hp' horder
  cases hfind : db.payments.find? p'.id with
  | none =>
    have hother := hframe.paymentNew _ _ hfind (Table.find?_of_mem hp')
    exact hdisj (horder ▸ hother) hlock
  | some p =>
    obtain ⟨p'', hfind'', hevolves⟩ := hframe.paymentEvolves _ p hfind
    obtain rfl : p' = p'' := Option.some.inj ((Table.find?_of_mem hp').symm.trans hfind'')
    exact hunpaid p (Table.mem_of_find? hfind) (hevolves.orderID.symm.trans horder)

theorem stable_outbox (hlock : .outboxEvent id ∈ held) (x : Option (OutboxEvent PaymentEvent)) :
    discipline.Stable held fun db => db.outboxEvents.find? id = x := by
  intro others db db' hdisj (hframe : Frame others db db') hfind
  rw [hframe.outbox id fun hmem => hdisj hmem hlock, hfind]

theorem stable_processed (e : Uuid) : discipline.Stable held fun db => e ∈ db.processedEvents :=
  fun _ _ _ _ (hframe : Frame _ _ _) he => hframe.processed e he

theorem stable_unprocessed {e : Uuid} (hlock : .processedEvent e ∈ held) :
    discipline.Stable held fun db => e ∉ db.processedEvents := by
  intro others db db' hdisj (hframe : Frame others db db') hnew hmem
  rcases hframe.processedNew e hmem with hmem | hother
  · exact hnew hmem
  · exact hdisj hother hlock

/-- While a payment is locked, no outbox rows about it are added. -/
theorem stable_after {n : ℕ} (hlock : .payment id ∈ held) :
    discipline.Stable held fun db => ∀ x ∈ db.outboxEvents.rows, x.payload.paymentID = id →
      x.sequence < n := by
  intro others db db' hdisj (hframe : Frame others db db') hafter x hx hid
  rcases hframe.outboxNew x hx with hx | hother
  · exact hafter x hx hid
  · exact absurd hlock (hdisj (hid ▸ hother))

end Stable

section Safe

variable {opened : State}

/-- A row that was inserted into the outbox, by a transaction that has locked the payment it is
about, is still new and last when the transaction commits. -/
private theorem appends_of_insert {held : List Key} {w w' : State} {subject : String}
    {payload : Uuid → Int → PaymentEvent} {context : Context Int Key Fresh} {id : Uuid}
    (hid : (payload context.fresh.id context.fresh.occurredAt).paymentID = id)
    (hlock : .payment id ∈ held)
    (hinv : discipline.Inv w) (hseq : context.sequence = w.sequence)
    (hnew : w.db.outboxEvents.find? context.fresh.id = none)
    (hint : discipline.Interference (held ++ [.outboxEvent context.fresh.id])
      ⟨w.db, w.clock, w.sequence + 1⟩ w') :
    Appends (held ++ [.outboxEvent context.fresh.id]) w'
      (OutboxEvent.write subject payload context.sequence context.fresh) where
  new := (stable_outbox (by simp) none).interference hint hnew
  held := by simp
  sequence_lt := by
    have hle : w.sequence + 1 ≤ w'.sequence := hint.sequence_le
    rw [OutboxEvent.sequence_write]
    omega
  after := by
    have hlock' : .payment id ∈ held ++ [Key.outboxEvent context.fresh.id] :=
      List.mem_append_left _ hlock
    have hafter := (stable_after hlock').interference hint fun x hx _ => hseq ▸ hinv.1 x hx
    exact fun x hx hxid => hafter x hx (hxid.trans hid)

/-- Creating the payment of an order is safe. -/
theorem safe_create {input : CreateInput} :
    discipline.Safe engine (.create input) opened (program (.create input)) [] [] opened := by
  intro w₁ c₁ r₁ ws₁ hint₁ hinv₁ hle₁ hnow₁ hseq₁ hexec₁
  -- From here on the row of the order is locked.
  obtain ⟨hfind, rfl, hlocks₁⟩ := exec_selectOrderForUpdate hexec₁
  rcases r₁ with - | o
  · trivial
  rw [hlocks₁]
  change discipline.Safe engine _ _ ((if o.userID ≠ input.userID then
    .fail .orderNotFound else _ : Tx (Payment × Bool)).bind _) _ _ _
  split
  next => trivial
  next huser =>
  intro w₂ c₂ r₂ ws₂ hint₂ hinv₂ hle₂ hnow₂ hseq₂ hexec₂
  have hfind₂ := (stable_order (by simp) (some o)).interference hint₂ hfind
  obtain ⟨hpaid, rfl⟩ := exec_selectPaymentByOrder hexec₂
  rcases r₂ with - | existing
  · change discipline.Safe engine _ _ ((if o.status ≠ .created then
      .fail .orderNotPayable else _ : Tx (Payment × Bool)).bind _) _ _ _
    split
    next => trivial
    next hstatus =>
    intro w₃ c₃ r₃ ws₃ hint₃ hinv₃ hle₃ hnow₃ hseq₃ hexec₃
    have hfind₃ := (stable_order (by simp) (some o)).interference hint₃ hfind₂
    -- The insertion has found no payment of the order, and locks both keys of the new row.
    obtain ⟨rfl, hnew₃, hunpaid, rfl, hlocks₃⟩ := exec_insertPayment hexec₃
    have hunpaid₃ := paymentOf_eq_none_iff.mp hunpaid
    rw [hlocks₃]
    intro w₄ c₄ r₄ ws₄ hint₄ hinv₄ hle₄ hnow₄ hseq₄ hexec₄
    obtain ⟨hfresh₄, rfl, hlocks₄⟩ := exec_insertOutboxEvent hexec₄
    rw [hlocks₄]
    intro w₅ hint₅ hinv₅ hle₅
    -- At the commit the locked rows are as the statements have seen them.
    have hfind₄ := (stable_order (by simp) (some o)).interference hint₄ hfind₃
    have hfind₅ := (stable_order (by simp) (some o)).interference hint₅ hfind₄
    have hnew₄ := (stable_payment (by simp) none).interference hint₄ hnew₃
    have hnew₅ := (stable_payment (by simp) none).interference hint₅ hnew₄
    have hunpaid₄ := (stable_unpaid (by simp)).interference hint₄ hunpaid₃
    have hunpaid₅ := (stable_unpaid (by simp)).interference hint₅ hunpaid₄
    refine .paid rfl hfind₅ (not_not.mp huser) (not_not.mp hstatus) hnew₅ (by simp) hunpaid₅
      (by simp) ?_
    refine appends_of_insert rfl ?_ hinv₄ hseq₄ hfresh₄ hint₅
    simp [PaymentEvent.paymentID]
  · intro w₃ hint₃ hinv₃ hle₃
    -- The order has a payment already; it stays the payment of the order.
    obtain ⟨hmem, horder⟩ := paymentOf_some hpaid
    have hstill := (stable_paymentOf input.orderID).interference hint₃
      ⟨existing, Table.find?_of_mem hmem, horder⟩
    refine .unchanged (by simp [Call.eventID?]) ?_
    intro p new hr
    obtain ⟨rfl, rfl⟩ := Reply.created.inj hr
    exact ⟨rfl, input, rfl, horder, by simpa [horder] using hstill⟩

/-- A transaction that has resolved a payment and is about to announce it is safe. -/
private theorem safe_settle {outcome : ProcessorOutcome} {p : Payment} {status : Status}
    {held : List Key} {w : State} {subject : String} {payload : Uuid → Int → PaymentEvent}
    (houtcome : statusForOutcome outcome = .ok status) (hpending : p.status = .pending)
    (hfind : w.db.payments.find? p.id = some p) (hlock : .payment p.id ∈ held)
    (hinsert : insertPaymentResultEvent { p with status := status } =
      query (.insertOutboxEvent subject payload))
    (hresult : ∀ sequence fresh, ResultEvent { p with status := status }
      (OutboxEvent.write subject payload sequence fresh)) :
    discipline.Safe engine (.resolveNextPending outcome) opened
      (((insertPaymentResultEvent { p with status := status }).bind fun _ =>
        (.done (some { p with status := status }) : Tx (Option Payment))).bind fun p =>
          .done (.resolved p)) held [.updatePayment { p with status := status }] w := by
  rw [hinsert]
  intro w₁ c₁ r₁ ws₁ hint₁ hinv₁ hle₁ hnow₁ hseq₁ hexec₁
  obtain ⟨hfresh, rfl, hlocks₁⟩ := exec_insertOutboxEvent hexec₁
  rw [hlocks₁]
  intro w₂ hint₂ hinv₂ hle₂
  have hfind₁ := (stable_payment hlock (some p)).interference hint₁ hfind
  have hlock₂ : .payment p.id ∈ held ++ [Key.outboxEvent c₁.fresh.id] :=
    List.mem_append_left _ hlock
  have hfind₂ := (stable_payment hlock₂ (some p)).interference hint₂ hfind₁
  refine .settled rfl houtcome hfind₂ hlock₂ hpending (hresult c₁.sequence c₁.fresh) ?_
  exact appends_of_insert (hresult c₁.sequence c₁.fresh).paymentID hlock hinv₁ hseq₁ hfresh hint₂

/-- Resolving a payment is safe. -/
theorem safe_resolveNextPending {outcome : ProcessorOutcome} :
    discipline.Safe engine (.resolveNextPending outcome) opened
      (program (.resolveNextPending outcome)) [] [] opened := by
  intro w₁ c₁ r₁ ws₁ hint₁ hinv₁ hle₁ hnow₁ hseq₁ hexec₁
  obtain ⟨hclaim, rfl, hlocks₁⟩ := exec_claimPendingPayment hexec₁
  rcases r₁ with - | p
  · -- Nothing is pending, and the transaction commits without a change.
    intro w₂ hint₂ hinv₂ hle₂
    exact .unchanged (by simp [Call.eventID?]) (by simp)
  obtain ⟨hmem, hpending, -⟩ := claimablePayment_some hclaim
  have hfind : w₁.db.payments.find? p.id = some p := Table.find?_of_mem hmem
  rw [hlocks₁]
  change discipline.Safe engine _ _ (((Program.ofExcept (statusForOutcome outcome)).bind
    _).bind _) _ _ _
  -- A processor with another outcome fails here.
  rcases houtcome : statusForOutcome outcome with e | status
  · trivial
  intro w₂ c₂ r₂ ws₂ hint₂ hinv₂ hle₂ hnow₂ hseq₂ hexec₂
  have hfind₂ := (stable_payment (by simp) (some p)).interference hint₂ hfind
  obtain rfl := exec_updatePaymentStatus hexec₂ hfind₂
  -- The claim has locked the payment for the rest of the transaction.
  have hlock : .payment p.id ∈ ([] ++ [Key.payment p.id]) ++
      engine.locks (.updatePaymentStatus p.id status) c₂ (engine.applyAll [] w₂.db) :=
    List.mem_append_left _ (List.mem_append_right _ (List.mem_singleton_self _))
  cases status with
  | pending => exact absurd rfl (ne_pending_of_statusForOutcome houtcome)
  | succeeded =>
    refine safe_settle houtcome hpending hfind₂ hlock rfl ?_
    exact fun sequence fresh => ⟨sequence, fresh, Or.inl ⟨rfl, rfl⟩⟩
  | failed =>
    refine safe_settle houtcome hpending hfind₂ hlock rfl ?_
    exact fun sequence fresh => ⟨sequence, fresh, Or.inr ⟨rfl, rfl⟩⟩

/-- Storing a new order is safe. -/
theorem safe_upsertOrderFromEvent {eventID : Uuid} {incoming : Order} :
    discipline.Safe engine (.upsertOrderFromEvent eventID incoming) opened
      (program (.upsertOrderFromEvent eventID incoming)) [] [] opened := by
  intro w₁ c₁ r₁ ws₁ hint₁ hinv₁ hle₁ hnow₁ hseq₁ hexec₁
  rcases exec_insertProcessedEvent hexec₁ with
    ⟨hmem, rfl, rfl⟩ | ⟨hnew, rfl, rfl, hlocks₁⟩
  · -- The event has been processed before.
    intro w₂ hint₂ hinv₂ hle₂
    refine .unchanged (fun e he => ?_) (by simp)
    obtain rfl : eventID = e := Option.some.inj he
    exact (stable_processed eventID).interference hint₂ hmem
  rw [hlocks₁]
  intro w₂ c₂ stored ws₂ hint₂ hinv₂ hle₂ hnow₂ hseq₂ hexec₂
  have hnew₂ := (stable_unprocessed (by simp)).interference hint₂ hnew
  obtain ⟨hstored, rfl, hlocks₂⟩ := exec_selectOrderForUpdate hexec₂
  rw [hlocks₂]
  change discipline.Safe engine _ _ (((Program.ofExcept (validateOrderVersion
    (Option.isSome stored) (Option.elim stored 0 Order.aggregateVersion)
    incoming.aggregateVersion)).bind _).bind _) _ _ _
  -- A version that leaves a gap fails.
  rcases hvalid : validateOrderVersion (Option.isSome stored)
    (Option.elim stored 0 Order.aggregateVersion) incoming.aggregateVersion with e | ok
  · trivial
  rcases stored with - | o
  · -- The order is not known yet, so that its version is 0.
    intro w₃ c₃ r₃ ws₃ hint₃ hinv₃ hle₃ hnow₃ hseq₃ hexec₃
    obtain ⟨hchecks, hnone, rfl, hlocks₃⟩ := exec_insertOrder hexec₃
    rw [hlocks₃]
    intro w₄ hint₄ hinv₄ hle₄
    have hnew₃ := (stable_unprocessed (by simp)).interference hint₃ hnew₂
    have hnew₄ := (stable_unprocessed (by simp)).interference hint₄ hnew₃
    have hnone₄ := (stable_order (by simp) none).interference hint₄ hnone
    refine .projected rfl ⟨hnew₄, by simp⟩ (by simp) hchecks ?_ hnone₄
    simpa [validateOrderVersion] using hvalid
  · -- The order is known already: the event comes too late, and is only recorded.
    intro w₃ hint₃ hinv₃ hle₃
    have hnew₃ := (stable_unprocessed (by simp)).interference hint₃ hnew₂
    have hstored₃ := (stable_order (by simp) (some o)).interference hint₃ hstored
    refine .recorded rfl ⟨hnew₃, by simp⟩ ?_ (by simp)
    intro e x hcall
    obtain ⟨rfl, rfl⟩ := Call.upsertOrderFromEvent.inj hcall
    simp [hstored₃]

/-- Canceling the projection of an order is safe. -/
theorem safe_cancelOrderFromEvent {eventID orderID : Uuid} {aggregateVersion : Int} :
    discipline.Safe engine (.cancelOrderFromEvent eventID orderID aggregateVersion) opened
      (program (.cancelOrderFromEvent eventID orderID aggregateVersion)) [] [] opened := by
  intro w₁ c₁ r₁ ws₁ hint₁ hinv₁ hle₁ hnow₁ hseq₁ hexec₁
  rcases exec_insertProcessedEvent hexec₁ with
    ⟨hmem, rfl, rfl⟩ | ⟨hnew, rfl, rfl, hlocks₁⟩
  · -- The event has been processed before.
    intro w₂ hint₂ hinv₂ hle₂
    refine .unchanged (fun e he => ?_) (by simp)
    obtain rfl : eventID = e := Option.some.inj he
    exact (stable_processed eventID).interference hint₂ hmem
  rw [hlocks₁]
  intro w₂ c₂ stored ws₂ hint₂ hinv₂ hle₂ hnow₂ hseq₂ hexec₂
  have hnew₂ := (stable_unprocessed (by simp)).interference hint₂ hnew
  obtain ⟨hstored, rfl, hlocks₂⟩ := exec_selectOrderForUpdate hexec₂
  rw [hlocks₂]
  -- An order that is not known yet cannot be canceled.
  rcases stored with - | o
  · trivial
  change discipline.Safe engine _ _ (((Program.ofExcept (validateOrderVersion true
    o.aggregateVersion aggregateVersion)).bind _).bind _) _ _ _
  -- A version that leaves a gap fails, an old one is only recorded.
  rcases hvalid : validateOrderVersion true o.aggregateVersion aggregateVersion with e | ok
  · trivial
  change discipline.Safe engine _ _ ((if aggregateVersion ≤ o.aggregateVersion then
    pure () else _ : Tx Unit).bind _) _ _ _
  split
  next hlate =>
    intro w₃ hint₃ hinv₃ hle₃
    have hnew₃ := (stable_unprocessed (by simp)).interference hint₃ hnew₂
    have hstored₃ := (stable_order (by simp) (some o)).interference hint₃ hstored
    refine .recorded rfl ⟨hnew₃, by simp⟩ (by simp) ?_
    intro e id version hcall
    obtain ⟨rfl, rfl, rfl⟩ := Call.cancelOrderFromEvent.inj hcall
    exact ⟨o, hstored₃, hlate⟩
  next hlate =>
    intro w₃ c₃ r₃ ws₃ hint₃ hinv₃ hle₃ hnow₃ hseq₃ hexec₃
    have hstored₃ := (stable_order (by simp) (some o)).interference hint₃ hstored
    obtain rfl := exec_updateOrder hexec₃ hstored₃
    intro w₄ hint₄ hinv₄ hle₄
    have hnew₃ := (stable_unprocessed (by simp)).interference hint₃ hnew₂
    have hnew₄ := (stable_unprocessed (by simp)).interference hint₄ hnew₃
    have hstored₄ := (stable_order (by simp) (some o)).interference hint₄ hstored₃
    -- What is neither old nor too far ahead is the next version.
    have hversion : aggregateVersion = o.aggregateVersion + 1 := by
      have hgap : ¬ aggregateVersion > o.aggregateVersion + 1 := by
        intro hgap
        simp [validateOrderVersion, hgap] at hvalid
      omega
    subst hversion
    exact .canceled rfl ⟨hnew₄, by simp⟩ (by simp) hstored₄ rfl

end Safe

/-- The programs of the repository keep the discipline. -/
theorem allSafe : discipline.AllSafe engine program := by
  intro call w _
  cases call with
  | create input => exact safe_create
  | resolveNextPending outcome => exact safe_resolveNextPending
  | upsertOrderFromEvent eventID incoming => exact safe_upsertOrderFromEvent
  | cancelOrderFromEvent eventID orderID aggregateVersion => exact safe_cancelOrderFromEvent

end Payments
