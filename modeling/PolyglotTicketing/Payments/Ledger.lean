import PolyglotTicketing.Payments.Serial
import PolyglotTicketing.Transaction.History

/-!
# The ledger of Payments

Any number of transactions of Payments run on one server, their statements interleaved as the row
locks allow, any of them failing at any statement. `exactly_once` collects what holds in every
interleaving:

* an order has at most one payment, and all calls of `Create` for it return this one;
* the outbox rows about a payment are its booking (`Booked`);
* a payment comes into being with a `Create` on an order that the caller owns and has not begun to
  pay (`Born`);
* what is resolved or canceled stays so (`Grows`).
-/

namespace Payments

open Platform Contracts Relational Transaction Transition

/-- A transaction of Payments on the server. -/
abbrev Tran := Session Int Db Write Key Fresh Stmt Res Err Reply Call

/-- The server of Payments with its transactions. -/
abbrev System := Server Int Db Write Key Fresh Stmt Res Err Reply Call

/-- The server after the events, on a migrated database. -/
def serve (clock : Int) (events : List (Event Int Fresh Call)) : System :=
  run (Server.step engine program) ⟨State.init clock, []⟩ events

/-- The outbox rows about a payment: it was created, and then, unless it is pending, its result
was published. -/
def Booked (p : Payment) (rows : List (OutboxEvent PaymentEvent)) : Prop :=
  ∃ n fresh, (p.status = .pending ∧ rows = [paymentCreatedEvent p n fresh]) ∨
    ∃ e, ResultEvent p e ∧ n < e.sequence ∧ rows = [paymentCreatedEvent p n fresh, e]

/-- The outbox is the booking of the payments, and an order whose version has grown is
canceled. -/
structure Balanced (db : Db) : Prop where
  booked : ∀ p ∈ db.payments.rows,
    Booked p (eventsAbout PaymentEvent.paymentID db.outboxEvents p.id)
  known : ∀ x ∈ db.outboxEvents.rows, db.payments.find? x.payload.paymentID ≠ none
  canceled : ∀ o ∈ db.orders.rows, 0 < o.aggregateVersion → o.status = .canceled

theorem balanced_init (clock : Int) : Balanced (State.init clock).db := by
  constructor <;> simp [State.init, Db.init]

/-- The booking of a payment that is resolved is completed by the result. -/
theorem Booked.settle {p : Payment} {status : Status} {rows : List (OutboxEvent PaymentEvent)}
    {e : OutboxEvent PaymentEvent} (h : Booked p rows) (hpending : p.status = .pending)
    (hresult : ResultEvent { p with status := status } e)
    (hafter : ∀ x ∈ rows, x.sequence < e.sequence) :
    Booked { p with status := status } (rows ++ [e]) := by
  -- A booking with a result is one of a payment that is not pending any more.
  obtain ⟨n, fresh, ⟨-, rfl⟩ | ⟨e', ⟨m, fresh', hsettled⟩, -⟩⟩ := h
  · have hlt : n < e.sequence := hafter (paymentCreatedEvent p n fresh) (by simp)
    exact ⟨n, fresh, Or.inr ⟨e, hresult, hlt, rfl⟩⟩
  · rw [hpending] at hsettled
    simp at hsettled

/-- A row of the outbox says of its payment what is so. -/
theorem Balanced.payment_of_row {db : Db} (hbal : Balanced db) {e : OutboxEvent PaymentEvent}
    (he : e ∈ db.outboxEvents.rows) :
    ∃ p ∈ db.payments.rows, p.orderID = e.payload.orderID ∧
      (∀ m, e.payload = .succeeded m → p.status = .succeeded) ∧
      (∀ m, e.payload = .failed m → p.status = .failed) := by
  -- The row is about a known payment, so it is one of the rows of its booking.
  obtain ⟨p, hfind⟩ := Option.ne_none_iff_exists'.mp (hbal.known e he)
  have hp := Table.mem_of_find? hfind
  have hid : p.id = e.payload.paymentID := Table.key_of_find? hfind
  have hmem := mem_eventsAbout.mpr ⟨he, hid.symm⟩
  refine ⟨p, hp, ?_⟩
  obtain ⟨n, fresh, ⟨-, hrows⟩ | ⟨e', ⟨n', fresh', hresult⟩, -, hrows⟩⟩ := hbal.booked p hp
  · rw [hrows, List.mem_singleton] at hmem
    subst hmem
    exact ⟨rfl, by simp [paymentCreatedEvent], by simp [paymentCreatedEvent]⟩
  · rw [hrows, List.mem_pair] at hmem
    rcases hmem with rfl | rfl
    · exact ⟨rfl, by simp [paymentCreatedEvent], by simp [paymentCreatedEvent]⟩
    · rcases hresult with ⟨hstatus, rfl⟩ | ⟨hstatus, rfl⟩
      · exact ⟨rfl, fun _ _ => hstatus, by simp [paymentSucceededEvent]⟩
      · exact ⟨rfl, by simp [paymentFailedEvent], fun _ _ => hstatus⟩

/-- Rows of the outbox stay. -/
theorem Change.outbox_subset {call : Call} {w : State} {held : List Key} {r : Reply} {db' : Db}
    (h : Change call held w r db') : ∀ e ∈ w.db.outboxEvents.rows, e ∈ db'.outboxEvents.rows := by
  intro e he
  rcases h.outbox_cases with hsame | ⟨p, x, happends, -, hinsert⟩
  · rwa [hsame]
  · rw [hinsert]
    exact (Table.mem_insert happends.new).mpr (Or.inl he)

/-- Every commit keeps the books balanced. -/
theorem Balanced.change {call : Call} {w : State} {held : List Key} {r : Reply} {db' : Db}
    (hbal : Balanced w.db) (h : Change call held w r db') : Balanced db' := by
  cases h with
  | unchanged => exact hbal
  | recorded => exact ⟨hbal.booked, hbal.known, hbal.canceled⟩
  -- A new order has version 0.
  | @projected e o _ _ _ _ hversion hnew =>
    refine ⟨hbal.booked, hbal.known, ?_⟩
    intro o' ho' hpos
    rcases (Table.mem_insert hnew).mp ho' with ho' | rfl
    · exact hbal.canceled o' ho' hpos
    · omega
  | @canceled e id version o _ _ _ hfind =>
    refine ⟨hbal.booked, hbal.known, ?_⟩
    intro o' ho' hpos
    have hfind' : w.db.orders.find? (key o.cancel) = some o :=
      Table.find?_of_mem (Table.mem_of_find? hfind)
    rcases (Table.mem_replace hfind').mp ho' with rfl | ⟨ho', -⟩
    · rfl
    · exact hbal.canceled o' ho' hpos
  -- The first row about a payment is written with it.
  | @paid input o id n fresh _ _ _ _ hnew _ _ _ happends =>
    have hnew' : w.db.payments.find? (key (⟨id, input.orderID, .pending⟩ : Payment)) = none := hnew
    refine ⟨?_, ?_, hbal.canceled⟩
    · intro p hp
      rcases (Table.mem_insert hnew').mp hp with hold | rfl
      · have hne : id ≠ p.id := fun hid =>
          Table.find?_eq_none_iff.mp hnew p hold hid.symm
        rw [eventsAbout_insert_of_ne happends.new hne]
        exact hbal.booked p hold
      · -- No row is about a payment that is not known yet.
        have hnil : eventsAbout PaymentEvent.paymentID w.db.outboxEvents id = [] := by
          refine eventsAbout_eq_nil_iff.mpr fun x hx hid => ?_
          exact hbal.known x hx (hid ▸ hnew)
        have hid : (paymentCreatedEvent ⟨id, input.orderID, .pending⟩ n fresh).payload.paymentID =
          id := rfl
        have happend := eventsAbout_insert happends.new hid
        rw [hnil, List.nil_append] at happend
        exact ⟨n, fresh, Or.inl ⟨rfl, happend⟩⟩
    · intro x hx
      rcases (Table.mem_insert happends.new).mp hx with hx | rfl
      · intro hnone
        rw [Table.find?_insert hnew'] at hnone
        split at hnone
        next => simp at hnone
        next => exact hbal.known x hx hnone
      · exact fun hnone => by simpa using (Table.find?_insert_self hnew').symm.trans hnone
  -- The second row follows when the payment is resolved.
  | @settled outcome p status e _ _ hfind _ hpending hresult happends =>
    have hp := Table.mem_of_find? hfind
    refine ⟨?_, ?_, hbal.canceled⟩
    · intro q hq
      rcases (mem_settle status hp).mp hq with rfl | ⟨hq, hne⟩
      · rw [eventsAbout_insert happends.new hresult.paymentID]
        refine (hbal.booked p hp).settle hpending hresult ?_
        intro x hx
        obtain ⟨hx, hid⟩ := mem_eventsAbout.mp hx
        exact happends.after x hx (hid.trans hresult.paymentID.symm)
      · have hne' : e.payload.paymentID ≠ q.id := by
          rw [hresult.paymentID]
          exact hne.symm
        rw [eventsAbout_insert_of_ne happends.new hne']
        exact hbal.booked q hq
    · intro x hx
      rw [Ne, Table.find?_replace_eq_none_iff]
      rcases (Table.mem_insert happends.new).mp hx with hx | rfl
      · exact hbal.known x hx
      · rw [hresult.paymentID, hfind]
        exact Option.some_ne_none p

/-- What becomes of the rows as time goes on. -/
structure Grows (db db' : Db) : Prop where
  /-- Payments stay, and once resolved they stay as they are. -/
  payment : ∀ p ∈ db.payments.rows, ∃ p' ∈ db'.payments.rows, p'.id = p.id ∧ p.Evolves p'
  /-- Canceled orders stay canceled. -/
  canceled : ∀ o ∈ db.orders.rows, o.status = .canceled →
    ∃ o' ∈ db'.orders.rows, o'.id = o.id ∧ o'.status = .canceled
  /-- Canceled orders get no payment. -/
  unpaid : ∀ o ∈ db.orders.rows, o.status = .canceled →
    ∀ p' ∈ db'.payments.rows, p'.orderID = o.id → db.payments.find? p'.id ≠ none

theorem Payment.Evolves.trans {p p' p'' : Payment} (h : p.Evolves p') (h' : p'.Evolves p'') :
    p.Evolves p'' where
  orderID := h'.orderID.trans h.orderID
  settled := fun hsettled => by
    obtain rfl := h.settled hsettled
    exact h'.settled hsettled

theorem Grows.refl (db : Db) : Grows db db where
  payment := fun p hp => ⟨p, hp, rfl, .refl p⟩
  canceled := fun o ho hcanceled => ⟨o, ho, rfl, hcanceled⟩
  unpaid := fun _ _ _ _ hp' _ hnone => Table.find?_eq_none_iff.mp hnone _ hp' rfl

theorem Grows.trans {db db' db'' : Db} (h : Grows db db') (h' : Grows db' db'') :
    Grows db db'' where
  payment := by
    intro p hp
    obtain ⟨p', hp', hid', hevolves'⟩ := h.payment p hp
    obtain ⟨p'', hp'', hid'', hevolves''⟩ := h'.payment p' hp'
    exact ⟨p'', hp'', hid''.trans hid', hevolves'.trans hevolves''⟩
  canceled := by
    intro o ho hcanceled
    obtain ⟨o', ho', hid', hcanceled'⟩ := h.canceled o ho hcanceled
    obtain ⟨o'', ho'', hid'', hcanceled''⟩ := h'.canceled o' ho' hcanceled'
    exact ⟨o'', ho'', hid''.trans hid', hcanceled''⟩
  unpaid := by
    intro o ho hcanceled p'' hp'' horder
    -- The order was canceled in between, so that the payment is as old as that.
    obtain ⟨o', ho', hid', hcanceled'⟩ := h.canceled o ho hcanceled
    have hknown := h'.unpaid o' ho' hcanceled' p'' hp'' (horder.trans hid'.symm)
    obtain ⟨p', hfind'⟩ := Option.ne_none_iff_exists'.mp hknown
    have hp' := Table.mem_of_find? hfind'
    obtain ⟨q, hq, hid, hevolves⟩ := h'.payment p' hp'
    -- `p''` is what has become of `p'`.
    have hkey : p'.id = p''.id := Table.key_of_find? hfind'
    obtain rfl : q = p'' := Table.eq_of_key_eq hq hp'' (hid.trans hkey)
    have hknown' := h.unpaid o ho hcanceled p' hp' (hevolves.orderID.symm.trans horder)
    rwa [hkey] at hknown'

/-- Every commit lets the rows grow. -/
theorem Change.grows {call : Call} {w : State} {held : List Key} {r : Reply} {db' : Db}
    (h : Change call held w r db') : Grows w.db db' where
  payment := by
    intro p hp
    obtain ⟨p', hfind', hevolves⟩ := h.frame.paymentEvolves _ p (Table.find?_of_mem hp)
    exact ⟨p', Table.mem_of_find? hfind', Table.key_of_find? hfind', hevolves⟩
  canceled := by
    intro o ho hcanceled
    obtain ⟨o', hfind', hevolves⟩ := h.frame.orderEvolves _ o (Table.find?_of_mem ho)
    refine ⟨o', Table.mem_of_find? hfind', Table.key_of_find? hfind', ?_⟩
    rcases hevolves.canceled with rfl | rfl
    · exact hcanceled
    · rfl
  unpaid := by
    intro o ho hcanceled p' hp' horder hnone
    -- A new payment is for an order in the state `Created`, which is not canceled.
    obtain ⟨input, o', -, -, heq, hfind, -, hstatus⟩ := h.payment_of_new hp' hnone
    have hid : input.orderID = o.id := by rw [← horder, heq]
    rw [hid, show w.db.orders.find? o.id = some o from Table.find?_of_mem ho] at hfind
    obtain rfl := Option.some.inj hfind
    simp [hcanceled] at hstatus

section Serve

variable (clock : Int) (events : List (Event Int Fresh Call))

theorem sound_serve : discipline.Sound engine (serve clock events) :=
  Discipline.sound_run allSafe (Discipline.sound_init (inv_init clock)) events

theorem balanced_serve : Balanced (serve clock events).world.db :=
  (Discipline.world_run allSafe (inv_init clock) (P := fun w => Balanced w.db)
    (fun hbal _ _ => hbal) (fun _ hbal hguar => hbal.change hguar) (balanced_init clock) events).1

theorem grows_serve (later : List (Event Int Fresh Call)) :
    Grows (serve clock events).world.db (serve clock (events ++ later)).world.db := by
  rw [serve, serve, run_append]
  exact Discipline.extend_run allSafe .refl .trans (fun _ hguar => hguar.grows)
    (sound_serve clock events) later

/-- `p` comes into being when the `Create` of a caller commits who owns the order of `p`, and the
order is in the state `Created`. -/
def Born (c c' : System) (p : Payment) : Prop :=
  ∃ i s input, c'.Committed i s (.created p true) ∧ s.call = .create input ∧
    p = ⟨p.id, input.orderID, .pending⟩ ∧ ∃ o, c.world.db.orders.find? input.orderID = some o ∧
      o.userID = input.userID ∧ o.status = .created

/-- A payment that was not there before an event is born with it. -/
theorem born_of_new (e : Event Int Fresh Call) {p : Payment}
    (hp : p ∈ ((serve clock events).step engine program e).world.db.payments.rows)
    (hnone : (serve clock events).world.db.payments.find? p.id = none) :
    Born (serve clock events) ((serve clock events).step engine program e) p := by
  have hsound := sound_serve clock events
  generalize serve clock events = c at hp hnone hsound ⊢
  have hold : p ∉ c.world.db.payments.rows := fun hmem =>
    Table.find?_eq_none_iff.mp hnone p hmem rfl
  -- Only the commit of a transaction changes the rows.
  rcases (Server.step_cases engine program c e).world_cases with
    ⟨hdb, -, -⟩ | ⟨i, s, r, hs, hphase, heq⟩
  · exact absurd (hdb ▸ hp) hold
  have hchange : Change s.call s.held c.world r _ := hsound.guar_of_commit hs hphase
  have hcommitted : (c.step engine program e).Committed i (s.close (.committed r)) r := by
    have hlt : i < c.sessions.length := (List.getElem?_eq_some_iff.mp hs).1
    rw [heq]
    exact ⟨by simp [hlt], rfl⟩
  rw [heq] at hp
  generalize engine.applyAll s.pending c.world.db = db' at hp hchange
  obtain ⟨input, o, hcall, rfl, hpending, hfind, huser, hstatus⟩ :=
    hchange.payment_of_new hp hnone
  exact ⟨i, _, input, hcommitted, hcall, hpending, o, hfind, huser, hstatus⟩

/-- What `Create` returns is the payment of the order. -/
def Paid (call : Call) (_ : State) (r : Reply) (w : State) : Prop :=
  ∀ p new, r = .created p new → ∃ input, call = .create input ∧ p.orderID = input.orderID ∧
    ∃ p' ∈ w.db.payments.rows, p'.id = p.id ∧ p'.orderID = p.orderID

/-- Two calls of `Create` for one order return the same payment, and at most one of them has
created it. -/
def Agree (_ : Call) (r : Reply) (_ : Call) (r' : Reply) : Prop :=
  ∀ p new p' new', r = .created p new → r' = .created p' new' → p.orderID = p'.orderID →
    p.id = p'.id ∧ (new = true → new' = false)

theorem lasting_paid : discipline.Lasting Paid where
  done := by
    intro call opened r held w db' hinv hchange p new hr
    cases (hchange : Change call held w r db') with
    -- The payment was there before.
    | unchanged _ hcreated =>
      obtain ⟨-, input, hcall, horder, p', hfind', horder'⟩ := hcreated p new hr
      exact ⟨input, hcall, horder, p', Table.mem_of_find? hfind', Table.key_of_find? hfind',
        horder'⟩
    | @paid input o id n fresh hcall _ _ _ hnew =>
      obtain ⟨rfl, -⟩ := Reply.created.inj hr
      exact ⟨input, hcall, rfl, _, (Table.mem_insert hnew).mpr (Or.inr rfl), rfl, rfl⟩
    | recorded => simp at hr
    | projected => simp at hr
    | canceled => simp at hr
    | settled => simp at hr
  elapse := fun h _ _ => h
  commit := by
    intro call opened r call' opened' r' held w db' hinv hpaid hchange p new hr
    obtain ⟨input, hcall, horder, q, hq, hid, hqorder⟩ := hpaid p new hr
    obtain ⟨q', hq', hid', hevolves⟩ := (Change.grows hchange).payment q hq
    exact ⟨input, hcall, horder, q', hq', hid'.trans hid, hevolves.orderID.trans hqorder⟩

theorem Agree.symm {call call' : Call} {r r' : Reply} (h : Agree call r call' r') :
    Agree call' r' call r := by
  intro p' new' p new hr' hr horder
  obtain ⟨hid, hnew⟩ := h p new p' new' hr hr' horder.symm
  refine ⟨hid.symm, fun hnew' => ?_⟩
  by_contra hcreated
  simp [hnew (Bool.not_eq_false new ▸ hcreated)] at hnew'

/-- A call of `Create` that commits after another one agrees with it. -/
theorem Paid.agree {call call' : Call} {opened w : State} {r r' : Reply} {held : List Key}
    {db' : Db} (hone : OnePayment w.db) (hpaid : Paid call opened r w)
    (h : Change call' held w r' db') : Agree call r call' r' := by
  intro p new p' new' hr hr' horder
  obtain ⟨input, -, -, q, hq, hid, hqorder⟩ := hpaid p new hr
  cases h with
  -- Both have returned the payment of the order, and there is only one.
  | unchanged _ hcreated =>
    obtain ⟨hnew', input', -, -, q', hfind', hqorder'⟩ := hcreated p' new' hr'
    have hid' : q'.id = p'.id := Table.key_of_find? hfind'
    have heq : q = q' := hone q hq q' (Table.mem_of_find? hfind')
      (hqorder.trans (horder.trans hqorder'.symm))
    exact ⟨by rw [← hid, heq, hid'], fun _ => hnew'⟩
  -- A payment that is created now would be the second one.
  | @paid input' o id n fresh _ _ _ _ _ _ hunpaid =>
    obtain ⟨rfl, -⟩ := Reply.created.inj hr'
    exact absurd (hqorder.trans horder) (hunpaid q hq)
  | recorded => simp at hr'
  | projected => simp at hr'
  | canceled => simp at hr'
  | settled => simp at hr'

theorem settled_serve : discipline.Settled engine Paid Agree (serve clock events) := by
  refine Discipline.settled_run allSafe (inv_init clock) lasting_paid ?_ events
  intro call opened r call' opened' r' held w db' hinv hpaid hchange
  have hagree := hpaid.agree hinv.2 hchange
  exact ⟨hagree, hagree.symm⟩

/-- The `CancelOrderFromEvent` of a new event cancels its order. -/
theorem canceled_of_committed {i : ℕ} {s : Tran} {eventID orderID : Uuid}
    {version : Int} (hs : (serve clock events).sessions[i]? = some s)
    (hcall : s.call = .cancelOrderFromEvent eventID orderID version)
    (hphase : s.phase = .running (.done .applied)) (hpos : 0 < version)
    (hnew : eventID ∉ (serve clock events).world.db.processedEvents) :
    ∃ o, (serve clock (events ++ [.finish i])).world.db.orders.find? orderID = some o ∧
      o.status = .canceled := by
  have hchange := (sound_serve clock events).guar_of_commit hs hphase
  have hbal := balanced_serve clock (events ++ [.finish i])
  have hdb : (serve clock (events ++ [.finish i])).world.db =
      engine.applyAll s.pending (serve clock events).world.db := by
    rw [serve, run_concat, ← serve]
    simp [Server.step, hs, hphase]
  rw [hdb] at hbal ⊢
  rw [hcall] at hchange
  generalize engine.applyAll s.pending (serve clock events).world.db = db' at hchange hbal ⊢
  cases (hchange : Change (.cancelOrderFromEvent eventID orderID version) _ _ _ _) with
  | unchanged hevent => exact absurd (hevent eventID rfl) hnew
  -- The event comes too late: the order has this version or a later one, and only canceled orders
  -- have one above 0.
  | recorded _ _ _ hcancel =>
    obtain ⟨o, hfind, hle⟩ := hcancel _ _ _ rfl
    exact ⟨o, hfind, hbal.canceled o (Table.mem_of_find? hfind) (hpos.trans_le hle)⟩
  | projected hcall => simp at hcall
  | @canceled _ _ _ o hcall _ _ hfind =>
    obtain ⟨-, rfl, -⟩ := Call.cancelOrderFromEvent.inj hcall
    exact ⟨o.cancel, by rw [find?_cancel hfind, if_pos rfl], rfl⟩

end Serve

/-- In every interleaving of the transactions of Payments: an order has at most one payment, and
the outbox rows about a payment are its booking; calls of `Create` for one order return one
payment, which is the payment of the order, and at most one of them has created it; a payment comes
into being when its caller owns an order in the state `Created`; what is resolved or canceled stays
so, and canceled orders get no payment; and a new event of a cancellation cancels its order. -/
theorem exactly_once (clock : Int) (events : List (Event Int Fresh Call)) :
    (∀ p ∈ (serve clock events).world.db.payments.rows,
      ∀ p' ∈ (serve clock events).world.db.payments.rows, p.orderID = p'.orderID → p = p') ∧
    (∀ p ∈ (serve clock events).world.db.payments.rows, Booked p
      (eventsAbout PaymentEvent.paymentID (serve clock events).world.db.outboxEvents p.id)) ∧
    (∀ i s p new, (serve clock events).Committed i s (.created p new) →
      ∃ input, s.call = .create input ∧ p.orderID = input.orderID ∧
        ∃ p' ∈ (serve clock events).world.db.payments.rows,
          p'.id = p.id ∧ p'.orderID = p.orderID) ∧
    (∀ i j s s' p p' new new', i ≠ j → (serve clock events).Committed i s (.created p new) →
      (serve clock events).Committed j s' (.created p' new') → p.orderID = p'.orderID →
        p.id = p'.id ∧ (new = true → new' = false)) ∧
    (∀ e, ∀ p ∈ (serve clock (events ++ [e])).world.db.payments.rows,
      (serve clock events).world.db.payments.find? p.id = none →
        Born (serve clock events) (serve clock (events ++ [e])) p) ∧
    (∀ later, Grows (serve clock events).world.db (serve clock (events ++ later)).world.db) ∧
    ∀ (i : ℕ) s eventID orderID version, (serve clock events).sessions[i]? = some s →
      s.call = .cancelOrderFromEvent eventID orderID version →
        s.phase = .running (.done .applied) → 0 < version →
          eventID ∉ (serve clock events).world.db.processedEvents →
            ∃ o, (serve clock (events ++ [.finish i])).world.db.orders.find? orderID = some o ∧
              o.status = .canceled := by
  have hsettled := settled_serve clock events
  refine ⟨hsettled.sound.inv.2, (balanced_serve clock events).booked, ?_, ?_, ?_,
    grows_serve clock events, ?_⟩
  · intro i s p new hs
    exact hsettled.each hs p new rfl
  · intro i j s s' p p' new new' hij hs hs'
    exact hsettled.pair hij hs hs' p new p' new' rfl rfl
  · intro e p hp hnone
    have hstep : serve clock (events ++ [e]) = (serve clock events).step engine program e := by
      rw [serve, run_concat, ← serve]
    rw [hstep] at hp ⊢
    exact born_of_new clock events e hp hnone
  · intro i s eventID orderID version hs hcall hphase hpos hnew
    exact canceled_of_committed clock events hs hcall hphase hpos hnew

end Payments
