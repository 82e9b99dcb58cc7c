import PolyglotTicketing.Orders.Serial

/-!
# Which tickets are sold twice

A ticket is sold to the order that becomes `Complete`. `Exclusive` is what the reservations
achieve: of two orders of one ticket, one is canceled or has expired. It does not rule out two
sales, since a payment that succeeds completes an order whether or not it has expired and whatever
has become of its ticket. `soldOnce_iff` says exactly when it happens: a run sells no ticket
twice if and only if no payment success reaches an open order (`SellsAgain`) whose ticket has been
sold to another order, one of the two orders having expired.
-/

namespace Orders

open Platform Contracts Relational Transaction Transition

/-- An order that no longer holds its ticket, unless it is complete. -/
def Order.Lapsed (now : Int) (o : Order) : Prop := o.status = .canceled ∨ o.expiresAt ≤ now

/-- No two orders of one ticket are complete. -/
def SoldOnce (db : Db) : Prop :=
  ∀ o ∈ db.orders.rows, ∀ o' ∈ db.orders.rows, o.ticketID = o'.ticketID →
    o.status = .complete → o'.status = .complete → o = o'

instance (db : Db) : Decidable (SoldOnce db) := inferInstanceAs (Decidable (∀ o ∈ _, _))

/-- Of two orders of one ticket, one has lapsed. -/
def Exclusive (now : Int) (db : Db) : Prop :=
  ∀ o ∈ db.orders.rows, ∀ o' ∈ db.orders.rows, o.ticketID = o'.ticketID → o ≠ o' →
    o.Lapsed now ∨ o'.Lapsed now

/-- The attempt completes an open order of a ticket that another order has bought. -/
def SellsAgain (w : State) (a : Try) : Prop :=
  ∃ eventID o x, a.call = .applyPaymentSucceeded eventID o.id ∧ eventID ∉ w.db.processedEvents ∧
    o ∈ w.db.orders.rows ∧ o.status.Open ∧
    x ∈ w.db.orders.rows ∧ x.ticketID = o.ticketID ∧ x.status = .complete ∧
    (o.Lapsed a.now ∨ x.Lapsed a.now)

theorem Order.Lapsed.mono {now later : Int} {o : Order} (h : o.Lapsed now) (hle : now ≤ later) :
    o.Lapsed later :=
  h.imp_right fun hexpired => hexpired.trans hle

/-- What has lapsed stays lapsed. -/
theorem Order.Evolves.lapsed {now : Int} {o o' : Order} (h : o.Evolves o') (ho : o.Lapsed now) :
    o'.Lapsed now := by
  rcases ho with hcanceled | hexpired
  · rw [h.closed (by simp [Status.Open, hcanceled])]
    exact Or.inl hcanceled
  · exact Or.inr (h.expiresAt ▸ hexpired)

theorem Exclusive.mono {now later : Int} {db : Db} (h : Exclusive now db) (hle : now ≤ later) :
    Exclusive later db :=
  fun o ho o' ho' hticket hne =>
    (h o ho o' ho' hticket hne).imp (fun h => h.mono hle) fun h => h.mono hle

theorem exclusive_init (now : Int) : Exclusive now Db.init := by
  simp [Exclusive, Db.init]

section Change

variable {call : Call} {opened w : State} {held : List Key} {r : Reply} {db' : Db}

/-- Every order after a move was there before it. -/
private theorem exists_origin (h : Change call opened held w r db') {m : Move} {o y : Order}
    (hreplace : db'.orders = w.db.orders.replace (o.withStatus m.target))
    (hy : y ∈ db'.orders.rows) : ∃ x ∈ w.db.orders.rows, x.Evolves y := by
  cases hfind : w.db.orders.find? y.id with
  | none =>
    have hnone := (Table.find?_replace_eq_none_iff (r := o.withStatus m.target)).mpr hfind
    have hfound : db'.orders.find? y.id = some y := Table.find?_of_mem hy
    rw [← hreplace, hfound] at hnone
    simp at hnone
  | some x =>
    obtain ⟨y', hy', hevolves⟩ := h.frame.evolves _ x hfind
    obtain rfl : y = y' := Option.some.inj ((Table.find?_of_mem hy).symm.trans hy')
    exact ⟨x, Table.mem_of_find? hfind, hevolves⟩

/-- Commits keep the reservations exclusive. -/
theorem Exclusive.change (hexcl : Exclusive w.clock w.db) (hclock : opened.clock ≤ w.clock)
    (h : Change call opened held w r db') : Exclusive w.clock db' := by
  rcases h.orders_cases with hsame | ⟨input, id, -, hnew, hexpired, hinsert⟩ | hmove
  · simpa [Exclusive, hsame] using hexcl
  · -- The transaction has seen all other orders of the ticket lapsed when it began.
    have hlapsed : ∀ o ∈ w.db.orders.rows, o.ticketID = input.ticketID → o.Lapsed w.clock :=
      fun o ho hticket => Order.Lapsed.mono (hexpired o ho hticket) hclock
    intro o ho o' ho' hticket hne
    rw [hinsert, Table.mem_insert hnew] at ho ho'
    rcases ho with ho | rfl
    · rcases ho' with ho' | rfl
      · exact hexcl o ho o' ho' hticket hne
      · exact Or.inl (hlapsed o ho hticket)
    · rcases ho' with ho' | rfl
      · exact Or.inr (hlapsed o' ho' hticket.symm)
      · exact absurd rfl hne
  · -- A move makes no order live again.
    obtain ⟨m, x, -, -, -, -, -, hreplace⟩ := hmove
    intro y hy y' hy' hticket hne
    obtain ⟨o, ho, hevolves⟩ := exists_origin h hreplace hy
    obtain ⟨o', ho', hevolves'⟩ := exists_origin h hreplace hy'
    have hne' : o ≠ o' := by
      rintro rfl
      exact hne (Table.eq_of_key_eq hy hy' (hevolves.id.trans hevolves'.id.symm))
    have hticket' : o.ticketID = o'.ticketID := by
      rw [← hevolves.ticketID, hticket, hevolves'.ticketID]
    exact (hexcl o ho o' ho' hticket' hne').imp hevolves.lapsed hevolves'.lapsed

end Change

/-- Only payment successes complete orders. -/
theorem Call.of_target_complete {call : Call} {m : Move} (hmove : call.move? = some m)
    (htarget : m.target = .complete) :
    ∃ eventID, call = .applyPaymentSucceeded eventID m.orderID ∧ m.eventID = some eventID := by
  cases call <;> simp_all only [Call.move?, reduceCtorEq, Option.some.injEq] <;>
    subst hmove <;> simp_all

section Step

variable {w : State} {a : Try}

/-- A payment success that reaches an open order completes it. -/
theorem complete_of_payment {eventID : Uuid} {o : Order} (hinv : discipline.Inv w)
    (hcommit : Commits w a) (hcall : a.call = .applyPaymentSucceeded eventID o.id)
    (hnew : eventID ∉ w.db.processedEvents) (ho : o ∈ w.db.orders.rows) (hopen : o.status.Open) :
    (step w a).db.orders = w.db.orders.replace (o.withStatus .complete) := by
  obtain ⟨r, hout⟩ := hcommit
  obtain ⟨held, n, hchange⟩ := change_of_committed hinv hout
  exact hchange.moves rfl
    (m := ⟨o.id, none, [.created, .awaitingPayment], .complete, some eventID⟩)
    (by rw [hcall]; rfl) (Table.find?_of_mem ho) (by simp) (by simpa [Status.Open] using hopen)
    (by simpa using hnew)

/-- A commit sells a ticket for the second time exactly if it completes an open order whose ticket
another order has bought. -/
theorem soldOnce_step_iff (hinv : discipline.Inv w) (hexcl : Exclusive w.clock w.db)
    (hsold : SoldOnce w.db) (hle : InOrder w a) (hcommit : Commits w a) :
    SoldOnce (step w a).db ↔ ¬SellsAgain w a := by
  constructor
  · rintro hsold' ⟨eventID, o, x, hcall, hnew, ho, hopen, hx, hticket, hstatus, -⟩
    have hreplace := complete_of_payment hinv hcommit hcall hnew ho hopen
    have hne : x.id ≠ o.id := by
      intro hid
      obtain rfl : x = o := Table.eq_of_key_eq hx ho hid
      simp [hstatus, Status.Open] at hopen
    rw [SoldOnce, hreplace] at hsold'
    -- The completed order and the one that was complete before are two sales of the ticket.
    have heq := hsold' _ ((mem_move _ ho).mpr (Or.inl rfl)) x
      ((mem_move _ ho).mpr (Or.inr ⟨hx, hne⟩)) hticket.symm rfl hstatus
    have hid : (o.withStatus .complete).id = x.id := congrArg Order.id heq
    exact hne hid.symm
  · intro hnot
    obtain ⟨r, hout⟩ := hcommit
    obtain ⟨held, n, hchange⟩ := change_of_committed hinv hout
    rcases hchange.orders_cases with hsame | ⟨input, id, -, hnew, -, hinsert⟩ | hmove
    · simpa [SoldOnce, hsame] using hsold
    · intro o ho o' ho' hticket hstatus hstatus'
      rw [hinsert, Table.mem_insert hnew] at ho ho'
      rcases ho with ho | rfl
      · rcases ho' with ho' | rfl
        · exact hsold o ho o' ho' hticket hstatus hstatus'
        · simp [newOrder] at hstatus'
      · simp [newOrder] at hstatus
    · obtain ⟨m, x, hmove, hfind, -, hsource, hnew, hreplace⟩ := hmove
      have hx := Table.mem_of_find? hfind
      have hid : x.id = m.orderID := Table.key_of_find? hfind
      -- The moved order is the only one that can be newly complete.
      have hother : ∀ y ∈ w.db.orders.rows, y.id ≠ x.id → y.ticketID = x.ticketID →
          y.status = .complete → m.target ≠ .complete := by
        intro y hy hne hticket hstatus htarget
        obtain ⟨eventID, hcall, hevent⟩ := Call.of_target_complete hmove htarget
        have hlapsed := hexcl x hx y hy hticket.symm (by rintro rfl; exact hne rfl)
        exact hnot ⟨eventID, x, y, hid ▸ hcall, hnew eventID hevent, hx,
          (Call.move?_spec hmove).1 _ hsource, hy, hticket, hstatus,
          hlapsed.imp (fun h => h.mono hle) fun h => h.mono hle⟩
      intro o ho o' ho' hticket hstatus hstatus'
      rw [hreplace, mem_move _ hx] at ho ho'
      rcases ho with rfl | ⟨ho, hne⟩
      · rcases ho' with rfl | ⟨ho', hne'⟩
        · rfl
        · exact absurd hstatus (hother o' ho' hne' hticket.symm hstatus')
      · rcases ho' with rfl | ⟨ho', hne'⟩
        · exact absurd hstatus' (hother o ho hne hticket hstatus)
        · exact hsold o ho o' ho' hticket hstatus hstatus'

end Step

/-- A committed attempt keeps what the reservations achieve. -/
theorem exclusive_step {w : State} {a : Try} (hinv : discipline.Inv w)
    (hexcl : Exclusive w.clock w.db) (hle : InOrder w a) :
    Exclusive (step w a).clock (step w a).db := by
  rw [clock_step]
  -- Time only lets orders lapse.
  have hlater : Exclusive a.now w.db := hexcl.mono hle
  rcases attempt_cases hinv a with ⟨-, hdb⟩ | ⟨r, held, n, hchange⟩
  · rwa [hdb]
  · refine Exclusive.change (w := ⟨w.db, a.now, n⟩) hlater ?_ hchange
    exact Int.le_refl a.now

/-- In every run of committed transactions, at most one order of each ticket is ever complete if
and only if no payment success reaches an open order whose ticket has been sold to another order,
one of the two having lapsed. -/
theorem soldOnce_iff (clock : Int) (attempts : List Try)
    (hrun : EachStep step (fun w a => InOrder w a ∧ Commits w a) (State.init clock) attempts) :
    EachState step (fun w => SoldOnce w.db) (State.init clock) attempts ↔
      EachStep step (fun w a => ¬SellsAgain w a) (State.init clock) attempts := by
  refine eachState_iff_eachStep
    (I := fun w => discipline.Inv w ∧ Exclusive w.clock w.db) ?_ ?_
    ⟨inv_init clock, exclusive_init clock⟩ (by simp [SoldOnce, State.init, Db.init]) hrun
  · rintro w a ⟨hinv, hexcl⟩ ⟨hle, -⟩
    exact ⟨inv_step hinv a, exclusive_step hinv hexcl hle⟩
  · rintro w a ⟨hinv, hexcl⟩ hsold ⟨hle, hcommit⟩
    exact soldOnce_step_iff hinv hexcl hsold hle hcommit

/-- A user pays for an order that has expired, and so does the user who has reserved the ticket
since. -/
def doubleSale : List Try :=
  [.healthy (.upsertTicketFromEvent 1 ⟨0, 7, "seat", 100⟩) 0 10,
   .healthy (.reserveTicket ⟨minutes 15, 7, "alice"⟩) 0 20,
   .healthy (.reserveTicket ⟨minutes 31, 7, "bob"⟩) (minutes 16) 30,
   .healthy (.applyPaymentSucceeded 2 22) (minutes 17) 40,
   .healthy (.applyPaymentSucceeded 3 32) (minutes 18) 50]

theorem doubleSale_commits :
    EachStep step (fun w a => InOrder w a ∧ Commits w a) (State.init 0) doubleSale := by
  decide +kernel

/-- The equivalence on a run with a second sale. -/
theorem soldOnce_iff_doubleSale :
    EachState step (fun w => SoldOnce w.db) (State.init 0) doubleSale ↔
      EachStep step (fun w a => ¬SellsAgain w a) (State.init 0) doubleSale :=
  soldOnce_iff 0 doubleSale doubleSale_commits

/-- Tickets can be sold twice. -/
theorem exists_not_soldOnce :
    ¬∀ clock attempts,
      EachStep step (fun w a => InOrder w a ∧ Commits w a) (State.init clock) attempts →
        EachState step (fun w => SoldOnce w.db) (State.init clock) attempts := by
  intro h
  exact absurd (h 0 doubleSale doubleSale_commits) (by decide +kernel)

end Orders
