import PolyglotTicketing.Orders.TicketSales
import PolyglotTicketing.Transaction.History

/-!
# Concurrent reservations

Any number of transactions of Orders run on one server, their statements interleaved as the row
locks allow. `reservations_exclusive` collects what that means for reservations: a ticket has at
most one live reservation at a time; a reservation that is not created was live, and the caller's
own, when the blocking query ran; a caller who sees the live order of another user is refused,
unless the query puts an order of his own before it; and nobody reserves a ticket that was sold
before the transaction began.

The exception is real (`not_always_refused`): the clock of a transaction stands still, so that
its query can see two live orders of one ticket, one of them the caller's own.
-/

namespace Orders

open Platform Contracts Relational Transaction Transition

/-- A transaction of Orders on the server. -/
abbrev Tran := Session Int Db Write Key Fresh Stmt Res Err Reply Call

/-- The server of Orders with its transactions. -/
abbrev System := Server Int Db Write Key Fresh Stmt Res Err Reply Call

/-- A statement that a transaction has executed. -/
abbrev Query := Executed Int Db Write Key Fresh Stmt Res

/-- The server after the events, on a migrated database. -/
def serve (clock : Int) (events : List (Event Int Fresh Call)) : System :=
  run (Server.step engine program) ⟨State.init clock, []⟩ events

/-- An order that holds its ticket at the time `now` without having bought it. -/
def Order.Live (now : Int) (o : Order) : Prop := o.status.Open ∧ now < o.expiresAt

instance (now : Int) (o : Order) : Decidable (o.Live now) := inferInstanceAs (Decidable (_ ∧ _))

/-- What is live has not lapsed. -/
theorem Order.Live.not_lapsed {now : Int} {o : Order} (h : o.Live now) : ¬o.Lapsed now := by
  -- An order lapses in one of two ways: it is canceled, or its time is over.
  rintro (hcanceled | hexpired)
  · simp [Live, Status.Open, hcanceled] at h
  · exact absurd h.2 (not_lt.mpr hexpired)

/-- A live order blocks its ticket. -/
theorem Order.Live.blocks {now : Int} {o : Order} (h : o.Live now) : o.Blocks now o.ticketID :=
  ⟨rfl, Or.inr ⟨by simpa [Status.Open] using h.1, h.2⟩⟩

/-- An order that blocks a ticket without having bought it is live. -/
theorem Order.Blocks.live {now : Int} {ticketID : Uuid} {o : Order} (h : o.Blocks now ticketID)
    (hstatus : o.status ≠ .complete) : o.Live now := by
  obtain ⟨hopen, hlt⟩ := h.2.resolve_left hstatus
  exact ⟨by simpa [Status.Open] using hopen, hlt⟩

/-- The transaction will be rolled back with `ErrReserved`, or it was, or it failed. -/
def Refused (s : Tran) : Prop :=
  s.phase = .running (.fail .reserved) ∨ s.phase = .ended (.failed .reserved) ∨
    s.phase = .ended .aborted

/-- The transaction will return `r` with its commit, or it did, or it failed. -/
def Returns (s : Tran) (r : Reply) : Prop :=
  s.phase = .running (.done r) ∨ s.phase = .ended (.committed r) ∨ s.phase = .ended .aborted

/-- The statement is the blocking query of a reservation, and it returned `r`. -/
def BlockingQuery (input : TicketReservationInput) (x : Query) (r : Option Order) : Prop :=
  x.stmt = .selectBlockingOrder input.ticketID ∧
    blockingOrder x.context.now input.ticketID x.context.fresh.tie x.world.db.orders.rows = r

/-- What `ReserveTicket` does with an order that blocks the ticket. -/
def onExisting (input : TicketReservationInput) (existing : Order) : Tx Reply :=
  if existing.userID = input.userID ∧ existing.status ≠ .complete then
    .done (.reservation ⟨false, existing⟩)
  else .fail .reserved

/-- How far a reservation has come. -/
inductive Progress (input : TicketReservationInput) : List Query → Tx Reply → List Write → Prop
  /-- The blocking query has not run. -/
  | before {trace p ws} (hquery : ∀ x ∈ trace, ∀ id, x.stmt ≠ .selectBlockingOrder id)
      (hdone : ∀ r, p ≠ .done r) : Progress input trace p ws
  /-- It has found an order. -/
  | found {x y existing} (hx : ∀ id, x.stmt ≠ .selectBlockingOrder id)
      (hy : BlockingQuery input y (some existing)) :
      Progress input [x, y] (onExisting input existing) []
  /-- It has found nothing. -/
  | free {x y trace p ws} (hx : ∀ id, x.stmt ≠ .selectBlockingOrder id)
      (hy : BlockingQuery input y none)
      (hquery : ∀ x ∈ trace, ∀ id, x.stmt ≠ .selectBlockingOrder id)
      (hdone : ∀ found, p ≠ .done (.reservation ⟨false, found⟩)) :
      Progress input (x :: y :: trace) p ws

/-- The traces of `ReserveTicket`. -/
theorem progress_of_follows {input : TicketReservationInput} {trace : List Query} {p : Tx Reply}
    {ws : List Write} (h : Follows engine (program (.reserveTicket input)) [] trace p ws) :
    Progress input trace p ws := by
  -- The first statement locks the row of the ticket.
  rcases Follows.of_stmt h with ⟨rfl, rfl, rfl⟩ | ⟨w₁, c₁, r₁, vs₁, trace, rfl, hexec₁, h⟩
  · exact .before (by simp) (by simp)
  obtain ⟨hticket, rfl, -⟩ := exec_selectTicketForUpdate hexec₁
  rcases r₁ with - | ticket
  · -- There is no such ticket: the reservation fails before it asks for orders.
    obtain ⟨rfl, rfl, rfl⟩ := Follows.of_fail h
    exact .before (by simp) (by simp)
  have hid : ticket.id = input.ticketID := Table.key_of_find? hticket
  -- The second statement is the blocking query, for the ticket that was locked.
  rcases Follows.of_stmt h with ⟨rfl, rfl, rfl⟩ | ⟨w₂, c₂, r₂, vs₂, trace, rfl, hexec₂, h⟩
  · exact .before (by simp) (by simp)
  obtain ⟨hblocking, rfl⟩ := exec_selectBlockingOrder hexec₂
  rw [hid] at hblocking
  rcases r₂ with - | existing
  · -- Nothing blocks the ticket: an order is inserted, then its announcement, and the order is
    -- returned as created.
    refine .free (by simp) ⟨by simp [hid], hblocking⟩ ?_ ?_
    all_goals
      rcases Follows.of_stmt h with ⟨rfl, rfl, rfl⟩ | ⟨w₃, c₃, r₃, vs₃, trace, rfl, -, h⟩
      · simp
      rcases Follows.of_stmt h with ⟨rfl, rfl, rfl⟩ | ⟨w₄, c₄, r₄, vs₄, trace, rfl, -, h⟩
      · simp
      obtain ⟨rfl, rfl, rfl⟩ := Follows.of_done h
      simp
  · -- An order blocks the ticket: the program ends here, with a result or with `ErrReserved`.
    change Follows engine ((if existing.userID = input.userID ∧ existing.status ≠ .complete then
        pure { created := false, order := existing }
      else .fail .reserved : Tx ReservationResult).bind fun r => .done (Reply.reservation r))
      _ _ _ _ at h
    obtain ⟨rfl, rfl, rfl⟩ : trace = [] ∧ p = onExisting input existing ∧ ws = [] := by
      unfold onExisting
      split at h
      next hown =>
        rw [if_pos hown]
        exact Follows.of_done h
      next hown =>
        rw [if_neg hown]
        exact Follows.of_fail h
    exact .found (by simp) ⟨by simp [hid], hblocking⟩

section Serve

variable (clock : Int) (events : List (Event Int Fresh Call))

theorem faithful_serve {s : Tran} (hs : s ∈ (serve clock events).sessions) :
    s.Faithful engine program :=
  faithful_run _ events s hs

/-- The reservations are exclusive, now and when any of the statements ran. -/
theorem exclusive_serve :
    Exclusive (serve clock events).world.clock (serve clock events).world.db ∧
      ∀ s ∈ (serve clock events).sessions, ∀ x ∈ s.trace,
        Exclusive x.world.clock x.world.db :=
  Discipline.world_run allSafe (inv_init clock) (P := fun w => Exclusive w.clock w.db)
    (fun hexcl hle _ => hexcl.mono hle)
    (fun _ hexcl hguar => hexcl.change hguar.1 hguar.2) (exclusive_init clock) events

/-- The clock of a transaction is the time at which it began, and no statement runs before. -/
theorem seen_serve {s : Tran} (hs : s ∈ (serve clock events).sessions) {x : Query}
    (hx : x ∈ s.trace) : s.opened.clock ≤ x.world.clock ∧ x.context.now = s.opened.clock := by
  obtain ⟨i, hi⟩ := List.getElem?_of_mem hs
  have hsound := Discipline.sound_run allSafe (Discipline.sound_init (inv_init clock)) events
  exact (hsound.seen i s x hi hx).2

/-- At most one order of a ticket is live. -/
theorem live_unique {o o' : Order} (ho : o ∈ (serve clock events).world.db.orders.rows)
    (ho' : o' ∈ (serve clock events).world.db.orders.rows) (hticket : o.ticketID = o'.ticketID)
    (hlive : o.Live (serve clock events).world.clock)
    (hlive' : o'.Live (serve clock events).world.clock) : o = o' := by
  -- Of two orders for one ticket one has lapsed, and a live order has not.
  by_contra hne
  exact ((exclusive_serve clock events).1 o ho o' ho' hticket hne).elim hlive.not_lapsed
    hlive'.not_lapsed

variable {clock events} {s : Tran} {input : TicketReservationInput}

/-- A reservation that was not created is an order of the caller that the blocking query found
live. -/
theorem existing_of_committed (hs : s ∈ (serve clock events).sessions)
    (hcall : s.call = .reserveTicket input) {found : Order}
    (hend : s.phase = .ended (.committed (.reservation ⟨false, found⟩))) :
    ∃ x ∈ s.trace, x.stmt = .selectBlockingOrder input.ticketID ∧
      found ∈ x.world.db.orders.rows ∧ found.ticketID = input.ticketID ∧
      found.userID = input.userID ∧ found.Live s.opened.clock := by
  -- The program is at its end, so that the phase of the session gives its result.
  obtain ⟨p, ws, hfollows, hat⟩ := faithful_serve clock events hs
  have hp := hat.eq_done hend
  rw [hcall] at hfollows
  have hseen := fun x hx => (seen_serve clock events hs (x := x) hx).2
  -- Only the traces in which the blocking query found an order end with such a reservation.
  generalize s.trace = trace at hfollows hseen ⊢
  cases progress_of_follows hfollows with
  | before _ hdone => exact absurd hp (hdone _)
  | free _ _ _ hdone => exact absurd hp (hdone _)
  | @found x y existing hx hy =>
    have hown : existing.userID = input.userID ∧ existing.status ≠ .complete := by
      by_contra hnot
      simp [onExisting, hnot] at hp
    obtain rfl : existing = found := by simpa [onExisting, hown] using hp
    obtain ⟨hmem, hblocks, -⟩ := blockingOrder_some hy.2
    rw [hseen y (by simp)] at hblocks
    exact ⟨y, by simp, hy.1, hmem, hblocks.1, hown.1, hblocks.live hown.2⟩

/-- A caller whose blocking query sees the live order of another user changes nothing. He is
refused, unless the query returned a live order of his own that expires no earlier; by then the
other order has expired. -/
theorem refused_or_own (hs : s ∈ (serve clock events).sessions)
    (hcall : s.call = .reserveTicket input) {x : Query} (hx : x ∈ s.trace)
    (hquery : x.stmt = .selectBlockingOrder input.ticketID) {o : Order}
    (ho : o ∈ x.world.db.orders.rows) (hticket : o.ticketID = input.ticketID)
    (hother : o.userID ≠ input.userID) (hlive : o.Live s.opened.clock) :
    s.pending = [] ∧ (Refused s ∨ ∃ own ∈ x.world.db.orders.rows, own.ticketID = input.ticketID ∧
      own.userID = input.userID ∧ own.Live s.opened.clock ∧ o.expiresAt ≤ own.expiresAt ∧
      o.expiresAt ≤ x.world.clock ∧ Returns s (.reservation ⟨false, own⟩)) := by
  obtain ⟨p, ws, hfollows, hat⟩ := faithful_serve clock events hs
  rw [hcall] at hfollows
  have hseen := fun x hx => seen_serve clock events hs (x := x) hx
  have hexcl := (exclusive_serve clock events).2 s hs
  generalize s.trace = trace at hfollows hseen hexcl hx
  cases progress_of_follows hfollows with
  | before hnone => exact absurd hquery (hnone x hx _)
  | @free y z trace p ws hy hz hnone =>
    -- The query found nothing, though the live order of the other user blocks the ticket.
    rcases List.mem_cons.mp hx with rfl | hx
    · exact absurd hquery (hy _)
    rcases List.mem_cons.mp hx with rfl | hx
    · have hblocks := hlive.blocks
      rw [hticket, ← (hseen x (by simp)).2] at hblocks
      exact absurd hblocks (blockingOrder_eq_none_iff.mp hz.2 o ho)
    · exact absurd hquery (hnone x hx _)
  | @found y z existing hy hz =>
    refine ⟨hat.pending_eq_nil, ?_⟩
    obtain rfl : x = z := by
      rcases List.mem_cons.mp hx with rfl | hx
      · exact absurd hquery (hy _)
      · exact List.mem_singleton.mp hx
    have hnow := hseen x (by simp)
    -- The query found an order: either the caller's own, not sold yet, or one that refuses him.
    by_cases hown : existing.userID = input.userID ∧ existing.status ≠ .complete
    · right
      rw [onExisting, if_pos hown] at hat
      -- A sold order would come first, then the one that expires last. This one is not sold, so
      -- that the other order expires no later.
      obtain ⟨hmem, hblocks, hfirst⟩ := blockingOrder_some hz.2
      rw [hnow.2] at hblocks hfirst
      have hownlive := hblocks.live hown.2
      have hle := (hfirst o ho (hticket ▸ hlive.blocks)).expiresAt_le hown.2
      refine ⟨existing, hmem, hblocks.1, hown.1, hownlive, hle, ?_, hat.of_done⟩
      -- One of the two orders has lapsed by now, and the other one expires first.
      have hne : o ≠ existing := by
        rintro rfl
        exact hother hown.1
      rcases hexcl x (by simp) o ho existing hmem (hticket.trans hblocks.1.symm) hne with
        hlapsed | hlapsed
      · exact hlapsed.resolve_left fun hcanceled => by
          simp [Order.Live, Status.Open, hcanceled] at hlive
      · have hexpired := hlapsed.resolve_left fun hcanceled => by
          simp [Order.Live, Status.Open, hcanceled] at hownlive
        exact hle.trans hexpired
    · left
      rw [onExisting, if_neg hown] at hat
      exact hat.of_fail

/-- Nobody reserves a ticket that was sold before the transaction began. -/
theorem not_created_of_complete {i : ℕ}
    (hs : (serve clock events).sessions[i]? = some s)
    (hcall : s.call = .reserveTicket input) {created : Order}
    (hend : s.phase = .ended (.committed (.reservation ⟨true, created⟩))) :
    ∀ o ∈ s.opened.db.orders.rows, o.ticketID = input.ticketID → o.status ≠ .complete := by
  -- What a commit says about the state in which the transaction began does not change later.
  have hlasting : discipline.Lasting fun call opened r _ => ∀ input created,
      call = .reserveTicket input → r = .reservation ⟨true, created⟩ →
        ∀ o ∈ opened.db.orders.rows, o.ticketID = input.ticketID → o.status ≠ .complete := by
    refine ⟨?_, fun h _ _ => h, fun _ h _ => h⟩
    rintro call opened r held w db' - ⟨-, hchange⟩ input created hcall rfl
    cases hchange with
    | unchanged _ hfound => exact absurd (hfound _ rfl) (by simp)
    -- The step itself has checked that no order in the opening state is complete.
    | reserved hcall' _ _ _ _ hcomplete =>
      obtain rfl := Call.reserveTicket.inj (hcall.symm.trans hcall')
      exact hcomplete
    | canceled _ _ _ _ _ _ _ _ hfound => exact absurd rfl (hfound _)
  exact Discipline.committed_run allSafe (inv_init clock) hlasting events ⟨hs, hend⟩ input created
    hcall rfl

end Serve

/-- In every interleaving of the transactions of Orders: at most one order of a ticket is live; a
reservation that was not created is an order of the caller that was live when the blocking query
ran; a caller whose blocking query sees the live order of another user changes nothing and is
refused, unless the query returned a live order of his own that expires no earlier, the other
order having expired by then; and no transaction that begins after a ticket was sold creates an
order for it. -/
theorem reservations_exclusive (clock : Int) (events : List (Event Int Fresh Call)) :
    (∀ o ∈ (serve clock events).world.db.orders.rows,
      ∀ o' ∈ (serve clock events).world.db.orders.rows, o.ticketID = o'.ticketID →
        o.Live (serve clock events).world.clock → o'.Live (serve clock events).world.clock →
          o = o') ∧
    ∀ (i : ℕ) s input, (serve clock events).sessions[i]? = some s → s.call = .reserveTicket input →
      (∀ found, s.phase = .ended (.committed (.reservation ⟨false, found⟩)) →
        ∃ x ∈ s.trace, x.stmt = .selectBlockingOrder input.ticketID ∧
          found ∈ x.world.db.orders.rows ∧ found.ticketID = input.ticketID ∧
          found.userID = input.userID ∧ found.Live s.opened.clock) ∧
      (∀ x ∈ s.trace, x.stmt = .selectBlockingOrder input.ticketID →
        ∀ o ∈ x.world.db.orders.rows, o.ticketID = input.ticketID → o.userID ≠ input.userID →
          o.Live s.opened.clock →
            s.pending = [] ∧ (Refused s ∨ ∃ own ∈ x.world.db.orders.rows,
              own.ticketID = input.ticketID ∧ own.userID = input.userID ∧
              own.Live s.opened.clock ∧ o.expiresAt ≤ own.expiresAt ∧
              o.expiresAt ≤ x.world.clock ∧ Returns s (.reservation ⟨false, own⟩))) ∧
      (∀ created, s.phase = .ended (.committed (.reservation ⟨true, created⟩)) →
        ∀ o ∈ s.opened.db.orders.rows, o.ticketID = input.ticketID → o.status ≠ .complete) := by
  refine ⟨fun o ho o' ho' => live_unique clock events ho ho', ?_⟩
  intro i s input hs hcall
  have hmem := List.mem_of_getElem? hs
  refine ⟨?_, ?_, ?_⟩
  · intro found hend
    exact existing_of_committed hmem hcall hend
  · intro x hx hquery o ho hticket hother hlive
    exact refused_or_own hmem hcall hx hquery ho hticket hother hlive
  · intro created hend
    exact not_created_of_complete hs hcall hend

/-- Two requests of one user: the first one begins just before the order of another user expires,
the second one begins after that and reserves the ticket, and only then the first one runs. -/
def overtaken : List (Event Int Fresh Call) :=
  let at_ (id : ℕ) : Fresh := ⟨.ofNat 128 id, 0, 0⟩
  [.start (.upsertTicketFromEvent 1 ⟨0, 7, "seat", 100⟩),
    .statement 0 (at_ 10), .statement 0 (at_ 11), .statement 0 (at_ 12), .finish 0,
   .start (.reserveTicket ⟨minutes 15, 7, "alice"⟩),
    .statement 1 (at_ 20), .statement 1 (at_ 21), .statement 1 (at_ 22), .statement 1 (at_ 23),
    .finish 1,
   .tick (minutes 14), .start (.reserveTicket ⟨minutes 29, 7, "bob"⟩),
   .tick (minutes 15), .start (.reserveTicket ⟨minutes 30, 7, "bob"⟩),
    .statement 3 (at_ 30), .statement 3 (at_ 31), .statement 3 (at_ 32), .statement 3 (at_ 33),
    .finish 3,
   .statement 2 (at_ 40), .statement 2 (at_ 41), .finish 2]

/-- The first request returns the reservation of the second one, though it has seen the live order
of the other user. -/
theorem not_always_refused :
    ¬∀ clock events, ∀ (i : ℕ) s input, (serve clock events).sessions[i]? = some s →
      s.call = .reserveTicket input → ∀ x ∈ s.trace,
        x.stmt = .selectBlockingOrder input.ticketID →
          ∀ o ∈ x.world.db.orders.rows, o.ticketID = input.ticketID → o.userID ≠ input.userID →
            o.Live s.opened.clock → s.pending = [] ∧ Refused s := by
  intro h
  obtain ⟨s, hs, hcall, hphase, x, hx, hquery, ho, hlive⟩ :
      ∃ s, (serve 0 overtaken).sessions[2]? = some s ∧
        s.call = .reserveTicket ⟨minutes 29, 7, "bob"⟩ ∧
        s.phase = .ended (.committed
          (.reservation ⟨false, ⟨0, minutes 30, 32, .created, 7, "bob"⟩⟩)) ∧
        ∃ x, s.trace[1]? = some x ∧ x.stmt = .selectBlockingOrder 7 ∧
          (⟨0, minutes 15, 22, .created, 7, "alice"⟩ : Order) ∈ x.world.db.orders.rows ∧
          (⟨0, minutes 15, 22, .created, 7, "alice"⟩ : Order).Live s.opened.clock :=
    ⟨_, rfl, rfl, rfl, _, rfl, rfl, by decide +kernel, by decide +kernel⟩
  have hrefused := (h 0 overtaken 2 s _ hs hcall x (List.mem_of_getElem? hx) hquery _ ho rfl
    (by decide) hlive).2
  simp [Refused, hphase] at hrefused

end Orders
