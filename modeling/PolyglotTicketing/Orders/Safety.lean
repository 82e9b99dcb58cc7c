import Mathlib.Data.Int.Order.Basic
import PolyglotTicketing.Orders.Commit

/-!
# The transactions of Orders under any interleaving

`discipline` takes `Change` as the guarantee of every operation, and `allSafe` shows that the
programs of the repository keep it: what a transaction has read under a lock, or what no commit
can undo, still holds when it commits (`Discipline.Stable`). By `Transaction.Discipline.sound_run`
it holds in every interleaving, and by `Transaction.Discipline.guar_of_attempt` of a transaction
that runs alone.
-/

namespace Orders

open Platform Contracts Relational Transaction

/-- A commit adds only rows to the outbox whose places in the sequence have been drawn. -/
theorem Change.sequence_lt {call : Call} {opened w : State} {held : List Key} {r : Reply}
    {db' : Db} (h : Change call opened held w r db')
    (hinv : ∀ e ∈ w.db.outboxEvents.rows, e.sequence < w.sequence) :
    ∀ e ∈ db'.outboxEvents.rows, e.sequence < w.sequence := by
  cases h with
  | unchanged => exact hinv
  | recorded => exact hinv
  | projected => exact hinv
  | reserved _ _ _ _ _ _ _ happends => exact happends.rows_lt hinv
  | advanced => exact hinv
  | canceled _ _ _ _ _ _ _ happends => exact happends.rows_lt hinv

/-- The discipline of Orders: the places of all outbox rows in the sequence have been drawn, and
every commit is a `Change`. -/
def discipline : Discipline Int Db Key Reply Call where
  Inv w := ∀ e ∈ w.db.outboxEvents.rows, e.sequence < w.sequence
  Guar call opened r held w db' := opened.clock ≤ w.clock ∧ Change call opened held w r db'
  Frame := Frame
  inv_elapse hinv _ hn := fun e he => (hinv e he).trans_le hn
  inv_commit hinv hguar := hguar.2.sequence_lt hinv
  frame hguar := hguar.2.frame

section Stable

variable {held : List Key} {id : Uuid}

theorem stable_order (hlock : .order id ∈ held) (x : Option Order) :
    discipline.Stable held fun db => db.orders.find? id = x := by
  intro others db db' hdisj (hframe : Frame others db db') hfind
  rw [hframe.order id fun hmem => hdisj hmem hlock, hfind]

theorem stable_ticket (hlock : .ticket id ∈ held) (x : Option Ticket) :
    discipline.Stable held fun db => db.tickets.find? id = x := by
  intro others db db' hdisj (hframe : Frame others db db') hfind
  rw [hframe.ticket id fun hmem => hdisj hmem hlock, hfind]

theorem stable_outbox (hlock : .outboxEvent id ∈ held) (x : Option (OutboxEvent OrderEvent)) :
    discipline.Stable held fun db => db.outboxEvents.find? id = x := by
  intro others db db' hdisj (hframe : Frame others db db') hfind
  rw [hframe.outbox id fun hmem => hdisj hmem hlock, hfind]

theorem stable_processed (e : Uuid) : discipline.Stable held fun db => e ∈ db.processedEvents :=
  fun _ _ _ _ (hframe : Frame _ _ _) he => hframe.processed e he

theorem stable_unprocessed {e : Uuid} (hlock : .processedEvent e ∈ held) :
    discipline.Stable held fun db => e ∉ db.processedEvents := by
  intro others db db' hdisj (hframe : Frame others db db') hnew hmem
  rcases hframe.processedNew e hmem with hmem | hother
  · exact hnew hmem
  · exact hdisj hother hlock

/-- While an event is locked, no one else records it. -/
theorem stable_records {eventID : Option Uuid} (hlock : ∀ e ∈ eventID, .processedEvent e ∈ held) :
    discipline.Stable held fun db => ∀ e ∈ eventID, e ∉ db.processedEvents :=
  fun others db db' hdisj hframe hnew e he =>
    stable_unprocessed (hlock e he) others db db' hdisj hframe (hnew e he)

/-- An order that is past the states in which a move may change it stays so. -/
theorem stable_late {call : Call} {m : Move} (hmove : call.move? = some m) :
    discipline.Stable held fun db => ∃ o, db.orders.find? id = some o ∧ o.status ∉ m.sources := by
  rintro others db db' - (hframe : Frame others db db') ⟨o, hfind, hlate⟩
  obtain ⟨o', hfind', hevolves⟩ := hframe.evolves id o hfind
  exact ⟨o', hfind', hevolves.not_mem_sources hmove hlate⟩

/-- Orders are not deleted. -/
theorem stable_found : discipline.Stable held fun db => db.orders.find? id ≠ none := by
  rintro others db db' - (hframe : Frame others db db') hfound
  obtain ⟨o, hfind⟩ := Option.ne_none_iff_exists'.mp hfound
  obtain ⟨o', hfind', -⟩ := hframe.evolves id o hfind
  simp [hfind']

/-- Complete orders stay as they are. -/
theorem stable_complete {o : Order} (hstatus : o.status = .complete) :
    discipline.Stable held fun db => db.orders.find? id = some o := by
  rintro others db db' - (hframe : Frame others db db') hfind
  obtain ⟨o', hfind', hevolves⟩ := hframe.evolves id o hfind
  rw [hfind', hevolves.closed (by simp [Status.Open, hstatus])]

/-- While a ticket is locked, all of its orders stay canceled or expired. -/
theorem stable_expired {c : Int} (hlock : .ticket id ∈ held) :
    discipline.Stable held fun db => ∀ o ∈ db.orders.rows, o.ticketID = id →
      o.status = .canceled ∨ o.expiresAt ≤ c := by
  intro others db db' hdisj (hframe : Frame others db db') hexpired o' ho' hticket
  cases hfind : db.orders.find? o'.id with
  | none =>
    -- A new order of the ticket needs the lock on the ticket.
    have hother : .ticket id ∈ others :=
      hticket ▸ hframe.orderNew _ _ hfind (Table.find?_of_mem ho')
    exact absurd hlock (hdisj hother)
  | some o =>
    obtain ⟨o'', hfind'', hevolves⟩ := hframe.evolves _ o hfind
    obtain rfl : o' = o'' := Option.some.inj ((Table.find?_of_mem ho').symm.trans hfind'')
    have hold := hexpired o (Table.mem_of_find? hfind) (hevolves.ticketID ▸ hticket)
    rcases hold with hcanceled | hle
    · rw [hevolves.closed (by simp [Status.Open, hcanceled])]
      exact Or.inl hcanceled
    · exact Or.inr (hevolves.expiresAt ▸ hle)

/-- While an order is locked, no outbox rows about it are added. -/
theorem stable_after {n : ℕ} (hlock : .order id ∈ held) :
    discipline.Stable held fun db => ∀ x ∈ db.outboxEvents.rows, x.payload.orderID = id →
      x.sequence < n := by
  intro others db db' hdisj (hframe : Frame others db db') hafter x hx hid
  rcases hframe.outboxNew x hx with hx | hother
  · exact hafter x hx hid
  · exact absurd hlock (hdisj (hid ▸ hother))

end Stable

section Safe

variable {call : Call} {opened : State}

/-- A row that was inserted into the outbox, by a transaction that has locked the order it is
about, is still new and last when the transaction commits. -/
private theorem appends_of_insert {held : List Key} {w w' : State} {subject : String}
    {payload : Uuid → Int → OrderEvent} {context : Context Int Key Fresh} {id : Uuid}
    (hid : (payload context.fresh.id context.fresh.occurredAt).orderID = id)
    (hlock : .order id ∈ held)
    (hinv : discipline.Inv w) (hseq : context.sequence = w.sequence)
    (hnew : w.db.outboxEvents.find? context.fresh.id = none)
    (hint : discipline.Interference (held ++ [.outboxEvent context.fresh.id])
      ⟨w.db, w.clock, w.sequence + 1⟩ w') :
    Appends (held ++ [.outboxEvent context.fresh.id]) w'
      (OutboxEvent.write subject payload context.sequence context.fresh) where
  new := (stable_outbox (by simp) none).interference hint hnew
  held := by simp
  sequence_lt := by
    have hle : w.sequence + 1 ≤ w'.sequence := hint.sequence_le
    rw [OutboxEvent.sequence_write]
    omega
  after := by
    have hlock' : .order id ∈ held ++ [Key.outboxEvent context.fresh.id] :=
      List.mem_append_left _ hlock
    have hafter := (stable_after hlock').interference hint fun x hx _ => hseq ▸ hinv x hx
    exact fun x hx hxid => hafter x hx (hxid.trans hid)

/-- A transaction that has canceled an order and is about to announce it is safe. -/
private theorem safe_announce {m : Move} {o : Order} {held : List Key} {w : State} {r : Reply}
    {k : Unit → Tx Reply} (hk : k () = .done r) (hr : ∀ found, r ≠ .reservation found)
    (hmove : call.move? = some m) (htarget : m.target = .canceled)
    (hlock : .order m.orderID ∈ held) (hfind : w.db.orders.find? m.orderID = some o)
    (huser : ∀ user ∈ m.userID, o.userID = user) (hsource : o.status ∈ m.sources)
    (hheld : ∀ e ∈ m.eventID, .processedEvent e ∈ held)
    (hnew : ∀ e ∈ m.eventID, e ∉ w.db.processedEvents) :
    discipline.Safe engine call opened
      ((insertOrderCanceledEvent (o.withStatus .canceled)).bind k) held
      (m.eventID.toList.map .insertProcessedEvent ++ [.updateOrder (o.withStatus .canceled)])
      w := by
  intro w₁ c₁ r₁ ws₁ hint₁ hinv₁ hle₁ hnow₁ hseq₁ hexec₁
  -- What the transaction has written: the event, if it handles one, and the canceled order.
  have hview : ∀ db, engine.applyAll
      (m.eventID.toList.map .insertProcessedEvent ++ [.updateOrder (o.withStatus .canceled)]) db =
        { db with
          processedEvents := m.eventID.toList ++ db.processedEvents
          orders := db.orders.replace (o.withStatus .canceled) } := by
    intro db
    cases m.eventID <;> rfl
  rw [hview] at hexec₁ ⊢
  obtain ⟨hfresh, rfl, hlocks₁⟩ := exec_insertOutboxEvent hexec₁
  rw [hlocks₁]
  change discipline.Safe engine call opened (k ()) _ _ _
  rw [hk]
  intro w₂ hint₂ hinv₂ hle₂
  -- The order and the event are locked, so that they are as before when it commits.
  have hfind₁ := (stable_order hlock (some o)).interference hint₁ hfind
  have hfind₂ := (stable_order (List.mem_append_left _ hlock) (some o)).interference hint₂ hfind₁
  have hnew₁ := (stable_records hheld).interference hint₁ hnew
  have hheld₂ : ∀ e ∈ m.eventID, .processedEvent e ∈ held ++ [Key.outboxEvent c₁.fresh.id] :=
    fun e he => List.mem_append_left _ (hheld e he)
  have hnew₂ := (stable_records hheld₂).interference hint₂ hnew₁
  rw [Engine.applyAll_append, hview]
  refine ⟨hle₂, .canceled hmove hfind₂ (List.mem_append_left _ hlock) huser hsource
    (fun e he => ⟨hnew₂ e he, hheld₂ e he⟩) htarget ?_ hr⟩
  exact appends_of_insert (Table.key_of_find? hfind) hlock hinv₁ hseq₁ hfresh hint₂

/-- The transactions that apply an event to an order are safe. -/
theorem safe_applyOrderEvent {sources : List Status} {target : Status} {announces : Bool}
    {eventID orderID : Uuid}
    (hmove : call.move? = some ⟨orderID, none, sources, target, some eventID⟩)
    (hevent : call.eventID? = some eventID)
    (hannounces : announces = true ↔ target = .canceled) :
    discipline.Safe engine call opened
      ((applyOrderEvent sources target announces eventID orderID).bind fun _ => .done .applied)
      [] [] opened := by
  intro w₁ c₁ r₁ ws₁ hint₁ hinv₁ hle₁ hnow₁ hseq₁ hexec₁
  rcases exec_insertProcessedEvent hexec₁ with
    ⟨hmem, rfl, rfl⟩ | ⟨hnew, rfl, rfl, hlocks₁⟩
  · intro w₂ hint₂ hinv₂ hle₂
    refine ⟨hle₂, .unchanged (Or.inl ⟨eventID, hevent, ?_⟩) (by simp)⟩
    exact (stable_processed eventID).interference hint₂ hmem
  rw [hlocks₁]
  intro w₂ c₂ r₂ ws₂ hint₂ hinv₂ hle₂ hnow₂ hseq₂ hexec₂
  have hnew₂ := (stable_unprocessed (by simp)).interference hint₂ hnew
  rcases exec_updateOrderStatus hexec₂ with
    ⟨hnone, rfl, rfl, hlocks₂⟩ | ⟨o, hsome, rfl, rfl, hlocks₂⟩
  · -- Nothing to update: the order is unknown, or past the states it may change in.
    intro w₃ hint₃ hinv₃ hle₃
    rw [hlocks₂] at hint₃ ⊢
    have hnew₃ := (stable_unprocessed (by simp)).interference hint₃ hnew₂
    refine ⟨hle₃, .recorded hevent (by simpa [Records] using hnew₃) ⟨?_, ?_⟩⟩
    · intro m hm
      obtain rfl := Option.some.inj (hmove.symm.trans hm)
      by_cases hfind₂ : ∃ o, w₂.db.orders.find? orderID = some o
      · obtain ⟨o, hfind⟩ := hfind₂
        have hlate : o.status ∉ sources := updatableOrder_eq_none_iff.mp hnone o hfind (by simp)
        exact Or.inr ((stable_late hmove).interference hint₃ ⟨o, hfind, hlate⟩)
      · left
        by_contra hfound
        have hfound₁ := stable_found.interference hint₁ hfound
        have hfound₂ := stable_found.interference hint₂ hfound₁
        exact hfind₂ (Option.ne_none_iff_exists'.mp hfound₂)
    · rintro e t rfl
      simp [Call.move?] at hmove
  · obtain ⟨hfind, -, hsource⟩ := updatableOrder_eq_some_iff.mp hsome
    rw [hlocks₂]
    -- The row of the order is locked. With an announcement there is another statement.
    cases announces with
    | false =>
      intro w₃ hint₃ hinv₃ hle₃
      have hfind₃ := (stable_order (by simp) (some o)).interference hint₃ hfind
      have hnew₃ := (stable_unprocessed (by simp)).interference hint₃ hnew₂
      refine ⟨hle₃, .advanced hmove hfind₃ (by simp) (by simp) hsource ?_ ?_⟩
      · simpa [Records] using hnew₃
      · simpa using hannounces
    | true =>
      obtain rfl : target = .canceled := hannounces.mp rfl
      exact safe_announce (k := fun _ => .done .applied) rfl (by simp) hmove rfl (by simp) hfind
        (by simp) hsource (by simp) (by simpa using hnew₂)

/-- Canceling an order on behalf of its user is safe. -/
theorem safe_cancelByIDAndUser {orderID : Uuid} {userID : String} :
    discipline.Safe engine (.cancelByIDAndUser orderID userID) opened
      (program (.cancelByIDAndUser orderID userID)) [] [] opened := by
  intro w₁ c₁ r₁ ws₁ hint₁ hinv₁ hle₁ hnow₁ hseq₁ hexec₁
  -- The order cannot be canceled, or it is canceled and locked.
  rcases exec_updateOrderStatus hexec₁ with
    ⟨-, rfl, rfl, hlocks₁⟩ | ⟨o, hsome, rfl, rfl, hlocks₁⟩
  · intro w₂ c₂ r₂ ws₂ hint₂ hinv₂ hle₂ hnow₂ hseq₂ hexec₂
    obtain ⟨hfound, rfl⟩ := exec_selectOrder hexec₂
    rcases r₂ with - | found
    · trivial
    change discipline.Safe engine _ _
      ((if found.status = .canceled then pure found else .fail .orderNotCancelable : Tx Order).bind
        fun o => .done (.order o)) _ _ _
    split
    next hstatus =>
      intro w₃ hint₃ hinv₃ hle₃
      refine ⟨hle₃, .unchanged (Or.inr ⟨rfl, ?_, by simp⟩) (by simp)⟩
      intro m hm
      have hlate : found.status ∉ m.sources := fun hmem => by
        simpa [hstatus, Status.Open] using (Call.move?_spec hm).1 _ hmem
      obtain rfl : _ = m := Option.some.inj hm
      exact Or.inr ((stable_late hm).interference hint₃ ⟨found, (hfound found rfl).1, hlate⟩)
    next => trivial
  · obtain ⟨hfind, huser, hsource⟩ := updatableOrder_eq_some_iff.mp hsome
    rw [hlocks₁]
    exact safe_announce (m := ⟨orderID, some userID, [.created, .awaitingPayment], .canceled, none⟩)
      (k := fun _ => .done (.order (o.withStatus .canceled))) rfl (by simp) rfl rfl (by simp) hfind
      huser hsource (by simp) (by simp)

/-- If no order blocks a ticket, all of its orders are canceled or expired. -/
private theorem expired_of_not_blocking {now : Int} {ticketID : Uuid} {tie : ℕ}
    {orders : List Order} (h : blockingOrder now ticketID tie orders = none) :
    ∀ o ∈ orders, o.ticketID = ticketID → o.status = .canceled ∨ o.expiresAt ≤ now := by
  intro o ho hticket
  by_contra hlive
  refine blockingOrder_eq_none_iff.mp h o ho ⟨hticket, ?_⟩
  cases hstatus : o.status <;> simp_all

/-- Reserving a ticket is safe. -/
theorem safe_reserveTicket {input : TicketReservationInput} :
    discipline.Safe engine (.reserveTicket input) opened (program (.reserveTicket input)) [] []
      opened := by
  intro w₁ c₁ r₁ ws₁ hint₁ hinv₁ hle₁ hnow₁ hseq₁ hexec₁
  obtain ⟨hticket, rfl, hlocks₁⟩ := exec_selectTicketForUpdate hexec₁
  rcases r₁ with - | ticket
  · trivial
  rw [hlocks₁]
  have hid : ticket.id = input.ticketID := Table.key_of_find? hticket
  intro w₂ c₂ r₂ ws₂ hint₂ hinv₂ hle₂ hnow₂ hseq₂ hexec₂
  obtain ⟨hblocking, rfl⟩ := exec_selectBlockingOrder hexec₂
  rcases r₂ with - | existing
  · rw [hid, hnow₂] at hblocking
    have hexpired := expired_of_not_blocking hblocking
    -- A complete order would have blocked the ticket, as it stays complete.
    have hcomplete : ∀ o ∈ opened.db.orders.rows, o.ticketID = input.ticketID →
        o.status ≠ .complete := by
      intro o ho hoticket hstatus
      have ho₁ := (stable_complete hstatus).interference hint₁ (Table.find?_of_mem ho)
      have ho₂ := (stable_complete hstatus).interference hint₂ ho₁
      exact blockingOrder_eq_none_iff.mp hblocking o (Table.mem_of_find? ho₂)
        ⟨hoticket, Or.inl hstatus⟩
    have hticket₂ := (stable_ticket (by simp) (some ticket)).interference hint₂ hticket
    have hstable : ∀ held, .ticket input.ticketID ∈ held → discipline.Stable held fun db =>
        db.tickets.find? input.ticketID = some ticket ∧
          ∀ o ∈ db.orders.rows, o.ticketID = input.ticketID →
            o.status = .canceled ∨ o.expiresAt ≤ opened.clock :=
      fun held hlock => (stable_ticket hlock _).and (stable_expired hlock)
    intro w₃ c₃ r₃ ws₃ hint₃ hinv₃ hle₃ hnow₃ hseq₃ hexec₃
    obtain ⟨hr₃, hnew₃, rfl, hlocks₃⟩ := exec_insertOrder hexec₃
    obtain rfl : r₃ = newOrder input c₃.fresh.id := hr₃
    rw [hlocks₃]
    intro w₄ c₄ r₄ ws₄ hint₄ hinv₄ hle₄ hnow₄ hseq₄ hexec₄
    obtain ⟨hfresh₄, rfl, hlocks₄⟩ := exec_insertOutboxEvent hexec₄
    rw [hlocks₄]
    intro w₅ hint₅ hinv₅ hle₅
    -- The lock on the ticket keeps other orders away until the commit.
    have hfacts₃ := (hstable _ (by simp)).interference hint₃ ⟨hticket₂, hexpired⟩
    have hfacts₄ := (hstable _ (by simp)).interference hint₄ hfacts₃
    have hfacts₅ := (hstable _ (by simp)).interference hint₅ hfacts₄
    have hnew₄ := (stable_order (by simp) none).interference hint₄ hnew₃
    have hnew₅ := (stable_order (by simp) none).interference hint₅ hnew₄
    refine ⟨hle₅, .reserved rfl hfacts₅.1 (by simp) hnew₅ (by simp) hcomplete hfacts₅.2 ?_⟩
    refine appends_of_insert rfl ?_ hinv₄ hseq₄ hfresh₄ hint₅
    simp [marshalOrderCreated, OrderEvent.orderID, newOrder]
  · change discipline.Safe engine _ _
      ((if existing.userID = input.userID ∧ existing.status ≠ .complete then
          pure { created := false, order := existing }
        else .fail .reserved : Tx ReservationResult).bind fun r => .done (.reservation r)) _ _ _
    split
    next =>
      intro w₃ hint₃ hinv₃ hle₃
      exact ⟨hle₃, .unchanged (Or.inr ⟨rfl, by simp [Call.move?], by simp⟩) (by simp)⟩
    next => trivial

/-- Storing a ticket snapshot is safe. -/
theorem safe_upsertTicketFromEvent {eventID : Uuid} {ticket : Ticket} :
    discipline.Safe engine (.upsertTicketFromEvent eventID ticket) opened
      (program (.upsertTicketFromEvent eventID ticket)) [] [] opened := by
  intro w₁ c₁ r₁ ws₁ hint₁ hinv₁ hle₁ hnow₁ hseq₁ hexec₁
  rcases exec_insertProcessedEvent hexec₁ with
    ⟨hmem, rfl, rfl⟩ | ⟨hnew, rfl, rfl, hlocks₁⟩
  · intro w₂ hint₂ hinv₂ hle₂
    refine ⟨hle₂, .unchanged (Or.inl ⟨eventID, rfl, ?_⟩) (by simp)⟩
    exact (stable_processed eventID).interference hint₂ hmem
  rw [hlocks₁]
  intro w₂ c₂ stored ws₂ hint₂ hinv₂ hle₂ hnow₂ hseq₂ hexec₂
  have hnew₂ := (stable_unprocessed (by simp)).interference hint₂ hnew
  obtain ⟨hstored, rfl, hlocks₂⟩ := exec_selectTicketForUpdate hexec₂
  rw [hlocks₂]
  change discipline.Safe engine _ _ (((Program.ofExcept (decideTicketEventVersion
    (Option.isSome stored) (Option.elim stored 0 Ticket.aggregateVersion)
    ticket.aggregateVersion)).bind _).bind _) _ _ _
  rcases hdecide : decideTicketEventVersion (Option.isSome stored)
    (Option.elim stored 0 Ticket.aggregateVersion) ticket.aggregateVersion with e | d
  · trivial
  -- A version gap has failed the transaction; else the snapshot is stale or the next one.
  cases d with
  | ignore =>
    obtain ⟨t, rfl, hstale⟩ := decideTicketEventVersion_ignore_iff.mp hdecide
    intro w₃ hint₃ hinv₃ hle₃
    have hnew₃ := (stable_unprocessed (by simp)).interference hint₃ hnew₂
    have hstored₃ := (stable_ticket (by simp) (some t)).interference hint₃ hstored
    refine ⟨hle₃, .recorded rfl (by simpa [Records] using hnew₃) ⟨by simp [Call.move?], ?_⟩⟩
    rintro e t' hcall
    obtain ⟨rfl, rfl⟩ := Call.upsertTicketFromEvent.inj hcall
    exact ⟨t, hstored₃, hstale⟩
  | apply =>
    have hversion := decideTicketEventVersion_apply_iff.mp hdecide
    -- The ticket is new, or its row is locked by the `SELECT`.
    rcases stored with - | t
    · intro w₃ c₃ r₃ ws₃ hint₃ hinv₃ hle₃ hnow₃ hseq₃ hexec₃
      obtain ⟨hchecks, hnone, rfl, hlocks₃⟩ := exec_insertTicket hexec₃
      rw [hlocks₃]
      intro w₄ hint₄ hinv₄ hle₄
      have hnew₃ := (stable_unprocessed (by simp)).interference hint₃ hnew₂
      have hnew₄ := (stable_unprocessed (by simp)).interference hint₄ hnew₃
      have hnone₄ := (stable_ticket (by simp) none).interference hint₄ hnone
      refine ⟨hle₄, ?_⟩
      change Change _ _ _ _ _ { w₄.db with
        processedEvents := eventID :: w₄.db.processedEvents
        tickets := w₄.db.tickets.insert ticket }
      rw [← Table.upsert_of_none hnone₄]
      exact .projected rfl (by simpa [Records] using hnew₄) (by simp) hchecks
        (by simpa [hnone₄] using hversion)
    · intro w₃ c₃ r₃ ws₃ hint₃ hinv₃ hle₃ hnow₃ hseq₃ hexec₃
      obtain ⟨hchecks, rfl⟩ := exec_updateTicket hexec₃
      intro w₄ hint₄ hinv₄ hle₄
      have hnew₃ := (stable_unprocessed (by simp)).interference hint₃ hnew₂
      have hnew₄ := (stable_unprocessed (by simp)).interference hint₄ hnew₃
      have hstored₃ := (stable_ticket (by simp) (some t)).interference hint₃ hstored
      have hstored₄ := (stable_ticket (by simp) (some t)).interference hint₄ hstored₃
      refine ⟨hle₄, ?_⟩
      change Change _ _ _ _ _ { w₄.db with
        processedEvents := eventID :: w₄.db.processedEvents
        tickets := w₄.db.tickets.replace ticket }
      rw [← Table.upsert_of_some hstored₄]
      have hchecks : ticket.Checks := by
        refine hchecks.resolve_right fun hnone => ?_
        exact absurd (hstored₃.symm.trans hnone) (by simp)
      exact .projected rfl (by simpa [Records] using hnew₄) (by simp) hchecks
        (by simpa [hstored₄] using hversion)

end Safe

/-- The programs of the repository keep the discipline. -/
theorem allSafe : discipline.AllSafe engine program := by
  intro call w _
  cases call with
  | reserveTicket input => exact safe_reserveTicket
  | cancelByIDAndUser orderID userID => exact safe_cancelByIDAndUser
  | applyExpirationComplete eventID orderID => exact safe_applyOrderEvent rfl rfl (by simp)
  | applyPaymentCreated eventID orderID => exact safe_applyOrderEvent rfl rfl (by simp)
  | applyPaymentSucceeded eventID orderID => exact safe_applyOrderEvent rfl rfl (by simp)
  | applyPaymentFailed eventID orderID => exact safe_applyOrderEvent rfl rfl (by simp)
  | upsertTicketFromEvent eventID ticket => exact safe_upsertTicketFromEvent

end Orders
