import Mathlib.Data.Int.Order.Basic
import PolyglotTicketing.Tickets.Commit

/-!
# The transactions of Tickets under any interleaving

The programs of the repository keep `discipline`, whose guarantee is `Change`, in the way of
`Orders.Safety`. Every operation on an existing ticket locks its row before it looks at it.
-/

namespace Tickets

open Platform Contracts Relational Transaction

/-- A commit adds only rows to the outbox whose places in the sequence have been drawn. -/
theorem Change.sequence_lt {call : Call} {w : State} {held : List Key} {r : Reply}
    {db' : Db} (h : Change call held w r db')
    (hinv : ∀ e ∈ w.db.outboxEvents.rows, e.sequence < w.sequence) :
    ∀ e ∈ db'.outboxEvents.rows, e.sequence < w.sequence := by
  cases h with
  | duplicate => exact hinv
  | recorded => exact hinv
  | created _ _ _ _ happends => exact happends.rows_lt hinv
  | changed _ _ _ _ happends => exact happends.rows_lt hinv

/-- The discipline of Tickets: the places of all outbox rows in the sequence have been drawn, and
every commit is a `Change`. -/
def discipline : Discipline Int Db Key Reply Call where
  Inv w := ∀ e ∈ w.db.outboxEvents.rows, e.sequence < w.sequence
  Guar call _ r held w db' := Change call held w r db'
  Frame := Frame
  inv_elapse hinv _ hn := fun e he => (hinv e he).trans_le hn
  inv_commit hinv hguar := hguar.sequence_lt hinv
  frame hguar := hguar.frame

section Stable

variable {held : List Key} {id : Uuid}

theorem stable_ticket (hlock : .ticket id ∈ held) (x : Option Ticket) :
    discipline.Stable held fun db => db.tickets.find? id = x := by
  intro others db db' hdisj (hframe : Frame others db db') hfind
  rw [hframe.ticket id fun hmem => hdisj hmem hlock, hfind]

theorem stable_outbox (hlock : .outboxEvent id ∈ held) (x : Option (OutboxEvent TicketEvent)) :
    discipline.Stable held fun db => db.outboxEvents.find? id = x := by
  intro others db db' hdisj (hframe : Frame others db db') hfind
  rw [hframe.outbox id fun hmem => hdisj hmem hlock, hfind]

theorem stable_processed (e : Uuid) :
    discipline.Stable held fun db => e ∈ db.processedEvents :=
  fun _ _ _ _ (hframe : Frame _ _ _) he => hframe.processed e he

theorem stable_unprocessed {e : Uuid} (hlock : .processedEvent e ∈ held) :
    discipline.Stable held fun db => e ∉ db.processedEvents := by
  intro others db db' hdisj (hframe : Frame others db db') hnew hmem
  rcases hframe.processedNew e hmem with hmem | hother
  · exact hnew hmem
  · exact hdisj hother hlock

/-- While a ticket is locked, no outbox rows about it are added. -/
theorem stable_after {n : ℕ} (hlock : .ticket id ∈ held) :
    discipline.Stable held fun db => ∀ x ∈ db.outboxEvents.rows, x.payload.ticketID = id →
      x.sequence < n := by
  intro others db db' hdisj (hframe : Frame others db db') hafter x hx hid
  rcases hframe.outboxNew x hx with hx | hother
  · exact hafter x hx hid
  · exact absurd hlock (hdisj (hid ▸ hother))

end Stable

section Safe

variable {call : Call} {opened : State}

/-- A row that was inserted into the outbox, by a transaction that has locked the ticket it is
about, is still new and last when the transaction commits. -/
private theorem appends_of_insert {held : List Key} {w w' : State} {subject : String}
    {payload : Uuid → Int → TicketEvent} {context : Context Int Key Fresh} {id : Uuid}
    (hid : (payload context.fresh.id context.fresh.occurredAt).ticketID = id)
    (hlock : .ticket id ∈ held)
    (hinv : discipline.Inv w) (hseq : context.sequence = w.sequence)
    (hnew : w.db.outboxEvents.find? context.fresh.id = none)
    (hint : discipline.Interference (held ++ [.outboxEvent context.fresh.id])
      ⟨w.db, w.clock, w.sequence + 1⟩ w') :
    Appends (held ++ [.outboxEvent context.fresh.id]) w'
      (OutboxEvent.write subject payload context.sequence context.fresh) where
  new := (stable_outbox (by simp) none).interference hint hnew
  held := by simp
  sequence_lt := by
    have hle : w.sequence + 1 ≤ w'.sequence := hint.sequence_le
    rw [OutboxEvent.sequence_write]
    omega
  after := by
    have hlock' : .ticket id ∈ held ++ [Key.outboxEvent context.fresh.id] :=
      List.mem_append_left _ hlock
    -- Nobody else can have added a row about the locked ticket.
    have hafter := (stable_after hlock').interference hint fun x hx _ => hseq ▸ hinv x hx
    exact fun x hx hxid => hafter x hx (hxid.trans hid)

/-- The effect of recording the event of an operation and changing a ticket. -/
private theorem applyAll_change (eventID : Option Uuid) (t : Ticket) (db : Db) :
    engine.applyAll (eventID.toList.map .insertProcessedEvent ++ [.updateTicket t]) db =
      { db with
        tickets := db.tickets.replace t
        processedEvents := eventID.toList ++ db.processedEvents } := by
  cases eventID <;> rfl

/-- A transaction that has changed a ticket and is about to announce it is safe. -/
private theorem safe_announce {t t' : Ticket} {held : List Key} {w : State} {r : Reply}
    {k : Unit → Tx Reply} (hk : k () = .done r) (hnext : t.Next call r t')
    (hfind : w.db.tickets.find? t.id = some t) (hlock : .ticket t.id ∈ held)
    (hrecords : ∀ e ∈ call.eventID?, Records held w.db e) {ws : List Write}
    (hws : ws = call.eventID?.toList.map .insertProcessedEvent ++ [.updateTicket t']) :
    discipline.Safe engine call opened ((insertTicketUpdatedEvent t').bind k) held ws w := by
  intro w₁ c₁ r₁ ws₁ hint₁ hinv₁ hle₁ hnow₁ hseq₁ hexec₁
  obtain ⟨hfresh, rfl, hlocks₁⟩ := exec_insertOutboxEvent hexec₁
  rw [hlocks₁]
  change discipline.Safe engine call opened (k ()) _ _ _
  rw [hk]
  intro w₂ hint₂ hinv₂ hle₂
  -- The ticket and the event are locked, and stay as they are until the commit.
  have hfind₁ := (stable_ticket hlock (some t)).interference hint₁ hfind
  have hlock₂ : .ticket t.id ∈ held ++ [Key.outboxEvent c₁.fresh.id] :=
    List.mem_append_left _ hlock
  have hfind₂ := (stable_ticket hlock₂ (some t)).interference hint₂ hfind₁
  have hrecords₂ : ∀ e ∈ call.eventID?,
      Records (held ++ [Key.outboxEvent c₁.fresh.id]) w₂.db e := by
    intro e he
    obtain ⟨hnew, hheld⟩ := hrecords e he
    have hheld₂ : .processedEvent e ∈ held ++ [Key.outboxEvent c₁.fresh.id] :=
      List.mem_append_left _ hheld
    have hnew₁ := (stable_unprocessed hheld).interference hint₁ hnew
    exact ⟨(stable_unprocessed hheld₂).interference hint₂ hnew₁, hheld₂⟩
  subst hws
  rw [applyAll_change] at hfresh
  rw [Engine.applyAll_append, applyAll_change]
  refine .changed hnext hfind₂ hlock₂ hrecords₂ ?_
  exact @appends_of_insert _ _ _ _
    (fun eventID occurredAt => marshalTicketUpdated eventID occurredAt t') _ _ hnext.id hlock hinv₁
    hseq₁ hfresh hint₂

/-- Creating a ticket is safe. -/
theorem safe_create {input : CreateInput} :
    discipline.Safe engine (.create input) opened (program (.create input)) [] [] opened := by
  intro w₁ c₁ r₁ ws₁ hint₁ hinv₁ hle₁ hnow₁ hseq₁ hexec₁
  obtain ⟨rfl, hchecks, hnew, rfl, hlocks₁⟩ := exec_insertTicket hexec₁
  rw [hlocks₁]
  intro w₂ c₂ r₂ ws₂ hint₂ hinv₂ hle₂ hnow₂ hseq₂ hexec₂
  obtain ⟨hfresh, rfl, hlocks₂⟩ := exec_insertOutboxEvent hexec₂
  rw [hlocks₂]
  intro w₃ hint₃ hinv₃ hle₃
  have hnew₂ := (stable_ticket (by simp) none).interference hint₂ hnew
  have hnew₃ := (stable_ticket (by simp) none).interference hint₃ hnew₂
  have hlock : .ticket c₁.fresh.id ∈ [] ++ [Key.ticket c₁.fresh.id] := by simp
  have happends : Appends _ w₃
      (ticketCreatedEvent (input.ticket c₁.fresh.id) c₂.sequence c₂.fresh) :=
    appends_of_insert rfl hlock hinv₂ hseq₂ hfresh hint₃
  exact .created rfl hnew₃ (by simp) hchecks happends

/-- Changing a ticket is safe. -/
theorem safe_update {id : Uuid} {input : UpdateInput} :
    discipline.Safe engine (.update id input) opened (program (.update id input)) [] [] opened := by
  intro w₁ c₁ r₁ ws₁ hint₁ hinv₁ hle₁ hnow₁ hseq₁ hexec₁
  obtain ⟨rfl, rfl | ⟨t, rfl, hfind, huser, hlocks₁⟩⟩ := exec_selectReservedForUpdate hexec₁
  · trivial
  rw [hlocks₁]
  obtain rfl : t.id = id := Table.key_of_find? hfind
  change discipline.Safe engine _ _ ((if t.reservedByOrderID.isSome then .fail .reserved
    else _ : Tx Ticket).bind _) _ _ _
  -- The second look at the ticket, under its lock.
  split
  next => trivial
  next hfree =>
  intro w₂ c₂ r₂ ws₂ hint₂ hinv₂ hle₂ hnow₂ hseq₂ hexec₂
  have hfind₂ := (stable_ticket (by simp) (some t)).interference hint₂ hfind
  obtain ⟨rfl, rfl⟩ := exec_updateTicket hexec₂ hfind₂ huser
  have hnext : t.Next (.update t.id input) (.updated (t.edit input.title input.price))
      (t.edit input.title input.price) := .updated huser (by simpa using hfree)
  exact safe_announce rfl hnext hfind₂ (by simp) (by simp [Call.eventID?]) (by simp [Call.eventID?])

/-- Locking a ticket for an order is safe. -/
theorem safe_reserveTicketFromOrder {eventID orderID ticketID : Uuid} :
    discipline.Safe engine (.reserveTicketFromOrder eventID orderID ticketID) opened
      (program (.reserveTicketFromOrder eventID orderID ticketID)) [] [] opened := by
  intro w₁ c₁ r₁ ws₁ hint₁ hinv₁ hle₁ hnow₁ hseq₁ hexec₁
  rcases exec_insertProcessedEvent hexec₁ with
    ⟨hmem, rfl, rfl⟩ | ⟨hnew, rfl, rfl, hlocks₁⟩
  · -- The event has been processed before.
    intro w₂ hint₂ hinv₂ hle₂
    exact .duplicate rfl ((stable_processed eventID).interference hint₂ hmem)
  rw [hlocks₁]
  intro w₂ c₂ r₂ ws₂ hint₂ hinv₂ hle₂ hnow₂ hseq₂ hexec₂
  have hnew₂ := (stable_unprocessed (by simp)).interference hint₂ hnew
  obtain ⟨rfl, ⟨rfl, -⟩ | ⟨t, rfl, hfind, hlocks₂⟩⟩ := exec_selectReservationForUpdate hexec₂
  · trivial
  rw [hlocks₂]
  obtain rfl : t.id = ticketID := Table.key_of_find? hfind
  -- The ticket is locked by this order, by another one, or by none.
  cases hreserved : t.reservedByOrderID with
  | some reservedByOrderID =>
    change discipline.Safe engine _ _ ((if reservedByOrderID = orderID then pure ()
      else .fail .reserved : Tx Unit).bind _) _ _ _
    split
    next heq =>
      intro w₃ hint₃ hinv₃ hle₃
      have hnew₃ := (stable_unprocessed (by simp)).interference hint₃ hnew₂
      have hfind₃ := (stable_ticket (by simp) (some t)).interference hint₃ hfind
      exact .recorded rfl ⟨hnew₃, by simp⟩ hfind₃ (hreserved.trans (congrArg some heq))
    next => trivial
  | none =>
    intro w₃ c₃ r₃ ws₃ hint₃ hinv₃ hle₃ hnow₃ hseq₃ hexec₃
    have hnew₃ := (stable_unprocessed (by simp)).interference hint₃ hnew₂
    have hfind₃ := (stable_ticket (by simp) (some t)).interference hint₃ hfind
    obtain ⟨rfl, rfl⟩ := exec_reserveTicket hexec₃ hfind₃
    have hnext : t.Next (.reserveTicketFromOrder eventID orderID t.id) .applied
      (t.mark (some orderID)) := .reserved hreserved
    refine safe_announce rfl hnext hfind₃ (by simp) ?_ (by simp [Call.eventID?])
    rintro e ⟨⟩
    exact ⟨hnew₃, by simp⟩

/-- Releasing a ticket is safe. -/
theorem safe_unreserveTicketFromOrder {eventID orderID ticketID : Uuid} :
    discipline.Safe engine (.unreserveTicketFromOrder eventID orderID ticketID) opened
      (program (.unreserveTicketFromOrder eventID orderID ticketID)) [] [] opened := by
  intro w₁ c₁ r₁ ws₁ hint₁ hinv₁ hle₁ hnow₁ hseq₁ hexec₁
  rcases exec_insertProcessedEvent hexec₁ with
    ⟨hmem, rfl, rfl⟩ | ⟨hnew, rfl, rfl, hlocks₁⟩
  · -- The event has been processed before.
    intro w₂ hint₂ hinv₂ hle₂
    exact .duplicate rfl ((stable_processed eventID).interference hint₂ hmem)
  rw [hlocks₁]
  intro w₂ c₂ r₂ ws₂ hint₂ hinv₂ hle₂ hnow₂ hseq₂ hexec₂
  have hnew₂ := (stable_unprocessed (by simp)).interference hint₂ hnew
  obtain ⟨rfl, ⟨rfl, -⟩ | ⟨t, rfl, hfind, hlocks₂⟩⟩ := exec_selectReservationForUpdate hexec₂
  · trivial
  rw [hlocks₂]
  obtain rfl : t.id = ticketID := Table.key_of_find? hfind
  change discipline.Safe engine _ _ ((if t.reservedByOrderID ≠ some orderID then
    .fail .orderReservationPending else _ : Tx Unit).bind _) _ _ _
  -- Only the order that has locked the ticket releases it.
  split
  next => trivial
  next hreserved =>
  intro w₃ c₃ r₃ ws₃ hint₃ hinv₃ hle₃ hnow₃ hseq₃ hexec₃
  have hnew₃ := (stable_unprocessed (by simp)).interference hint₃ hnew₂
  have hfind₃ := (stable_ticket (by simp) (some t)).interference hint₃ hfind
  have howner : t.reservedByOrderID = some orderID := not_not.mp hreserved
  obtain ⟨rfl, rfl⟩ := exec_unreserveTicket hexec₃ hfind₃ howner
  have hnext : t.Next (.unreserveTicketFromOrder eventID orderID t.id) .applied (t.mark none) :=
    .unreserved howner
  refine safe_announce rfl hnext hfind₃ (by simp) ?_ (by simp [Call.eventID?])
  rintro e ⟨⟩
  exact ⟨hnew₃, by simp⟩

end Safe

/-- The programs of the repository keep the discipline. -/
theorem allSafe : discipline.AllSafe engine program := by
  intro call w _
  cases call with
  | create input => exact safe_create
  | update id input => exact safe_update
  | reserveTicketFromOrder eventID orderID ticketID => exact safe_reserveTicketFromOrder
  | unreserveTicketFromOrder eventID orderID ticketID => exact safe_unreserveTicketFromOrder

end Tickets
