import PolyglotTicketing.Orders.Serial

/-!
# The ticket projection of Orders

Tickets publishes a snapshot of a ticket for each of its versions, one event a version
(`TicketHistory`). The events reach `UpsertTicketFromEvent` in any order, any number of times, and
any delivery can fail and be repeated. `projection_converges` says what becomes of the projected
row: it is always one of the snapshots, its version never goes back, and once every event has been
handled it is the last one.
-/

namespace Orders

open Platform Contracts Relational Transaction Transition

/-- The snapshots of one ticket, in the order of their versions, with the events that carry
them. -/
structure TicketHistory where
  /-- The ticket. -/
  ticketID : Uuid
  /-- The events with their snapshots. -/
  events : List (Uuid × Ticket)
  /-- The first version is always there. -/
  nonempty : events ≠ []
  /-- Every snapshot has an event of its own. -/
  nodup : (events.map Prod.fst).Nodup
  /-- All snapshots are of the ticket. -/
  id : ∀ e ∈ events, e.2.id = ticketID
  /-- The versions count from 0. -/
  version : ∀ (v : ℕ) e, events[v]? = some e → e.2.aggregateVersion = v

namespace TicketHistory

variable (h : TicketHistory)

/-- The snapshot of the last version. -/
def last : Ticket := (h.events.getLast h.nonempty).2

/-- The call that delivers an event. -/
def deliver (e : Uuid × Ticket) : Call := .upsertTicketFromEvent e.1 e.2

/-- Operations that are not about the ticket and do not take its events for their own. -/
def Unrelated (call : Call) : Prop :=
  (∀ eventID t, call = .upsertTicketFromEvent eventID t → t.id ≠ h.ticketID) ∧
    ∀ e ∈ h.events, call.eventID? ≠ some e.1

/-- What may happen besides the deliveries of the events. -/
def Allows (call : Call) : Prop := (∃ e ∈ h.events, call = deliver e) ∨ h.Unrelated call

variable {h}

/-- The version of a snapshot is its place in the history. -/
theorem getElem?_version {e : Uuid × Ticket} (he : e ∈ h.events) :
    ∃ v : ℕ, h.events[v]? = some e ∧ e.2.aggregateVersion = v := by
  obtain ⟨v, hv⟩ := List.getElem?_of_mem he
  exact ⟨v, hv, h.version v e hv⟩

/-- The version determines the event. -/
theorem eq_of_version {e e' : Uuid × Ticket} (he : e ∈ h.events) (he' : e' ∈ h.events)
    (hversion : e.2.aggregateVersion = e'.2.aggregateVersion) : e = e' := by
  obtain ⟨v, hv, hev⟩ := getElem?_version he
  obtain ⟨v', hv', hev'⟩ := getElem?_version he'
  obtain rfl : v = v' := by omega
  exact Option.some.inj (hv.symm.trans hv')

theorem last_mem : h.events.getLast h.nonempty ∈ h.events := List.getLast_mem h.nonempty

/-- No snapshot is newer than the last one. -/
theorem version_le_last {e : Uuid × Ticket} (he : e ∈ h.events) :
    e.2.aggregateVersion ≤ h.last.aggregateVersion := by
  obtain ⟨v, hv, hev⟩ := getElem?_version he
  have hlt : v < h.events.length := (List.getElem?_eq_some_iff.mp hv).1
  have hlast : h.events[h.events.length - 1]? = some (h.events.getLast h.nonempty) := by
    rw [List.getLast_eq_getElem]
    exact List.getElem?_eq_getElem _
  have hle := h.version _ _ hlast
  rw [last, hev, hle]
  omega

variable (h)

/-- The state of the projection: the row is one of the snapshots, and no event is processed
before the row has its version. -/
structure Projected (db : Db) : Prop where
  row : ∀ t, db.tickets.find? h.ticketID = some t → ∃ e ∈ h.events, e.2 = t
  processed : ∀ e ∈ h.events, e.1 ∈ db.processedEvents →
    ∃ t, db.tickets.find? h.ticketID = some t ∧ e.2.aggregateVersion ≤ t.aggregateVersion

/-- The version in `db'` is not older than the one in `db`. -/
def Ahead (db db' : Db) : Prop :=
  ∀ t, db.tickets.find? h.ticketID = some t →
    ∃ t', db'.tickets.find? h.ticketID = some t' ∧ t.aggregateVersion ≤ t'.aggregateVersion

variable {h}

theorem Ahead.refl (db : Db) : h.Ahead db db := fun t ht => ⟨t, ht, Int.le_refl _⟩

theorem Ahead.trans {db₁ db₂ db₃ : Db} (h₁ : h.Ahead db₁ db₂) (h₂ : h.Ahead db₂ db₃) :
    h.Ahead db₁ db₃ := by
  intro t ht
  obtain ⟨t', ht', hle⟩ := h₁ t ht
  obtain ⟨t'', ht'', hle'⟩ := h₂ t' ht'
  exact ⟨t'', ht'', hle.trans hle'⟩

theorem projected_init : h.Projected Db.init := by
  constructor <;> simp [Db.init]

section Change

variable {call : Call} {opened w : State} {held : List Key} {r : Reply} {db' : Db}

/-- A commit that leaves the tickets alone and processes no event of the history. -/
private theorem Projected.of_unrelated (hproj : h.Projected w.db)
    (htickets : db'.tickets.find? h.ticketID = w.db.tickets.find? h.ticketID)
    (hevents : ∀ e ∈ h.events, e.1 ∈ db'.processedEvents → e.1 ∈ w.db.processedEvents) :
    h.Projected db' ∧ h.Ahead w.db db' := by
  refine ⟨⟨?_, ?_⟩, ?_⟩
  · intro t ht
    exact hproj.row t (htickets ▸ ht)
  · intro e he hmem
    rw [htickets]
    exact hproj.processed e he (hevents e he hmem)
  · intro t ht
    exact ⟨t, htickets ▸ ht, Int.le_refl _⟩

/-- The events of the history are delivered with their snapshots only. -/
theorem Allows.eq_of_eventID {e : Uuid × Ticket} (hallows : h.Allows call) (he : e ∈ h.events)
    (hevent : call.eventID? = some e.1) : call = deliver e := by
  rcases hallows with ⟨e', he', rfl⟩ | hunrelated
  · have hid : e'.1 = e.1 := Option.some.inj hevent
    rw [List.inj_on_of_nodup_map h.nodup he' he hid]
  · exact absurd hevent (hunrelated.2 e he)

/-- A move of an order processes no event of the history. -/
private theorem not_mem_of_move {m : Move} (hallows : h.Allows call)
    (hmove : call.move? = some m) {e : Uuid × Ticket} (he : e ∈ h.events)
    (hmem : e.1 ∈ m.eventID.toList ++ w.db.processedEvents) :
    e.1 ∈ w.db.processedEvents := by
  rcases List.mem_append.mp hmem with hmem | hmem
  · have hevent : call.eventID? = some e.1 :=
      (Call.eventID?_of_move hmove).trans (by simpa using hmem)
    rw [hallows.eq_of_eventID he hevent] at hmove
    simp [deliver, Call.move?] at hmove
  · exact hmem

/-- Commits keep the projection in step with the history. -/
theorem Projected.change (hproj : h.Projected w.db) (hallows : h.Allows call)
    (hchange : Change call opened held w r db') : h.Projected db' ∧ h.Ahead w.db db' := by
  cases hchange with
  | unchanged => exact ⟨hproj, .refl _⟩
  | @recorded x hevent hrecords hlate =>
    refine ⟨⟨hproj.row, ?_⟩, .refl _⟩
    intro e he hmem
    rcases List.mem_cons.mp hmem with hx | hmem
    · -- A snapshot that is recorded and not stored is not newer than the row.
      have hcall := hallows.eq_of_eventID he (hx ▸ hevent)
      simpa [h.id e he] using hlate.ticket e.1 e.2 hcall
    · exact hproj.processed e he hmem
  | @projected x t hcall hrecords hlock hchecks hversion =>
    rcases hallows with ⟨e, he, hdeliver⟩ | hunrelated
    · obtain ⟨rfl, rfl⟩ := Call.upsertTicketFromEvent.inj (hcall.symm.trans hdeliver)
      have hrow : (w.db.tickets.upsert e.2).find? h.ticketID = some e.2 := by
        rw [Table.find?_upsert, key_ticket, h.id e he, if_pos rfl]
      -- A snapshot is stored only over the one before it.
      have hnext : ∀ t, w.db.tickets.find? h.ticketID = some t →
          e.2.aggregateVersion = t.aggregateVersion + 1 := by
        intro t ht
        rw [hversion, h.id e he, ht]
        rfl
      refine ⟨⟨?_, ?_⟩, ?_⟩
      · intro t ht
        exact ⟨e, he, Option.some.inj (hrow.symm.trans ht)⟩
      · intro e' he' hmem
        refine ⟨e.2, hrow, ?_⟩
        rcases List.mem_cons.mp hmem with hid | hmem
        · rw [List.inj_on_of_nodup_map h.nodup he' he hid]
        · obtain ⟨t, ht, hle⟩ := hproj.processed e' he' hmem
          -- The row has gone on by one version, so that it has the version of every processed
          -- event.
          have hstep := hnext t ht
          omega
      · intro t ht
        have hstep := hnext t ht
        exact ⟨e.2, hrow, by omega⟩
    · refine hproj.of_unrelated ?_ ?_
      · rw [Table.find?_upsert, key_ticket, if_neg (hunrelated.1 x t hcall).symm]
      · intro e he hmem
        rcases List.mem_cons.mp hmem with rfl | hmem
        · exact absurd (by rw [hcall]; rfl) (hunrelated.2 e he)
        · exact hmem
  | reserved => exact hproj.of_unrelated rfl fun e he hmem => hmem
  | advanced hmove =>
    exact hproj.of_unrelated rfl fun e he hmem => not_mem_of_move hallows hmove he hmem
  | canceled hmove =>
    exact hproj.of_unrelated rfl fun e he hmem => not_mem_of_move hallows hmove he hmem

end Change

/-- An attempt keeps the projection in step with the history. -/
theorem Projected.step {w : State} (hproj : h.Projected w.db) (hinv : discipline.Inv w) {a : Try}
    (hallows : h.Allows a.call) :
    h.Projected (step w a).db ∧ h.Ahead w.db (step w a).db := by
  rcases attempt_cases hinv a with ⟨-, hdb⟩ | ⟨r, held, n, hchange⟩
  · rw [hdb]
    exact ⟨hproj, .refl _⟩
  · exact Projected.change (w := ⟨w.db, a.now, n⟩) hproj hallows hchange

/-- A run keeps the projection in step with the history. -/
theorem Projected.run {w : State} (hproj : h.Projected w.db) (hinv : discipline.Inv w)
    {attempts : List Try} (hallows : ∀ a ∈ attempts, h.Allows a.call) :
    h.Projected (run Orders.step w attempts).db ∧ h.Ahead w.db (run Orders.step w attempts).db := by
  induction attempts generalizing w with
  | nil => exact ⟨hproj, .refl _⟩
  | cons a as ih =>
    obtain ⟨hproj', hahead⟩ := hproj.step hinv (hallows a (by simp))
    obtain ⟨hlast, hahead'⟩ := ih hproj' (inv_step hinv a) fun b hb => hallows b (by simp [hb])
    exact ⟨hlast, hahead.trans hahead'⟩

/-- Processed events stay processed. -/
theorem processed_step {w : State} (hinv : discipline.Inv w) (a : Try) {e : Uuid}
    (he : e ∈ w.db.processedEvents) : e ∈ (Orders.step w a).db.processedEvents := by
  rcases attempt_cases hinv a with ⟨-, hdb⟩ | ⟨r, held, n, hchange⟩
  · rwa [hdb]
  · exact hchange.frame.processed e he

/-- The snapshot that an event carries has been handled when its delivery commits. -/
theorem processed_of_commits {w : State} {a : Try} {e : Uuid × Ticket} (hinv : discipline.Inv w)
    (hcall : a.call = deliver e) (hcommit : Commits w a) :
    e.1 ∈ (Orders.step w a).db.processedEvents := by
  obtain ⟨r, hout⟩ := hcommit
  obtain ⟨held, n, hchange⟩ := change_of_committed hinv hout
  exact hchange.processed_of_eventID (by rw [hcall]; rfl)

/-- The delivery of an event returned `nil` at some point of the run. -/
def Handled (w : State) (attempts : List Try) (e : Uuid × Ticket) : Prop :=
  ∃ front a back, attempts = front ++ a :: back ∧ a.call = deliver e ∧
    Commits (run Orders.step w front) a

/-- What has been handled stays processed. -/
theorem Handled.processed {w : State} (hinv : discipline.Inv w) {attempts : List Try}
    {e : Uuid × Ticket} (hhandled : Handled w attempts e) :
    e.1 ∈ (run Orders.step w attempts).db.processedEvents := by
  obtain ⟨front, a, back, rfl, hcall, hcommit⟩ := hhandled
  have hfront := inv_run hinv front
  have hdone := processed_of_commits hfront hcall hcommit
  rw [run_append, run_cons]
  have hback := run_invariant
    (P := fun w => discipline.Inv w ∧ e.1 ∈ w.db.processedEvents)
    (fun w a h => ⟨inv_step h.1 a, processed_step h.1 a h.2⟩) ⟨inv_step hfront a, hdone⟩ back
  exact hback.2

/-- The projection of a ticket converges to its history. Whatever deliveries of the events are
attempted, with other operations in between: the row is absent or exactly one of the snapshots,
its version never decreases, and once every event has been handled it is the last snapshot. -/
theorem projection_converges (h : TicketHistory) (clock : Int) {attempts : List Try}
    (hallows : ∀ a ∈ attempts, h.Allows a.call) :
    EachState Orders.step (fun w => w.db.tickets.find? h.ticketID = none ∨
        ∃! e, e ∈ h.events ∧ w.db.tickets.find? h.ticketID = some e.2)
      (State.init clock) attempts ∧
    (∀ front middle back, attempts = front ++ middle ++ back →
      h.Ahead (run Orders.step (State.init clock) front).db
        (run Orders.step (State.init clock) (front ++ middle)).db) ∧
    ((∀ e ∈ h.events, Handled (State.init clock) attempts e) →
      (run Orders.step (State.init clock) attempts).db.tickets.find? h.ticketID =
        some h.last) := by
  have hinit : h.Projected (State.init clock).db := projected_init
  refine ⟨?_, ?_, ?_⟩
  · rw [eachState_iff_forall_segment]
    rintro front back rfl
    obtain ⟨hproj, -⟩ := hinit.run (inv_init clock) fun a ha =>
      hallows a (List.mem_append_left _ ha)
    cases hrow : (run Orders.step (State.init clock) front).db.tickets.find? h.ticketID with
    | none => exact Or.inl rfl
    | some t =>
      obtain ⟨e, he, rfl⟩ := hproj.row t hrow
      refine Or.inr ⟨e, ⟨he, rfl⟩, ?_⟩
      rintro e' ⟨he', heq⟩
      exact eq_of_version he' he (by rw [Option.some.inj heq])
  · rintro front middle back rfl
    rw [List.append_assoc] at hallows
    obtain ⟨hproj, -⟩ := hinit.run (inv_init clock) fun a ha =>
      hallows a (List.mem_append_left _ ha)
    rw [run_append]
    exact (hproj.run (inv_run (inv_init clock) front) fun a ha =>
      hallows a (List.mem_append_right _ (List.mem_append_left _ ha))).2
  · intro hall
    obtain ⟨hproj, -⟩ := hinit.run (inv_init clock) hallows
    -- The row has the version of the last event at least, and is a snapshot itself.
    have hlast := (hall _ last_mem).processed (inv_init clock)
    obtain ⟨t, hrow, hle⟩ := hproj.processed _ last_mem hlast
    obtain ⟨e, he, rfl⟩ := hproj.row t hrow
    have hversion := hle.antisymm (version_le_last he)
    rw [hrow, ← eq_of_version last_mem he hversion]
    rfl

end TicketHistory

/-- A ticket that was renamed once. -/
def renamedTicket : TicketHistory where
  ticketID := 7
  events := [(1, ⟨0, 7, "seat", 100⟩), (2, ⟨1, 7, "front seat", 100⟩)]
  nonempty := by simp
  nodup := by decide
  id := by decide
  version := by
    intro v e he
    match v with
    | 0 => obtain rfl := Option.some.inj he; rfl
    | 1 => obtain rfl := Option.some.inj he; rfl
    | v + 2 => simp at he

/-- Its events arrive in the wrong order, and the first one twice. -/
def renamedTicketDeliveries : List Try :=
  [.healthy (.upsertTicketFromEvent 2 ⟨1, 7, "front seat", 100⟩) 0 10,
   .healthy (.upsertTicketFromEvent 1 ⟨0, 7, "seat", 100⟩) 1 20,
   .healthy (.upsertTicketFromEvent 2 ⟨1, 7, "front seat", 100⟩) 2 30,
   .healthy (.upsertTicketFromEvent 1 ⟨0, 7, "seat", 100⟩) 3 40]

theorem projection_converges_renamedTicket :
    (run step (State.init 0) renamedTicketDeliveries).db.tickets.find? 7 =
      some renamedTicket.last := by
  refine (renamedTicket.projection_converges 0 ?_).2.2 ?_
  · intro a ha
    left
    simp only [renamedTicketDeliveries, List.mem_cons, List.not_mem_nil, or_false] at ha
    rcases ha with rfl | rfl | rfl | rfl
    · exact ⟨(2, ⟨1, 7, "front seat", 100⟩), by decide, rfl⟩
    · exact ⟨(1, ⟨0, 7, "seat", 100⟩), by decide, rfl⟩
    · exact ⟨(2, ⟨1, 7, "front seat", 100⟩), by decide, rfl⟩
    · exact ⟨(1, ⟨0, 7, "seat", 100⟩), by decide, rfl⟩
  · intro e he
    rcases List.mem_cons.mp he with rfl | he
    · exact ⟨renamedTicketDeliveries.take 1, _, renamedTicketDeliveries.drop 2, rfl, rfl,
        by decide +kernel⟩
    · obtain rfl := List.mem_singleton.mp he
      exact ⟨renamedTicketDeliveries.take 2, _, renamedTicketDeliveries.drop 3, rfl, rfl,
        by decide +kernel⟩

end Orders
