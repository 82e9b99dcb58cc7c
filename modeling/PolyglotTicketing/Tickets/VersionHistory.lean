import Mathlib.Data.List.Induction
import PolyglotTicketing.Tickets.Safety
import PolyglotTicketing.Transaction.History

/-!
# The version history of Tickets

Any number of transactions of Tickets run on one server, their statements interleaved as the row
locks allow, any of them failing at any statement. A commit either leaves the tickets and the
outbox alone, or it adds one version of one ticket together with the row that announces it
(`Advances`). Hence the outbox rows about a ticket are its history (`History`), and each of them
shows the ticket as it was after the transaction that wrote it (`Produced`):
`complete_history`.
-/

namespace Tickets

open Platform Contracts Relational Transaction Transition

/-- A transaction of Tickets on the server. -/
abbrev Tran := Session Int Db Write Key Fresh Stmt Res Err Reply Call

/-- The server of Tickets with its transactions. -/
abbrev System := Server Int Db Write Key Fresh Stmt Res Err Reply Call

/-- The migrated database of a server that was started at the time `clock`. -/
def State.init (clock : Int) : State := ⟨Db.init, clock, 1⟩

/-- The server after the events, on a migrated database. -/
def serve (clock : Int) (events : List (Event Int Fresh Call)) : System :=
  run (Server.step engine program) ⟨State.init clock, []⟩ events

/-- `e` is the row of the outbox that announces the version `t` of a ticket: the first one was
created, the others are updates. -/
def Announces (t : Ticket) (e : OutboxEvent TicketEvent) : Prop :=
  ∃ n fresh, (t.aggregateVersion = 0 ∧ e = ticketCreatedEvent t n fresh) ∨
    (0 < t.aggregateVersion ∧ e = ticketUpdatedEvent t n fresh)

theorem Announces.ticketID {t : Ticket} {e : OutboxEvent TicketEvent} (h : Announces t e) :
    e.payload.ticketID = t.id := by
  obtain ⟨n, fresh, ⟨-, rfl⟩ | ⟨-, rfl⟩⟩ := h <;> rfl

/-- `db'` has one version of one ticket more than `db`, the ticket `t`, and `e` announces it. -/
structure Advances (db db' : Db) (t : Ticket) (e : OutboxEvent TicketEvent) : Prop where
  announces : Announces t e
  outbox : db'.outboxEvents.rows = db.outboxEvents.rows ++ [e]
  after : ∀ x ∈ db.outboxEvents.rows, x.payload.ticketID = t.id → x.sequence < e.sequence
  ticket : db'.tickets.find? t.id = some t
  others : ∀ id, id ≠ t.id → db'.tickets.find? id = db.tickets.find? id
  version : (db.tickets.find? t.id = none ∧ t.aggregateVersion = 0) ∨
    ∃ t₀, db.tickets.find? t.id = some t₀ ∧ t.aggregateVersion = t₀.aggregateVersion + 1

/-- The tickets and the outbox are the same. -/
def Unchanged (db db' : Db) : Prop :=
  db'.tickets = db.tickets ∧ db'.outboxEvents = db.outboxEvents

/-- What a commit does to the tickets and the outbox: nothing, or, if the event it handles is new,
it adds a version. -/
theorem Change.advances {call : Call} {w : State} {held : List Key} {r : Reply} {db' : Db}
    (h : Change call held w r db') (hnonneg : ∀ t ∈ w.db.tickets.rows, 0 ≤ t.aggregateVersion) :
    Unchanged w.db db' ∨
      (∀ e ∈ call.eventID?, e ∉ w.db.processedEvents) ∧ ∃ t e, Advances w.db db' t e := by
  cases h with
  | duplicate => exact Or.inl ⟨rfl, rfl⟩
  | recorded => exact Or.inl ⟨rfl, rfl⟩
  -- A new ticket has version 0.
  | @created input id n fresh hcall hnew hlock hchecks happends =>
    refine Or.inr ⟨by simp [hcall, Call.eventID?], input.ticket id,
      ticketCreatedEvent (input.ticket id) n fresh, ?_⟩
    exact
      { announces := ⟨n, fresh, Or.inl ⟨rfl, rfl⟩⟩
        outbox := Table.rows_insert happends.new
        after := happends.after
        ticket := by rw [find?_create hnew, if_pos rfl]
        others := fun x hx => by rw [find?_create hnew, if_neg hx]
        version := Or.inl ⟨hnew, rfl⟩ }
  -- Every other operation counts up the version of its ticket.
  | @changed r t t' n fresh hnext hfind hlock hrecords happends =>
    have hversion := hnext.aggregateVersion
    have hpos : 0 < t'.aggregateVersion := by
      have hle := hnonneg t (Table.mem_of_find? hfind)
      omega
    refine Or.inr ⟨fun e he => (hrecords e he).1, t', ticketUpdatedEvent t' n fresh, ?_⟩
    exact
      { announces := ⟨n, fresh, Or.inr ⟨hpos, rfl⟩⟩
        outbox := Table.rows_insert happends.new
        after := happends.after
        ticket := by rw [find?_change hfind hnext.id, if_pos hnext.id]
        others := fun x hx => by rw [find?_change hfind hnext.id, if_neg (hnext.id ▸ hx)]
        version := Or.inr ⟨t, by rw [hnext.id, hfind], hversion⟩ }

/-- The rows of the outbox about a ticket are its history: one row for each version in order, each
announcing a version of it, the last one announcing the ticket as it is. -/
structure History (t : Ticket) (rows : List (OutboxEvent TicketEvent)) : Prop where
  length : (rows.length : Int) = t.aggregateVersion + 1
  increasing : rows.Pairwise fun e e' => e.sequence < e'.sequence
  version : ∀ (v : ℕ) e, rows[v]? = some e →
    ∃ t' : Ticket, t'.id = t.id ∧ t'.aggregateVersion = v ∧ Announces t' e
  current : ∃ e, rows.getLast? = some e ∧ Announces t e

/-- Versions are counted from zero. -/
theorem History.nonneg {t : Ticket} {rows : List (OutboxEvent TicketEvent)} (h : History t rows) :
    0 ≤ t.aggregateVersion := by
  obtain ⟨e, hlast, -⟩ := h.current
  have hpos : 0 < rows.length := List.length_pos_of_mem (List.mem_of_getLast? hlast)
  have hlength := h.length
  omega

/-- A row after the rows of a list. -/
private theorem getElem?_concat_cases {α : Type} {xs : List α} {x y : α} {v : ℕ}
    (h : (xs ++ [x])[v]? = some y) : xs[v]? = some y ∨ v = xs.length ∧ y = x := by
  rcases Nat.lt_trichotomy v xs.length with hlt | rfl | hgt
  · exact Or.inl (by rwa [List.getElem?_append_left hlt] at h)
  · exact Or.inr ⟨rfl, by simpa [eq_comm] using h⟩
  · have hlt := (List.getElem?_eq_some_iff.mp h).1
    simp only [List.length_append, List.length_singleton] at hlt
    omega

/-- The next version continues the history. -/
theorem History.concat {t₀ t : Ticket} {rows : List (OutboxEvent TicketEvent)}
    {e : OutboxEvent TicketEvent} (h : History t₀ rows) (hid : t.id = t₀.id)
    (hversion : t.aggregateVersion = t₀.aggregateVersion + 1) (hannounces : Announces t e)
    (hafter : ∀ x ∈ rows, x.sequence < e.sequence) : History t (rows ++ [e]) where
  length := by
    have hlength := h.length
    rw [List.length_append, List.length_singleton]
    omega
  increasing := by
    refine List.pairwise_append.mpr ⟨h.increasing, List.pairwise_singleton _ _, ?_⟩
    intro x hx y hy
    obtain rfl := List.mem_singleton.mp hy
    exact hafter x hx
  version := by
    intro v x hx
    rcases getElem?_concat_cases hx with hx | ⟨rfl, rfl⟩
    · obtain ⟨t', hid', hversion', hannounces'⟩ := h.version v x hx
      exact ⟨t', hid'.trans hid.symm, hversion', hannounces'⟩
    · exact ⟨t, rfl, by rw [hversion, h.length], hannounces⟩
  current := ⟨e, by simp, hannounces⟩

/-- The history of a new ticket. -/
theorem History.singleton {t : Ticket} {e : OutboxEvent TicketEvent}
    (hversion : t.aggregateVersion = 0) (hannounces : Announces t e) : History t [e] where
  length := by simp [hversion]
  increasing := List.pairwise_singleton _ _
  version := by
    intro v x hx
    rcases @getElem?_concat_cases _ [] _ _ _ hx with hx | ⟨rfl, rfl⟩
    · simp at hx
    · exact ⟨t, rfl, by simp [hversion], hannounces⟩
  current := ⟨e, rfl, hannounces⟩

/-- The rows of the outbox about a ticket. -/
abbrev historyOf (db : Db) (id : Uuid) : List (OutboxEvent TicketEvent) :=
  eventsAbout TicketEvent.ticketID db.outboxEvents id

/-- The outbox is the history of the tickets, and of nothing else. -/
structure Chronicled (db : Db) : Prop where
  history : ∀ t ∈ db.tickets.rows, History t (historyOf db t.id)
  known : ∀ x ∈ db.outboxEvents.rows, db.tickets.find? x.payload.ticketID ≠ none

theorem chronicled_init (clock : Int) : Chronicled (State.init clock).db := by
  constructor <;> simp [State.init, Db.init]

section Advances

variable {db db' : Db} {t : Ticket} {e : OutboxEvent TicketEvent}

/-- The row that announces a version is the last one about its ticket. -/
theorem Advances.historyOf_self (h : Advances db db' t e) :
    historyOf db' t.id = historyOf db t.id ++ [e] := by
  rw [historyOf, eventsAbout, h.outbox, List.filter_append]
  simp [eventsAbout, h.announces.ticketID]

/-- The rows about other tickets stay the same. -/
theorem Advances.historyOf_other (h : Advances db db' t e) {id : Uuid} (hid : id ≠ t.id) :
    historyOf db' id = historyOf db id := by
  rw [historyOf, eventsAbout, h.outbox, List.filter_append]
  simp [eventsAbout, h.announces.ticketID, hid.symm]

/-- No row is about a ticket that is not known yet. -/
theorem Chronicled.historyOf_eq_nil (hdb : Chronicled db) {id : Uuid}
    (hnone : db.tickets.find? id = none) : historyOf db id = [] := by
  refine eventsAbout_eq_nil_iff.mpr fun x hx hid => ?_
  exact hdb.known x hx (hid ▸ hnone)

/-- A new version keeps the history complete. -/
theorem Chronicled.advance (hdb : Chronicled db) (h : Advances db db' t e) : Chronicled db' where
  history := by
    intro t' ht'
    have hfind' := Table.find?_of_mem ht'
    rw [key_ticket] at hfind'
    -- The ticket with the new version, or another one.
    by_cases hid : t'.id = t.id
    · obtain rfl : t = t' := Option.some.inj (h.ticket.symm.trans (hid ▸ hfind'))
      rw [h.historyOf_self]
      -- The row is the first one about its ticket, or continues the history.
      rcases h.version with ⟨hnone, hzero⟩ | ⟨t₀, hfind, hversion⟩
      · rw [hdb.historyOf_eq_nil hnone]
        exact .singleton hzero h.announces
      · have hid₀ : t₀.id = t.id := Table.key_of_find? hfind
        have hold := hdb.history t₀ (Table.mem_of_find? hfind)
        rw [hid₀] at hold
        refine hold.concat hid₀.symm hversion h.announces ?_
        intro x hx
        obtain ⟨hx, hxid⟩ := mem_eventsAbout.mp hx
        exact h.after x hx hxid
    · rw [h.others _ hid] at hfind'
      rw [h.historyOf_other hid]
      exact hdb.history t' (Table.mem_of_find? hfind')
  known := by
    intro x hx hnone
    rw [h.outbox] at hx
    by_cases hid : x.payload.ticketID = t.id
    · rw [hid, h.ticket] at hnone
      simp at hnone
    · rcases List.mem_append.mp hx with hx | hx
      · exact hdb.known x hx (h.others _ hid ▸ hnone)
      · obtain rfl := List.mem_singleton.mp hx
        exact hid h.announces.ticketID

end Advances

/-- Every commit keeps the history complete. -/
theorem Chronicled.change {call : Call} {w : State} {held : List Key} {r : Reply} {db' : Db}
    (hdb : Chronicled w.db) (h : Change call held w r db') : Chronicled db' := by
  rcases h.advances fun t ht => (hdb.history t ht).nonneg with
    ⟨htickets, houtbox⟩ | ⟨-, t, e, hadvances⟩
  · obtain ⟨hhistory, hknown⟩ := hdb
    constructor
    · rw [htickets]
      intro t ht
      rw [historyOf, houtbox]
      exact hhistory t ht
    · rwa [houtbox, htickets]
  · exact hdb.advance hadvances

section Serve

variable (clock : Int) (events : List (Event Int Fresh Call))

theorem inv_init : discipline.Inv (State.init clock) := by
  simp [discipline, State.init, Db.init]

theorem sound_serve : discipline.Sound engine (serve clock events) :=
  Discipline.sound_run allSafe (Discipline.sound_init (inv_init clock)) events

theorem chronicled_serve : Chronicled (serve clock events).world.db :=
  (Discipline.world_run allSafe (inv_init clock) (P := fun w => Chronicled w.db)
    (fun hdb _ _ => hdb) (fun _ hdb hguar => hdb.change hguar) (chronicled_init clock) events).1

/-- A run extended by one event. -/
theorem serve_concat (e : Event Int Fresh Call) :
    serve clock (events ++ [e]) = (serve clock events).step engine program e := by
  rw [serve, run_concat, ← serve]

/-- The event `e` is the commit of a transaction that handles no event or a new one, and that adds
a version. -/
def Publishes (e : Event Int Fresh Call) : Prop :=
  ∃ (i : ℕ) (s : Tran) (r : Reply), e = .finish i ∧ (serve clock events).sessions[i]? = some s ∧
    s.phase = .running (.done r) ∧
    (∀ eventID ∈ s.call.eventID?, eventID ∉ (serve clock events).world.db.processedEvents) ∧
    ∃ t x, Advances (serve clock events).world.db (serve clock (events ++ [e])).world.db t x

/-- What an event does to the tickets and the outbox. -/
theorem unchanged_or_publishes (e : Event Int Fresh Call) :
    Unchanged (serve clock events).world.db (serve clock (events ++ [e])).world.db ∨
      Publishes clock events e := by
  have hsound := sound_serve clock events
  have hdb := chronicled_serve clock events
  rw [Publishes, serve_concat]
  -- Only the commit of a transaction changes the database.
  rcases Server.step_world_cases (serve clock events) e with
    heq | ⟨i, s, r, rfl, hs, hphase, heq⟩
  · exact Or.inl ⟨by rw [heq], by rw [heq]⟩
  · have hchange : Change s.call s.held (serve clock events).world r _ :=
      hsound.guar_of_commit hs hphase
    rw [heq]
    rcases hchange.advances fun t ht => (hdb.history t ht).nonneg with hsame | ⟨hnew, hadvances⟩
    · exact Or.inl hsame
    · exact Or.inr ⟨i, s, r, rfl, hs, hphase, hnew, hadvances⟩

/-- The row `x` was written by the transaction that produced the version `v` of a ticket, and it
announces the ticket as it was right after that transaction. -/
def Produced (id : Uuid) (v : ℕ) (x : OutboxEvent TicketEvent) : Prop :=
  ∃ front e back t, events = front ++ e :: back ∧ Publishes clock front e ∧
    Advances (serve clock front).world.db (serve clock (front ++ [e])).world.db t x ∧
    t.id = id ∧ t.aggregateVersion = v

/-- Every row was produced with a version. -/
theorem produced_of_history (id : Uuid) {v : ℕ} {x : OutboxEvent TicketEvent}
    (hx : (historyOf (serve clock events).world.db id)[v]? = some x) :
    Produced clock events id v x := by
  induction events using List.reverseRecOn with
  | nil => simp [historyOf, eventsAbout, serve, State.init, Db.init] at hx
  | append_singleton events e ih =>
    -- What was produced before the last event stays produced.
    have hextend : ∀ {x}, Produced clock events id v x → Produced clock (events ++ [e]) id v x := by
      rintro x ⟨front, e', back, t, heq, hproduced⟩
      exact ⟨front, e', back ++ [e], t, by simp [heq], hproduced⟩
    -- The last event leaves the outbox alone, or publishes a version.
    rcases unchanged_or_publishes clock events e with ⟨-, houtbox⟩ | hpublishes
    · rw [historyOf, houtbox] at hx
      exact hextend (ih hx)
    · have hcommit := hpublishes
      obtain ⟨-, -, -, -, -, -, -, t, y, hadvances⟩ := hcommit
      by_cases hid : id = t.id
      · rw [hid, hadvances.historyOf_self] at hx
        -- The row was there before, or it is the one that the last event has written.
        rcases getElem?_concat_cases hx with hx | ⟨hv, rfl⟩
        · exact hextend (ih (hid ▸ hx))
        · refine ⟨events, e, [], t, rfl, hpublishes, hadvances, hid.symm, ?_⟩
          have hdb := chronicled_serve clock events
          -- There are as many rows before it as versions.
          rcases hadvances.version with ⟨hnone, hzero⟩ | ⟨t₀, hfind, hversion⟩
          · simp [hv, hdb.historyOf_eq_nil hnone, hzero]
          · have hid₀ : t₀.id = t.id := Table.key_of_find? hfind
            have hlength := (hdb.history t₀ (Table.mem_of_find? hfind)).length
            rw [hv, hversion, ← hlength, hid₀]
      · rw [hadvances.historyOf_other hid] at hx
        exact hextend (ih hx)

end Serve

/-- In every interleaving of the transactions of Tickets: the outbox rows about a ticket are its
history; every row was written by the transaction that produced its version, and shows the ticket
as it was right after it; and an event that is not such a commit, among them every rollback, failure
and redelivery, leaves the tickets and the outbox as they are. -/
theorem complete_history (clock : Int) (events : List (Event Int Fresh Call)) :
    (∀ t ∈ (serve clock events).world.db.tickets.rows,
      History t (historyOf (serve clock events).world.db t.id)) ∧
    (∀ id v x, (historyOf (serve clock events).world.db id)[v]? = some x →
      Produced clock events id v x) ∧
    ∀ e, Unchanged (serve clock events).world.db (serve clock (events ++ [e])).world.db ∨
      Publishes clock events e :=
  ⟨(chronicled_serve clock events).history,
    fun id _ _ hx => produced_of_history clock events id hx, unchanged_or_publishes clock events⟩

end Tickets
