import PolyglotTicketing.Orders.Commit
import PolyglotTicketing.Outbox.Delivery
import PolyglotTicketing.Payments.Commit
import PolyglotTicketing.Tickets.Commit
import PolyglotTicketing.Transition.Precedes

/-!
# The order of an outbox

A single publisher publishes the rows of a batch in the order of their sequence, and abandons the
batch at the first failure. So a message can overtake another one about the same aggregate only from
one batch to the next: the row that failed waits for its next attempt, or an interrupted batch waits
for the end of its lease, while a later row is claimable. `published_in_order` shows that messages
are stored in order unless a batch is claimed over the head of such a row.

The rows of an aggregate enter the outbox in the order of their sequence, because the services write
them under the lock of the aggregate: `Platform.Appends` holds of every commit.
-/

namespace Outbox

open Platform Relational Transition

variable {π : Type}

section Pending

variable {limit : ℕ} {now : Int} {locked : List Uuid} {outbox : Table (OutboxEvent π)}
  {e e' : OutboxEvent π}

/-- A claimable row is in the batch before all rows that come after it in the sequence. -/
theorem precedes_pending (he : e ∈ outbox.rows) (he' : e' ∈ outbox.rows)
    (hclaimable : Claimable now e) (hlocked : e.eventID ∉ locked)
    (hlt : e.sequence < e'.sequence) :
    Precedes (toEvent e) (toEvent e') ((pending limit now locked outbox).map toEvent) := by
  intro front back heq
  obtain ⟨before, rest, hpending, rfl, hrest⟩ := List.map_eq_append_iff.mp heq
  obtain ⟨x, after, rfl, hevent, rfl⟩ := List.map_eq_cons_iff.mp hrest
  have hx : x ∈ pending limit now locked outbox := by
    rw [hpending]
    exact List.mem_append_right before List.mem_cons_self
  obtain rfl : x = e' :=
    Table.eq_of_key_eq (of_mem_pending hx).1 he' (congrArg Event.eventID hevent)
  -- The batch is the beginning of all claimable rows in order, and `e` is one of them.
  obtain ⟨claimable, htake, hsorted, hmem⟩ := pending_eq_take limit now locked outbox
  have hsplit : claimable = before ++ x :: (after ++ claimable.drop limit) := by
    conv_lhs => rw [← List.take_append_drop limit claimable, ← htake, hpending]
    simp
  have hin : e ∈ claimable := (hmem e).mpr ⟨he, hclaimable, hlocked⟩
  rw [hsplit] at hin hsorted
  rcases List.mem_append.mp hin with hbefore | hin
  · exact List.mem_map_of_mem hbefore
  · rcases List.mem_cons.mp hin with rfl | hafter
    · exact absurd hlt (lt_irrefl _)
    · have hle := List.rel_of_pairwise_cons (List.pairwise_append.mp hsorted).2.1 hafter
      exact absurd hlt (not_lt.mpr hle)

end Pending

/-- What only the first publisher does. -/
def Single : Label π → Prop
  | .tick _ => True
  | .insert _ _ _ _ => True
  | .claim p _ => p = 0
  | .publish p _ => p = 0
  | .mark p _ => p = 0
  | .crash p => p = 0

instance : (l : Label π) → Decidable (Single l)
  | .tick _ | .insert .. => instDecidableTrue
  | .claim p _ | .publish p _ | .mark p _ | .crash p => inferInstanceAs (Decidable (p = 0))

/-- The two rows are about one aggregate, and the first one comes first in the sequence. -/
def Earlier (aggregate : π → Uuid) (e e' : OutboxEvent π) : Prop :=
  aggregate e.payload = aggregate e'.payload ∧ e.sequence < e'.sequence

instance (aggregate : π → Uuid) (e e' : OutboxEvent π) : Decidable (Earlier aggregate e e') :=
  inferInstanceAs (Decidable (_ ∧ _))

/-- A row that is added comes after all rows about its aggregate. -/
def Appending (aggregate : π → Uuid) (s : State π) : Label π → Prop
  | .insert _ payload sequence fresh => ∀ x ∈ s.outbox.rows,
      aggregate x.payload = aggregate (payload fresh.id fresh.occurredAt) → x.sequence < sequence
  | _ => True

instance (aggregate : π → Uuid) (s : State π) : (l : Label π) → Decidable (Appending aggregate s l)
  | .insert .. => by
    unfold Appending
    infer_instance
  | .tick _ | .claim .. | .publish .. | .mark .. | .crash _ => instDecidableTrue

/-- A batch is claimed with a row in it, while an earlier row about the same aggregate was not
stored and cannot be claimed: it is under a lease, it waits for its next attempt, or it is
locked. -/
def Overtakes [DecidableEq π] (aggregate : π → Uuid) (s : State π) : Label π → Prop
  | .claim p locked =>
    match s.workers p with
    | .idle => ∃ e' ∈ pending batchSize s.clock locked s.outbox, ∃ e ∈ s.outbox.rows,
        Earlier aggregate e e' ∧ toEvent e ∉ s.stored ∧
        ¬(Claimable s.clock e ∧ e.eventID ∉ locked)
    | _ => False
  | _ => False

instance [DecidableEq π] (aggregate : π → Uuid) (s : State π) :
    (l : Label π) → Decidable (Overtakes aggregate s l)
  | .claim p locked => by
    unfold Overtakes
    dsimp only
    generalize s.workers p = worker
    exact match worker with
      | .idle => inferInstance
      | .publishing .. | .marking .. => instDecidableFalse
  | .tick _ | .insert .. | .publish .. | .mark .. | .crash _ => instDecidableFalse

/-- The messages of every aggregate were stored in the order of the sequence: none before all
earlier ones were stored at least once. -/
def PublishedInOrder (aggregate : π → Uuid) (s : State π) : Prop :=
  ∀ e ∈ s.outbox.rows, ∀ e' ∈ s.outbox.rows, Earlier aggregate e e' →
    Precedes (toEvent e) (toEvent e') s.stored

instance [DecidableEq π] (aggregate : π → Uuid) (s : State π) :
    Decidable (PublishedInOrder aggregate s) := by
  unfold PublishedInOrder
  infer_instance

/-- The messages that were stored, and then those that are about to be. -/
def Schedule (s : State π) : List (Event π) := s.stored ++ (s.workers 0).events

/-- A single publisher keeps the order: what it has stored and what it is about to store. -/
structure Ordered (aggregate : π → Uuid) (s : State π) : Prop extends Kept s where
  idle : ∀ p, p ≠ 0 → s.workers p = .idle
  rows : ∀ event ∈ s.stored, ∃ e ∈ s.outbox.rows, toEvent e = event
  order : ∀ e ∈ s.outbox.rows, ∀ e' ∈ s.outbox.rows, Earlier aggregate e e' →
    Precedes (toEvent e) (toEvent e') (Schedule s)

theorem ordered_init (aggregate : π → Uuid) (clock : Int) :
    Ordered aggregate (State.init clock) where
  toKept := kept_init clock
  idle := fun _ _ => rfl
  rows := by simp [State.init]
  order := by simp [State.init]

section Ordered

variable {aggregate : π → Uuid} {s : State π} {l : Label π}

theorem Ordered.publishedInOrder (hs : Ordered aggregate s) : PublishedInOrder aggregate s :=
  fun e he e' he' h => (precedes_append.mp (hs.order e he e' he' h)).1

/-- All messages of the schedule are those of rows. -/
theorem Ordered.row_of_mem (hs : Ordered aggregate s) {event : Event π} (h : event ∈ Schedule s) :
    ∃ e ∈ s.outbox.rows, toEvent e = event := by
  rcases List.mem_append.mp h with hstored | hevents
  · exact hs.rows event hstored
  · exact hs.events 0 event hevents

/-- A step of the publisher leaves two rows in order. -/
theorem Ordered.precedes_step [DecidableEq π] (hs : Ordered aggregate s) (hsingle : Single l)
    (hovertakes : ¬Overtakes aggregate s l) {e e' : OutboxEvent π} (he : e ∈ s.outbox.rows)
    (he' : e' ∈ s.outbox.rows) (hearlier : Earlier aggregate e e') :
    Precedes (toEvent e) (toEvent e') (Schedule (step s l)) := by
  have horder := hs.order e he e' he' hearlier
  have hstored := (precedes_append.mp horder).1
  have hsteps := step_cases s l
  generalize step s l = s' at hsteps ⊢
  cases hsteps with
  | stutter => exact horder
  | tick => exact horder
  | insert => exact horder
  | @claim p locked hidle =>
    obtain rfl : p = 0 := hsingle
    rw [Schedule, State.workers_setWorker, if_pos rfl, Worker.events_next, State.stored_setWorker,
      precedes_append]
    refine ⟨hstored, ?_⟩
    by_cases hmem : toEvent e ∈ s.stored
    · exact Or.inl hmem
    right
    -- Unless the later row overtakes it, the earlier one is claimed as well.
    by_cases hbatch : e' ∈ pending batchSize s.clock locked s.outbox
    · have hclaimable : Claimable s.clock e ∧ e.eventID ∉ locked := by
        by_contra hnot
        refine hovertakes ?_
        simp only [Overtakes, hidle]
        exact ⟨e', hbatch, e, he, hearlier, hmem, hnot⟩
      exact precedes_pending he he' hclaimable.1 hclaimable.2 hearlier.2
    · refine precedes_of_not_mem ?_
      intro hevent
      obtain ⟨x, hx, hxe⟩ := List.mem_map.mp hevent
      obtain rfl : x = e' :=
        Table.eq_of_key_eq (of_mem_pending hx).1 he' (congrArg Event.eventID hxe)
      exact hbatch hx
  | @publish p reply claimedAt event rest stored publishErr hworker hresult =>
    obtain rfl : p = 0 := hsingle
    rw [Schedule, State.workers_setWorker, if_pos rfl, State.stored_setWorker]
    rw [Schedule, hworker] at horder
    -- The message is stored and stays at the head of the batch, where it may be stored again.
    rcases hresult with rfl | ⟨rfl, -⟩
    · exact horder.duplicate
    · exact horder
  | @mark p reply claimedAt event rest publishErr worker hworker hnext =>
    obtain rfl : p = 0 := hsingle
    rw [Schedule, State.workers_setWorker, if_pos rfl, State.stored_setWorker]
    -- The batch is abandoned, or goes on after a message that was stored.
    rcases hnext with rfl | ⟨rfl, rfl, -⟩
    · rwa [Worker.events, List.append_nil]
    · rw [Schedule, hworker] at horder
      rw [Worker.events_next]
      exact horder.of_mem (hs.marking 0 claimedAt event rest hworker)
  | @crash p =>
    obtain rfl : p = 0 := hsingle
    rw [Schedule, State.workers_setWorker, if_pos rfl, State.stored_setWorker]
    rwa [Worker.events, List.append_nil]

/-- A step stores only messages of rows. -/
theorem Ordered.rows_step (hs : Ordered aggregate s) (l : Label π) {event : Event π}
    (hevent : event ∈ (step s l).stored) : ∃ e ∈ (step s l).outbox.rows, toEvent e = event := by
  have hold : ∃ e ∈ s.outbox.rows, toEvent e = event := by
    have hsteps := step_cases s l
    generalize step s l = s' at hsteps hevent
    cases hsteps with
    | @publish p reply claimedAt x rest stored publishErr hworker hresult =>
      rcases hresult with rfl | ⟨rfl, -⟩
      · rcases List.mem_append.mp hevent with hmem | hmem
        · exact hs.rows event hmem
        · obtain rfl := List.mem_singleton.mp hmem
          exact hs.events p event (by simp [hworker, Worker.events])
      · exact hs.rows event hevent
    | stutter => exact hs.rows event hevent
    | tick => exact hs.rows event hevent
    | insert => exact hs.rows event hevent
    | claim => exact hs.rows event hevent
    | mark => exact hs.rows event hevent
    | crash => exact hs.rows event hevent
  obtain ⟨e, he, rfl⟩ := hold
  obtain ⟨e', he', htouches⟩ := touches_step l he
  exact ⟨e', he', htouches.toEvent.1⟩

/-- The other publishers stay idle. -/
theorem Ordered.idle_step (hs : Ordered aggregate s) (hsingle : Single l) {p : ℕ} (hp : p ≠ 0) :
    (step s l).workers p = .idle := by
  have hsteps := step_cases s l
  generalize step s l = s' at hsteps ⊢
  cases hsteps with
  | stutter => exact hs.idle p hp
  | tick => exact hs.idle p hp
  | insert => exact hs.idle p hp
  | _ =>
    have hq := hsingle
    simp only [Single] at hq
    rw [State.workers_setWorker, if_neg (hq ▸ hp)]
    exact hs.idle p hp

/-- Touching rows does not change which one is earlier. -/
theorem Earlier.of_touches {x x' e e' : OutboxEvent π} (h : Touches s x l e)
    (h' : Touches s x' l e') (hearlier : Earlier aggregate e e') : Earlier aggregate x x' := by
  have hpayload : e.payload = x.payload := congrArg Event.payload h.toEvent.1
  have hpayload' : e'.payload = x'.payload := congrArg Event.payload h'.toEvent.1
  rw [Earlier, ← hpayload, ← hpayload', ← h.toEvent.2.2, ← h'.toEvent.2.2]
  exact hearlier

/-- The message of a new row is not scheduled yet. -/
theorem Ordered.not_mem_schedule (hs : Ordered aggregate s) {subject : String}
    {payload : Uuid → Int → π} {sequence : ℕ} {fresh : Fresh}
    (hnew : s.outbox.find? fresh.id = none) :
    toEvent (OutboxEvent.write subject payload sequence fresh) ∉
      Schedule (step s (.insert subject payload sequence fresh)) := by
  intro hmem
  have hschedule : Schedule (step s (.insert subject payload sequence fresh)) = Schedule s := by
    simp [step, hnew, Schedule]
  rw [hschedule] at hmem
  obtain ⟨e, he, hevent⟩ := hs.row_of_mem hmem
  exact Table.find?_eq_none_iff.mp hnew e he (congrArg Event.eventID hevent)

/-- Every step keeps the order that does not overtake a row. -/
theorem Ordered.of_step [DecidableEq π] (hs : Ordered aggregate s) (hsingle : Single l)
    (happending : Appending aggregate s l) (hovertakes : ¬Overtakes aggregate s l) :
    Ordered aggregate (step s l) where
  toKept := hs.step l
  idle := fun _ hp => hs.idle_step hsingle hp
  rows := fun _ hevent => hs.rows_step l hevent
  order := by
    intro e he e' he' hearlier
    -- Both rows were there before, or one of them has just been added, after all others.
    rcases row_of_step l he with ⟨x, hx, htouches⟩ | ⟨subject, payload, n, fresh, rfl, hnew, rfl⟩
    · rcases row_of_step l he' with
        ⟨x', hx', htouches'⟩ | ⟨subject, payload, n, fresh, rfl, hnew, rfl⟩
      · rw [htouches.toEvent.1, htouches'.toEvent.1]
        exact hs.precedes_step hsingle hovertakes hx hx' (hearlier.of_touches htouches htouches')
      · exact precedes_of_not_mem (hs.not_mem_schedule hnew)
    · -- A new row is not earlier than any other.
      refine absurd hearlier.2 (not_lt.mpr ?_)
      rcases row_of_step _ he' with ⟨x', hx', htouches'⟩ | ⟨_, _, _, _, hlabel, -, rfl⟩
      · cases htouches'
        exact (happending _ hx' hearlier.1.symm).le
      · rw [(Label.insert.inj hlabel).2.2.1]
        exact le_rfl

end Ordered

/-- A commit leaves an outbox alone, or adds a row after all others about its aggregate. -/
def Commits (aggregate : π → Uuid) (outbox : Table (OutboxEvent π)) (sequence : ℕ)
    (outbox' : Table (OutboxEvent π)) : Prop :=
  outbox' = outbox ∨ ∃ subject payload n fresh,
    Appends aggregate outbox sequence (OutboxEvent.write subject payload n fresh) ∧
      outbox' = outbox.insert (OutboxEvent.write subject payload n fresh)

/-- The rows that the services commit are appended, whatever the publisher has done to the others
in the meantime. -/
theorem Commits.appending {aggregate : π → Uuid} {outbox outbox' : Table (OutboxEvent π)}
    {sequence : ℕ} (h : Commits aggregate outbox sequence outbox') {s : State π}
    (hrows : ∀ x ∈ s.outbox.rows, ∃ y ∈ outbox.rows,
      y.payload = x.payload ∧ y.sequence = x.sequence) :
    outbox' = outbox ∨ ∃ subject payload n fresh,
      outbox' = outbox.insert (OutboxEvent.write subject payload n fresh) ∧
        Appending aggregate s (.insert subject payload n fresh) := by
  rcases h with h | ⟨subject, payload, n, fresh, happends, h⟩
  · exact Or.inl h
  · refine Or.inr ⟨subject, payload, n, fresh, h, ?_⟩
    intro x hx haggregate
    -- The row in the publisher's table is one of the service, with the same place.
    obtain ⟨y, hy, hpayload, hsequence⟩ := hrows x hx
    rw [← hsequence]
    exact happends.after y hy (by rw [hpayload, haggregate, OutboxEvent.payload_write])

theorem commits_orders {call : Orders.Call} {opened w : Orders.State} {held : List Orders.Key}
    {r : Orders.Reply} {db' : Orders.Db} (h : Orders.Change call opened held w r db') :
    Commits Contracts.OrderEvent.orderID w.db.outboxEvents w.sequence db'.outboxEvents := by
  cases h with
  | unchanged => exact Or.inl rfl
  | recorded => exact Or.inl rfl
  | projected => exact Or.inl rfl
  | advanced => exact Or.inl rfl
  | reserved _ _ _ _ _ _ _ happends => exact Or.inr ⟨_, _, _, _, happends.toAppends, rfl⟩
  | canceled _ _ _ _ _ _ _ happends => exact Or.inr ⟨_, _, _, _, happends.toAppends, rfl⟩

theorem commits_payments {call : Payments.Call} {w : Payments.State} {held : List Payments.Key}
    {r : Payments.Reply} {db' : Payments.Db} (h : Payments.Change call held w r db') :
    Commits Contracts.PaymentEvent.paymentID w.db.outboxEvents w.sequence db'.outboxEvents := by
  rcases h.outbox_cases with hsame | ⟨p, e, happends, hevent, hinsert⟩
  · exact Or.inl hsame
  · rcases hevent with ⟨n, fresh, rfl⟩ | ⟨n, fresh, ⟨-, rfl⟩ | ⟨-, rfl⟩⟩
    all_goals exact Or.inr ⟨_, _, _, _, happends.toAppends, hinsert⟩

theorem commits_tickets {call : Tickets.Call} {w : Tickets.State} {held : List Tickets.Key}
    {r : Tickets.Reply} {db' : Tickets.Db} (h : Tickets.Change call held w r db') :
    Commits Contracts.TicketEvent.ticketID w.db.outboxEvents w.sequence db'.outboxEvents := by
  cases h with
  | duplicate => exact Or.inl rfl
  | recorded => exact Or.inl rfl
  | created _ _ _ _ happends => exact Or.inr ⟨_, _, _, _, happends.toAppends, rfl⟩
  | changed _ _ _ _ happends => exact Or.inr ⟨_, _, _, _, happends.toAppends, rfl⟩

/-- A single publisher publishes the messages of every aggregate in the order of their sequence, in
every run in which it claims no row over the head of an earlier one. -/
theorem published_in_order [DecidableEq π] (aggregate : π → Uuid) (clock : Int)
    (labels : List (Label π)) (hsingle : ∀ l ∈ labels, Single l)
    (happending : EachStep step (Appending aggregate) (State.init clock) labels)
    (hovertakes : EachStep step (fun s l => ¬Overtakes aggregate s l) (State.init clock) labels) :
    EachState step (PublishedInOrder aggregate) (State.init clock) labels := by
  have hordered : EachState step (Ordered aggregate) (State.init clock) labels :=
    eachState_of_eachStep (fun s l hs hC => hs.of_step hC.1.1 hC.1.2 hC.2)
      (ordered_init aggregate clock)
      (((eachStep_of_forall hsingle _).and happending).and hovertakes)
  exact hordered.mono fun s hs => hs.publishedInOrder

/-- A batch of two rows about one aggregate is abandoned, and claimed again as a whole. -/
def resumed : List (Label Uuid) :=
  [.insert "orders.order.created" (fun _ _ => 7) 0 ⟨1, 0, 0⟩,
    .insert "orders.order.canceled" (fun _ _ => 7) 1 ⟨2, 0, 0⟩, .claim 0 [],
    .publish 0 (.failed false "nats: timeout"), .mark 0 .done, .tick (seconds 31), .claim 0 [],
    .publish 0 .acknowledged, .mark 0 .done, .publish 0 .acknowledged, .mark 0 .done]

theorem published_in_order_resumed :
    EachState step (PublishedInOrder id) (State.init 0) resumed :=
  published_in_order id 0 resumed (by decide) (by decide +kernel) (by decide +kernel)

/-- The first event of an order cannot be published and has to wait for 2 s; the second one is
committed in the meantime, and published by the next poll. -/
def overtaken : List (Label Uuid) :=
  [.insert "orders.order.created" (fun _ _ => 7) 0 ⟨1, 0, 0⟩, .claim 0 [],
    .publish 0 (.failed false "nats: timeout"), .mark 0 .done,
    .insert "orders.order.canceled" (fun _ _ => 7) 1 ⟨2, 0, 0⟩, .tick (seconds 1), .claim 0 [],
    .publish 0 .acknowledged]

/-- A single publisher stores the second message about an order before the first one. -/
theorem not_in_order_overtaken :
    (∀ l ∈ overtaken, Single l) ∧ EachStep step (Appending id) (State.init 0) overtaken ∧
      ¬PublishedInOrder id (run step (State.init 0) overtaken) :=
  ⟨by decide, by decide +kernel, by decide +kernel⟩

end Outbox
