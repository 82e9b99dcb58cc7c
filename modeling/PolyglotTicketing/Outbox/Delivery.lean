import PolyglotTicketing.Outbox.Publisher

/-!
# The outbox loses nothing

Any number of publishers act on one outbox, with crashes between any two of their operations, with
publications that fail although the message was stored, and with failing `Mark…` statements. A
publisher may act on a batch long after its lease has run out, so a row can be marked at any time
by any publisher that has ever claimed it. `nothing_lost` collects what holds all the same:

* a row is marked as published only if its message was stored;
* rows stay, and published rows stay published and are not claimed again;
* an unpublished row becomes claimable within a minute.
-/

namespace Outbox

open Platform Relational Transition

variable {π : Type} {s : State π}

/-- What holds of an outbox with its publishers in every run. -/
structure Kept (s : State π) : Prop where
  /-- Publishers have rows of the table in their batches. -/
  events : ∀ p, ∀ event ∈ (s.workers p).events, ∃ e ∈ s.outbox.rows, toEvent e = event
  /-- What is about to be marked as published was stored. -/
  marking : ∀ p claimedAt event rest, s.workers p = .marking claimedAt event rest none →
    event ∈ s.stored
  /-- What is marked as published was stored. -/
  published : ∀ e ∈ s.outbox.rows, e.publishedAt ≠ none → toEvent e ∈ s.stored
  /-- Leases run out in time. -/
  lockedUntil : ∀ e ∈ s.outbox.rows, ∀ t ∈ e.lockedUntil, t ≤ s.clock + leaseDuration
  /-- Attempts are made in time. -/
  nextAttemptAt : ∀ e ∈ s.outbox.rows, ∀ t ∈ e.nextAttemptAt, t ≤ s.clock + seconds 60

theorem kept_init (clock : Int) : Kept (State.init clock : State π) := by
  constructor <;> simp [State.init, Worker.events]

/-- What was stored stays so. -/
theorem stored_step (l : Label π) {event : Event π} (h : event ∈ s.stored) :
    event ∈ (step s l).stored := by
  have hsteps := step_cases s l
  generalize step s l = s' at hsteps ⊢
  cases hsteps with
  | publish hworker hstored =>
    rcases hstored with rfl | ⟨rfl, -⟩
    · exact List.mem_append_left _ h
    · exact h
  | stutter => exact h
  | tick => exact h
  | insert => exact h
  | claim => exact h
  | mark => exact h
  | crash => exact h

/-- Time does not go back. -/
theorem clock_le_step (s : State π) (l : Label π) : s.clock ≤ (step s l).clock := by
  have hsteps := step_cases s l
  generalize step s l = s' at hsteps ⊢
  cases hsteps with
  | tick hle => exact hle
  | _ => exact le_rfl

/-- Where a publisher can be after a step: where it was, or in a place that depends on what it has
just done. -/
theorem worker_step (l : Label π) (q : ℕ) :
    (step s l).workers q = s.workers q ∨
      (∃ locked, l = .claim q locked ∧ s.workers q = .idle ∧ (step s l).workers q =
        .next s.clock (claimPending batchSize leaseDuration s.clock locked s.outbox).1) ∨
      (∃ claimedAt event rest err, s.workers q = .publishing claimedAt event rest ∧
        (step s l).workers q = .marking claimedAt event rest err ∧
        (err = none → event ∈ (step s l).stored)) ∨
      (∃ claimedAt event rest, s.workers q = .marking claimedAt event rest none ∧
        (step s l).workers q = .next claimedAt rest) ∨
      (step s l).workers q = .idle := by
  have hsteps := step_cases s l
  generalize step s l = s' at hsteps ⊢
  cases hsteps with
  | stutter => exact Or.inl rfl
  | tick => exact Or.inl rfl
  | insert => exact Or.inl rfl
  -- The step of another publisher leaves this one where it is.
  | @claim p locked hidle =>
    rw [State.workers_setWorker]
    split
    next hq => exact Or.inr (Or.inl ⟨locked, by rw [hq], hq ▸ hidle, rfl⟩)
    next => exact Or.inl rfl
  | @publish p reply claimedAt event rest stored err hworker hstored =>
    rw [State.workers_setWorker]
    split
    next hq =>
      refine Or.inr (Or.inr (Or.inl ⟨claimedAt, event, rest, err, hq ▸ hworker, rfl, ?_⟩))
      rintro rfl
      rcases hstored with rfl | ⟨-, hne⟩
      · exact List.mem_append_right _ (List.mem_singleton_self event)
      · exact absurd rfl hne
    next => exact Or.inl rfl
  | @mark p reply claimedAt event rest err worker hworker hnext =>
    rw [State.workers_setWorker]
    split
    next hq =>
      rcases hnext with rfl | ⟨rfl, rfl, -⟩
      · exact Or.inr (Or.inr (Or.inr (Or.inr rfl)))
      · exact Or.inr (Or.inr (Or.inr (Or.inl ⟨claimedAt, event, rest, hq ▸ hworker, rfl⟩)))
    next => exact Or.inl rfl
  | crash =>
    rw [State.workers_setWorker]
    split
    next => exact Or.inr (Or.inr (Or.inr (Or.inr rfl)))
    next => exact Or.inl rfl

/-- A publisher gets new events only from a claim. -/
theorem events_step (l : Label π) (q : ℕ) {event : Event π}
    (hevent : event ∈ ((step s l).workers q).events) :
    event ∈ (s.workers q).events ∨
      ∃ locked, ∃ e ∈ pending batchSize s.clock locked s.outbox, toEvent e = event := by
  -- It is where it was, claims, has published, goes on in its batch, or gives up.
  rcases worker_step (s := s) l q with heq | ⟨locked, -, -, heq⟩ |
    ⟨claimedAt, event', rest, err, hworker, heq, -⟩ | ⟨claimedAt, event', rest, hworker, heq⟩ | heq
  · exact Or.inl (heq ▸ hevent)
  · rw [heq, Worker.events_next] at hevent
    exact Or.inr ⟨locked, List.mem_map.mp hevent⟩
  · rw [heq] at hevent
    rw [hworker]
    exact Or.inl hevent
  · rw [heq, Worker.events_next] at hevent
    rw [hworker]
    exact Or.inl (List.mem_cons_of_mem _ hevent)
  · simp [heq, Worker.events] at hevent

/-- The bounds of a row survive the passing of time and every touch. -/
private theorem Kept.bounds (hs : Kept s) (l : Label π) {e' : OutboxEvent π}
    (he' : e' ∈ (step s l).outbox.rows) :
    (∀ t ∈ e'.lockedUntil, t ≤ (step s l).clock + leaseDuration) ∧
      ∀ t ∈ e'.nextAttemptAt, t ≤ (step s l).clock + seconds 60 := by
  have hclock := clock_le_step s l
  rcases row_of_step l he' with ⟨e, he, htouches⟩ | ⟨subject, payload, sequence, fresh, -, -, rfl⟩
  · have hlocked : ∀ t ∈ e.lockedUntil, t ≤ (step s l).clock + leaseDuration := by
      intro t ht
      have hle := hs.lockedUntil e he t ht
      omega
    have hnext : ∀ t ∈ e.nextAttemptAt, t ≤ (step s l).clock + seconds 60 := by
      intro t ht
      have hle := hs.nextAttemptAt e he t ht
      omega
    -- A claim bounds the lease by the clock, a failure the next attempt; publishing takes both
    -- away.
    cases htouches with
    | same => exact ⟨hlocked, hnext⟩
    | leased =>
      refine ⟨?_, hnext⟩
      intro t ht
      obtain rfl : s.clock + leaseDuration = t := Option.some.inj ht
      omega
    | published => exact ⟨fun t ht => by simp [Outbox.published] at ht, by simp [Outbox.published]⟩
    | failed =>
      refine ⟨fun t ht => by simp [Outbox.failed] at ht, ?_⟩
      intro t ht
      obtain rfl : s.clock + backoff (e.attempts + 1) = t := Option.some.inj ht
      have hle := backoff_le (e.attempts + 1)
      omega
  · exact ⟨by simp [OutboxEvent.write], by simp [OutboxEvent.write]⟩

/-- Every step keeps it. -/
theorem Kept.step (hs : Kept s) (l : Label π) : Kept (step s l) where
  events := by
    intro p event hevent
    have hold : ∃ e ∈ s.outbox.rows, toEvent e = event := by
      rcases events_step l p hevent with hold | ⟨locked, e, he, rfl⟩
      · exact hs.events p event hold
      · exact ⟨e, (of_mem_pending he).1, rfl⟩
    obtain ⟨e, he, rfl⟩ := hold
    obtain ⟨e', he', htouches⟩ := touches_step l he
    exact ⟨e', he', htouches.toEvent.1⟩
  marking := by
    intro p claimedAt event rest hmarking
    rcases worker_step (s := s) l p with heq | ⟨locked, -, -, heq⟩ |
      ⟨claimedAt', event', rest', err, -, heq, hstored⟩ | ⟨claimedAt', event', rest', -, heq⟩ | heq
    · exact stored_step l (hs.marking p claimedAt event rest (heq ▸ hmarking))
    · rw [hmarking] at heq
      cases hclaimed : (claimPending batchSize leaseDuration s.clock locked s.outbox).1 <;>
        simp [hclaimed, Worker.next] at heq
    · rw [hmarking] at heq
      obtain ⟨rfl, rfl, rfl, rfl⟩ := Worker.marking.inj heq
      exact hstored rfl
    · rw [hmarking] at heq
      cases rest' <;> simp [Worker.next] at heq
    · simp [hmarking] at heq
  published := by
    intro e' he' hpublished
    rcases row_of_step l he' with ⟨e, he, htouches⟩ | ⟨subject, payload, sequence, fresh, -, -, rfl⟩
    · rw [htouches.toEvent.1]
      cases htouches with
      | same => exact stored_step l (hs.published _ he hpublished)
      | leased => exact stored_step _ (hs.published e he hpublished)
      | @published p reply claimedAt event rest hworker happlied hid =>
        -- The event in the batch is the one of the row.
        have hbatch : event ∈ (s.workers p).events := by simp [hworker, Worker.events]
        obtain ⟨x, hx, hevent⟩ := hs.events p event hbatch
        have hkey : e.eventID = x.eventID := hid.trans (congrArg Event.eventID hevent).symm
        rw [Table.eq_of_key_eq he hx hkey, hevent]
        exact stored_step _ (hs.marking p _ _ _ hworker)
      | failed => exact stored_step _ (hs.published e he hpublished)
    · simp [OutboxEvent.write] at hpublished
  lockedUntil := fun _ he' => (hs.bounds l he').1
  nextAttemptAt := fun _ he' => (hs.bounds l he').2

theorem kept_run (clock : Int) (labels : List (Label π)) :
    Kept (run step (State.init clock) labels) :=
  run_invariant (P := Kept) (fun _ l hs => hs.step l) (kept_init clock) labels

/-- The rows of `outbox` are in `outbox'`, with the same messages, and published if they were. -/
def Persists (outbox outbox' : Table (OutboxEvent π)) : Prop :=
  ∀ e ∈ outbox.rows, ∃ e' ∈ outbox'.rows, toEvent e' = toEvent e ∧ e'.createdAt = e.createdAt ∧
    e'.sequence = e.sequence ∧ (e.publishedAt ≠ none → e'.publishedAt ≠ none)

/-- No run loses a row. -/
theorem persists_run (s : State π) (labels : List (Label π)) :
    Persists s.outbox (run step s labels).outbox := by
  refine run_invariant (P := fun s' : State π => Persists s.outbox s'.outbox) ?_ ?_ labels
  · intro s' l hpersists e he
    obtain ⟨e', he', hevent, hcreated, hsequence, hpublished⟩ := hpersists e he
    obtain ⟨e'', he'', htouches⟩ := touches_step l he'
    obtain ⟨hevent', hcreated', hsequence'⟩ := htouches.toEvent
    exact ⟨e'', he'', hevent'.trans hevent, hcreated'.trans hcreated, hsequence'.trans hsequence,
      fun h => htouches.publishedAt (hpublished h)⟩
  · exact fun e he => ⟨e, he, rfl, rfl, rfl, id⟩

/-- In every run of any number of publishers: what is marked as published was stored; rows stay as
they are but for the columns of the publishers, and published rows stay published; a published row
is not claimed again; every lease ends within half a minute and every attempt is due within a
minute; hence an unpublished row that is left alone is claimable a minute later. -/
theorem nothing_lost (clock : Int) (labels : List (Label π)) :
    let s : State π := run step (State.init clock) labels
    (∀ e ∈ s.outbox.rows, e.publishedAt ≠ none → toEvent e ∈ s.stored) ∧
    (∀ later, Persists s.outbox (run step s later).outbox) ∧
    (∀ e ∈ s.outbox.rows, e.publishedAt ≠ none → ∀ later limit lease locked,
      ∀ event ∈ (claimPending limit lease (run step s later).clock locked
        (run step s later).outbox).1, event.eventID ≠ e.eventID) ∧
    (∀ e ∈ s.outbox.rows, e.publishedAt = none →
      (∀ t ∈ e.lockedUntil, t ≤ s.clock + seconds 30) ∧
      ∀ t ∈ e.nextAttemptAt, t ≤ s.clock + seconds 60) ∧
    ∀ e ∈ s.outbox.rows, e.publishedAt = none → ∀ now, s.clock + seconds 60 ≤ now →
      Claimable now e := by
  intro s
  have hs : Kept s := kept_run clock labels
  refine ⟨hs.published, persists_run s, ?_, ?_, ?_⟩
  · intro e he hpublished later limit lease locked event hevent hid
    -- The row is still there and still published, but a claimed row is not.
    obtain ⟨e', he', hsame, -, -, hstill⟩ := persists_run s later e he
    obtain ⟨x, hx, rfl⟩ := List.mem_map.mp hevent
    obtain ⟨hmem, hclaimable, -⟩ := of_mem_pending hx
    have hkey : x.eventID = e'.eventID := hid.trans (congrArg Event.eventID hsame).symm
    obtain rfl : x = e' := Table.eq_of_key_eq hmem he' hkey
    exact hstill hpublished hclaimable.1
  · exact fun e he _ => ⟨hs.lockedUntil e he, hs.nextAttemptAt e he⟩
  · intro e he hpublished now hnow
    refine ⟨hpublished, ?_, ?_⟩
    · intro t ht
      -- A lease of half a minute is over by then.
      have hle := hs.lockedUntil e he t ht
      simp only [leaseDuration, seconds] at hle hnow
      omega
    · intro t ht
      have hle := hs.nextAttemptAt e he t ht
      omega

end Outbox
