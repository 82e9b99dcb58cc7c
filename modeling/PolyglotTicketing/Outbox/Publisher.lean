import Mathlib.Logic.Function.Basic
import PolyglotTicketing.Outbox.Repository
import PolyglotTicketing.Transition.Run

/-!
# The publishers of an outbox

`publishPending` of `internal/outbox/publisher.go`, for any number of publishers on one table. A
publisher claims a batch, publishes its events one after the other, and marks each of them before it
goes on to the next one; it abandons the batch at the first failure. Between any two of these
operations everything else can happen: time passes, services add rows, other publishers act, and a
publisher crashes.

A failed publication may have reached JetStream all the same, and so may a failed `Mark…` statement
have reached the database.
-/

namespace Outbox

open Platform Relational Transition

/-- The lease of `leaseDuration`. -/
def leaseDuration : Int := seconds 30

/-- The limit of `batchSize`. -/
def batchSize : ℕ := 100

variable {π : Type}

/-- Where a publisher is in `publishPending`. -/
inductive Worker (π : Type) where
  /-- It waits for its next poll. -/
  | idle
  /-- It is about to publish an event of the batch it has claimed. -/
  | publishing (claimedAt : Int) (event : Event π) (rest : List (Event π))
  /-- It is about to mark an event, as failed if there is an error. -/
  | marking (claimedAt : Int) (event : Event π) (rest : List (Event π))
    (publishErr : Option String)

/-- The loop over the events of a batch. -/
def Worker.next (claimedAt : Int) : List (Event π) → Worker π
  | [] => .idle
  | event :: rest => .publishing claimedAt event rest

/-- The events of its batch that a publisher has not marked yet. -/
def Worker.events : Worker π → List (Event π)
  | .idle => []
  | .publishing _ event rest => event :: rest
  | .marking _ event rest _ => event :: rest

@[simp]
theorem Worker.events_next (claimedAt : Int) (events : List (Event π)) :
    (Worker.next claimedAt events).events = events := by
  cases events <;> rfl

/-- An outbox with its publishers. -/
structure State (π : Type) where
  /-- The table `outbox_events`. -/
  outbox : Table (OutboxEvent π)
  /-- The time on the database server. -/
  clock : Int
  /-- The publications that JetStream has accepted, oldest first. Of those of one event within the
  duplicate window of two minutes, which it all acknowledges, the stream keeps one copy. -/
  stored : List (Event π)
  /-- The publishers. -/
  workers : ℕ → Worker π

/-- A migrated outbox, before the first poll. -/
def State.init (clock : Int) : State π := ⟨.empty, clock, [], fun _ => .idle⟩

/-- The result of `PublishMsg`. -/
inductive PublishReply where
  | acknowledged
  /-- An error, and whether the message was stored nevertheless. -/
  | failed (stored : Bool) (publishErr : String)

/-- The result of a `Mark…` statement. -/
inductive MarkReply where
  | done
  /-- An error, and whether the statement has taken effect nevertheless. -/
  | failed (applied : Bool)

/-- Whether a `Mark…` statement has taken effect. -/
def MarkReply.applied : MarkReply → Bool
  | .done => true
  | .failed applied => applied

/-- What can happen. -/
inductive Label (π : Type) where
  /-- Time passes. -/
  | tick (now : Int)
  /-- A service commits a row. -/
  | insert (subject : String) (payload : Uuid → Int → π) (sequence : ℕ) (fresh : Fresh)
  /-- A publisher claims a batch, without the rows that others have locked. -/
  | claim (p : ℕ) (locked : List Uuid)
  /-- A publisher publishes the next event. -/
  | publish (p : ℕ) (reply : PublishReply)
  /-- A publisher marks the event it has tried to publish. -/
  | mark (p : ℕ) (reply : MarkReply)
  /-- A publisher crashes and starts again. -/
  | crash (p : ℕ)

/-- Put a publisher into another place. -/
def State.setWorker (s : State π) (p : ℕ) (worker : Worker π) : State π :=
  { s with workers := Function.update s.workers p worker }

/-- The table after the `Mark…` statement for an event. -/
def markOutbox (now : Int) (event : Event π) (publishErr : Option String)
    (outbox : Table (OutboxEvent π)) : Table (OutboxEvent π) :=
  match publishErr with
  | none => markPublished now event.eventID outbox
  | some err => markFailed now event.eventID err outbox

/-- One thing that happens. What is not possible changes nothing. -/
def step (s : State π) : Label π → State π
  | .tick now => if s.clock ≤ now then { s with clock := now } else s
  | .insert subject payload sequence fresh =>
    let row := OutboxEvent.write subject payload sequence fresh
    if (s.outbox.find? row.eventID).isNone then { s with outbox := s.outbox.insert row } else s
  | .claim p locked =>
    match s.workers p with
    | .idle =>
      -- One statement claims the whole batch, and tells when its leases have begun.
      let claimed := claimPending batchSize leaseDuration s.clock locked s.outbox
      { s with outbox := claimed.2 }.setWorker p (.next s.clock claimed.1)
    | _ => s
  | .publish p reply =>
    match s.workers p with
    | .publishing claimedAt event rest =>
      match reply with
      | .acknowledged =>
        { s with stored := s.stored ++ [event] }.setWorker p (.marking claimedAt event rest none)
      | .failed stored publishErr =>
        -- JetStream may have stored the message although the publisher has got an error.
        { s with stored := if stored then s.stored ++ [event] else s.stored }.setWorker p
          (.marking claimedAt event rest (some publishErr))
    | _ => s
  | .mark p reply =>
    match s.workers p with
    | .marking claimedAt event rest publishErr =>
      let outbox := if reply.applied then markOutbox s.clock event publishErr s.outbox else s.outbox
      { s with outbox }.setWorker p
        (match reply, publishErr with
        -- `publishPending` goes on only if the event was published and marked as such.
        | .done, none => .next claimedAt rest
        | _, _ => .idle)
    | _ => s
  | .crash p => s.setWorker p .idle

/-- Everything that a step can do. -/
inductive Steps (s : State π) : Label π → State π → Prop
  /-- Nothing: it is not possible. -/
  | stutter {l : Label π} : Steps s l s
  /-- Time passes. -/
  | tick {now : Int} (hle : s.clock ≤ now) : Steps s (.tick now) { s with clock := now }
  /-- A service commits a row. -/
  | insert {subject : String} {payload : Uuid → Int → π} {sequence : ℕ} {fresh : Fresh}
      (hnew : s.outbox.find? fresh.id = none) :
      Steps s (.insert subject payload sequence fresh)
        { s with outbox := s.outbox.insert (OutboxEvent.write subject payload sequence fresh) }
  /-- A publisher claims a batch. -/
  | claim {p : ℕ} {locked : List Uuid} (hidle : s.workers p = .idle) :
      Steps s (.claim p locked)
        ({ s with
            outbox := (claimPending batchSize leaseDuration s.clock locked s.outbox).2 }.setWorker p
          (.next s.clock (claimPending batchSize leaseDuration s.clock locked s.outbox).1))
  /-- A publisher publishes an event; JetStream has it in `stored` if there is no error. -/
  | publish {p : ℕ} {reply : PublishReply} {claimedAt : Int} {event : Event π}
      {rest : List (Event π)} {stored : List (Event π)} {publishErr : Option String}
      (hworker : s.workers p = .publishing claimedAt event rest)
      (hstored : stored = s.stored ++ [event] ∨ stored = s.stored ∧ publishErr ≠ none) :
      Steps s (.publish p reply)
        ({ s with stored := stored }.setWorker p (.marking claimedAt event rest publishErr))
  /-- A publisher marks an event, and goes on with the next one only if all is well. -/
  | mark {p : ℕ} {reply : MarkReply} {claimedAt : Int} {event : Event π} {rest : List (Event π)}
      {publishErr : Option String} {worker : Worker π}
      (hworker : s.workers p = .marking claimedAt event rest publishErr)
      (hnext : worker = .idle ∨
        worker = .next claimedAt rest ∧ publishErr = none ∧ reply = .done) :
      Steps s (.mark p reply)
        ({ s with outbox := if reply.applied then markOutbox s.clock event publishErr s.outbox
          else s.outbox }.setWorker p worker)
  /-- A publisher crashes. -/
  | crash {p : ℕ} : Steps s (.crash p) (s.setWorker p .idle)

theorem step_cases (s : State π) (l : Label π) : Steps s l (step s l) := by
  cases l with
  | tick now =>
    rw [step]
    split
    next hle => exact .tick hle
    next => exact .stutter
  | insert subject payload sequence fresh =>
    simp only [step]
    split
    next hnew => exact .insert (by simpa using hnew)
    next => exact .stutter
  | claim p locked =>
    rw [step]
    split
    next hidle => exact .claim hidle
    next => exact .stutter
  | publish p reply =>
    rw [step]
    split
    next claimedAt event rest hworker =>
      cases reply with
      | acknowledged => exact .publish hworker (Or.inl rfl)
      | failed stored publishErr =>
        refine .publish hworker ?_
        cases stored
        · exact Or.inr ⟨rfl, by simp⟩
        · exact Or.inl rfl
    next => exact .stutter
  | mark p reply =>
    rw [step]
    split
    next claimedAt event rest publishErr hworker =>
      refine .mark hworker ?_
      cases reply with
      | done =>
        -- The publisher goes on with the batch only after a success that it has marked.
        cases publishErr with
        | none => exact Or.inr ⟨rfl, rfl, rfl⟩
        | some err => exact Or.inl rfl
      | failed applied => exact Or.inl rfl
    next => exact .stutter
  | crash p => exact .crash

section Setters

variable (s : State π) (p : ℕ) (worker : Worker π)

@[simp]
theorem State.outbox_setWorker : (s.setWorker p worker).outbox = s.outbox := rfl

@[simp]
theorem State.clock_setWorker : (s.setWorker p worker).clock = s.clock := rfl

@[simp]
theorem State.stored_setWorker : (s.setWorker p worker).stored = s.stored := rfl

/-- Only one publisher is in another place. -/
theorem State.workers_setWorker (q : ℕ) :
    (s.setWorker p worker).workers q = if q = p then worker else s.workers q :=
  Function.update_apply s.workers p worker q

end Setters

/-- What one step can do to a row. -/
inductive Touches (s : State π) (e : OutboxEvent π) : Label π → OutboxEvent π → Prop
  /-- Nothing. -/
  | same {l : Label π} : Touches s e l e
  /-- A claim takes a lease on it. -/
  | leased {p : ℕ} {locked : List Uuid} (hclaimed : e ∈ pending batchSize s.clock locked s.outbox) :
      Touches s e (.claim p locked) (lease (s.clock + leaseDuration) e)
  /-- A publisher that has published it marks it. -/
  | published {p : ℕ} {reply : MarkReply} {claimedAt : Int} {event : Event π}
      {rest : List (Event π)} (hworker : s.workers p = .marking claimedAt event rest none)
      (happlied : reply.applied = true) (hid : e.eventID = event.eventID) :
      Touches s e (.mark p reply) (published s.clock e)
  /-- A publisher that has failed to publish it marks it. -/
  | failed {p : ℕ} {reply : MarkReply} {claimedAt : Int} {event : Event π} {rest : List (Event π)}
      {err : String} (hworker : s.workers p = .marking claimedAt event rest (some err))
      (happlied : reply.applied = true) (hid : e.eventID = event.eventID) :
      Touches s e (.mark p reply) (failed s.clock err e)

section Touches

variable {s : State π} {e e' : OutboxEvent π} {l : Label π}

/-- Only the columns of the publisher are touched. -/
theorem Touches.toEvent (h : Touches s e l e') :
    toEvent e' = toEvent e ∧ e'.createdAt = e.createdAt ∧ e'.sequence = e.sequence := by
  cases h <;> exact ⟨rfl, rfl, rfl⟩

theorem Touches.eventID (h : Touches s e l e') : e'.eventID = e.eventID :=
  congrArg Event.eventID h.toEvent.1

/-- A published row stays published. -/
theorem Touches.publishedAt (h : Touches s e l e') (hpublished : e.publishedAt ≠ none) :
    e'.publishedAt ≠ none := by
  cases h with
  | same => exact hpublished
  | leased => exact hpublished
  | published => exact Option.some_ne_none s.clock
  | failed => exact hpublished

/-- What a `Mark…` statement does to a row. -/
private theorem touches_mark {p : ℕ} {reply : MarkReply} {claimedAt : Int} {event : Event π}
    {rest : List (Event π)} {publishErr : Option String}
    (hworker : s.workers p = .marking claimedAt event rest publishErr)
    (happlied : reply.applied = true) (he : e ∈ s.outbox.rows) :
    ∃ e' ∈ (markOutbox s.clock event publishErr s.outbox).rows, Touches s e (.mark p reply) e' := by
  cases publishErr with
  | none =>
    refine ⟨_, List.mem_map_of_mem he, ?_⟩
    split
    next hid => exact .published hworker happlied hid
    next => exact .same
  | some err =>
    refine ⟨_, List.mem_map_of_mem he, ?_⟩
    split
    next hid => exact .failed hworker happlied hid
    next => exact .same

/-- Rows stay, and are touched at most. -/
theorem touches_step (l : Label π) (he : e ∈ s.outbox.rows) :
    ∃ e' ∈ (step s l).outbox.rows, Touches s e l e' := by
  have hsteps := step_cases s l
  generalize step s l = s' at hsteps ⊢
  cases hsteps with
  | stutter => exact ⟨e, he, .same⟩
  | tick => exact ⟨e, he, .same⟩
  | insert hnew => exact ⟨e, (Table.mem_insert hnew).mpr (Or.inl he), .same⟩
  | @claim p locked hidle =>
    refine ⟨_, List.mem_map_of_mem he, ?_⟩
    split
    next hmem =>
      -- The row is found by its key in the batch, so that it is the claimed row itself.
      obtain ⟨x, hx, hid⟩ := List.mem_map.mp hmem
      obtain rfl : x = e := Table.eq_of_key_eq (of_mem_pending hx).1 he hid
      exact .leased hx
    next => exact .same
  | publish => exact ⟨e, he, .same⟩
  | @mark p reply claimedAt event rest publishErr worker hworker =>
    rw [State.outbox_setWorker]
    split
    next happlied => exact touches_mark hworker happlied he
    next => exact ⟨e, he, .same⟩
  | crash => exact ⟨e, he, .same⟩

/-- A row after a step was there before, or a service has just added it. -/
theorem row_of_step (l : Label π) (he' : e' ∈ (step s l).outbox.rows) :
    (∃ e ∈ s.outbox.rows, Touches s e l e') ∨
      ∃ subject payload sequence fresh, l = .insert subject payload sequence fresh ∧
        s.outbox.find? fresh.id = none ∧ e' = OutboxEvent.write subject payload sequence fresh := by
  -- A row with this key was there before, or the key is new.
  cases hold : s.outbox.find? e'.eventID with
  | some e =>
    have he := Table.mem_of_find? hold
    obtain ⟨e'', he'', htouches⟩ := touches_step l he
    have hid : e''.eventID = e'.eventID := htouches.eventID.trans (Table.key_of_find? hold)
    obtain rfl : e'' = e' := Table.eq_of_key_eq he'' he' hid
    exact Or.inl ⟨e, he, htouches⟩
  | none =>
    right
    have hnot : ∀ x ∈ s.outbox.rows, x.eventID ≠ e'.eventID := Table.find?_eq_none_iff.mp hold
    -- Updates do not make new keys.
    have hupdate : ∀ {f : OutboxEvent π → OutboxEvent π}, (∀ r, (f r).eventID = r.eventID) →
        e' ∉ s.outbox.rows.map f := by
      intro f hf hmem
      obtain ⟨x, hx, rfl⟩ := List.mem_map.mp hmem
      exact hnot x hx (hf x).symm
    have hsteps := step_cases s l
    generalize step s l = s' at hsteps he'
    cases hsteps with
    | stutter => exact absurd rfl (hnot e' he')
    | tick => exact absurd rfl (hnot e' he')
    | @insert subject payload sequence fresh hnew =>
      rcases (Table.mem_insert hnew).mp he' with hmem | rfl
      · exact absurd rfl (hnot e' hmem)
      · exact ⟨subject, payload, sequence, fresh, rfl, hnew, rfl⟩
    | claim => exact absurd he' (hupdate fun r => by split <;> rfl)
    | publish => exact absurd rfl (hnot e' he')
    | @mark p reply claimedAt event rest publishErr worker hworker =>
      rw [State.outbox_setWorker] at he'
      split at he'
      · cases publishErr <;> exact absurd he' (hupdate fun r => by split <;> rfl)
      · exact absurd rfl (hnot e' he')
    | crash => exact absurd rfl (hnot e' he')

end Touches

end Outbox
