import Mathlib.Algebra.Group.Int.Defs
import Mathlib.Data.List.Sort
import PolyglotTicketing.Platform.Basic

/-!
# The repository of the outbox

The statements of `internal/outbox/postgres_repository.go` on the table `outbox_events` of a
service, as functions of `NOW()`.

A row is claimable unless it is published, under a lease or waiting for its next attempt.
`ClaimPending` takes a lease on the first claimable rows that no other transaction has locked
(`SKIP LOCKED`); `MarkPublished` and `MarkFailed` find their row by its key alone.
-/

namespace Outbox

open Platform Relational

/-- The type `Event`, which the publisher gets of a row. The trace context is left out. -/
structure Event (π : Type) where
  eventID : Uuid
  subject : String
  payload : π
deriving DecidableEq

variable {π : Type}

/-- The columns of a row that a claim returns. -/
def toEvent (e : OutboxEvent π) : Event π :=
  { eventID := e.eventID, subject := e.subject, payload := e.payload }

/-- The `WHERE` clause of `ClaimPending`. -/
def Claimable (now : Int) (e : OutboxEvent π) : Prop :=
  e.publishedAt = none ∧ (∀ t ∈ e.lockedUntil, t < now) ∧ ∀ t ∈ e.nextAttemptAt, t ≤ now

instance (now : Int) (e : OutboxEvent π) : Decidable (Claimable now e) :=
  inferInstanceAs (Decidable (_ ∧ _ ∧ _))

/-- The rows that `ClaimPending` selects: the first `limit` claimable ones, in the order of the
sequence, without those that other transactions have locked. -/
def pending (limit : ℕ) (now : Int) (locked : List Uuid) (outbox : Table (OutboxEvent π)) :
    List (OutboxEvent π) :=
  ((outbox.rows.filter fun e => decide (Claimable now e ∧ e.eventID ∉ locked)).insertionSort
    fun e e' => e.sequence ≤ e'.sequence).take limit

/-- The row with a lease. -/
def lease (deadline : Int) (e : OutboxEvent π) : OutboxEvent π :=
  { e with lockedUntil := some deadline }

/-- The claimed events, and the table with a lease on their rows. -/
def claimPending (limit : ℕ) (leaseDuration now : Int) (locked : List Uuid)
    (outbox : Table (OutboxEvent π)) : List (Event π) × Table (OutboxEvent π) :=
  let claimed := pending limit now locked outbox
  (claimed.map toEvent,
    outbox.update (fun e => if e.eventID ∈ claimed.map OutboxEvent.eventID then
      lease (now + leaseDuration) e else e) fun e => by split <;> rfl)

/-- The row after it was published. -/
def published (now : Int) (e : OutboxEvent π) : OutboxEvent π :=
  { e with publishedAt := some now, lockedUntil := none, lastError := none, nextAttemptAt := none }

def markPublished (now : Int) (eventID : Uuid) (outbox : Table (OutboxEvent π)) :
    Table (OutboxEvent π) :=
  outbox.update (fun e => if e.eventID = eventID then published now e else e) fun e => by
    split <;> rfl

/-- The time until the next attempt, after `attempts` attempts that have failed. -/
def backoff (attempts : ℕ) : Int := seconds (min (2 ^ min attempts 6) 60)

/-- The row after an attempt to publish it has failed. -/
def failed (now : Int) (publishError : String) (e : OutboxEvent π) : OutboxEvent π :=
  { e with
    attempts := e.attempts + 1
    lastError := some publishError
    lockedUntil := none
    nextAttemptAt := some (now + backoff (e.attempts + 1)) }

def markFailed (now : Int) (eventID : Uuid) (publishError : String)
    (outbox : Table (OutboxEvent π)) : Table (OutboxEvent π) :=
  outbox.update (fun e => if e.eventID = eventID then failed now publishError e else e) fun e => by
    split <;> rfl

/-- Attempts are never further apart than a minute. -/
theorem backoff_le (attempts : ℕ) : backoff attempts ≤ seconds 60 := by
  have hle : (min (2 ^ min attempts 6) 60 : Int) ≤ 60 := min_le_right _ _
  unfold backoff seconds
  omega

section Pending

variable {limit : ℕ} {now : Int} {locked : List Uuid} {outbox : Table (OutboxEvent π)}
  {e : OutboxEvent π}

/-- The claimed rows are the first of all claimable rows, in the order of the sequence. -/
theorem pending_eq_take (limit : ℕ) (now : Int) (locked : List Uuid)
    (outbox : Table (OutboxEvent π)) : ∃ claimable : List (OutboxEvent π),
      pending limit now locked outbox = claimable.take limit ∧
      (claimable.Pairwise fun e e' => e.sequence ≤ e'.sequence) ∧
      ∀ e, e ∈ claimable ↔ e ∈ outbox.rows ∧ Claimable now e ∧ e.eventID ∉ locked := by
  have htotal : Std.Total fun e e' : OutboxEvent π => e.sequence ≤ e'.sequence :=
    ⟨fun e e' => Nat.le_total e.sequence e'.sequence⟩
  have htrans : IsTrans (OutboxEvent π) fun e e' => e.sequence ≤ e'.sequence :=
    ⟨fun _ _ _ => Nat.le_trans⟩
  refine ⟨_, rfl, List.pairwise_insertionSort _ _, ?_⟩
  intro e
  rw [List.mem_insertionSort]
  simp

/-- Claimed rows are claimable rows of the table. -/
theorem of_mem_pending (he : e ∈ pending limit now locked outbox) :
    e ∈ outbox.rows ∧ Claimable now e ∧ e.eventID ∉ locked := by
  obtain ⟨claimable, heq, -, hmem⟩ := pending_eq_take limit now locked outbox
  rw [heq] at he
  exact (hmem e).mp (List.mem_of_mem_take he)

end Pending

end Outbox
