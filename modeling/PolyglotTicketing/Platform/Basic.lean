import Mathlib.Order.Defs.LinearOrder
import PolyglotTicketing.Relational.Table

/-!
# Identifiers, times and outbox rows

What the databases of the three Go services have in common: `UUID` and `TIMESTAMPTZ` columns and
the table `outbox_events`.

Identifiers are modelled by the value of the `UUID` column, not by a text for it: the services
pass on the text form that PostgreSQL returns for that value (`id::text`), so that two such texts
agree exactly if the values do. Points in time and durations are integers, in microseconds: the
resolution of `TIMESTAMPTZ`.
-/

namespace Platform

open Relational

/-- The value of a `UUID` column. -/
abbrev Uuid := BitVec 128

/-- Lists of identifiers are searched with their equality. -/
instance instLawfulBEqUuid : LawfulBEq Uuid := inferInstance

/-- A duration in seconds. -/
def seconds (n : Int) : Int := n * 1000000

/-- A duration in minutes. -/
def minutes (n : Int) : Int := seconds (60 * n)

/-- The white space of the Go function `unicode.IsSpace`. -/
def isSpace (c : Char) : Bool :=
  c ∈ ['\t', '\n', '\x0b', '\x0c', '\r', ' ', '\u0085', '\u00a0', '\u1680', '\u2028', '\u2029',
    '\u202f', '\u205f', '\u3000'] ∨ '\u2000' ≤ c ∧ c ≤ '\u200a'

/-- `strings.TrimSpace(s) == ""`. -/
def Blank (s : String) : Prop := s.toList.all isSpace = true

instance (s : String) : Decidable (Blank s) := inferInstanceAs (Decidable (_ = true))

/-- What the environment generates for one statement. -/
structure Fresh where
  /-- The result of `gen_random_uuid()` or `uuid.NewString()`. -/
  id : Uuid
  /-- The result of `time.Now()` in the service. -/
  occurredAt : Int
  /-- Which of several rows that `ORDER BY` does not tell apart comes first. -/
  tie : ℕ
deriving DecidableEq

/-- A row of `outbox_events` with a payload of type `π`. The columns after `sequence` belong to
the publisher; an insertion leaves them at their defaults. -/
structure OutboxEvent (π : Type) where
  /-- The primary key, which is also the `Nats-Msg-Id` of the published message. -/
  eventID : Uuid
  /-- The subject the payload is published on. -/
  subject : String
  /-- The message. -/
  payload : π
  /-- When the event was written, by the clock of the service. -/
  createdAt : Int
  /-- The identity column by which the publisher orders the rows. -/
  sequence : ℕ
  /-- When the message was published. -/
  publishedAt : Option Int := none
  /-- The number of failed attempts to publish. -/
  attempts : ℕ := 0
  /-- The error of the last failed attempt. -/
  lastError : Option String := none
  /-- The earliest time of the next attempt. -/
  nextAttemptAt : Option Int := none
  /-- The end of the lease of a publisher. -/
  lockedUntil : Option Int := none
deriving DecidableEq

instance (π : Type) : Keyed (OutboxEvent π) Uuid := ⟨OutboxEvent.eventID⟩

@[simp]
theorem key_outboxEvent {π : Type} (e : OutboxEvent π) : key e = e.eventID := rfl

/-- The row that an `INSERT INTO outbox_events` writes, for a payload that is marshalled from the
generated event identifier and the time at which the event occurred. -/
def OutboxEvent.write {π : Type} (subject : String) (payload : Uuid → Int → π) (sequence : ℕ)
    (fresh : Fresh) : OutboxEvent π where
  eventID := fresh.id
  subject := subject
  payload := payload fresh.id fresh.occurredAt
  createdAt := fresh.occurredAt
  sequence := sequence

section Write

variable {π : Type} (subject : String) (payload : Uuid → Int → π) (sequence : ℕ) (fresh : Fresh)

@[simp]
theorem OutboxEvent.eventID_write :
    (OutboxEvent.write subject payload sequence fresh).eventID = fresh.id := rfl

@[simp]
theorem OutboxEvent.payload_write :
    (OutboxEvent.write subject payload sequence fresh).payload =
      payload fresh.id fresh.occurredAt := rfl

@[simp]
theorem OutboxEvent.sequence_write :
    (OutboxEvent.write subject payload sequence fresh).sequence = sequence := rfl

end Write

section Outbox

variable {π : Type} {outbox : Table (OutboxEvent π)} {e : OutboxEvent π} {sequence : ℕ}

/-- The rows of an outbox about one aggregate, oldest first. -/
def eventsAbout (aggregate : π → Uuid) (outbox : Table (OutboxEvent π)) (id : Uuid) :
    List (OutboxEvent π) :=
  outbox.rows.filter fun e => decide (aggregate e.payload = id)

/-- A row is added to an outbox: its key is new, and its place in the sequence has been drawn and
comes after all rows about the same aggregate. -/
structure Appends (aggregate : π → Uuid) (outbox : Table (OutboxEvent π)) (sequence : ℕ)
    (e : OutboxEvent π) : Prop where
  new : outbox.find? e.eventID = none
  sequence_lt : e.sequence < sequence
  after : ∀ x ∈ outbox.rows, aggregate x.payload = aggregate e.payload → x.sequence < e.sequence

/-- Adding a row with a drawn place keeps all places drawn. -/
theorem Appends.rows_lt {aggregate : π → Uuid} (h : Appends aggregate outbox sequence e)
    (hrows : ∀ x ∈ outbox.rows, x.sequence < sequence) :
    ∀ x ∈ (outbox.insert e).rows, x.sequence < sequence := by
  intro x hx
  rcases (Table.mem_insert h.new).mp hx with hx | rfl
  · exact hrows x hx
  · exact h.sequence_lt

variable {aggregate : π → Uuid} {id : Uuid}

/-- The rows about an aggregate are rows of the outbox. -/
theorem mem_eventsAbout : e ∈ eventsAbout aggregate outbox id ↔
    e ∈ outbox.rows ∧ aggregate e.payload = id := by
  simp [eventsAbout]

/-- A new row about an aggregate comes last. -/
theorem eventsAbout_insert (hnew : outbox.find? e.eventID = none)
    (hid : aggregate e.payload = id) :
    eventsAbout aggregate (outbox.insert e) id = eventsAbout aggregate outbox id ++ [e] := by
  rw [eventsAbout, Table.rows_insert hnew, List.filter_append]
  simp [eventsAbout, hid]

/-- A new row about another aggregate does not matter. -/
theorem eventsAbout_insert_of_ne (hnew : outbox.find? e.eventID = none)
    (hid : aggregate e.payload ≠ id) :
    eventsAbout aggregate (outbox.insert e) id = eventsAbout aggregate outbox id := by
  rw [eventsAbout, Table.rows_insert hnew, List.filter_append]
  simp [eventsAbout, hid]

/-- An aggregate without rows. -/
theorem eventsAbout_eq_nil_iff :
    eventsAbout aggregate outbox id = [] ↔ ∀ x ∈ outbox.rows, aggregate x.payload ≠ id := by
  simp [eventsAbout, List.filter_eq_nil_iff]

end Outbox

end Platform
