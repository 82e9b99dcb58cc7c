import Mathlib.Algebra.Group.Int.Defs
import PolyglotTicketing.Expiration.Handler
import PolyglotTicketing.Contracts.Expiration
import PolyglotTicketing.Relational.Table
import PolyglotTicketing.Transition.Run

/-!
# The queue of Expiration

`ExpirationScheduler`, `ExpirationProcessor` and `JetStreamExpirationPublisher` of
`apps/expiration/src/expiration`, with the queue of BullMQ between them. The queue keeps all jobs
that it was given, one for each `jobId`. A worker takes a job when it is due, and again after a
failed attempt or after a worker that has died, as long as attempts are left. `step_cases` lists
everything that one event can do.
-/

namespace Expiration

open Platform Contracts Messaging Wire Relational Transition

/-- The name of the jobs of the queue. -/
def expirationJobName : String := "expiration-complete"

/-- How often a job is tried. -/
def expirationPublishAttempts : ℕ := 5

/-- How long the first retry waits, in milliseconds. -/
def expirationPublishBackoffMilliseconds : Int := 1000

/-- Where a job of the queue is. -/
inductive JobState where
  /-- It is taken at this time, in milliseconds, or later. -/
  | delayed (runAt : Int)
  | completed
  | failed
deriving DecidableEq

/-- A job as the queue keeps it. -/
structure QueuedJob where
  name : String
  orderId : String
  jobId : String
  attempts : ℕ
  backoff : Int
  /-- When the queue got it, in milliseconds. -/
  timestamp : Int
  delay : Int
  attemptsMade : ℕ
  state : JobState
deriving DecidableEq

instance : Keyed QueuedJob String := ⟨QueuedJob.jobId⟩

@[simp]
theorem key_queuedJob (j : QueuedJob) : key j = j.jobId := rfl

/-- When a job is due. -/
def QueuedJob.due (j : QueuedJob) : Int := j.timestamp + j.delay

/-- The milliseconds of `Date.now()`. -/
def dateNow (clock : Int) : Int := clock / 1000

/-- The job that `ExpirationScheduler.schedule` adds at the time `now`, when the queue gets it
at the time `timestamp`. -/
def ExpirationScheduler.schedule (now timestamp : Int) (job : Job) : QueuedJob :=
  let delay := max 0 (job.expiresAt - now)
  { name := expirationJobName
    orderId := job.orderID
    jobId := job.orderID
    attempts := expirationPublishAttempts
    backoff := expirationPublishBackoffMilliseconds
    timestamp
    delay
    attemptsMade := 0
    state := .delayed (timestamp + delay) }

/-- A job after a failed attempt: it is tried again after an exponential backoff, or given up. -/
def QueuedJob.retry (j : QueuedJob) (now : Int) : QueuedJob :=
  if j.attemptsMade + 1 < j.attempts then
    { j with
      attemptsMade := j.attemptsMade + 1
      state := .delayed (now + 2 ^ j.attemptsMade * j.backoff) }
  else { j with attemptsMade := j.attemptsMade + 1, state := .failed }

/-- A message of the stream `EXPIRATION_EVENTS`. -/
structure Message where
  subject : String
  payload : List UInt8
  msgID : String
deriving DecidableEq

/-- What becomes of a publication. -/
inductive PublishReply where
  /-- It is acknowledged; the stream may have taken it for a duplicate. -/
  | acknowledged (duplicate : Bool)
  /-- It fails for the publisher, and the message may be stored all the same. -/
  | failed (stored : Bool)
deriving DecidableEq

/-- The service with its queue and its stream. -/
structure Service where
  /-- The clock of the service. -/
  clock : Int
  jobs : Table QueuedJob
  stream : List Message

def Service.init (clock : Int) : Service := ⟨clock, .empty, []⟩

/-- What can happen. -/
inductive Event where
  /-- Time passes. -/
  | tick (now : Int)
  /-- An `OrderCreated` is delivered. If the queue takes the job, it has it `lag` milliseconds
  later. -/
  | deliver (payload : List UInt8) (lag : ℕ) (added : Bool)
  /-- A worker takes a job. -/
  | work (jobId : String) (reply : PublishReply)
  /-- A worker takes a job and dies, after which the job is taken again or given up. -/
  | stall (jobId : String) (stored gaveUp : Bool)

variable (protobuf : Protobuf)

/-- What `ExpirationProcessor.process` publishes for a job at the time `now`. -/
def ExpirationProcessor.process (now : Int) (j : QueuedJob) : Except String Message :=
  if j.name ≠ expirationJobName then .error ("Unsupported expiration job: " ++ j.name)
  else .ok
    { subject := expirationCompleteSubject
      payload := publishExpirationComplete protobuf now j.orderId
      msgID := j.orderId }

/-- The stream stores a message, unless it takes it for a duplicate of one that it has stored. -/
def store (stream : List Message) (m : Message) (duplicate : Bool) : List Message :=
  if duplicate = true ∧ ∃ m' ∈ stream, m'.msgID = m.msgID then stream else stream ++ [m]

/-- A worker processes a job. -/
def Service.process (s : Service) (j : QueuedJob) (reply : PublishReply) : Service :=
  match ExpirationProcessor.process protobuf s.clock j, reply with
  | .error _, _ => { s with jobs := s.jobs.replace (j.retry (dateNow s.clock)) }
  | .ok m, .acknowledged duplicate =>
    { s with
      jobs := s.jobs.replace { j with attemptsMade := j.attemptsMade + 1, state := .completed }
      stream := store s.stream m duplicate }
  | .ok m, .failed stored =>
    { s with
      jobs := s.jobs.replace (j.retry (dateNow s.clock))
      stream := if stored then store s.stream m false else s.stream }

/-- A worker dies while it processes a job. -/
def Service.stall (s : Service) (j : QueuedJob) (stored gaveUp : Bool) : Service :=
  { s with
    jobs := if gaveUp then s.jobs.replace { j with state := .failed } else s.jobs
    stream :=
      match ExpirationProcessor.process protobuf s.clock j with
      | .ok m => if stored then store s.stream m false else s.stream
      | .error _ => s.stream }

/-- The job that a worker can take. -/
def Service.dueJob (s : Service) (jobId : String) : Option QueuedJob :=
  (s.jobs.find? jobId).filter fun j =>
    match j.state with
    | .delayed runAt => decide (runAt ≤ dateNow s.clock)
    | _ => false

/-- One event. -/
def step (s : Service) : Event → Service
  | .tick now => if s.clock ≤ now then { s with clock := now } else s
  | .deliver payload lag added =>
    match OrderCreatedHandler.handle protobuf payload, added with
    | .ok job, true =>
      let now := dateNow s.clock
      { s with jobs := s.jobs.insert (ExpirationScheduler.schedule now (now + lag) job) }
    | _, _ => s
  | .work jobId reply =>
    match s.dueJob jobId with
    | none => s
    | some j => s.process protobuf j reply
  | .stall jobId stored gaveUp =>
    match s.dueJob jobId with
    | none => s
    | some j => s.stall protobuf j stored gaveUp

/-- The message that is published for a job at the time `now`. -/
def QueuedJob.message (j : QueuedJob) (now : Int) : Message where
  subject := expirationCompleteSubject
  payload := publishExpirationComplete protobuf now j.orderId
  msgID := j.orderId

/-- What a worker can make of a job. -/
structure QueuedJob.Becomes (j j' : QueuedJob) (now : Int) : Prop where
  jobId : j'.jobId = j.jobId
  orderId : j'.orderId = j.orderId
  name : j'.name = j.name
  attempts : j'.attempts = j.attempts
  backoff : j'.backoff = j.backoff
  timestamp : j'.timestamp = j.timestamp
  delay : j'.delay = j.delay
  made_le : j'.attemptsMade ≤ j.attemptsMade + 1
  delayed : ∀ runAt, j'.state = .delayed runAt → j' = j ∨
    j'.attemptsMade < j.attempts ∧ ∃ k : ℕ, runAt = now + 2 ^ k * j.backoff

theorem QueuedJob.Becomes.refl (j : QueuedJob) (now : Int) : j.Becomes j now :=
  ⟨rfl, rfl, rfl, rfl, rfl, rfl, rfl, Nat.le_succ _, fun _ _ => Or.inl rfl⟩

/-- A retry leaves everything of a job alone but its attempts and its state. -/
theorem QueuedJob.becomes_retry (j : QueuedJob) (now : Int) : j.Becomes (j.retry now) now := by
  unfold QueuedJob.retry
  split
  next hlt =>
    refine ⟨rfl, rfl, rfl, rfl, rfl, rfl, rfl, Nat.le_refl _, fun runAt hstate => Or.inr ⟨hlt, ?_⟩⟩
    exact ⟨j.attemptsMade, (JobState.delayed.inj hstate).symm⟩
  next =>
    exact ⟨rfl, rfl, rfl, rfl, rfl, rfl, rfl, Nat.le_refl _, fun _ hstate => by simp at hstate⟩

/-- The ways in which one event changes the service. -/
inductive Steps (s : Service) : Event → Service → Prop
  /-- Nothing happens. -/
  | stutter {e : Event} (hdeliver : ∀ payload lag job, e = .deliver payload lag true →
      OrderCreatedHandler.handle protobuf payload = .ok job →
        s.jobs.find? job.orderID ≠ none) : Steps s e s
  /-- Time passes. -/
  | tick {now : Int} (hle : s.clock ≤ now) : Steps s (.tick now) { s with clock := now }
  /-- The queue gets a job with a new name. -/
  | added {payload : List UInt8} {lag : ℕ} {job : Job}
      (hhandle : OrderCreatedHandler.handle protobuf payload = .ok job)
      (hnew : s.jobs.find? job.orderID = none) :
      Steps s (.deliver payload lag true)
        { s with
          jobs := s.jobs.insert
            (ExpirationScheduler.schedule (dateNow s.clock) (dateNow s.clock + lag) job) }
  /-- A worker takes a job that is due. -/
  | worked {e : Event} {j j' : QueuedJob} {stream : List Message} {runAt : Int}
      (hevent : ∀ payload lag added, e ≠ .deliver payload lag added)
      (hfind : s.jobs.find? j.jobId = some j) (hstate : j.state = .delayed runAt)
      (hdue : runAt ≤ dateNow s.clock) (hbecomes : j.Becomes j' (dateNow s.clock))
      (hsubset : ∀ m ∈ s.stream, m ∈ stream)
      (hstream : ∀ m ∈ stream, m ∈ s.stream ∨ m = j.message protobuf s.clock)
      (hcompleted : j'.state = .completed → ∃ m ∈ stream, m.msgID = j.orderId)
      (hfailed : j'.state = .failed → j.attempts ≤ j'.attemptsMade ∨
        ∃ stored, e = .stall j.jobId stored true) :
      Steps s e { s with jobs := s.jobs.replace j', stream }

section StepCases

variable {s : Service} {j : QueuedJob} {stream : List Message} {m : Message}

theorem mem_store_of_mem {x : Message} (hx : x ∈ stream) (duplicate : Bool) :
    x ∈ store stream m duplicate := by
  unfold store
  split
  · exact hx
  · exact List.mem_append_left _ hx

theorem mem_of_mem_store {x : Message} {duplicate : Bool} (hx : x ∈ store stream m duplicate) :
    x ∈ stream ∨ x = m := by
  unfold store at hx
  split at hx
  · exact Or.inl hx
  · exact (List.mem_append.mp hx).imp_right List.mem_singleton.mp

/-- A message that is stored, or taken for a duplicate, is there by its identifier. -/
theorem exists_mem_store (stream : List Message) (m : Message) (duplicate : Bool) :
    ∃ x ∈ store stream m duplicate, x.msgID = m.msgID := by
  unfold store
  split
  next h => exact h.2
  next => exact ⟨m, by simp, rfl⟩

/-- What is processed is the message of the job. -/
theorem process_cases (now : Int) (j : QueuedJob) :
    ExpirationProcessor.process protobuf now j = .ok (j.message protobuf now) ∨
      ∃ e, ExpirationProcessor.process protobuf now j = .error e := by
  unfold ExpirationProcessor.process
  split
  · exact Or.inr ⟨_, rfl⟩
  · exact Or.inl rfl

/-- A job that can be taken is in the queue, and its time has come. -/
theorem dueJob_eq_some {jobId : String} (h : s.dueJob jobId = some j) :
    s.jobs.find? j.jobId = some j ∧ j.jobId = jobId ∧
      ∃ runAt, j.state = .delayed runAt ∧ runAt ≤ dateNow s.clock := by
  obtain ⟨hfind, hdue⟩ := Option.filter_eq_some_iff.mp h
  have hid : j.jobId = jobId := Table.key_of_find? hfind
  refine ⟨hid ▸ hfind, hid, ?_⟩
  split at hdue
  next runAt hstate => exact ⟨runAt, hstate, of_decide_eq_true hdue⟩
  next => simp at hdue

/-- A job that is given up has used up its attempts. -/
theorem attempts_le_of_retry {now : Int} (hfailed : (j.retry now).state = .failed) :
    j.attempts ≤ (j.retry now).attemptsMade := by
  unfold QueuedJob.retry at hfailed ⊢
  split at hfailed
  next => simp at hfailed
  next hle =>
    rw [if_neg hle]
    exact Nat.le_of_not_lt hle

theorem retry_ne_completed (now : Int) : (j.retry now).state ≠ .completed := by
  unfold QueuedJob.retry
  split <;> simp

variable {e : Event} {runAt : Int}

/-- A failed attempt, after which the stream may have the message. -/
private theorem steps_retry (hevent : ∀ payload lag added, e ≠ .deliver payload lag added)
    (hfind : s.jobs.find? j.jobId = some j) (hstate : j.state = .delayed runAt)
    (hdue : runAt ≤ dateNow s.clock) (stream : List Message)
    (hsubset : ∀ m ∈ s.stream, m ∈ stream)
    (hstream : ∀ m ∈ stream, m ∈ s.stream ∨ m = j.message protobuf s.clock) :
    Steps protobuf s e { s with jobs := s.jobs.replace (j.retry (dateNow s.clock)), stream } :=
  .worked hevent hfind hstate hdue (j.becomes_retry _) hsubset hstream
    (fun h => absurd h (retry_ne_completed _)) fun h => Or.inl (attempts_le_of_retry h)

/-- Everything that a worker can do. -/
private theorem steps_process (hevent : ∀ payload lag added, e ≠ .deliver payload lag added)
    (hfind : s.jobs.find? j.jobId = some j) (hstate : j.state = .delayed runAt)
    (hdue : runAt ≤ dateNow s.clock) (reply : PublishReply) :
    Steps protobuf s e (s.process protobuf j reply) := by
  have hsame : ∀ m ∈ s.stream, m ∈ s.stream ∨ m = j.message protobuf s.clock :=
    fun m hm => Or.inl hm
  have hstored : ∀ duplicate, ∀ m ∈ store s.stream (j.message protobuf s.clock) duplicate,
      m ∈ s.stream ∨ m = j.message protobuf s.clock :=
    fun duplicate m hm => mem_of_mem_store hm
  unfold Service.process
  rcases process_cases protobuf s.clock j with hok | ⟨error, herror⟩
  · rw [hok]
    cases reply with
    | acknowledged duplicate =>
      refine .worked hevent hfind hstate hdue
        ⟨rfl, rfl, rfl, rfl, rfl, rfl, rfl, Nat.le_refl _, by simp⟩
        (fun m hm => mem_store_of_mem hm duplicate) (hstored duplicate) ?_ (by simp)
      exact fun _ => exists_mem_store s.stream (j.message protobuf s.clock) duplicate
    | failed stored =>
      cases stored with
      | true =>
        exact steps_retry protobuf hevent hfind hstate hdue _
          (fun m hm => mem_store_of_mem hm false) (hstored false)
      | false => exact steps_retry protobuf hevent hfind hstate hdue _ (fun m hm => hm) hsame
  · rw [herror]
    exact steps_retry protobuf hevent hfind hstate hdue _ (fun m hm => hm) hsame

/-- A worker that dies leaves its job alone, or has it given up. -/
private theorem steps_stall (hfind : s.jobs.find? j.jobId = some j)
    (hstate : j.state = .delayed runAt) (hdue : runAt ≤ dateNow s.clock) (stored gaveUp : Bool) :
    Steps protobuf s (.stall j.jobId stored gaveUp) (s.stall protobuf j stored gaveUp) := by
  have hsubset : ∀ m ∈ s.stream, m ∈ (s.stall protobuf j stored gaveUp).stream := by
    intro m hm
    unfold Service.stall
    rcases process_cases protobuf s.clock j with hok | ⟨error, herror⟩
    · simp only [hok]
      split
      · exact mem_store_of_mem hm false
      · exact hm
    · simpa only [herror] using hm
  have hstream : ∀ m ∈ (s.stall protobuf j stored gaveUp).stream,
      m ∈ s.stream ∨ m = j.message protobuf s.clock := by
    intro m hm
    unfold Service.stall at hm
    rcases process_cases protobuf s.clock j with hok | ⟨error, herror⟩
    · simp only [hok] at hm
      split at hm
      · exact mem_of_mem_store hm
      · exact Or.inl hm
    · simp only [herror] at hm
      exact Or.inl hm
  cases gaveUp with
  | true =>
    have hbecomes : j.Becomes { j with state := .failed } (dateNow s.clock) :=
      ⟨rfl, rfl, rfl, rfl, rfl, rfl, rfl, Nat.le_succ _, by simp⟩
    exact .worked (by simp) hfind hstate hdue hbecomes hsubset hstream (by simp)
      fun _ => Or.inr ⟨stored, rfl⟩
  | false =>
    -- The row is as it was, which is the same as putting it in its own place.
    have hjobs : s.jobs.replace j = s.jobs := Table.replace_self hfind
    have hworked : Steps protobuf s (.stall j.jobId stored false)
        { s with
          jobs := s.jobs.replace j
          stream := (s.stall protobuf j stored false).stream } :=
      .worked (by simp) hfind hstate hdue (.refl j _) hsubset hstream (by simp [hstate])
        (by simp [hstate])
    rwa [hjobs] at hworked

end StepCases

/-- Everything that an event can do. -/
theorem step_cases (s : Service) (e : Event) : Steps protobuf s e (step protobuf s e) := by
  cases e with
  | tick now =>
    simp only [step]
    split
    next hle => exact .tick hle
    next => exact .stutter (by simp)
  | deliver payload lag added =>
    simp only [step]
    split
    next job hhandle =>
      by_cases hnew : s.jobs.find? job.orderID = none
      · exact .added hhandle hnew
      · -- The queue has a job with this name.
        rw [Table.insert_of_taken hnew]
        refine .stutter ?_
        rintro payload' lag' job' heq hhandle'
        obtain ⟨rfl, -, -⟩ := Event.deliver.inj heq
        obtain rfl := Except.ok.inj (hhandle.symm.trans hhandle')
        exact hnew
    next hnot =>
      refine .stutter ?_
      rintro payload' lag' job' heq hhandle'
      obtain ⟨rfl, -, rfl⟩ := Event.deliver.inj heq
      exact absurd rfl (hnot job' hhandle')
  | work jobId reply =>
    simp only [step]
    split
    next => exact .stutter (by simp)
    next j hj =>
      obtain ⟨hfind, rfl, runAt, hstate, hdue⟩ := dueJob_eq_some hj
      exact steps_process protobuf (by simp) hfind hstate hdue reply
  | stall jobId stored gaveUp =>
    simp only [step]
    split
    next => exact .stutter (by simp)
    next j hj =>
      obtain ⟨hfind, rfl, runAt, hstate, hdue⟩ := dueJob_eq_some hj
      exact steps_stall protobuf hfind hstate hdue stored gaveUp

end Expiration
