import PolyglotTicketing.Expiration.Queue

/-!
# The timers of Expiration

The job of an order is its timer. `timers_run` says what holds of it in every run: it is set by the
first delivery of the `OrderCreated` that the queue takes, and no later delivery sets it anew;
`ExpirationComplete` is published when it is due, not before, however often a worker fails or dies;
and it comes to nothing only if all attempts have failed, or if the queue has given it up after a
worker has died.
-/

namespace Expiration

open Platform Contracts Messaging Wire Relational Transition

variable (protobuf : Protobuf)

/-- With the event, the queue is given a job. -/
def Accepts (e : Event) (job : Job) (lag : ℕ) : Prop :=
  ∃ payload, e = .deliver payload lag true ∧ OrderCreatedHandler.handle protobuf payload = .ok job

/-- What holds of a job by itself. -/
structure QueuedJob.Sound (j : QueuedJob) : Prop where
  /-- A job is named by its order. -/
  orderId : j.orderId = j.jobId
  attempts : j.attempts = expirationPublishAttempts
  backoff : j.backoff = expirationPublishBackoffMilliseconds
  made_le : j.attemptsMade ≤ j.attempts
  /-- A job that waits has attempts left, and is not taken before it is due. -/
  delayed : ∀ runAt, j.state = .delayed runAt → j.due ≤ runAt ∧ j.attemptsMade < j.attempts

/-- How the jobs and the messages of the service belong together. -/
structure Timed (s : Service) : Prop where
  jobs : ∀ j ∈ s.jobs.rows, j.Sound
  /-- A message is published for a job that is due. -/
  stream : ∀ m ∈ s.stream, ∃ j ∈ s.jobs.rows, ∃ now ≤ s.clock,
    j.due ≤ dateNow now ∧ m = j.message protobuf now
  /-- A job is complete once its message has been published. -/
  completed : ∀ j ∈ s.jobs.rows, j.state = .completed → ∃ m ∈ s.stream, m.msgID = j.jobId

theorem timed_init (clock : Int) : Timed protobuf (.init clock) := by
  constructor <;> simp [Service.init]

variable {protobuf}

section Jobs

variable {j j' : QueuedJob} {now : Int}

/-- A job that a worker has taken is due when it was. -/
theorem QueuedJob.Becomes.due (h : j.Becomes j' now) : j'.due = j.due := by
  rw [QueuedJob.due, QueuedJob.due, h.timestamp, h.delay]

/-- The messages of a job do not change when a worker takes it. -/
theorem QueuedJob.Becomes.message (h : j.Becomes j' now) (at' : Int) :
    j'.message protobuf at' = j.message protobuf at' := by
  rw [QueuedJob.message, QueuedJob.message, h.orderId]

/-- A new job is taken when it is due. -/
theorem sound_schedule (now timestamp : Int) (job : Job) :
    (ExpirationScheduler.schedule now timestamp job).Sound where
  orderId := rfl
  attempts := rfl
  backoff := rfl
  made_le := Nat.zero_le _
  delayed := by
    intro runAt hstate
    obtain rfl := JobState.delayed.inj hstate
    exact ⟨le_refl _, show 0 < expirationPublishAttempts by decide⟩

/-- A worker that takes a job leaves a job behind that is taken when it is due. -/
theorem QueuedJob.Sound.becomes (h : j.Sound) (hbecomes : j.Becomes j' now) {runAt : Int}
    (hstate : j.state = .delayed runAt) (hdue : runAt ≤ now) : j'.Sound where
  orderId := by rw [hbecomes.orderId, hbecomes.jobId, h.orderId]
  attempts := hbecomes.attempts.trans h.attempts
  backoff := hbecomes.backoff.trans h.backoff
  made_le := by
    rw [hbecomes.attempts]
    exact hbecomes.made_le.trans (h.delayed runAt hstate).2
  delayed := by
    obtain ⟨hrunAt, -⟩ := h.delayed runAt hstate
    intro runAt' hstate'
    rcases hbecomes.delayed runAt' hstate' with rfl | ⟨hlt, k, rfl⟩
    · exact h.delayed runAt' hstate'
    · -- It waits from now on, which is not before it was due.
      have hpos : 0 ≤ 2 ^ k * j.backoff := by
        rw [h.backoff]
        exact Int.mul_nonneg (Int.pow_nonneg (by decide)) (by decide)
      rw [hbecomes.due, hbecomes.attempts]
      exact ⟨by omega, hlt⟩

end Jobs

section Steps

variable {s s' : Service} {e : Event} {j j' : QueuedJob} {now : Int}

/-- The rows after a worker has taken a job. -/
private theorem mem_replace_becomes {x : QueuedJob} (hbecomes : j.Becomes j' now)
    (hfind : s.jobs.find? j.jobId = some j) :
    x ∈ (s.jobs.replace j').rows ↔ x = j' ∨ x ∈ s.jobs.rows ∧ x.jobId ≠ j.jobId := by
  have hkey : key j' = j.jobId := hbecomes.jobId
  rw [Table.mem_replace (hkey ▸ hfind), hkey]
  rfl

variable (protobuf) in
/-- Every job is there after a worker has taken one, and due with the same messages. -/
private theorem exists_mem_replace (hbecomes : j.Becomes j' now)
    (hfind : s.jobs.find? j.jobId = some j) {x : QueuedJob} (hx : x ∈ s.jobs.rows) :
    ∃ x' ∈ (s.jobs.replace j').rows, x'.due = x.due ∧
      ∀ at', x'.message protobuf at' = x.message protobuf at' := by
  by_cases hid : x.jobId = j.jobId
  · obtain rfl : x = j := Table.eq_of_key_eq hx (Table.mem_of_find? hfind) hid
    exact ⟨j', (mem_replace_becomes hbecomes hfind).mpr (Or.inl rfl), hbecomes.due,
      hbecomes.message⟩
  · exact ⟨x, (mem_replace_becomes hbecomes hfind).mpr (Or.inr ⟨hx, hid⟩), rfl, fun _ => rfl⟩

/-- A new job keeps the jobs and the messages together. -/
theorem Timed.insert (h : Timed protobuf s) (now timestamp : Int) {job : Job}
    (hnew : s.jobs.find? job.orderID = none) :
    Timed protobuf
      { s with jobs := s.jobs.insert (ExpirationScheduler.schedule now timestamp job) } where
  jobs := Table.forall_insert h.jobs (sound_schedule now timestamp job)
  stream := by
    intro m hm
    obtain ⟨j, hj, hrest⟩ := h.stream m hm
    exact ⟨j, (Table.mem_insert hnew).mpr (Or.inl hj), hrest⟩
  completed := Table.forall_insert h.completed (by simp [ExpirationScheduler.schedule])

/-- A worker that takes a job keeps the jobs and the messages together. -/
theorem Timed.replace (h : Timed protobuf s) {stream : List Message} {runAt : Int}
    (hfind : s.jobs.find? j.jobId = some j) (hstate : j.state = .delayed runAt)
    (hdue : runAt ≤ dateNow s.clock) (hbecomes : j.Becomes j' (dateNow s.clock))
    (hsubset : ∀ m ∈ s.stream, m ∈ stream)
    (hstream : ∀ m ∈ stream, m ∈ s.stream ∨ m = j.message protobuf s.clock)
    (hcompleted : j'.state = .completed → ∃ m ∈ stream, m.msgID = j.orderId) :
    Timed protobuf { s with jobs := s.jobs.replace j', stream } where
  jobs :=
    Table.forall_replace h.jobs
      ((h.jobs j (Table.mem_of_find? hfind)).becomes hbecomes hstate hdue)
  stream := by
    have hj := Table.mem_of_find? hfind
    -- The messages of before have their job, and the new one has the job that was taken.
    have htimer : ∀ m ∈ stream, ∃ x ∈ s.jobs.rows, ∃ now ≤ s.clock,
        x.due ≤ dateNow now ∧ m = x.message protobuf now := by
      intro m hm
      rcases hstream m hm with hm | rfl
      · exact h.stream m hm
      · have hrunAt := ((h.jobs j hj).delayed runAt hstate).1
        exact ⟨j, hj, s.clock, le_refl _, hrunAt.trans hdue, rfl⟩
    intro m hm
    obtain ⟨x, hx, now, hnow, hxdue, rfl⟩ := htimer m hm
    obtain ⟨x', hx', hdue', hmessage⟩ := exists_mem_replace protobuf hbecomes hfind hx
    exact ⟨x', hx', now, hnow, hdue' ▸ hxdue, (hmessage now).symm⟩
  completed := by
    have hold : ∀ x ∈ s.jobs.rows, x.state = .completed → ∃ m ∈ stream, m.msgID = x.jobId := by
      intro x hx hstate'
      obtain ⟨m, hm, hid⟩ := h.completed x hx hstate'
      exact ⟨m, hsubset m hm, hid⟩
    refine Table.forall_replace hold fun hstate' => ?_
    rw [hbecomes.jobId, ← (h.jobs j (Table.mem_of_find? hfind)).orderId]
    exact hcompleted hstate'

/-- Every event keeps the jobs and the messages together. -/
theorem Timed.steps (h : Timed protobuf s) (hsteps : Steps protobuf s e s') :
    Timed protobuf s' := by
  cases hsteps with
  | stutter => exact h
  | tick hle =>
    refine { h with stream := ?_ }
    intro m hm
    obtain ⟨j, hj, now, hnow, hdue, heq⟩ := h.stream m hm
    exact ⟨j, hj, now, hnow.trans hle, hdue, heq⟩
  | added hhandle hnew => exact h.insert _ _ hnew
  | worked hevent hfind hstate hdue hbecomes hsubset hstream hcompleted =>
    exact h.replace hfind hstate hdue hbecomes hsubset hstream hcompleted

end Steps

variable (protobuf)

/-- The jobs and the messages belong together in every run. -/
theorem timed_run (clock : Int) (events : List Event) :
    Timed protobuf (run (step protobuf) (.init clock) events) :=
  run_invariant (P := Timed protobuf) (fun s e h => h.steps (step_cases protobuf s e))
    (timed_init protobuf clock) events

/-- The job was made by the first event of the run with which the queue was given a job for its
order. -/
def Scheduled (clock : Int) (events : List Event) (j : QueuedJob) : Prop :=
  ∃ front e back job lag, events = front ++ e :: back ∧ Accepts protobuf e job lag ∧
    job.orderID = j.jobId ∧
    (∀ e' ∈ front, ∀ job' lag', Accepts protobuf e' job' lag' → job'.orderID ≠ j.jobId) ∧
    let now := dateNow (run (step protobuf) (.init clock) front).clock
    j.timestamp = now + lag ∧ j.delay = max 0 (job.expiresAt - now)

/-- How the jobs come about, and how they end. -/
structure Traced (clock : Int) (events : List Event) (s : Service) : Prop where
  scheduled : ∀ j ∈ s.jobs.rows, Scheduled protobuf clock events j
  /-- Every job that the queue was given is there. -/
  accepted : ∀ e ∈ events, ∀ job lag, Accepts protobuf e job lag →
    s.jobs.find? job.orderID ≠ none
  failed : ∀ j ∈ s.jobs.rows, j.state = .failed → j.attempts ≤ j.attemptsMade ∨
    ∃ stored, .stall j.jobId stored true ∈ events

variable {protobuf}

/-- What has been scheduled by a run has been scheduled by a longer one. -/
theorem Scheduled.concat {clock : Int} {events : List Event} {j : QueuedJob}
    (h : Scheduled protobuf clock events j) (e : Event) :
    Scheduled protobuf clock (events ++ [e]) j := by
  obtain ⟨front, e', back, job, lag, rfl, hrest⟩ := h
  exact ⟨front, e', back ++ [e], job, lag, by simp, hrest⟩

/-- How a job came about does not change when a worker takes it. -/
theorem Scheduled.becomes {clock : Int} {events : List Event} {j j' : QueuedJob} {now : Int}
    (h : Scheduled protobuf clock events j) (hbecomes : j.Becomes j' now) :
    Scheduled protobuf clock events j' := by
  unfold Scheduled
  rw [hbecomes.jobId, hbecomes.timestamp, hbecomes.delay]
  exact h

section Traces

variable {clock : Int} {events : List Event} {e : Event} {s s' : Service}

/-- The orders for which the queue was given a job have one, if those of before keep theirs. -/
theorem Traced.accepted_concat (h : Traced protobuf clock events s)
    (hkeep : ∀ id, s.jobs.find? id ≠ none → s'.jobs.find? id ≠ none)
    (hlast : ∀ job lag, Accepts protobuf e job lag → s'.jobs.find? job.orderID ≠ none) :
    ∀ x ∈ events ++ [e], ∀ job lag, Accepts protobuf x job lag →
      s'.jobs.find? job.orderID ≠ none := by
  intro x hx job lag haccepts
  rcases List.mem_append.mp hx with hx | hx
  · exact hkeep _ (h.accepted x hx job lag haccepts)
  · obtain rfl := List.mem_singleton.mp hx
    exact hlast job lag haccepts

/-- What is said of the jobs of before is said with one more event. -/
theorem Traced.jobs_concat (h : Traced protobuf clock events s) (e : Event) :
    (∀ j ∈ s.jobs.rows, Scheduled protobuf clock (events ++ [e]) j) ∧
      ∀ j ∈ s.jobs.rows, j.state = .failed → j.attempts ≤ j.attemptsMade ∨
        ∃ stored, .stall j.jobId stored true ∈ events ++ [e] := by
  refine ⟨fun j hj => (h.scheduled j hj).concat e, fun j hj hstate => ?_⟩
  refine (h.failed j hj hstate).imp_right ?_
  rintro ⟨stored, hmem⟩
  exact ⟨stored, List.mem_append_left _ hmem⟩

/-- Events that give the queue no job. -/
theorem not_accepts {e : Event} (h : ∀ payload lag, e ≠ .deliver payload lag true) (job : Job)
    (lag : ℕ) : ¬Accepts protobuf e job lag := by
  rintro ⟨payload, heq, -⟩
  exact h payload lag heq

/-- The queue gets a job for an order that it has had none for. -/
theorem Traced.insert {payload : List UInt8} {lag : ℕ} {job : Job}
    (h : Traced protobuf clock events (run (step protobuf) (.init clock) events))
    (hs : run (step protobuf) (.init clock) events = s)
    (hhandle : OrderCreatedHandler.handle protobuf payload = .ok job)
    (hnew : s.jobs.find? job.orderID = none) :
    Traced protobuf clock (events ++ [.deliver payload lag true])
      { s with
        jobs := s.jobs.insert
          (ExpirationScheduler.schedule (dateNow s.clock) (dateNow s.clock + lag) job) } := by
  rw [hs] at h
  obtain ⟨hscheduled, hfailed⟩ := h.jobs_concat (.deliver payload lag true)
  let timer := ExpirationScheduler.schedule (dateNow s.clock) (dateNow s.clock + lag) job
  have hfind : ∀ id, (s.jobs.insert timer).find? id =
      if id = job.orderID then some timer else s.jobs.find? id :=
    fun id => Table.find?_insert (r := timer) hnew id
  refine ⟨Table.forall_insert hscheduled ?_, h.accepted_concat ?_ ?_,
    Table.forall_insert hfailed (by simp [ExpirationScheduler.schedule])⟩
  · -- There has been no job for the order, so that nothing before has made one.
    refine ⟨events, _, [], job, lag, rfl, ⟨payload, rfl, hhandle⟩, rfl, ?_, ?_⟩
    · intro x hx job' lag' haccepts heq
      exact h.accepted x hx job' lag' haccepts (heq ▸ hnew)
    · rw [hs]
      exact ⟨rfl, rfl⟩
  · intro id hknown
    rw [hfind]
    split
    · simp
    · exact hknown
  · rintro job' lag' ⟨payload', heq, hhandle'⟩
    obtain ⟨rfl, -, -⟩ := Event.deliver.inj heq
    obtain rfl := Except.ok.inj (hhandle.symm.trans hhandle')
    rw [hfind, if_pos rfl]
    simp

/-- Every event keeps the traces. -/
theorem Traced.steps
    (h : Traced protobuf clock events (run (step protobuf) (.init clock) events))
    (hsteps : Steps protobuf (run (step protobuf) (.init clock) events) e s') :
    Traced protobuf clock (events ++ [e]) s' := by
  obtain ⟨hscheduled, hfailed⟩ := h.jobs_concat e
  cases hsteps with
  | stutter hdeliver =>
    refine ⟨hscheduled, h.accepted_concat (fun _ hknown => hknown) ?_, hfailed⟩
    rintro job lag ⟨payload, rfl, hhandle⟩
    exact hdeliver payload lag job rfl hhandle
  | tick =>
    refine ⟨hscheduled, h.accepted_concat (fun _ hknown => hknown) ?_, hfailed⟩
    exact fun job lag haccepts => absurd haccepts (not_accepts (by simp) job lag)
  | added hhandle hnew => exact h.insert rfl hhandle hnew
  | @worked _ j j' stream runAt hevent hfind hstate hdue hbecomes hsubset hstream hcompleted
      hgivenUp =>
    have hj := Table.mem_of_find? hfind
    refine ⟨Table.forall_replace hscheduled ((hscheduled j hj).becomes hbecomes),
      h.accepted_concat ?_ ?_, Table.forall_replace hfailed ?_⟩
    · intro id hknown
      rwa [ne_eq, Table.find?_replace_eq_none_iff]
    · exact fun job lag haccepts =>
        absurd haccepts (not_accepts (fun payload lag => hevent payload lag true) job lag)
    · intro hstate'
      rw [hbecomes.attempts, hbecomes.jobId]
      refine (hgivenUp hstate').imp_right ?_
      rintro ⟨stored, rfl⟩
      exact ⟨stored, by simp⟩

end Traces

variable (protobuf)

theorem traced_run (clock : Int) (events : List Event) :
    Traced protobuf clock events (run (step protobuf) (.init clock) events) := by
  induction events using List.reverseRecOn with
  | nil => constructor <;> simp [Service.init]
  | append_singleton events e ih =>
    rw [run_concat]
    exact ih.steps (step_cases protobuf _ e)

/-- In every run of Expiration, whatever fails: there is nothing about an order as long as the queue
was given no job for it. From then on its timer is the one of the first delivery; every message
about it was published when the timer was due, and says so; a completed timer has its message; and
a failed one has used up its attempts, or a worker has died over it. -/
theorem timers_run (clock : Int) (events : List Event) (id : String) :
    let s := run (step protobuf) (.init clock) events
    ((∀ e ∈ events, ∀ job lag, Accepts protobuf e job lag → job.orderID ≠ id) ∧
      s.jobs.find? id = none ∧ ∀ m ∈ s.stream, m.msgID ≠ id) ∨
    ∃ j, s.jobs.find? id = some j ∧ Scheduled protobuf clock events j ∧
      (∀ m ∈ s.stream, m.msgID = id →
        ∃ now ≤ s.clock, j.due ≤ dateNow now ∧ m = j.message protobuf now) ∧
      (j.state = .completed → ∃ m ∈ s.stream, m.msgID = id) ∧
      (j.state = .failed → j.attemptsMade = expirationPublishAttempts ∨
        ∃ stored, .stall id stored true ∈ events) := by
  intro s
  have htimed : Timed protobuf s := timed_run protobuf clock events
  have htraced : Traced protobuf clock events s := traced_run protobuf clock events
  have hmsgID : ∀ m ∈ s.stream, ∃ j, s.jobs.find? m.msgID = some j ∧
      ∃ now ≤ s.clock, j.due ≤ dateNow now ∧ m = j.message protobuf now := by
    intro m hm
    obtain ⟨j, hj, now, hnow, hdue, rfl⟩ := htimed.stream m hm
    refine ⟨j, ?_, now, hnow, hdue, rfl⟩
    show s.jobs.find? j.orderId = some j
    rw [(htimed.jobs j hj).orderId]
    exact Table.find?_of_mem hj
  cases hfind : s.jobs.find? id with
  | none =>
    refine Or.inl ⟨?_, rfl, ?_⟩
    · rintro e he job lag haccepts rfl
      exact htraced.accepted e he job lag haccepts hfind
    · rintro m hm rfl
      obtain ⟨j, hfind', -⟩ := hmsgID m hm
      simp [hfind] at hfind'
  | some j =>
    have hj := Table.mem_of_find? hfind
    have hid : j.jobId = id := Table.key_of_find? hfind
    refine Or.inr ⟨j, rfl, htraced.scheduled j hj, ?_, ?_, ?_⟩
    · rintro m hm rfl
      obtain ⟨j', hfind', hrest⟩ := hmsgID m hm
      obtain rfl := Option.some.inj (hfind.symm.trans hfind')
      exact hrest
    · intro hstate
      rw [← hid]
      exact htimed.completed j hj hstate
    · intro hstate
      rw [← hid, ← (htimed.jobs j hj).attempts]
      refine (htraced.failed j hj hstate).imp_left fun hle => ?_
      exact Nat.le_antisymm (htimed.jobs j hj).made_le hle

end Expiration
