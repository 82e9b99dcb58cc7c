import Mathlib.Data.List.Induction
import PolyglotTicketing.Outbox.Delivery

/-!
# The leases of an outbox

A claim takes a lease of 30 s on its rows, but the batch behind it can take much longer, and the
`Mark…` statements find their row by its key alone. A publisher whose lease has run out may thus
still mark a row that another publisher has claimed in the meantime. If it marks the row as
published, the row is out of the way; if it marks it as failed, it ends the lease of the other
publisher. `leases_exclusive` shows that leases hold in exactly the runs in which this does not
happen.
-/

namespace Outbox

open Platform Relational Transition

variable {π : Type}

/-- A publisher has an event in its batch that it has claimed at time `t` and not marked yet. -/
def Worker.Holds (t : Int) (id : Uuid) : Worker π → Prop
  | .idle => False
  | .publishing claimedAt event rest => claimedAt = t ∧ id ∈ (event :: rest).map Event.eventID
  | .marking claimedAt event rest _ => claimedAt = t ∧ id ∈ (event :: rest).map Event.eventID

@[simp]
theorem Worker.holds_next {t claimedAt : Int} {id : Uuid} {events : List (Event π)} :
    (Worker.next claimedAt events).Holds t id ↔
      claimedAt = t ∧ id ∈ events.map Event.eventID := by
  cases events <;> simp [Worker.next, Worker.Holds]

/-- `ClaimPending` returns an event to a publisher. -/
def Claims (s : State π) (l : Label π) (p : ℕ) (id : Uuid) : Prop :=
  ∃ locked, l = .claim p locked ∧ s.workers p = .idle ∧
    id ∈ (claimPending batchSize leaseDuration s.clock locked s.outbox).1.map Event.eventID

/-- A publisher marks an event that it has claimed at time `t`. -/
def Settles (s : State π) (l : Label π) (p : ℕ) (t : Int) (id : Uuid) : Prop :=
  ∃ reply event rest publishErr, l = .mark p reply ∧ reply.applied = true ∧
    s.workers p = .marking t event rest publishErr ∧ event.eventID = id

/-- `MarkFailed` takes effect on a row under a running lease, which was not taken by the claim of
the publisher that calls it. -/
def Late (s : State π) : Label π → Prop
  | .mark p reply =>
    match s.workers p with
    | .marking t event _ (some _) => reply.applied = true ∧ ∃ e ∈ s.outbox.rows,
        e.eventID = event.eventID ∧ ∃ u ∈ e.lockedUntil, s.clock < u ∧ u ≠ t + leaseDuration
    | _ => False
  | _ => False

instance (s : State π) : (l : Label π) → Decidable (Late s l)
  | .mark p reply => by
    unfold Late
    dsimp only
    generalize s.workers p = worker
    exact match worker with
      | .marking _ _ _ (some _) => inferInstance
      | .marking _ _ _ none | .publishing .. | .idle => instDecidableFalse
  | .tick _ | .insert .. | .claim .. | .publish .. | .crash _ => instDecidableFalse

theorem late_iff {s : State π} {l : Label π} : Late s l ↔
    ∃ p reply t event rest err, l = .mark p reply ∧
      s.workers p = .marking t event rest (some err) ∧ reply.applied = true ∧
      ∃ e ∈ s.outbox.rows, e.eventID = event.eventID ∧
        ∃ u ∈ e.lockedUntil, s.clock < u ∧ u ≠ t + leaseDuration := by
  constructor
  · intro hlate
    unfold Late at hlate
    split at hlate
    next p reply =>
      split at hlate
      next t event rest err hworker => exact ⟨p, reply, t, event, rest, err, rfl, hworker, hlate⟩
      next => exact hlate.elim
    next => exact hlate.elim
  · rintro ⟨p, reply, t, event, rest, err, rfl, hworker, hlate⟩
    simp only [Late, hworker]
    exact hlate

/-- A row is not claimable at time `t` any more. -/
def Spent (t : Int) (e : OutboxEvent π) : Prop :=
  e.publishedAt ≠ none ∨ (∃ u ∈ e.lockedUntil, t ≤ u) ∨ ∃ u ∈ e.nextAttemptAt, t < u

section Claim

variable {s : State π} {l : Label π} {p : ℕ} {id : Uuid} {t : Int} {e e' : OutboxEvent π}

theorem Spent.not_claimable (h : Spent t e) : ¬Claimable t e := by
  rintro ⟨hpublished, hlocked, hnext⟩
  rcases h with h | ⟨u, hu, hle⟩ | ⟨u, hu, hlt⟩
  · exact h hpublished
  · exact absurd (hlocked u hu) (not_lt.mpr hle)
  · exact absurd (hnext u hu) (not_le.mpr hlt)

/-- After a failed attempt, the next one has to wait. -/
theorem backoff_pos (attempts : ℕ) : 0 < backoff attempts := by
  have hpow : (0 : Int) < 2 ^ min attempts 6 := Int.pow_pos (by decide)
  have hpos : (0 : Int) < min (2 ^ min attempts 6) 60 := lt_min hpow (by decide)
  unfold backoff seconds
  omega

/-- What is over stays over. -/
theorem Touches.spent (h : Touches s e l e') (hle : t ≤ s.clock) (hspent : Spent t e) :
    Spent t e' := by
  -- A touched row is under a newer lease, published, or waits for its next attempt.
  cases h with
  | same => exact hspent
  | leased =>
    refine Or.inr (Or.inl ⟨_, rfl, ?_⟩)
    show t ≤ s.clock + leaseDuration
    simp only [leaseDuration, seconds]
    omega
  | published => exact Or.inl (Option.some_ne_none _)
  | failed =>
    refine Or.inr (Or.inr ⟨_, rfl, ?_⟩)
    have hpos := backoff_pos (e.attempts + 1)
    show t < s.clock + backoff (e.attempts + 1)
    omega

/-- A claimed row was claimable, and is under a lease after the claim. -/
theorem Claims.row (h : Claims s l p id) :
    (∃ e ∈ s.outbox.rows, e.eventID = id ∧ Claimable s.clock e) ∧
      ∃ e ∈ (step s l).outbox.rows, e.eventID = id ∧
        e.lockedUntil = some (s.clock + leaseDuration) := by
  obtain ⟨locked, rfl, hidle, hid⟩ := h
  simp only [claimPending, List.map_map, List.mem_map, Function.comp] at hid
  obtain ⟨e, he, rfl⟩ := hid
  obtain ⟨hmem, hclaimable, -⟩ := of_mem_pending he
  refine ⟨⟨e, hmem, rfl, hclaimable⟩, lease (s.clock + leaseDuration) e, ?_, rfl, rfl⟩
  have hid : e.eventID ∈
      (pending batchSize s.clock locked s.outbox).map OutboxEvent.eventID := List.mem_map_of_mem he
  simp only [step, hidle, claimPending, State.outbox_setWorker, Table.update]
  exact List.mem_map.mpr ⟨e, hmem, if_pos hid⟩

/-- A publisher gets an event only from a claim. -/
theorem holds_step {q : ℕ} (hholds : ((step s l).workers q).Holds t id) :
    (s.workers q).Holds t id ∨ (Claims s l q id ∧ t = s.clock) := by
  rcases worker_step (s := s) l q with heq | ⟨locked, hl, hidle, heq⟩ |
    ⟨claimedAt, event, rest, err, hworker, heq, -⟩ | ⟨claimedAt, event, rest, hworker, heq⟩ | heq
  · exact Or.inl (heq ▸ hholds)
  · rw [heq, Worker.holds_next] at hholds
    exact Or.inr ⟨⟨locked, hl, hidle, hholds.2⟩, hholds.1.symm⟩
  · rw [heq] at hholds
    rw [hworker]
    exact Or.inl hholds
  · rw [heq, Worker.holds_next] at hholds
    rw [hworker]
    exact Or.inl ⟨hholds.1, List.mem_cons_of_mem _ hholds.2⟩
  · rw [heq] at hholds
    exact hholds.elim

end Claim

/-- An event in a batch was claimed in the past, and could not be claimed again at that time. -/
def Batches (s : State π) : Prop :=
  ∀ p t id, (s.workers p).Holds t id →
    t ≤ s.clock ∧ ∃ e ∈ s.outbox.rows, e.eventID = id ∧ Spent t e

theorem batches_init (clock : Int) : Batches (State.init clock : State π) :=
  fun _ _ _ hholds => hholds.elim

/-- Every step keeps it. -/
theorem Batches.of_step {s : State π} (hs : Batches s) (l : Label π) : Batches (step s l) := by
  intro p t id hholds
  have hclock := clock_le_step s l
  -- The batch was there before, or it has just been claimed.
  rcases holds_step hholds with hold | ⟨hclaims, rfl⟩
  · obtain ⟨hle, e, he, rfl, hspent⟩ := hs p t id hold
    obtain ⟨e', he', htouches⟩ := touches_step l he
    exact ⟨hle.trans hclock, e', he', htouches.eventID, htouches.spent hle hspent⟩
  · obtain ⟨-, e, he, hid, hlocked⟩ := hclaims.row
    refine ⟨hclock, e, he, hid, Or.inr (Or.inl ⟨_, hlocked, ?_⟩)⟩
    simp only [leaseDuration, seconds]
    omega

theorem batches_run (clock : Int) (labels : List (Label π)) :
    Batches (run step (State.init clock) labels) :=
  run_invariant (P := Batches) (fun _ l hs => hs.of_step l) (batches_init clock) labels

/-- No event is twice in a batch. -/
def Distinct (s : State π) : Prop := ∀ p, ((s.workers p).events.map Event.eventID).Nodup

theorem nodup_claimPending (limit : ℕ) (lease now : Int) (locked : List Uuid)
    (outbox : Table (OutboxEvent π)) :
    ((claimPending limit lease now locked outbox).1.map Event.eventID).Nodup := by
  have hperm : (pending limit now locked outbox).Sublist _ := List.take_sublist _ _
  have hrows : ((outbox.rows.filter fun e => decide (Claimable now e ∧ e.eventID ∉ locked)).map
      OutboxEvent.eventID).Nodup := outbox.nodup.sublist (List.filter_sublist.map _)
  rw [claimPending, List.map_map]
  exact (((List.perm_insertionSort _ _).map _).nodup_iff.mpr hrows).sublist (hperm.map _)

/-- Every step keeps it. -/
theorem Distinct.of_step {s : State π} (hs : Distinct s) (l : Label π) : Distinct (step s l) := by
  intro p
  rcases worker_step (s := s) l p with heq | ⟨locked, -, -, heq⟩ |
    ⟨claimedAt, event, rest, err, hworker, heq, -⟩ | ⟨claimedAt, event, rest, hworker, heq⟩ | heq
  · rw [heq]
    exact hs p
  · rw [heq, Worker.events_next]
    exact nodup_claimPending _ _ _ _ _
  · have hnodup := hs p
    rw [hworker] at hnodup
    rw [heq]
    exact hnodup
  · have hnodup := hs p
    rw [hworker] at hnodup
    rw [heq, Worker.events_next]
    exact (List.nodup_cons.mp hnodup).2
  · rw [heq]
    exact List.nodup_nil

/-- Published rows are under no lease. -/
def Unlocked (s : State π) : Prop :=
  ∀ e ∈ s.outbox.rows, e.publishedAt ≠ none → e.lockedUntil = none

/-- Every step keeps it. -/
theorem Unlocked.of_step {s : State π} (hs : Unlocked s) (l : Label π) : Unlocked (step s l) := by
  intro e' he' hpublished
  rcases row_of_step l he' with ⟨e, he, htouches⟩ | ⟨subject, payload, sequence, fresh, -, -, rfl⟩
  · cases htouches with
    | same => exact hs _ he hpublished
    | leased hclaimed => exact absurd (of_mem_pending hclaimed).2.1.1 hpublished
    | published => rfl
    | failed => rfl
  · rfl

/-- A row that was claimed at time `t` and may have been marked since: it is under the lease of the
claim, or it is under none and not claimable while that lease would run, or that time is over. -/
inductive Guarded (t clock : Int) (e : OutboxEvent π) : Prop
  | leased (hlocked : e.lockedUntil = some (t + leaseDuration))
  | published (hlocked : e.lockedUntil = none) (hpublished : e.publishedAt ≠ none)
  | failed (hlocked : e.lockedUntil = none) (hle : t + leaseDuration ≤ clock)
    (hnext : ∃ u ∈ e.nextAttemptAt, t + leaseDuration < u)
  | lapsed (hlt : t + leaseDuration < clock)

section Guarded

variable {t clock clock' : Int} {e : OutboxEvent π}

theorem Guarded.mono (h : Guarded t clock e) (hle : clock ≤ clock') : Guarded t clock' e := by
  cases h with
  | leased hlocked => exact .leased hlocked
  | published hlocked hpublished => exact .published hlocked hpublished
  | failed hlocked hout hnext => exact .failed hlocked (hout.trans hle) hnext
  | lapsed hlt => exact .lapsed (hlt.trans_le hle)

/-- While the lease runs, the row is not claimable. -/
theorem Guarded.lt_of_claimable (h : Guarded t clock e) (hclaimable : Claimable clock e) :
    t + leaseDuration < clock := by
  obtain ⟨hnone, hlocked, hnext⟩ := hclaimable
  cases h with
  | leased hlease => exact hlocked _ hlease
  | published _ hpublished => exact absurd hnone hpublished
  | failed _ _ hlater =>
    obtain ⟨u, hu, hlt⟩ := hlater
    exact hlt.trans_le (hnext u hu)
  | lapsed hlt => exact hlt

/-- While the lease runs, the row is not under another one. -/
theorem Guarded.lt_of_ne (h : Guarded t clock e) {u : Int} (hu : u ∈ e.lockedUntil)
    (hne : u ≠ t + leaseDuration) : t + leaseDuration < clock := by
  cases h with
  | leased hlocked => exact absurd (Option.some.inj (hu.symm.trans hlocked)) hne
  | published hlocked => simp [hlocked] at hu
  | failed hlocked => simp [hlocked] at hu
  | lapsed hlt => exact hlt

/-- A failure can be marked without harm once the lease has run out. -/
theorem Guarded.of_failed (h : Guarded t clock e) (err : String)
    (hle : e.lockedUntil = some (t + leaseDuration) → t + leaseDuration ≤ clock) :
    Guarded t clock (Outbox.failed clock err e) := by
  have hfailed : t + leaseDuration ≤ clock → Guarded t clock (Outbox.failed clock err e) := by
    intro hout
    have hpos := backoff_pos (e.attempts + 1)
    refine .failed rfl hout ⟨clock + backoff (e.attempts + 1), rfl, ?_⟩
    omega
  cases h with
  | leased hlocked => exact hfailed (hle hlocked)
  | published _ hpublished => exact .published rfl hpublished
  | failed _ hout => exact hfailed hout
  | lapsed hlt => exact .lapsed hlt

end Guarded

/-- What a claim by `p` at time `t` keeps up: the row is guarded, and nobody else has claimed it at
the same time. -/
structure Held (p : ℕ) (t : Int) (id : Uuid) (s : State π) : Prop where
  row : ∃ e ∈ s.outbox.rows, e.eventID = id ∧ Guarded t s.clock e
  sole : ∀ q, (s.workers q).Holds t id → q = p

section Held

variable {s : State π} {l : Label π} {p : ℕ} {id : Uuid} {t : Int}

/-- A claim brings it about. -/
theorem held_of_claims (hs : Batches s) (h : Claims s l p id) : Held p s.clock id (step s l) where
  row := by
    obtain ⟨-, e, he, hid, hlocked⟩ := h.row
    exact ⟨e, he, hid, .leased hlocked⟩
  sole := by
    intro q hholds
    rcases holds_step hholds with hold | ⟨hclaims, -⟩
    · -- A batch of the same time would have spent the row.
      obtain ⟨-, e, he, hid, hspent⟩ := hs q s.clock id hold
      obtain ⟨⟨x, hx, hxid, hclaimable⟩, -⟩ := h.row
      obtain rfl : x = e := Table.eq_of_key_eq hx he (hxid.trans hid.symm)
      exact absurd hclaimable hspent.not_claimable
    · obtain ⟨locked, hl, -⟩ := hclaims
      obtain ⟨locked', hl', -⟩ := h
      have hlabel : Label.claim q locked = Label.claim p locked' := hl.symm.trans hl'
      exact (Label.claim.inj hlabel).1

/-- While the lease runs, the row is not claimed. -/
theorem Held.lt_of_claims (hs : Held p t id s) {q : ℕ} (hclaims : Claims s l q id) :
    t + leaseDuration < s.clock := by
  obtain ⟨e, he, hid, hguarded⟩ := hs.row
  obtain ⟨⟨x, hx, hxid, hclaimable⟩, -⟩ := hclaims.row
  obtain rfl : x = e := Table.eq_of_key_eq hx he (hxid.trans hid.symm)
  exact hguarded.lt_of_claimable hclaimable

/-- A step keeps it, unless the publisher settles its claim or another one marks the row late. -/
theorem Held.of_step (hs : Held p t id s) (hlate : ¬Late s l) (hsettles : ¬Settles s l p t id) :
    Held p t id (step s l) where
  row := by
    obtain ⟨e, he, rfl, hguarded⟩ := hs.row
    obtain ⟨e', he', htouches⟩ := touches_step l he
    refine ⟨e', he', htouches.eventID, Guarded.mono ?_ (clock_le_step s l)⟩
    cases htouches with
    | same => exact hguarded
    | leased hclaimed => exact .lapsed (hguarded.lt_of_claimable (of_mem_pending hclaimed).2.1)
    | published => exact .published rfl (Option.some_ne_none _)
    | @failed q reply claimedAt event rest err hworker happlied hid =>
      refine hguarded.of_failed err fun hlocked => ?_
      by_contra hlt
      -- The failure is that of the claim itself, or it is late.
      have hclaimedAt : claimedAt = t := by
        by_contra hne
        refine hlate (late_iff.mpr ⟨q, reply, claimedAt, event, rest, err, rfl, hworker, happlied,
          e, he, hid, t + leaseDuration, hlocked, ?_, ?_⟩) <;> omega
      subst hclaimedAt
      have hholds : (s.workers q).Holds claimedAt e.eventID := by
        rw [hworker]
        exact ⟨rfl, by simp [hid]⟩
      obtain rfl := hs.sole q hholds
      exact hsettles ⟨reply, event, rest, some err, rfl, happlied, hworker, hid.symm⟩
  sole := by
    intro q hholds
    rcases holds_step hholds with hold | ⟨hclaims, rfl⟩
    · exact hs.sole q hold
    · have hlt := hs.lt_of_claims hclaims
      simp only [leaseDuration, seconds] at hlt
      omega

/-- After a publisher has settled its claim, it does not hold it any more. -/
theorem Settles.not_holds (h : Settles s l p t id) (hs : Distinct s) :
    ¬((step s l).workers p).Holds t id := by
  obtain ⟨reply, event, rest, publishErr, rfl, -, hworker, rfl⟩ := h
  have hnodup := hs p
  rw [hworker] at hnodup
  have hnot : event.eventID ∉ rest.map Event.eventID := (List.nodup_cons.mp hnodup).1
  intro hholds
  simp only [step, hworker, State.workers_setWorker, if_pos] at hholds
  split at hholds
  · exact hnot (Worker.holds_next.mp hholds).2
  · exact hholds

end Held

/-- What holds in every state of a run without late marks. -/
structure Leased (s : State π) : Prop where
  batches : Batches s
  distinct : Distinct s
  unlocked : Unlocked s
  held : ∀ p t id, (s.workers p).Holds t id → Held p t id s

theorem leased_run {clock : Int} {labels : List (Label π)}
    (h : EachStep step (fun s l => ¬Late s l) (State.init clock) labels) :
    Leased (run step (State.init clock) labels) := by
  refine run_induction (P := Leased) ?_ ?_ h
  · intro s l hs hlate
    refine ⟨hs.batches.of_step l, hs.distinct.of_step l, hs.unlocked.of_step l, ?_⟩
    intro p t id hholds
    rcases holds_step hholds with hold | ⟨hclaims, rfl⟩
    · exact (hs.held p t id hold).of_step hlate fun hsettles =>
        hsettles.not_holds hs.distinct hholds
    · exact held_of_claims hs.batches hclaims
  · exact ⟨batches_init clock, fun _ => List.nodup_nil, nofun, fun _ _ _ hholds => hholds.elim⟩

/-- Leases are exclusive in a run: between two claims of an event within the duration of a lease,
the first publisher has marked it. -/
def Exclusive (clock : Int) (labels : List (Label π)) : Prop :=
  ∀ front l middle l' back p q id, labels = front ++ l :: (middle ++ l' :: back) →
    let s := run step (State.init clock) front
    let s' := run step (step s l) middle
    Claims s l p id → Claims s' l' q id → s'.clock < s.clock + leaseDuration →
    ∃ m m' m'', middle = m ++ m' :: m'' ∧ Settles (run step (step s l) m) m' p s.clock id

/-- A publisher whose lease has run out leaves the running leases of others alone: after it has
marked an event, a row is still under its lease, or it is published. -/
def Respected (clock : Int) (labels : List (Label π)) : Prop :=
  ∀ front p reply back, labels = front ++ .mark p reply :: back →
    let s := run step (State.init clock) front
    ∀ claimedAt event rest publishErr, s.workers p = .marking claimedAt event rest publishErr →
      claimedAt + leaseDuration < s.clock →
      ∀ e ∈ s.outbox.rows, ∀ u ∈ e.lockedUntil, s.clock < u →
        ∃ e' ∈ (step s (.mark p reply)).outbox.rows, e'.eventID = e.eventID ∧
          (e'.lockedUntil = some u ∨ e'.publishedAt ≠ none)

section Runs

variable {clock : Int} {labels : List (Label π)}

/-- Without late marks, leases are exclusive. -/
theorem exclusive_of_not_late
    (hlabels : EachStep step (fun s l => ¬Late s l) (State.init clock) labels) :
    Exclusive clock labels := by
  intro front l middle l' back p q id heq s s' hclaims hclaims' hlt
  -- Unless the publisher settles its claim in between, the claim is held up to the second one.
  by_cases hsettles : EachStep step (fun s' m => ¬Settles s' m p s.clock id) (step s l) middle
  · have hlate : EachStep step (fun s l => ¬Late s l) (step s l) middle := by
      rw [heq, eachStep_append, eachStep_cons, eachStep_append] at hlabels
      exact hlabels.2.2.1
    have hheld : Held p s.clock id s' :=
      run_induction (P := Held p s.clock id) (fun _ _ h hC => h.of_step hC.1 hC.2)
        (held_of_claims (batches_run clock front) hclaims) (hlate.and hsettles)
    exact absurd (hheld.lt_of_claims hclaims') hlt.asymm
  · rw [eachStep_iff_forall_segment] at hsettles
    push Not at hsettles
    exact hsettles

/-- Without late marks, leases are respected. -/
theorem respected_of_not_late
    (hlabels : EachStep step (fun s l => ¬Late s l) (State.init clock) labels) :
    Respected clock labels := by
  intro front p reply back heq s claimedAt event rest publishErr hworker hout e he u hu hrunning
  rw [heq, eachStep_append, eachStep_cons] at hlabels
  -- Marking a row as failed ends its lease, which the publisher would do late.
  obtain ⟨e', he', htouches⟩ := touches_step (.mark p reply) he
  refine ⟨e', he', htouches.eventID, ?_⟩
  cases htouches with
  | same => exact Or.inl hu
  | published => exact Or.inr (Option.some_ne_none _)
  | @failed _ _ claimedAt event rest err hworker' happlied hid =>
    obtain ⟨rfl, rfl, rfl, rfl⟩ := Worker.marking.inj (hworker'.symm.trans hworker)
    refine absurd (late_iff.mpr ?_) hlabels.2.1
    refine ⟨p, reply, claimedAt, event, rest, err, rfl, hworker, happlied, e, he, hid, u, hu,
      hrunning, ?_⟩
    omega

/-- The beginning of a run respects the leases if the run does. -/
theorem Respected.of_append {back : List (Label π)} (h : Respected clock (labels ++ back)) :
    Respected clock labels := by
  intro front p reply middle heq
  exact h front p reply (middle ++ back) (by simp [heq])

/-- A late mark leaves an unpublished row under no lease. -/
theorem not_respected_of_late (hleased : Leased (run step (State.init clock) labels))
    {l : Label π} (hlate : Late (run step (State.init clock) labels) l) :
    ¬Respected clock (labels ++ [l]) := by
  intro h
  generalize hs : run step (State.init clock) labels = s at hleased hlate
  obtain ⟨p, reply, t, event, rest, err, rfl, hworker, happlied, e, he, hid, u, hu, hrunning,
    hne⟩ := late_iff.mp hlate
  -- The row is under the lease of another claim, so that the publisher's own has run out.
  have hholds : (s.workers p).Holds t e.eventID := by
    rw [hworker]
    exact ⟨rfl, by simp [hid]⟩
  obtain ⟨x, hx, hxid, hguarded⟩ := (hleased.held p t e.eventID hholds).row
  obtain rfl : x = e := Table.eq_of_key_eq hx he hxid
  have hout : t + leaseDuration < s.clock := hguarded.lt_of_ne hu hne
  subst hs
  obtain ⟨e', he', hid', hkept⟩ :=
    h labels p reply [] rfl t event rest (some err) hworker hout x hx u hu hrunning
  -- But the row has been marked as failed.
  simp only [step, hworker, happlied, if_true, State.outbox_setWorker, markOutbox, markFailed,
    Table.update] at he'
  obtain ⟨y, hy, rfl⟩ := List.mem_map.mp he'
  have hkey : y.eventID = x.eventID := by
    split at hid' <;> exact hid'
  obtain rfl : y = x := Table.eq_of_key_eq hy hx hkey
  rw [if_pos hid] at hkept
  rcases hkept with hkept | hkept
  · simp [Outbox.failed] at hkept
  · simp [hleased.unlocked y hy hkept] at hu

/-- A run that respects the leases has no late marks. -/
theorem not_late_of_respected (h : Respected clock labels) :
    EachStep step (fun s l => ¬Late s l) (State.init clock) labels := by
  induction labels using List.reverseRecOn with
  | nil => trivial
  | append_singleton labels l ih =>
    have hfront := ih h.of_append
    refine (eachStep_concat _ _ labels l).mpr ⟨hfront, fun hlate => ?_⟩
    exact not_respected_of_late (leased_run hfront) hlate h

end Runs

/-- Leases are exclusive and respected in exactly the runs in which `MarkFailed` never takes effect
on a row under the running lease of another claim. -/
theorem leases_exclusive (clock : Int) (labels : List (Label π)) :
    Exclusive clock labels ∧ Respected clock labels ↔
      EachStep step (fun s l => ¬Late s l) (State.init clock) labels :=
  ⟨fun h => not_late_of_respected h.2,
    fun h => ⟨exclusive_of_not_late h, respected_of_not_late h⟩⟩

/-- A publisher fails, marks the row under its own lease, and another one claims it. -/
def retried : List (Label Unit) :=
  [.insert "orders.order.created" (fun _ _ => ()) 0 ⟨1, 0, 0⟩, .claim 0 [],
    .publish 0 (.failed false "nats: timeout"), .tick (seconds 5), .mark 0 .done,
    .tick (seconds 7), .claim 1 []]

/-- A row can be claimed again seven seconds later, after its publisher has marked it. -/
theorem leases_exclusive_retried : Exclusive 0 retried ∧ Respected 0 retried :=
  (leases_exclusive 0 retried).mpr (by decide +kernel)

/-- A first publisher claims a row and is held up for 31 s. A second one claims the row, but the
first one fails to publish it and marks it, and a third one claims it 7 s after the second. -/
def outlived : List (Label Unit) :=
  [.insert "orders.order.created" (fun _ _ => ()) 0 ⟨1, 0, 0⟩, .claim 0 [], .tick (seconds 31),
    .claim 1 [], .publish 0 (.failed false "nats: timeout"), .tick (seconds 36), .mark 0 .done,
    .tick (seconds 38), .claim 2 []]

/-- Leases are not exclusive in that run, although the second publisher has not marked the row. -/
theorem not_exclusive_outlived : ¬Exclusive 0 outlived := by
  intro hexclusive
  obtain ⟨m, m', m'', hmiddle, reply, event, rest, publishErr, rfl, -⟩ :=
    hexclusive (outlived.take 3) (.claim 1 []) ((outlived.drop 4).take 4) (.claim 2 []) [] 1 2 1 rfl
      ⟨[], rfl, rfl, by decide +kernel⟩ ⟨[], rfl, rfl, by decide +kernel⟩ (by decide +kernel)
  have hmem : Label.mark 1 reply ∈ (outlived.drop 4).take 4 := by
    rw [hmiddle]
    exact List.mem_append_right m List.mem_cons_self
  simp [outlived] at hmem

end Outbox
