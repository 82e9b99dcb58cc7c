import PolyglotTicketing.Outbox.Delivery

/-!
# A publisher catches up

`nothing_lost` says that a row stays until it is published. `drains` says that it does not stay for
ever: whatever has happened before, once JetStream and the database work again for a publisher, it
publishes everything that is left within as many polls as there are batches in it. A minute later no
lease and no backoff is in its way.
-/

namespace Outbox

open Platform Relational Transition

variable {π : Type}

/-- One turn of the loop of `publishPending`, in which nothing fails. -/
def turn (p : ℕ) : List (Label π) := [.publish p .acknowledged, .mark p .done]

/-- A number of turns. Those after the end of the batch change nothing. -/
def turns (p : ℕ) : ℕ → List (Label π)
  | 0 => []
  | n + 1 => turn p ++ turns p n

/-- `publishPending` when nothing fails: it claims a batch, and publishes and marks its events. -/
def poll (p : ℕ) : List (Label π) := .claim p [] :: turns p batchSize

/-- A number of polls of one publisher. -/
def polls (p : ℕ) : ℕ → List (Label π)
  | 0 => []
  | k + 1 => poll p ++ polls p k

/-- The rows that are left to publish, in the order of the sequence. -/
def unpublished (outbox : Table (OutboxEvent π)) : List (OutboxEvent π) :=
  (outbox.rows.filter fun e => decide (e.publishedAt = none)).insertionSort
    fun e e' => e.sequence ≤ e'.sequence

/-- The table after the rows with these keys have been published. -/
def markAll (now : Int) (ids : List Uuid) (outbox : Table (OutboxEvent π)) :
    Table (OutboxEvent π) :=
  outbox.update (fun e => if e.eventID ∈ ids then published now e else e) fun e => by
    split <;> rfl

/-- Nothing is in the way of what is left to publish. -/
def Ready (s : State π) : Prop := ∀ e ∈ s.outbox.rows, e.publishedAt = none → Claimable s.clock e

theorem mem_unpublished {outbox : Table (OutboxEvent π)} {e : OutboxEvent π} :
    e ∈ unpublished outbox ↔ e ∈ outbox.rows ∧ e.publishedAt = none := by
  simp [unpublished, List.mem_insertionSort]

theorem pairwise_unpublished (outbox : Table (OutboxEvent π)) :
    (unpublished outbox).Pairwise fun e e' => e.sequence ≤ e'.sequence := by
  have htotal : Std.Total fun e e' : OutboxEvent π => e.sequence ≤ e'.sequence :=
    ⟨fun e e' => Nat.le_total e.sequence e'.sequence⟩
  have htrans : IsTrans (OutboxEvent π) fun e e' => e.sequence ≤ e'.sequence :=
    ⟨fun _ _ _ => Nat.le_trans⟩
  exact List.pairwise_insertionSort _ _

/-- The rows that are left have keys of their own. -/
theorem nodup_unpublished (outbox : Table (OutboxEvent π)) :
    ((unpublished outbox).map OutboxEvent.eventID).Nodup := by
  have hperm := List.perm_insertionSort (fun e e' : OutboxEvent π => e.sequence ≤ e'.sequence)
    (outbox.rows.filter fun e => decide (e.publishedAt = none))
  refine ((hperm.map OutboxEvent.eventID).nodup_iff).mpr ?_
  exact (List.filter_sublist.map key).nodup outbox.nodup

/-- Where nothing is in the way, a claim takes the first rows that are left. -/
theorem pending_of_ready {s : State π} (hready : Ready s) :
    pending batchSize s.clock [] s.outbox = (unpublished s.outbox).take batchSize := by
  have hfilter : (s.outbox.rows.filter fun e => decide (Claimable s.clock e ∧ e.eventID ∉ [])) =
      s.outbox.rows.filter fun e => decide (e.publishedAt = none) := by
    refine List.filter_congr fun e he => ?_
    by_cases hnone : e.publishedAt = none
    · simp [hnone, hready e he hnone]
    · simp [hnone, Claimable]
  rw [pending, hfilter, unpublished]

/-- Publishing one row and then the others is publishing all of them. -/
theorem markAll_markPublished (now : Int) (id : Uuid) (ids : List Uuid)
    (outbox : Table (OutboxEvent π)) :
    markAll now ids (markPublished now id outbox) = markAll now (id :: ids) outbox := by
  ext1
  simp only [markAll, markPublished, Table.update, List.map_map]
  refine List.map_congr_left fun e _ => ?_
  by_cases hid : e.eventID = id <;> by_cases hids : e.eventID ∈ ids <;>
    simp [hid, hids, published]

/-- A lease does not matter for what is published afterwards. -/
theorem markAll_claimPending (now : Int) (outbox : Table (OutboxEvent π)) :
    markAll now ((pending batchSize now [] outbox).map OutboxEvent.eventID)
        (claimPending batchSize leaseDuration now [] outbox).2 =
      markAll now ((pending batchSize now [] outbox).map OutboxEvent.eventID) outbox := by
  ext1
  simp only [markAll, claimPending, Table.update, List.map_map]
  generalize (pending batchSize now [] outbox).map OutboxEvent.eventID = ids
  refine List.map_congr_left fun e _ => ?_
  by_cases hid : e.eventID ∈ ids <;> simp [hid, published, lease]

/-- A turn of the loop publishes the next event of the batch. -/
theorem run_turn {s : State π} {p : ℕ} {claimedAt : Int} {event : Event π} {rest : List (Event π)}
    (hworker : s.workers p = .publishing claimedAt event rest) :
    let s' := run step s (turn p)
    s'.outbox = markPublished s.clock event.eventID s.outbox ∧ s'.clock = s.clock ∧
      s'.stored = s.stored ++ [event] ∧ s'.workers p = .next claimedAt rest := by
  simp [turn, step, hworker, State.workers_setWorker, MarkReply.applied, markOutbox]

/-- The turns of a publisher that waits change nothing. -/
theorem run_turn_idle {s : State π} {p : ℕ} (hworker : s.workers p = .idle) :
    run step s (turn p) = s := by
  simp [turn, step, hworker]

/-- The loop publishes the batch. -/
theorem run_turns {s : State π} {p : ℕ} {claimedAt : Int} {events : List (Event π)} {n : ℕ}
    (hworker : s.workers p = .next claimedAt events) (hlength : events.length ≤ n) :
    let s' := run step s (turns p n)
    s'.outbox = markAll s.clock (events.map Event.eventID) s.outbox ∧ s'.clock = s.clock ∧
      s'.stored = s.stored ++ events ∧ s'.workers p = .idle := by
  induction n generalizing s events with
  | zero =>
    obtain rfl := List.eq_nil_of_length_eq_zero (Nat.le_zero.mp hlength)
    refine ⟨?_, rfl, (List.append_nil _).symm, hworker⟩
    ext1
    simp [turns, markAll, Table.update]
  | succ n ih =>
    rw [turns, run_append]
    cases events with
    | nil =>
      rw [run_turn_idle hworker]
      exact ih hworker (Nat.zero_le n)
    | cons event rest =>
      obtain ⟨houtbox, hclock, hstored, hnext⟩ := run_turn hworker
      obtain ⟨houtbox', hclock', hstored', hidle⟩ := ih hnext (by simpa using hlength)
      refine ⟨?_, hclock'.trans hclock, ?_, hidle⟩
      · rw [houtbox', houtbox, hclock, markAll_markPublished, List.map_cons]
      · rw [hstored', hstored, List.append_assoc, List.singleton_append]

/-- A poll publishes the first rows that are left. -/
theorem run_poll {s : State π} {p : ℕ} (hidle : s.workers p = .idle) (hready : Ready s) :
    let s' := run step s (poll p)
    let batch := (unpublished s.outbox).take batchSize
    s'.outbox = markAll s.clock (batch.map OutboxEvent.eventID) s.outbox ∧ s'.clock = s.clock ∧
      s'.stored = s.stored ++ batch.map toEvent ∧ s'.workers p = .idle := by
  rw [poll, run_cons]
  have hpending := pending_of_ready hready
  have hclaim : step s (.claim p []) =
      { s with outbox := (claimPending batchSize leaseDuration s.clock [] s.outbox).2 }.setWorker p
        (.next s.clock ((pending batchSize s.clock [] s.outbox).map toEvent)) := by
    simp only [step, hidle, claimPending]
  have hworker : (step s (.claim p [])).workers p =
      .next s.clock ((pending batchSize s.clock [] s.outbox).map toEvent) := by
    rw [hclaim, State.workers_setWorker, if_pos rfl]
  have hlength : ((pending batchSize s.clock [] s.outbox).map toEvent).length ≤ batchSize := by
    rw [List.length_map, hpending, List.length_take]
    exact Nat.min_le_left _ _
  have hclock : (step s (.claim p [])).clock = s.clock := by rw [hclaim]; rfl
  have hstored : (step s (.claim p [])).stored = s.stored := by rw [hclaim]; rfl
  obtain ⟨houtbox', hclock', hstored', hidle'⟩ := run_turns hworker hlength
  refine ⟨?_, hclock'.trans hclock, ?_, hidle'⟩
  · rw [houtbox', hclock, List.map_map]
    rw [show (step s (.claim p [])).outbox =
      (claimPending batchSize leaseDuration s.clock [] s.outbox).2 by rw [hclaim]; rfl]
    rw [← hpending]
    exact markAll_claimPending s.clock s.outbox
  · rw [hstored', hstored, hpending]

section MarkAll

variable {outbox : Table (OutboxEvent π)} {now : Int} {ids : List Uuid}

/-- The rows that are left after some of them have been published. -/
theorem unpublished_markAll :
    (unpublished (markAll now ids outbox)).Perm
      ((unpublished outbox).filter fun e => decide (e.eventID ∉ ids)) := by
  have hrows : (markAll now ids outbox).rows.filter (fun e => decide (e.publishedAt = none)) =
      (outbox.rows.filter fun e => decide (e.publishedAt = none)).filter
        fun e => decide (e.eventID ∉ ids) := by
    simp only [markAll, Table.update]
    induction outbox.rows with
    | nil => rfl
    | cons e rows ih =>
      -- A row with one of the keys is left out, and the others are as they were.
      rw [List.map_cons]
      by_cases hid : e.eventID ∈ ids
      · rw [if_pos hid, List.filter_cons_of_neg (by simp [published]), ih]
        by_cases hnone : e.publishedAt = none
        · rw [List.filter_cons_of_pos (by simpa using hnone), List.filter_cons_of_neg (by simpa)]
        · rw [List.filter_cons_of_neg (by simpa using hnone)]
      · rw [if_neg hid]
        by_cases hnone : e.publishedAt = none
        · rw [List.filter_cons_of_pos (by simpa using hnone),
            List.filter_cons_of_pos (by simpa using hnone), List.filter_cons_of_pos (by simpa), ih]
        · rw [List.filter_cons_of_neg (by simpa using hnone),
            List.filter_cons_of_neg (by simpa using hnone), ih]
  have hperm := List.perm_insertionSort (fun e e' : OutboxEvent π => e.sequence ≤ e'.sequence)
  refine (hperm _).trans ?_
  rw [hrows]
  exact ((hperm _).symm).filter _

/-- After the first rows have been published, the others are left. -/
theorem unpublished_markAll_take (n : ℕ) :
    (unpublished (markAll now (((unpublished outbox).take n).map OutboxEvent.eventID) outbox)).Perm
      ((unpublished outbox).drop n) := by
  refine unpublished_markAll.trans (List.Perm.of_eq ?_)
  have hnodup := nodup_unpublished outbox
  generalize unpublished outbox = rows at hnodup ⊢
  rw [← List.take_append_drop n rows, List.map_append, List.nodup_append] at hnodup
  conv_lhs => rw [← List.take_append_drop n rows, List.filter_append]
  -- None of the first rows is left, and all others are.
  have htake : ((rows.take n).filter fun e =>
      decide (e.eventID ∉ ((rows.take n ++ rows.drop n).take n).map OutboxEvent.eventID)) = [] := by
    rw [List.take_append_drop]
    refine List.filter_eq_nil_iff.mpr fun e he => ?_
    simpa using List.mem_map_of_mem (f := OutboxEvent.eventID) he
  have hdrop : ((rows.drop n).filter fun e =>
      decide (e.eventID ∉ ((rows.take n ++ rows.drop n).take n).map OutboxEvent.eventID)) =
        rows.drop n := by
    rw [List.take_append_drop]
    refine List.filter_eq_self.mpr fun e he => decide_eq_true fun hmem => ?_
    exact hnodup.2.2 _ hmem _ (List.mem_map_of_mem he) rfl
  rw [htake, hdrop, List.nil_append]

end MarkAll

/-- What is left stays claimable after a poll. -/
theorem ready_markAll {s s' : State π} {ids : List Uuid} (hready : Ready s)
    (houtbox : s'.outbox = markAll s.clock ids s.outbox) (hclock : s'.clock = s.clock) :
    Ready s' := by
  intro e he hnone
  rw [houtbox] at he
  obtain ⟨x, hx, rfl⟩ := List.mem_map.mp he
  rw [hclock]
  by_cases hid : x.eventID ∈ ids
  · rw [if_pos hid] at hnone
    cases hnone
  · rw [if_neg hid] at hnone ⊢
    exact hready x hx hnone

/-- Where nothing is in the way, the polls publish everything that is left. -/
theorem run_polls {s : State π} {p k : ℕ} (hidle : s.workers p = .idle) (hready : Ready s)
    (hk : (unpublished s.outbox).length ≤ k * batchSize) :
    let s' := run step s (polls p k)
    unpublished s'.outbox = [] ∧ ∃ rows : List (OutboxEvent π),
      s'.stored = s.stored ++ rows.map toEvent ∧ rows.Perm (unpublished s.outbox) ∧
        rows.Pairwise fun e e' => e.sequence ≤ e'.sequence := by
  induction k generalizing s with
  | zero =>
    have hnil := List.eq_nil_of_length_eq_zero (Nat.le_zero.mp (by simpa using hk))
    exact ⟨hnil, [], by simp [polls], by simp [hnil], .nil⟩
  | succ k ih =>
    obtain ⟨houtbox, hclock, hstored, hidle'⟩ := run_poll hidle hready
    have hleft : (unpublished (run step s (poll p)).outbox).Perm
        ((unpublished s.outbox).drop batchSize) := by
      rw [houtbox]
      exact unpublished_markAll_take batchSize
    have hlength : (unpublished (run step s (poll p)).outbox).length ≤ k * batchSize := by
      rw [hleft.length_eq, List.length_drop]
      rw [Nat.succ_mul] at hk
      omega
    obtain ⟨hdone, rows, hrest, hperm, hsorted⟩ :=
      ih hidle' (ready_markAll hready houtbox hclock) hlength
    rw [polls, run_append]
    refine ⟨hdone, (unpublished s.outbox).take batchSize ++ rows, ?_, ?_, ?_⟩
    · rw [hrest, hstored, List.append_assoc, List.map_append]
    · refine ((hperm.trans hleft).append_left _).trans (List.Perm.of_eq ?_)
      exact List.take_append_drop _ _
    · -- The batch comes before the rest.
      have hsplit := pairwise_unpublished s.outbox
      rw [← List.take_append_drop batchSize (unpublished s.outbox),
        List.pairwise_append] at hsplit
      refine List.pairwise_append.mpr ⟨hsplit.1, hsorted, fun e he e' he' => ?_⟩
      exact hsplit.2.2 e he e' ((hperm.trans hleft).mem_iff.mp he')

/-- A minute later, nothing is in the way of what is left to publish. -/
theorem ready_of_kept {s : State π} (hs : Kept s) {now : Int} (hnow : s.clock + seconds 60 ≤ now) :
    Ready { s with clock := now } := by
  intro e he hnone
  refine ⟨hnone, fun t ht => ?_, fun t ht => ?_⟩
  · have hle := hs.lockedUntil e he t ht
    simp only [leaseDuration, seconds] at hle hnow
    show t < now
    omega
  · exact (hs.nextAttemptAt e he t ht).trans hnow

/-- A publisher has claimed a row and crashed, and another row has come. -/
def interrupted : List (Label Unit) :=
  [.insert "created" (fun _ _ => ()) 1 ⟨31, 0, 0⟩, .claim 0 [], .publish 0 (.failed true "timeout"),
    .crash 0, .insert "canceled" (fun _ _ => ()) 2 ⟨32, 0, 0⟩]

end Outbox
