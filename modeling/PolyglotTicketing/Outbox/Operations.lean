import PolyglotTicketing.Outbox.Repository

/-!
# What a publisher does to an outbox

The statements of a publisher as operations on the table, and the table without the values of its
identity column (`forget`). Where these grow with the rows, an operation does not depend on their
values: `forget_apply`.
-/

namespace Outbox

open Platform Relational

variable {π : Type}

/-- A statement of a publisher. -/
inductive Operation where
  | claimPending (limit : ℕ) (leaseDuration now : Int) (locked : List Uuid)
  | markPublished (now : Int) (eventID : Uuid)
  | markFailed (now : Int) (eventID : Uuid) (publishError : String)

/-- The table after a statement of a publisher. -/
def Operation.apply (outbox : Table (OutboxEvent π)) : Operation → Table (OutboxEvent π)
  | .claimPending limit leaseDuration now locked =>
    (Outbox.claimPending limit leaseDuration now locked outbox).2
  | .markPublished now eventID => Outbox.markPublished now eventID outbox
  | .markFailed now eventID publishError => Outbox.markFailed now eventID publishError outbox

/-- A row without its value of the identity column. -/
def forgetRow (e : OutboxEvent π) : OutboxEvent π := { e with sequence := 0 }

/-- A table without the values of its identity column. -/
def forget (outbox : Table (OutboxEvent π)) : Table (OutboxEvent π) :=
  outbox.update forgetRow fun _ => rfl

/-- The values of the identity column grow with the rows, and are below the next one. -/
structure Increasing (outbox : Table (OutboxEvent π)) (next : ℕ) : Prop where
  pairwise : outbox.rows.Pairwise fun e e' => e.sequence < e'.sequence
  lt : ∀ e ∈ outbox.rows, e.sequence < next

section Forget

variable {outbox : Table (OutboxEvent π)} {e : OutboxEvent π}

@[simp]
theorem rows_forget : (forget outbox).rows = outbox.rows.map forgetRow := rfl

@[simp]
theorem forget_forget : forget (forget outbox) = forget outbox := by
  ext1
  simp [forgetRow]

theorem find?_forget (id : Uuid) :
    (forget outbox).find? id = (outbox.find? id).map forgetRow := Table.find?_update id

/-- A row is added to a table without its value of the identity column. -/
theorem forget_insert : forget (outbox.insert e) = (forget outbox).insert (forgetRow e) :=
  Table.update_insert

/-- What is not known of a row or of the rows before does not matter for the table without it. -/
theorem forget_insert_congr {outbox' : Table (OutboxEvent π)} {e' : OutboxEvent π}
    (houtbox : forget outbox = forget outbox') (he : forgetRow e = forgetRow e') :
    forget (outbox.insert e) = forget (outbox'.insert e') := by
  rw [forget_insert, forget_insert, houtbox, he]

/-- The rows that are claimed if the values of the identity column grow with the rows. -/
theorem pending_eq {outbox : Table (OutboxEvent π)} (limit : ℕ) (now : Int) (locked : List Uuid)
    (h : outbox.rows.Pairwise fun e e' => e.sequence ≤ e'.sequence) :
    pending limit now locked outbox =
      (outbox.rows.filter fun e => decide (Claimable now e ∧ e.eventID ∉ locked)).take limit := by
  rw [pending, (h.filter _).insertionSort_eq]

/-- The same events are claimed without the values of the identity column. -/
theorem map_eventID_pending_forget (limit : ℕ) (now : Int) (locked : List Uuid)
    (h : outbox.rows.Pairwise fun e e' => e.sequence ≤ e'.sequence) :
    (pending limit now locked (forget outbox)).map OutboxEvent.eventID =
      (pending limit now locked outbox).map OutboxEvent.eventID := by
  -- Without the values, the rows are in the order of the table, which is that of the values.
  have hzero : (forget outbox).rows.Pairwise fun e e' => e.sequence ≤ e'.sequence := by
    rw [rows_forget, List.pairwise_map]
    exact List.pairwise_of_forall fun _ _ => le_rfl
  rw [pending_eq limit now locked h, pending_eq limit now locked hzero, rows_forget,
    List.filter_map, ← List.map_take, List.map_map]
  rfl

/-- A statement of a publisher changes the columns of each row, but for the identity column. -/
theorem Operation.rows_apply (op : Operation) (outbox : Table (OutboxEvent π)) :
    ∃ f : OutboxEvent π → OutboxEvent π, (op.apply outbox).rows = outbox.rows.map f ∧
      ∀ e, (f e).sequence = e.sequence := by
  cases op with
  | claimPending limit leaseDuration now locked => exact ⟨_, rfl, fun e => by split <;> rfl⟩
  | markPublished now eventID => exact ⟨_, rfl, fun e => by split <;> rfl⟩
  | markFailed now eventID publishError => exact ⟨_, rfl, fun e => by split <;> rfl⟩

/-- Nor does it add rows, so that all values of the identity column stay below a bound. -/
theorem Operation.sequence_lt {next : ℕ} (h : ∀ e ∈ outbox.rows, e.sequence < next)
    (op : Operation) : ∀ e ∈ (op.apply outbox).rows, e.sequence < next := by
  obtain ⟨f, hrows, hf⟩ := op.rows_apply outbox
  intro e he
  rw [hrows] at he
  obtain ⟨x, hx, rfl⟩ := List.mem_map.mp he
  rw [hf]
  exact h x hx

/-- Some rows change, in a way that does not depend on the identity column. -/
theorem map_forgetRow_change {f : OutboxEvent π → OutboxEvent π} (rows : List (OutboxEvent π))
    (p : Uuid → Prop) [DecidablePred p] (hf : ∀ e, forgetRow (f e) = forgetRow (f (forgetRow e))) :
    (rows.map fun e => if p e.eventID then f e else e).map forgetRow =
      ((rows.map forgetRow).map fun e => if p e.eventID then f e else e).map forgetRow := by
  rw [List.map_map, List.map_map, List.map_map]
  refine List.map_congr_left fun e _ => ?_
  by_cases h : p e.eventID
  · have h' : p (forgetRow e).eventID := h
    simp only [Function.comp_apply, if_pos h, if_pos h']
    exact hf e
  · have h' : ¬p (forgetRow e).eventID := h
    simp only [Function.comp_apply, if_neg h, if_neg h']
    rfl

/-- A statement of a publisher does not depend on the values of the identity column. -/
theorem forget_apply {next : ℕ} (h : Increasing outbox next) (op : Operation) :
    forget (op.apply outbox) = forget (op.apply (forget outbox)) := by
  ext1
  cases op with
  | claimPending limit leaseDuration now locked =>
    -- The same rows are claimed, and a lease does not depend on their values either.
    have hclaimed := map_eventID_pending_forget limit now locked
      (h.pairwise.imp fun hlt => hlt.le)
    simp only [Operation.apply, claimPending, rows_forget, Table.update, hclaimed]
    exact map_forgetRow_change outbox.rows
      (· ∈ (pending limit now locked outbox).map OutboxEvent.eventID) fun _ => rfl
  | markPublished now eventID =>
    exact map_forgetRow_change outbox.rows (· = eventID) fun _ => rfl
  | markFailed now eventID publishError =>
    exact map_forgetRow_change outbox.rows (· = eventID) fun _ => rfl

end Forget

namespace Increasing

variable {outbox : Table (OutboxEvent π)} {next : ℕ}

theorem empty : Increasing (.empty : Table (OutboxEvent π)) next :=
  ⟨List.Pairwise.nil, by simp⟩

/-- Values can be drawn without a row. -/
theorem mono {next' : ℕ} (h : Increasing outbox next) (hle : next ≤ next') :
    Increasing outbox next' :=
  ⟨h.pairwise, fun e he => (h.lt e he).trans_le hle⟩

/-- A row is added with the next value. -/
theorem insert (h : Increasing outbox next) {e : OutboxEvent π}
    (hnew : outbox.find? e.eventID = none) (he : e.sequence = next) :
    Increasing (outbox.insert e) (next + 1) := by
  have hrows : (outbox.insert e).rows = outbox.rows ++ [e] := Table.rows_insert hnew
  constructor
  · rw [hrows, List.pairwise_append]
    refine ⟨h.pairwise, List.pairwise_singleton _ _, fun x hx y hy => ?_⟩
    obtain rfl := List.mem_singleton.mp hy
    exact he ▸ h.lt x hx
  · intro x hx
    rw [hrows, List.mem_append, List.mem_singleton] at hx
    rcases hx with hx | rfl
    · exact (h.lt x hx).trans (Nat.lt_succ_self next)
    · exact he ▸ Nat.lt_succ_self next

/-- The statements of a publisher keep the values of the identity column. -/
theorem apply (h : Increasing outbox next) (op : Operation) :
    Increasing (op.apply outbox) next := by
  obtain ⟨f, hrows, hf⟩ := op.rows_apply outbox
  constructor
  · rw [hrows, List.pairwise_map]
    exact h.pairwise.imp fun hlt => by rwa [hf, hf]
  · exact op.sequence_lt h.lt

end Increasing

end Outbox
