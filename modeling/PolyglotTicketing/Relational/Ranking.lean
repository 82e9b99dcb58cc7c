import Mathlib.Data.List.Count
import Mathlib.Data.List.Sort
import PolyglotTicketing.Relational.Table

/-!
# Queries with `ORDER BY` and `LIMIT`

The rows of a table in the order of a rank. Among rows of one rank the server chooses, which is
modelled by a number for each row (`tie`).

The first rows may carry a label twice. `nodup_take_orderBy_iff` says when they cannot, whatever the
server chooses: of two rows with one label, the row that is not nearer must come after enough
others.
-/

namespace Relational

variable {ρ κ α β : Type} [Keyed ρ κ] [LinearOrder α]

section Count

variable {l : List ρ} {p : ρ → Bool} {n : ℕ}

/-- A list has at most `n` elements of a kind if there are none from the position `n` on. -/
theorem countP_le_of_drop (h : ∀ q ∈ l.drop n, ¬p q = true) :
    l.countP p ≤ n := by
  calc l.countP p = (l.take n).countP p + (l.drop n).countP p := by
        rw [← List.countP_append, List.take_append_drop]
    _ = (l.take n).countP p := by rw [List.countP_eq_zero.mpr h, Nat.add_zero]
    _ ≤ (l.take n).length := List.countP_le_length
    _ ≤ n := List.length_take_le n l

/-- A list has at least `n` elements of a kind if there is no other one before the position `n`. -/
theorem le_countP_of_take (hn : n ≤ l.length)
    (h : ∀ q ∈ l.take n, p q = true) : n ≤ l.countP p := by
  calc n = (l.take n).length := by rw [List.length_take, Nat.min_eq_left hn]
    _ = (l.take n).countP p := (List.countP_eq_length.mpr h).symm
    _ ≤ l.countP p := (List.take_sublist n l).countP_le

end Count

/-- `r` may come before `r'`. -/
def Ranks (rank : ρ → α) (tie : ρ → ℕ) (r r' : ρ) : Prop :=
  rank r < rank r' ∨ (rank r = rank r' ∧ tie r ≤ tie r')

instance (rank : ρ → α) (tie : ρ → ℕ) : DecidableRel (Ranks rank tie) :=
  fun _ _ => inferInstanceAs (Decidable (_ ∨ _))

namespace Ranks

variable {rank : ρ → α} {tie : ρ → ℕ}

theorem le {r r' : ρ} (h : Ranks rank tie r r') : rank r ≤ rank r' :=
  h.elim le_of_lt fun h => h.1.le

variable (rank tie) in
theorem total : Std.Total (Ranks rank tie) where
  total r r' := by
    rcases lt_trichotomy (rank r) (rank r') with h | h | h
    · exact Or.inl (Or.inl h)
    · rcases Nat.le_total (tie r) (tie r') with htie | htie
      · exact Or.inl (Or.inr ⟨h, htie⟩)
      · exact Or.inr (Or.inr ⟨h.symm, htie⟩)
    · exact Or.inr (Or.inl h)

variable (rank tie) in
theorem trans : IsTrans ρ (Ranks rank tie) where
  trans a b c := by
    rintro (hab | ⟨hab, htie⟩) (hbc | ⟨hbc, htie'⟩)
    · exact Or.inl (hab.trans hbc)
    · exact Or.inl (hbc ▸ hab)
    · exact Or.inl (hab ▸ hbc)
    · exact Or.inr ⟨hab.trans hbc, htie.trans htie'⟩

end Ranks

/-- The rows of a table in the order of their rank. -/
def Table.orderBy (rank : ρ → α) (tie : ρ → ℕ) (t : Table ρ) : List ρ :=
  t.rows.insertionSort (Ranks rank tie)

section OrderBy

variable {rank : ρ → α} {tie : ρ → ℕ} {t : Table ρ} {n : ℕ}

theorem Table.perm_orderBy : (t.orderBy rank tie).Perm t.rows := List.perm_insertionSort _ _

theorem Table.mem_orderBy {r : ρ} : r ∈ t.orderBy rank tie ↔ r ∈ t.rows :=
  Table.perm_orderBy.mem_iff

theorem Table.pairwise_orderBy : (t.orderBy rank tie).Pairwise (Ranks rank tie) :=
  have := Ranks.total rank tie
  have := Ranks.trans rank tie
  List.pairwise_insertionSort _ _

/-- Earlier positions hold rows that may come before. -/
theorem Table.ranks_orderBy {i j : ℕ} (hj : j < (t.orderBy rank tie).length) (hij : i < j) :
    Ranks rank tie (t.orderBy rank tie)[i] (t.orderBy rank tie)[j] :=
  List.pairwise_iff_getElem.mp Table.pairwise_orderBy i j (hij.trans hj) hj hij

/-- No two positions hold rows of one key. -/
theorem Table.key_orderBy_ne {i j : ℕ} (hj : j < (t.orderBy rank tie).length) (hij : i < j) :
    key (t.orderBy rank tie)[i] ≠ key (t.orderBy rank tie)[j] := by
  have hnodup : ((t.orderBy rank tie).map key).Nodup :=
    (Table.perm_orderBy.map key).nodup_iff.mpr t.nodup
  have hne := List.pairwise_iff_getElem.mp hnodup i j (by simpa using hij.trans hj)
    (by simpa using hj) hij
  simpa using hne

variable [DecidableEq κ]

/-- The rows that are nearer than `r'`, and `r`. -/
def Table.ahead (rank : ρ → α) (t : Table ρ) (r r' : ρ) : List ρ :=
  t.rows.filter fun q => decide (rank q < rank r' ∨ key q = key r)

/-- The choice that prefers `r` and then `r'` to the other rows of their ranks. -/
def favor (r r' q : ρ) : ℕ := if key q = key r then 0 else if key q = key r' then 1 else 2

variable (tie) in
theorem Table.length_ahead (r r' : ρ) : (t.ahead rank r r').length =
    (t.orderBy rank tie).countP fun q => decide (rank q < rank r' ∨ key q = key r) := by
  rw [Table.ahead, ← List.countP_eq_length_filter, Table.perm_orderBy.countP_eq]

/-- Only what comes before a row is ahead of it. -/
theorem Table.length_ahead_le {i j : ℕ} (hj : j < (t.orderBy rank tie).length) (hij : i < j) :
    (t.ahead rank (t.orderBy rank tie)[i] (t.orderBy rank tie)[j]).length ≤ j := by
  rw [Table.length_ahead tie]
  -- From the position `j` on, no row is nearer, and none has the key of the row at `i`.
  refine countP_le_of_drop fun q hq => ?_
  obtain ⟨k, hk, rfl⟩ := List.mem_iff_getElem.mp hq
  rw [List.length_drop] at hk
  rw [List.getElem_drop, decide_eq_true_eq, not_or]
  have hk' : j + k < (t.orderBy rank tie).length := by omega
  refine ⟨?_, (Table.key_orderBy_ne hk' (by omega)).symm⟩
  rcases Nat.eq_zero_or_pos k with rfl | hpos
  · exact lt_irrefl _
  · exact (Table.ranks_orderBy hk' (by omega)).le.not_gt

section Favor

variable {r r' : ρ}

@[simp]
theorem favor_left : favor r r' r = 0 := by simp [favor]

theorem favor_right (hne : key r ≠ key r') : favor r r' r' = 1 := by simp [favor, hne.symm]

/-- Under that choice `r` comes before `r'`, unless `r'` is nearer. -/
theorem Table.lt_of_favor {i j : ℕ} (hi : i < (t.orderBy rank (favor r r')).length)
    (hj : j < (t.orderBy rank (favor r r')).length)
    (hr : (t.orderBy rank (favor r r'))[i] = r) (hr' : (t.orderBy rank (favor r r'))[j] = r')
    (hne : key r ≠ key r') (hle : rank r ≤ rank r') : i < j := by
  by_contra hnot
  have hji : j ≠ i := by
    rintro rfl
    exact hne (congrArg key (hr.symm.trans hr'))
  have hranks := Table.ranks_orderBy hi (show j < i by omega)
  rw [hr, hr'] at hranks
  rcases hranks with hlt | ⟨-, htie⟩
  · exact hle.not_gt hlt
  · rw [favor_left, favor_right hne] at htie
    omega

/-- Under that choice everything before `r'` is ahead of it. -/
theorem Table.le_length_ahead {j : ℕ} (hj : j < (t.orderBy rank (favor r r')).length)
    (hr' : (t.orderBy rank (favor r r'))[j] = r') (hne : key r ≠ key r') :
    j ≤ (t.ahead rank r r').length := by
  rw [Table.length_ahead (favor r r')]
  refine le_countP_of_take hj.le fun q hq => ?_
  obtain ⟨k, hk, rfl⟩ := List.mem_iff_getElem.mp hq
  rw [List.length_take] at hk
  have hkj : k < j := by omega
  rw [List.getElem_take, decide_eq_true_eq]
  have hranks := Table.ranks_orderBy hj hkj
  rw [hr'] at hranks
  rcases hranks with hlt | ⟨-, htie⟩
  · exact Or.inl hlt
  · -- The row has the rank of `r'`, so that it is one of the two that the choice prefers.
    have hother := Table.key_orderBy_ne hj hkj
    rw [hr'] at hother
    rw [favor_right hne, favor, if_neg hother] at htie
    split at htie
    next heq => exact Or.inr heq
    next => omega

end Favor

/-- The first `n` rows have different labels, whatever the server chooses, exactly if of two rows
with one label at least `n` rows are ahead of the one that is not nearer. -/
theorem Table.nodup_take_orderBy_iff (rank : ρ → α) (t : Table ρ) (n : ℕ) (label : ρ → β) :
    (∀ tie, (((t.orderBy rank tie).take n).map label).Nodup) ↔
      ∀ r ∈ t.rows, ∀ r' ∈ t.rows, key r ≠ key r' → label r = label r' → rank r ≤ rank r' →
        n ≤ (t.ahead rank r r').length := by
  constructor
  · intro h r hr r' hr' hne hlabel hle
    by_contra hfew
    -- A server that prefers `r` and `r'` returns both, and the label twice.
    obtain ⟨i, hi, hir⟩ := List.mem_iff_getElem.mp
      (Table.perm_orderBy.mem_iff.mpr hr : r ∈ t.orderBy rank (favor r r'))
    obtain ⟨j, hj, hjr⟩ := List.mem_iff_getElem.mp
      (Table.perm_orderBy.mem_iff.mpr hr' : r' ∈ t.orderBy rank (favor r r'))
    have hij : i < j := Table.lt_of_favor hi hj hir hjr hne hle
    have hjn : j < n := (Table.le_length_ahead hj hjr hne).trans_lt (not_le.mp hfew)
    have hdistinct := List.pairwise_iff_getElem.mp (h (favor r r')) i j
      (by simp; omega) (by simp; omega) hij
    simp only [List.getElem_map, List.getElem_take, hir, hjr] at hdistinct
    exact hdistinct hlabel
  · intro h tie
    refine List.pairwise_iff_getElem.mpr fun i j hi hj hij hlabel => ?_
    -- What is ahead of the row at `j` comes before it, and there are at most `j < n` such rows.
    rw [List.length_map, List.length_take] at hi hj
    rw [List.getElem_map, List.getElem_map, List.getElem_take, List.getElem_take] at hlabel
    have hjl : j < (t.orderBy rank tie).length := by omega
    have hle : rank (t.orderBy rank tie)[i] ≤ rank (t.orderBy rank tie)[j] :=
      (Table.ranks_orderBy hjl hij).le
    have hmany := h _ (Table.mem_orderBy.mp (List.getElem_mem _)) _
      (Table.mem_orderBy.mp (List.getElem_mem _)) (Table.key_orderBy_ne hjl hij) hlabel hle
    have hfew := Table.length_ahead_le hjl hij
    omega

end OrderBy

end Relational
