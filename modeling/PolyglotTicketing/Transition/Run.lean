import Mathlib.Data.List.Basic

/-!
# Runs of a labelled transition function

A system is a total function `step : σ → ℓ → σ`; a label that is not enabled leaves the state
alone. A run is a list of labels. Two predicates speak about all of a run:

* `EachStep step C s labels`: every label of the run meets `C` in the state it is taken from;
* `EachState step P s labels`: `P` holds in every state the run passes through, the first and
  the last included.

`eachState_of_eachStep` is the induction rule for invariants. `eachState_iff_eachStep` is its
two-way form: when one step keeps `P` exactly if it meets `C`, a run keeps `P` throughout
exactly if all of its steps meet `C`.
-/

namespace Transition

variable {σ ℓ : Type*} {step : σ → ℓ → σ}

/-- The state reached from `s` by taking the steps `labels` in order. -/
def run (step : σ → ℓ → σ) (s : σ) (labels : List ℓ) : σ := labels.foldl step s

/-- Every label of the run from `s` meets `C` in the state it is taken from. -/
def EachStep (step : σ → ℓ → σ) (C : σ → ℓ → Prop) : σ → List ℓ → Prop
  | _, [] => True
  | s, l :: ls => C s l ∧ EachStep step C (step s l) ls

/-- `P` holds in every state that the run from `s` passes through. -/
def EachState (step : σ → ℓ → σ) (P : σ → Prop) : σ → List ℓ → Prop
  | s, [] => P s
  | s, l :: ls => P s ∧ EachState step P (step s l) ls

instance decidableEachStep {C : σ → ℓ → Prop} [∀ s l, Decidable (C s l)] :
    (s : σ) → (ls : List ℓ) → Decidable (EachStep step C s ls)
  | _, [] => isTrue trivial
  | s, l :: ls => @instDecidableAnd _ _ _ (decidableEachStep (step s l) ls)

instance decidableEachState {P : σ → Prop} [∀ s, Decidable (P s)] :
    (s : σ) → (ls : List ℓ) → Decidable (EachState step P s ls)
  | s, [] => inferInstanceAs (Decidable (P s))
  | s, l :: ls => @instDecidableAnd _ _ _ (decidableEachState (step s l) ls)

@[simp]
theorem run_nil (s : σ) : run step s [] = s := rfl

@[simp]
theorem run_cons (s : σ) (l : ℓ) (ls : List ℓ) : run step s (l :: ls) = run step (step s l) ls :=
  rfl

/-- A run can be split at any point. -/
theorem run_append (s : σ) (ls ms : List ℓ) :
    run step s (ls ++ ms) = run step (run step s ls) ms := by
  simp [run, List.foldl_append]

/-- The last step of a run. -/
theorem run_concat (s : σ) (ls : List ℓ) (l : ℓ) :
    run step s (ls ++ [l]) = step (run step s ls) l := by
  simp [run_append]

@[simp]
theorem eachStep_nil (C : σ → ℓ → Prop) (s : σ) : EachStep step C s [] := trivial

@[simp]
theorem eachStep_cons (C : σ → ℓ → Prop) (s : σ) (l : ℓ) (ls : List ℓ) :
    EachStep step C s (l :: ls) ↔ C s l ∧ EachStep step C (step s l) ls := Iff.rfl

/-- The steps of a split run are those of its two halves. -/
theorem eachStep_append (C : σ → ℓ → Prop) (s : σ) (ls ms : List ℓ) :
    EachStep step C s (ls ++ ms) ↔
      EachStep step C s ls ∧ EachStep step C (run step s ls) ms := by
  induction ls generalizing s with
  | nil => simp
  | cons l ls ih => simp [ih, and_assoc]

/-- The steps of a run extended by one step. -/
theorem eachStep_concat (C : σ → ℓ → Prop) (s : σ) (ls : List ℓ) (l : ℓ) :
    EachStep step C s (ls ++ [l]) ↔ EachStep step C s ls ∧ C (run step s ls) l := by
  simp [eachStep_append]

/-- A condition on the steps of a run can be weakened. -/
theorem EachStep.mono {C D : σ → ℓ → Prop} (himp : ∀ s l, C s l → D s l) {s : σ} {ls : List ℓ}
    (h : EachStep step C s ls) : EachStep step D s ls := by
  induction ls generalizing s with
  | nil => trivial
  | cons l ls ih => exact ⟨himp s l h.1, ih h.2⟩

/-- Two conditions on the steps of a run. -/
theorem EachStep.and {C D : σ → ℓ → Prop} {s : σ} {ls : List ℓ} (hC : EachStep step C s ls)
    (hD : EachStep step D s ls) : EachStep step (fun s l => C s l ∧ D s l) s ls := by
  induction ls generalizing s with
  | nil => trivial
  | cons l ls ih => exact ⟨⟨hC.1, hD.1⟩, ih hC.2 hD.2⟩

/-- The empty condition is met by every run. -/
theorem eachStep_true (s : σ) (ls : List ℓ) : EachStep step (fun _ _ => True) s ls := by
  induction ls generalizing s with
  | nil => trivial
  | cons l ls ih => exact ⟨trivial, ih _⟩

/-- A condition on the labels alone. -/
theorem eachStep_of_forall {C : ℓ → Prop} {ls : List ℓ} (h : ∀ l ∈ ls, C l) (s : σ) :
    EachStep step (fun _ l => C l) s ls := by
  induction ls generalizing s with
  | nil => trivial
  | cons l ls ih => exact ⟨h l (by simp), ih (fun m hm => h m (by simp [hm])) _⟩

/-- The last state of a run is one of its states. -/
theorem EachState.last {P : σ → Prop} {s : σ} {ls : List ℓ} (h : EachState step P s ls) :
    P (run step s ls) := by
  induction ls generalizing s with
  | nil => exact h
  | cons l ls ih => exact ih h.2

/-- What holds of every state of a run can be weakened. -/
theorem EachState.mono {P Q : σ → Prop} (himp : ∀ s, P s → Q s) {s : σ} {ls : List ℓ}
    (h : EachState step P s ls) : EachState step Q s ls := by
  induction ls generalizing s with
  | nil => exact himp s h
  | cons l ls ih => exact ⟨himp s h.1, ih h.2⟩

/-- `EachState` speaks about exactly the states after the initial segments of the run. -/
theorem eachState_iff_forall_segment {P : σ → Prop} {s : σ} {ls : List ℓ} :
    EachState step P s ls ↔ ∀ front back, ls = front ++ back → P (run step s front) := by
  induction ls generalizing s with
  | nil =>
    constructor
    · intro h front back heq
      obtain ⟨rfl, rfl⟩ := List.append_eq_nil_iff.mp heq.symm
      exact h
    · intro h
      exact h [] [] rfl
  | cons l ls ih =>
    constructor
    · rintro ⟨hs, hrest⟩ front back heq
      cases front with
      | nil => exact hs
      | cons m front =>
        obtain ⟨rfl, rfl⟩ := List.cons.inj heq
        exact ih.mp hrest front back rfl
    · intro h
      refine ⟨h [] (l :: ls) rfl, ih.mpr ?_⟩
      intro front back heq
      exact h (l :: front) back (by rw [heq, List.cons_append])

/-- The steps of a run, one initial segment at a time. -/
theorem eachStep_iff_forall_segment {C : σ → ℓ → Prop} {s : σ} {ls : List ℓ} :
    EachStep step C s ls ↔
      ∀ front l back, ls = front ++ l :: back → C (run step s front) l := by
  induction ls generalizing s with
  | nil => simp
  | cons m ls ih =>
    constructor
    · rintro ⟨hm, hrest⟩ front l back heq
      cases front with
      | nil =>
        obtain ⟨rfl, rfl⟩ := List.cons.inj heq
        exact hm
      | cons a front =>
        obtain ⟨rfl, rfl⟩ := List.cons.inj heq
        exact ih.mp hrest front l back rfl
    · intro h
      refine ⟨h [] m ls rfl, ih.mpr ?_⟩
      intro front l back heq
      exact h (m :: front) l back (by rw [heq, List.cons_append])

/-- The induction rule for invariants: what holds at the start and is kept by every step that
meets `C` holds throughout every run whose steps all meet `C`. -/
theorem eachState_of_eachStep {P : σ → Prop} {C : σ → ℓ → Prop}
    (hstep : ∀ s l, P s → C s l → P (step s l)) {s : σ} {ls : List ℓ}
    (hs : P s) (hC : EachStep step C s ls) : EachState step P s ls := by
  induction ls generalizing s with
  | nil => exact hs
  | cons l ls ih => exact ⟨hs, ih (hstep s l hs hC.1) hC.2⟩

/-- The invariant rule for the state a run ends in. -/
theorem run_induction {P : σ → Prop} {C : σ → ℓ → Prop}
    (hstep : ∀ s l, P s → C s l → P (step s l)) {s : σ} {ls : List ℓ}
    (hs : P s) (hC : EachStep step C s ls) : P (run step s ls) :=
  (eachState_of_eachStep hstep hs hC).last

/-- What every step keeps holds at the end of every run. -/
theorem run_invariant {P : σ → Prop} (hstep : ∀ s l, P s → P (step s l)) {s : σ} (hs : P s)
    (ls : List ℓ) : P (run step s ls) :=
  run_induction (fun s l h _ => hstep s l h) hs (eachStep_true s ls)

/-- What one step of a run brings about and no step undoes holds at the end. -/
theorem run_of_established {I P : σ → Prop} (hI : ∀ s l, I s → I (step s l))
    (hP : ∀ s l, I s → P s → P (step s l)) {s : σ} (hs : I s) {front back : List ℓ} {l : ℓ}
    (hl : I (run step s front) → P (step (run step s front) l)) :
    P (run step s (front ++ l :: back)) := by
  have hfront := run_invariant hI hs front
  rw [run_append, run_cons]
  refine (run_invariant (P := fun s => I s ∧ P s) ?_ ⟨hI _ l hfront, hl hfront⟩ back).2
  exact fun s l h => ⟨hI s l h.1, hP s l h.1 h.2⟩

/-- Labels that move one component of a state by a function of its own move it by a run of that
function. -/
theorem run_map {τ m : Type*} {step' : τ → m → τ} {f : m → ℓ} {g : τ → σ} {C : m → Prop}
    (hstep : ∀ t l, C l → step (g t) (f l) = g (step' t l)) {ls : List m}
    (hls : ∀ l ∈ ls, C l) (t : τ) : run step (g t) (ls.map f) = g (run step' t ls) := by
  induction ls generalizing t with
  | nil => rfl
  | cons l ls ih =>
    rw [List.map_cons, run_cons, run_cons, hstep t l (hls l List.mem_cons_self)]
    exact ih (fun m hm => hls m (List.mem_cons_of_mem l hm)) _

/-- What does not hold at first and holds at the end is brought about by one of the steps. -/
theorem exists_step_of_run {P : σ → Prop} {s : σ} {ls : List ℓ} (hs : ¬P s)
    (hrun : P (run step s ls)) :
    ∃ front l back, ls = front ++ l :: back ∧ ¬P (run step s front) ∧
      P (step (run step s front) l) := by
  induction ls generalizing s with
  | nil => exact absurd hrun hs
  | cons l ls ih =>
    -- It is this step, or one of the rest.
    by_cases hl : P (step s l)
    · exact ⟨[], l, ls, rfl, hs, hl⟩
    · obtain ⟨front, m, back, rfl, hnot, hstep⟩ := ih hl hrun
      exact ⟨l :: front, m, back, rfl, hnot, hstep⟩

/-- If, on the states of an invariant `I`, a step keeps `P` exactly when it meets `D`, then a run
keeps `P` throughout exactly when all of its steps meet `D`. -/
theorem eachState_iff_eachStep {I P : σ → Prop} {C D : σ → ℓ → Prop}
    (hinv : ∀ s l, I s → C s l → I (step s l))
    (hiff : ∀ s l, I s → P s → C s l → (P (step s l) ↔ D s l)) {s : σ} {ls : List ℓ}
    (hI : I s) (hP : P s) (hC : EachStep step C s ls) :
    EachState step P s ls ↔ EachStep step D s ls := by
  induction ls generalizing s with
  | nil => simp [EachState, hP]
  | cons l ls ih =>
    have hI' := hinv s l hI hC.1
    constructor
    · rintro ⟨-, hrest⟩
      have hP' : P (step s l) := by
        -- The first state of the rest of the run is the one after the step.
        cases ls with
        | nil => exact hrest
        | cons m ls => exact hrest.1
      exact ⟨(hiff s l hI hP hC.1).mp hP', (ih hI' hP' hC.2).mp hrest⟩
    · rintro ⟨hD, hrest⟩
      have hP' := (hiff s l hI hP hC.1).mpr hD
      exact ⟨hP, (ih hI' hP' hC.2).mpr hrest⟩

end Transition
