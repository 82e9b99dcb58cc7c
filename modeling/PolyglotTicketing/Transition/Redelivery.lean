import Mathlib.Logic.Basic
import PolyglotTicketing.Transition.Run

/-!
# Redelivered events

Some of the steps of a system are deliveries of events. A delivery fails or succeeds, and the system
remembers the events that were delivered successfully. `essential` leaves out of a run the
deliveries that fail, and those of an event that has been delivered successfully before.

`Rules` are what has to be known about single steps. It follows that the system remembers exactly
the events that were delivered successfully (`Rules.processed_run`), and that what is left out of a
run does not matter for what can be seen of its last state (`Rules.view_essential`).
-/

namespace Transition

variable {σ ℓ ι V : Type*} (step : σ → ℓ → σ) (event : ℓ → Option ι) (Succeeds : σ → ℓ → Prop)

/-- The event `e` is delivered successfully in the run. -/
def Delivered (s : σ) (ls : List ℓ) (e : ι) : Prop :=
  ∃ front l back, ls = front ++ l :: back ∧ event l = some e ∧ Succeeds (run step s front) l

/-- The steps of a run, without the deliveries that fail and those of the events that have been
delivered successfully before (`done`). -/
def essential [DecidableEq ι] [∀ s l, Decidable (Succeeds s l)] : σ → List ι → List ℓ → List ℓ
  | _, _, [] => []
  | s, done, l :: ls =>
    match event l with
    | none => l :: essential (step s l) done ls
    | some e =>
      if Succeeds s l ∧ e ∉ done then l :: essential (step s l) (e :: done) ls
      else essential (step s l) done ls

/-- What a step does to what can be seen of a state, and to the events that are remembered. -/
structure Rules (view : σ → V) (Processed : σ → ι → Prop) (Inv : σ → Prop) : Prop where
  /-- Steps keep the invariant. -/
  inv : ∀ {s l}, Inv s → Inv (step s l)
  /-- A delivery that fails changes nothing. -/
  failed : ∀ {s l e}, event l = some e → ¬Succeeds s l → view (step s l) = view s
  /-- Nor does the delivery of an event that is remembered. -/
  duplicate : ∀ {s l e}, Inv s → event l = some e → Processed s e → view (step s l) = view s
  /-- What a step does depends on what can be seen only. -/
  congr : ∀ {s s' l}, Inv s → Inv s' → view s = view s' → view (step s l) = view (step s' l)
  /-- Events are remembered when they are delivered successfully. -/
  processed : ∀ {s l e}, Inv s →
    (Processed (step s l) e ↔ Processed s e ∨ event l = some e ∧ Succeeds s l)

variable {step event Succeeds} {view : σ → V} {Processed : σ → ι → Prop} {Inv : σ → Prop}

/-- Nothing is delivered in the empty run. -/
theorem not_delivered_nil (s : σ) (e : ι) : ¬Delivered step event Succeeds s [] e := by
  rintro ⟨front, l, back, heq, -⟩
  simp at heq

/-- An event is delivered with the first step of a run or with one of the others. -/
theorem delivered_cons_iff {s : σ} {l : ℓ} {ls : List ℓ} {e : ι} :
    Delivered step event Succeeds s (l :: ls) e ↔
      (event l = some e ∧ Succeeds s l) ∨ Delivered step event Succeeds (step s l) ls e := by
  constructor
  · rintro ⟨front, m, back, heq, hevent, hsucceeds⟩
    cases front with
    | nil =>
      obtain ⟨rfl, rfl⟩ := List.cons.inj heq
      exact Or.inl ⟨hevent, hsucceeds⟩
    | cons a front =>
      obtain ⟨rfl, rfl⟩ := List.cons.inj heq
      exact Or.inr ⟨front, m, back, rfl, hevent, hsucceeds⟩
  · rintro (⟨hevent, hsucceeds⟩ | ⟨front, m, back, rfl, hevent, hsucceeds⟩)
    · exact ⟨[], l, ls, rfl, hevent, hsucceeds⟩
    · exact ⟨l :: front, m, back, rfl, hevent, hsucceeds⟩

namespace Rules

variable (h : Rules step event Succeeds view Processed Inv)
include h

/-- The events that are remembered after a run. -/
theorem processed_run {s : σ} (hs : Inv s) (ls : List ℓ) (e : ι) :
    Processed (run step s ls) e ↔ Processed s e ∨ Delivered step event Succeeds s ls e := by
  induction ls generalizing s with
  | nil => simp [not_delivered_nil]
  | cons l ls ih => rw [run_cons, ih (h.inv hs), h.processed hs, delivered_cons_iff, or_assoc]

/-- What is left out of a run does not matter. The run without it may start in another state, which
looks like the first one. -/
theorem view_essential [DecidableEq ι] [∀ s l, Decidable (Succeeds s l)] {s s' : σ}
    {done : List ι} (hs : Inv s) (hs' : Inv s') (hview : view s' = view s)
    (hdone : ∀ e, e ∈ done ↔ Processed s e) (ls : List ℓ) :
    view (run step s' (essential step event Succeeds s done ls)) = view (run step s ls) := by
  induction ls generalizing s s' done with
  | nil => exact hview
  | cons l ls ih =>
    have hnext : Inv (step s l) := h.inv hs
    rw [run_cons, essential]
    split
    next hevent =>
      refine ih hnext (h.inv hs') (h.congr hs' hs hview) fun e => ?_
      simp [hdone, h.processed hs, hevent]
    next e hevent =>
      split
      -- The step stays. It is remembered in both runs, if it was successful.
      next hkept =>
        refine ih hnext (h.inv hs') (h.congr hs' hs hview) fun e' => ?_
        rw [List.mem_cons, hdone, h.processed hs, hevent, Option.some.injEq, or_comm, eq_comm]
        exact or_congr_right (and_iff_left hkept.1).symm
      next hkept =>
        -- The step is left out. What can be seen and what is remembered stays the same.
        have hsame : view (step s l) = view s := by
          by_cases hsucceeds : Succeeds s l
          · have hmem : e ∈ done := not_not.mp fun hnot => hkept ⟨hsucceeds, hnot⟩
            exact h.duplicate hs hevent ((hdone e).mp hmem)
          · exact h.failed hevent hsucceeds
        refine ih hnext hs' (hview.trans hsame.symm) fun e' => ?_
        rw [h.processed hs, hdone]
        constructor
        · exact Or.inl
        · rintro (hmem | ⟨hevent', hsucceeds⟩)
          · exact hmem
          · obtain rfl := Option.some.inj (hevent.symm.trans hevent')
            exact (hdone e).mp (not_not.mp fun hnot => hkept ⟨hsucceeds, hnot⟩)

end Rules

end Transition
