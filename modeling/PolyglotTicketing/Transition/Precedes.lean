import Mathlib.Data.List.Basic

/-!
# Order in a log

`Precedes x y log`: whenever `y` is written to the log, `x` has been written to it before. The log
may repeat entries, and it need not contain `y` at all.
-/

namespace Transition

variable {α : Type*} {x y z : α} {l r : List α}

/-- Every `y` in a log comes after an `x`. -/
def Precedes (x y : α) (log : List α) : Prop :=
  ∀ front back, log = front ++ y :: back → x ∈ front

/-- A log without `y`. -/
theorem precedes_of_not_mem (h : y ∉ l) : Precedes x y l := by
  rintro front back rfl
  exact absurd (List.mem_append_right front List.mem_cons_self) h

@[simp]
theorem precedes_nil : Precedes x y [] := precedes_of_not_mem List.not_mem_nil

/-- The first entry is `x`, or it does not matter. -/
theorem precedes_cons : Precedes x y (z :: l) ↔ z ≠ y ∧ (z = x ∨ Precedes x y l) := by
  constructor
  · intro h
    refine ⟨?_, ?_⟩
    · rintro rfl
      exact absurd (h [] l rfl) List.not_mem_nil
    · by_cases hx : z = x
      · exact Or.inl hx
      · right
        rintro front back rfl
        have hmem := h (z :: front) back rfl
        exact (List.mem_cons.mp hmem).resolve_left (Ne.symm hx)
  · rintro ⟨hy, hx⟩ front back heq
    cases front with
    | nil => exact absurd (List.cons.inj heq).1 hy
    | cons a front =>
      obtain ⟨rfl, rfl⟩ := List.cons.inj heq
      rcases hx with rfl | hx
      · exact List.mem_cons_self
      · exact List.mem_cons_of_mem _ (hx front back rfl)

instance decidablePrecedes [DecidableEq α] (x y : α) : (l : List α) → Decidable (Precedes x y l)
  | [] => isTrue precedes_nil
  | z :: l =>
    have := decidablePrecedes x y l
    decidable_of_iff (z ≠ y ∧ (z = x ∨ Precedes x y l)) precedes_cons.symm

/-- A log goes on in order if `x` has been written, or the rest is in order by itself. -/
theorem precedes_append :
    Precedes x y (l ++ r) ↔ Precedes x y l ∧ (x ∈ l ∨ Precedes x y r) := by
  induction l with
  | nil => simp
  | cons z l ih =>
    rw [List.cons_append, precedes_cons, precedes_cons, ih, List.mem_cons]
    constructor
    · rintro ⟨hy, rfl | ⟨hl, hr⟩⟩
      · exact ⟨⟨hy, Or.inl rfl⟩, Or.inl (Or.inl rfl)⟩
      · exact ⟨⟨hy, Or.inr hl⟩, hr.imp_left Or.inr⟩
    · rintro ⟨⟨hy, rfl | hl⟩, hr⟩
      · exact ⟨hy, Or.inl rfl⟩
      · rcases hr with (rfl | hr) | hr
        · exact ⟨hy, Or.inl rfl⟩
        · exact ⟨hy, Or.inr ⟨hl, Or.inl hr⟩⟩
        · exact ⟨hy, Or.inr ⟨hl, Or.inr hr⟩⟩

/-- Writing an entry once more before it is the same as writing it once. -/
theorem Precedes.duplicate (h : Precedes x y (l ++ z :: r)) :
    Precedes x y (l ++ [z] ++ z :: r) := by
  rw [List.append_assoc, List.singleton_append, precedes_append, precedes_cons]
  rw [precedes_append] at h
  refine ⟨h.1, h.2.imp_right fun hr => ⟨(precedes_cons.mp hr).1, Or.inr hr⟩⟩

/-- An entry that was written before need not be written again. -/
theorem Precedes.of_mem (h : Precedes x y (l ++ z :: r)) (hz : z ∈ l) : Precedes x y (l ++ r) := by
  rw [precedes_append, precedes_cons] at h
  rw [precedes_append]
  refine ⟨h.1, ?_⟩
  rcases h.2 with hx | ⟨-, rfl | hr⟩
  · exact Or.inl hx
  · exact Or.inl hz
  · exact Or.inr hr

end Transition
