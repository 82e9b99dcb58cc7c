import Mathlib.Data.List.DropRight

/-!
# Texts of JavaScript

Functions of JavaScript strings that take a text apart, on lists of characters: `trim`, `split` and
`join` by a character. `trim_padded` and `exists_padding` say what `trim` strips off,
`of_split_eq_cons` and `split_append_cons` what `split` takes for the first part.
-/

namespace JavaScript

/-- A string, as the list of its characters. -/
abbrev Text := List Char

/-- The white space and the line terminators of JavaScript. -/
def isWhiteSpace (c : Char) : Bool :=
  c ∈ ['\t', '\n', '\x0b', '\x0c', '\r', ' ', '\u00a0', '\u1680', '\u2028', '\u2029', '\u202f',
    '\u205f', '\u3000', '\ufeff'] ∨ '\u2000' ≤ c ∧ c ≤ '\u200a'

/-- The method `trim`. -/
def trim (s : Text) : Text := (s.dropWhile isWhiteSpace).rdropWhile isWhiteSpace

/-- The method `split`, with a single character. -/
def split (s : Text) (separator : Char) : List Text := s.splitOn separator

/-- The method `join`, with a single character. -/
def join (ss : List Text) (separator : Char) : Text := [separator].intercalate ss

/-- A text of white space. -/
def White (s : Text) : Prop := ∀ c ∈ s, isWhiteSpace c = true

instance (s : Text) : Decidable (White s) := List.decidableBAll _ s

/-- A text that neither begins nor ends with white space. -/
structure Trimmed (s : Text) : Prop where
  head : ∀ c ∈ s.head?, isWhiteSpace c = false
  last : ∀ c ∈ s.getLast?, isWhiteSpace c = false

instance (s : Text) : Decidable (Trimmed s) :=
  have : Decidable (∀ c ∈ s.head?, isWhiteSpace c = false) :=
    Option.decidableForallMem _
  have : Decidable (∀ c ∈ s.getLast?, isWhiteSpace c = false) :=
    Option.decidableForallMem _
  decidable_of_iff (_ ∧ _) ⟨fun h => ⟨h.1, h.2⟩, fun h => ⟨h.head, h.last⟩⟩

section Trim

variable {s before after : Text}

theorem dropWhile_white (h : White before) (s : Text) :
    (before ++ s).dropWhile isWhiteSpace = s.dropWhile isWhiteSpace := by
  induction before with
  | nil => rfl
  | cons c before ih =>
    rw [List.cons_append, List.dropWhile_cons_of_pos (h c List.mem_cons_self)]
    exact ih fun d hd => h d (List.mem_cons_of_mem c hd)

theorem White.reverse (h : White s) : White s.reverse := fun c hc => h c (List.mem_reverse.mp hc)

theorem dropWhile_of_head (h : ∀ c ∈ s.head?, isWhiteSpace c = false) :
    s.dropWhile isWhiteSpace = s := by
  cases s with
  | nil => rfl
  | cons c s => exact List.dropWhile_cons_of_neg (by simp [h c rfl])

/-- White space around a text is stripped off. -/
theorem trim_padded (hbefore : White before) (hafter : White after) (h : Trimmed s) :
    trim (before ++ s ++ after) = s := by
  rw [trim, List.append_assoc, dropWhile_white hbefore]
  cases s with
  | nil =>
    have hnone : after.dropWhile isWhiteSpace = [] := List.dropWhile_eq_nil_iff.mpr hafter
    rw [List.nil_append, hnone, List.rdropWhile_nil]
  | cons c s =>
    -- The white space after the text is the one before the reversed text.
    rw [dropWhile_of_head (s := c :: s ++ after) h.head, List.rdropWhile, List.reverse_append,
      dropWhile_white hafter.reverse, dropWhile_of_head, List.reverse_reverse]
    rw [List.head?_reverse]
    exact h.last

/-- Nothing but white space is stripped off. -/
theorem exists_padding (s : Text) :
    ∃ before after, White before ∧ White after ∧ s = before ++ trim s ++ after := by
  refine ⟨s.takeWhile isWhiteSpace, (s.dropWhile isWhiteSpace).rtakeWhile isWhiteSpace, ?_, ?_, ?_⟩
  · exact fun c hc => List.mem_takeWhile_imp hc
  · exact fun c hc => List.mem_rtakeWhile_imp hc
  · rw [List.append_assoc, trim, List.rdropWhile_append_rtakeWhile, List.takeWhile_append_dropWhile]

end Trim

section Split

variable {s s' : Text} {separator : Char}

/-- What `split` has taken apart, `join` puts together. -/
theorem join_split : join (split s separator) separator = s := List.intercalate_splitOn separator

/-- The first part of a text. -/
theorem split_append_cons (h : separator ∉ s) (s' : Text) :
    split (s ++ separator :: s') separator = s :: split s' separator :=
  List.splitOn_append_cons_self_of_not_mem h s'

/-- A text is its first part, or goes on after it with the separator. -/
theorem of_split_eq_cons {first : Text} {rest : List Text}
    (h : split s separator = first :: rest) :
    s = first ++ if rest = [] then [] else separator :: join rest separator := by
  have hjoin : s = join (first :: rest) separator := by rw [← h, join_split]
  rw [hjoin, join]
  split
  next hnil => simp [hnil]
  next hne => rw [List.intercalate_cons_of_ne_nil hne, List.append_assoc]; rfl

/-- Texts that are joined are taken apart into their own parts. -/
theorem split_join {ss : List Text} (hne : ss ≠ []) :
    split (join ss separator) separator = ss.flatMap fun s => split s separator := by
  induction ss with
  | nil => exact absurd rfl hne
  | cons s ss ih =>
    by_cases hnil : ss = []
    · simp [hnil, join]
    · rw [List.flatMap_cons, ← ih hnil, join, List.intercalate_cons_of_ne_nil hnil,
        List.append_assoc]
      exact List.splitOn_append_cons_self s (join ss separator)

end Split

end JavaScript
