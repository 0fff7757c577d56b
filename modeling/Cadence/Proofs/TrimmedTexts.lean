import Cadence.Text.Blank
import Mathlib.Data.List.DropRight

/-!
# Trimmed texts

A text that neither begins nor ends with a blank character is what trimming leaves of it, whatever blanks stand around
it. Blanks end where another character stands, as the characters of any kind do.
-/

namespace Cadence.Text

section Front
variable {kind : Char → Bool} {front rest : List Char}

theorem takeWhile_of_head? (hrest : ∀ c ∈ rest.head?, kind c = false) : rest.takeWhile kind = [] := by
  cases rest with
  | nil => rfl
  | cons c rest => exact List.takeWhile_cons_of_neg (Bool.eq_false_iff.mp (hrest c rfl))

theorem dropWhile_of_head? (hrest : ∀ c ∈ rest.head?, kind c = false) : rest.dropWhile kind = rest := by
  cases rest with
  | nil => rfl
  | cons c rest => exact List.dropWhile_cons_of_neg (Bool.eq_false_iff.mp (hrest c rfl))

theorem takeWhile_front (hfront : ∀ c ∈ front, kind c = true) (hrest : ∀ c ∈ rest.head?, kind c = false) :
    (front ++ rest).takeWhile kind = front := by
  rw [List.takeWhile_append_of_pos hfront, takeWhile_of_head? hrest, List.append_nil]

theorem dropWhile_front (hfront : ∀ c ∈ front, kind c = true) (hrest : ∀ c ∈ rest.head?, kind c = false) :
    (front ++ rest).dropWhile kind = rest := by
  rw [List.dropWhile_append_of_pos hfront, dropWhile_of_head? hrest]

end Front

/-- Neither the first character nor the last one is blank. -/
structure IsTrimmed (s : List Char) : Prop where
  first : ∀ c ∈ s.head?, isBlank c = false
  last : ∀ c ∈ s.getLast?, isBlank c = false

/-- Blanks around a trimmed text do not matter. -/
theorem IsTrimmed.stripChars_blanks {before s after : List Char} (h : IsTrimmed s) (hne : s ≠ [])
    (hbefore : ∀ c ∈ before, isBlank c = true) (hafter : ∀ c ∈ after, isBlank c = true) :
    Text.stripChars (before ++ (s ++ after)) = s := by
  have hstart : (before ++ (s ++ after)).dropWhile isBlank = s ++ after := by
    refine dropWhile_front hbefore fun c hc => h.first c ?_
    rwa [List.head?_append_of_ne_nil _ hne] at hc
  have hend : (after.reverse ++ s.reverse).dropWhile isBlank = s.reverse := by
    refine dropWhile_front (fun c hc => hafter c (List.mem_reverse.mp hc)) fun c hc => h.last c ?_
    rwa [List.head?_reverse] at hc
  rw [Text.stripChars, hstart, List.reverse_append, hend, List.reverse_reverse]

theorem IsTrimmed.stripChars {s : List Char} (h : IsTrimmed s) : stripChars s = s := by
  by_cases hne : s = []
  · rw [hne]
    rfl
  · have hnone : ∀ c ∈ ([] : List Char), isBlank c = true := List.forall_mem_nil _
    have hkept := h.stripChars_blanks hne hnone hnone
    rwa [List.nil_append, List.append_nil] at hkept

theorem isTrimmed_stripChars (s : List Char) : IsTrimmed (stripChars s) := by
  have hend : stripChars s = (s.dropWhile isBlank).rdropWhile isBlank := rfl
  refine ⟨fun c hc => ?_, fun c hc => ?_⟩
  · obtain ⟨cut, hcut⟩ : stripChars s <+: s.dropWhile isBlank := List.rdropWhile_prefix isBlank _
    have hfirst := List.head?_dropWhile_not isBlank s
    rw [← hcut, List.head?_append, hc, Option.some_or] at hfirst
    simpa using hfirst
  · have hne : stripChars s ≠ [] := List.ne_nil_of_mem (List.mem_of_getLast? hc)
    have hlast : (stripChars s).getLast hne = c :=
      Option.some.inj ((List.getLast?_eq_getLast_of_ne_nil hne).symm.trans hc)
    exact hlast ▸ Bool.eq_false_iff.mpr (List.rdropWhile_last_not isBlank _ hne)

theorem length_stripChars_le (s : List Char) : (stripChars s).length ≤ s.length := by
  rw [stripChars, List.length_reverse]
  refine (List.length_dropWhile_le _ _).trans ?_
  rw [List.length_reverse]
  exact List.length_dropWhile_le _ _

theorem stripChars_stripChars (s : List Char) : stripChars (stripChars s) = stripChars s :=
  (isTrimmed_stripChars s).stripChars

theorem strip_strip (s : String) : strip (strip s) = strip s := by
  rw [strip, strip, String.toList_ofList, stripChars_stripChars]

end Cadence.Text
