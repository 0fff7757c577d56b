/-!
# Splitting text

A text is cut at every occurrence of a character. The pieces, empty ones included, joined by that
character are the text again.
-/

namespace Cadence.Text

def splitChars (mark : Char) : List Char → List (List Char)
  | [] => [[]]
  | c :: rest =>
    if c = mark then [] :: splitChars mark rest
    else
      match splitChars mark rest with
      | [] => [[c]]
      | piece :: pieces => (c :: piece) :: pieces

theorem splitChars_ne_nil (mark : Char) (s : List Char) : splitChars mark s ≠ [] := by
  cases s with
  | nil => simp [splitChars]
  | cons c rest =>
    simp only [splitChars]
    split
    · simp
    · split <;> simp

/-- The pieces on either side of a mark are split on their own. -/
theorem splitChars_append (mark : Char) (a b : List Char) :
    splitChars mark (a ++ mark :: b) = splitChars mark a ++ splitChars mark b := by
  induction a with
  | nil => simp [splitChars]
  | cons c rest ih =>
    by_cases hc : c = mark
    · simp [splitChars, hc, ih]
    · obtain ⟨piece, pieces, hrest⟩ := List.exists_cons_of_ne_nil (splitChars_ne_nil mark rest)
      simp [splitChars, hc, ih, hrest]

theorem splitChars_of_not_mem {mark : Char} {s : List Char} (h : mark ∉ s) : splitChars mark s = [s] := by
  induction s with
  | nil => rfl
  | cons c rest ih =>
    have hc : c ≠ mark := fun heq => h (heq ▸ List.mem_cons_self)
    rw [splitChars, if_neg hc, ih fun hmem => h (List.mem_cons_of_mem c hmem)]

/-- No piece has the mark in it. -/
theorem not_mem_of_mem_splitChars {mark : Char} {s piece : List Char} (h : piece ∈ splitChars mark s) :
    mark ∉ piece := by
  induction s generalizing piece with
  | nil =>
    obtain rfl := List.mem_singleton.mp h
    exact List.not_mem_nil
  | cons c rest ih =>
    by_cases hc : c = mark
    · rw [splitChars, if_pos hc] at h
      rcases List.mem_cons.mp h with rfl | h
      · exact List.not_mem_nil
      · exact ih h
    · obtain ⟨first, pieces, hrest⟩ := List.exists_cons_of_ne_nil (splitChars_ne_nil mark rest)
      rw [splitChars, if_neg hc, hrest] at h
      rw [hrest] at ih
      rcases List.mem_cons.mp h with rfl | h
      · rw [List.mem_cons, not_or]
        exact ⟨fun heq => hc heq.symm, ih List.mem_cons_self⟩
      · exact ih (List.mem_cons_of_mem _ h)

/-- The pieces of a text with the mark between them are the text again. -/
theorem intercalate_splitChars (mark : Char) (s : List Char) : [mark].intercalate (splitChars mark s) = s := by
  induction s with
  | nil => rfl
  | cons c rest ih =>
    obtain ⟨piece, pieces, hrest⟩ := List.exists_cons_of_ne_nil (splitChars_ne_nil mark rest)
    rw [hrest] at ih
    by_cases hc : c = mark
    · simp [splitChars, hc, hrest, List.intercalate_cons_cons, ih]
    · cases pieces <;> simp_all [splitChars, List.intercalate]

def split (mark : Char) (s : String) : List String :=
  (splitChars mark s.toList).map String.ofList

theorem split_append (mark : Char) (a b : String) :
    split mark (a ++ String.singleton mark ++ b) = split mark a ++ split mark b := by
  have hchars : (a ++ String.singleton mark ++ b).toList = a.toList ++ mark :: b.toList := by simp
  rw [split, hchars, splitChars_append, List.map_append]
  rfl

end Cadence.Text
