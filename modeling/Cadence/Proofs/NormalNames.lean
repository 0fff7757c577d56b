import Cadence.Proofs.TrimmedTexts
import Cadence.Workflow.Registry

/-!
# Normal forms of names

A name in normal form is its own normal form: small letters have no smaller ones, no letter becomes blank, and the
two characters whose small form depends on their surroundings are gone.
-/

namespace Cadence

namespace Text

/-! ### Equally spaced code points -/

/-- Every `step`-th number from `first` to `last`. -/
structure Spaced where
  first : Nat
  last : Nat
  step : Nat

namespace Spaced

def Has (a : Spaced) (n : Nat) : Prop := a.first ≤ n ∧ n ≤ a.last ∧ (n - a.first) % a.step = 0

/-- Whether two ranges can be seen to have no number in common: one lies before the other, or both have every second
number and begin with an odd distance. A single number is one of every second, too. -/
def apart (a b : Spaced) : Bool :=
  Nat.blt a.last b.first || Nat.blt b.last a.first ||
    ((Nat.beq a.step 2 || Nat.beq a.first a.last) && Nat.beq b.step 2 && Nat.beq ((a.first + b.first) % 2) 1)

theorem not_has_of_apart {a b : Spaced} (h : apart a b = true) {n : Nat} (ha : a.Has n) : ¬b.Has n := by
  rintro ⟨hfirst, hlast, hstep⟩
  obtain ⟨hfirst', hlast', hstep'⟩ := ha
  simp only [apart, Bool.or_eq_true, Bool.and_eq_true, Nat.blt_eq, Nat.beq_eq] at h
  rcases h with (hbefore | hafter) | ⟨⟨htwo | hsingle, htwo'⟩, hodd⟩
  · omega
  · omega
  · rw [htwo] at hstep'
    rw [htwo'] at hstep
    omega
  · rw [htwo'] at hstep
    omega

end Spaced

/-- The numbers that a run moves. -/
def movedFrom (r : Nat × Nat × Nat × Int) : Spaced := ⟨r.1, r.2.1, r.2.2.1⟩

/-- The numbers that a run moves them to. -/
def movedTo (r : Nat × Nat × Nat × Int) : Spaced := ⟨(r.1 + r.2.2.2).toNat, (r.2.1 + r.2.2.2).toNat, r.2.2.1⟩

theorem shiftIn_of_not_has {runs : List (Nat × Nat × Nat × Int)} {n : Nat}
    (h : ∀ r ∈ runs, ¬(movedFrom r).Has n) : shiftIn runs n = n := by
  induction runs with
  | nil => rfl
  | cons r runs ih =>
    obtain ⟨first, last, step, shift⟩ := r
    have hmissed := h _ List.mem_cons_self
    rw [shiftIn]
    split
    · rfl
    · rename_i hfirst
      have hunmoved : ¬(n ≤ last ∧ (n - first) % step = 0) := fun hhas => hmissed ⟨Nat.not_lt.mp hfirst, hhas⟩
      rw [if_neg hunmoved]
      exact ih fun r hr => h r (List.mem_cons_of_mem _ hr)

/-- A number stays, or it is moved by one of the runs. -/
theorem shiftIn_cases (runs : List (Nat × Nat × Nat × Int)) (n : Nat) :
    shiftIn runs n = n ∨ ∃ r ∈ runs, (movedFrom r).Has n ∧ shiftIn runs n = (n + r.2.2.2).toNat := by
  induction runs with
  | nil => exact .inl rfl
  | cons r runs ih =>
    obtain ⟨first, last, step, shift⟩ := r
    rw [shiftIn]
    split
    · exact .inl rfl
    · rename_i hfirst
      split
      · rename_i hhas
        exact .inr ⟨_, List.mem_cons_self, ⟨Nat.not_lt.mp hfirst, hhas⟩, rfl⟩
      · exact ih.imp_right fun ⟨r, hr, hhas⟩ => ⟨r, List.mem_cons_of_mem _ hr, hhas⟩

theorem movedTo_has {r : Nat × Nat × Nat × Int} {n : Nat} (hstart : 0 ≤ r.1 + r.2.2.2) (h : (movedFrom r).Has n) :
    (movedTo r).Has (n + r.2.2.2).toNat := by
  obtain ⟨hfirst, hlast, hstep⟩ := h
  have hdistance : (n + r.2.2.2).toNat - (r.1 + r.2.2.2).toNat = n - r.1 := by
    simp only [movedFrom] at hfirst
    omega
  refine ⟨?_, ?_, ?_⟩
  · simp only [movedFrom] at hfirst
    simp only [movedTo]
    omega
  · simp only [movedFrom] at hlast
    simp only [movedTo]
    omega
  · simp only [movedTo, hdistance]
    exact hstep

/-! ### Small letters -/

/-- Characters that no capital letter becomes: blank ones, the dotted capital I and the capital sigma. -/
def neverSmall : List Spaced :=
  [⟨9, 13, 1⟩, ⟨28, 32, 1⟩, ⟨0x85, 0x85, 1⟩, ⟨0xA0, 0xA0, 1⟩, ⟨0x130, 0x130, 1⟩, ⟨0x3A3, 0x3A3, 1⟩,
    ⟨0x1680, 0x1680, 1⟩, ⟨0x2000, 0x200A, 1⟩, ⟨0x2028, 0x2029, 1⟩, ⟨0x202F, 0x202F, 1⟩, ⟨0x205F, 0x205F, 1⟩,
    ⟨0x3000, 0x3000, 1⟩, ⟨0xD800, 0xDFFF, 1⟩]

/-- The small letters of a run are characters, and none of them has a small letter of its own. -/
theorem lowerRuns_settle : (lowerRuns.all fun r =>
    decide (0 ≤ r.1 + r.2.2.2) && Nat.blt (movedTo r).last 0x110000 &&
      (neverSmall.all fun a => (movedTo r).apart a) &&
      lowerRuns.all fun s => (movedTo r).apart (movedFrom s)) = true := by
  decide +kernel

/-- A character that lower case leaves alone wherever it stands. -/
structure IsSmall (c : Char) : Prop where
  undotted : c ≠ '\u0130'
  unended : c ≠ '\u03a3'
  lowered : lowerChar c = c

theorem not_blank_of_not_neverSmall {c : Char} (h : ∀ a ∈ neverSmall, ¬a.Has c.toNat) :
    isBlank c = false ∧ c ≠ '\u0130' ∧ c ≠ '\u03a3' := by
  simp only [neverSmall, List.forall_mem_cons, List.not_mem_nil, false_implies, implies_true, and_true, Spaced.Has,
    Nat.mod_one] at h
  refine ⟨?_, ?_, ?_⟩
  · simp only [isBlank, Bool.or_eq_false_iff, Bool.and_eq_false_iff, decide_eq_false_iff_not, beq_eq_false_iff_ne]
    omega
  · rintro rfl
    exact absurd h (by decide)
  · rintro rfl
    exact absurd h (by decide)

theorem lowerChar_cases (c : Char) :
    lowerChar c = c ∨ (IsSmall (lowerChar c) ∧ isBlank (lowerChar c) = false) := by
  rcases shiftIn_cases lowerRuns c.toNat with hkept | ⟨r, hr, hhas, hmoved⟩
  · rw [lowerChar, hkept]
    exact .inl (Char.ofNat_toNat c)
  · right
    have hsettle := List.all_eq_true.mp lowerRuns_settle r hr
    simp only [Bool.and_eq_true, decide_eq_true_eq, List.all_eq_true, Nat.blt_eq] at hsettle
    obtain ⟨⟨⟨hstart, hbound⟩, hnever⟩, hapart⟩ := hsettle
    have hto := movedTo_has hstart hhas
    have hoff : ∀ a ∈ neverSmall, ¬a.Has (c.toNat + r.2.2.2).toNat := fun a ha =>
      Spaced.not_has_of_apart (hnever a ha) hto
    have hgap : ¬(0xD800 ≤ (c.toNat + r.2.2.2).toNat ∧ (c.toNat + r.2.2.2).toNat ≤ 0xDFFF) := fun hin =>
      hoff ⟨0xD800, 0xDFFF, 1⟩ (by simp [neverSmall]) ⟨hin.1, hin.2, Nat.mod_one _⟩
    have hnat : (lowerChar c).toNat = (c.toNat + r.2.2.2).toNat := by
      have hless : (c.toNat + r.2.2.2).toNat < 0x110000 := Nat.lt_of_le_of_lt hto.2.1 hbound
      rw [lowerChar, hmoved]
      exact toNat_ofNat (by omega)
    rw [← hnat] at hoff hto
    obtain ⟨hblank, hundotted, hunended⟩ := not_blank_of_not_neverSmall hoff
    refine ⟨⟨hundotted, hunended, ?_⟩, hblank⟩
    have hkept : shiftIn lowerRuns (lowerChar c).toNat = (lowerChar c).toNat :=
      shiftIn_of_not_has fun s hs => Spaced.not_has_of_apart (hapart s hs) hto
    rw [lowerChar, hkept]
    exact Char.ofNat_toNat _

/-! ### Lower case -/

/-- What takes the place of a character in lower case. -/
def smallForms (c : Char) : List (List Char) :=
  if c = '\u0130' then [['i', '\u0307']]
  else if c = '\u03a3' then [['\u03c2'], ['\u03c3']]
  else [[lowerChar c]]

theorem lowerAfter_cons (before : List Char) (c : Char) (rest : List Char) :
    ∃ small ∈ smallForms c, lowerAfter before (c :: rest) = small ++ lowerAfter (c :: before) rest := by
  rw [lowerAfter, smallForms]
  refine ⟨_, ?_, rfl⟩
  split
  · exact List.mem_singleton.mpr rfl
  · split
    · split
      · exact List.mem_cons_self
      · exact List.mem_cons_of_mem _ List.mem_cons_self
    · exact List.mem_singleton.mpr rfl

theorem isSmall_of_mem_smallForms {c d : Char} {small : List Char} (h : small ∈ smallForms c) (hd : d ∈ small) :
    IsSmall d := by
  rw [smallForms] at h
  split at h
  · obtain rfl := List.mem_singleton.mp h
    rcases List.mem_pair.mp hd with rfl | rfl <;> exact ⟨by decide, by decide, by decide⟩
  · rename_i hdotted
    split at h
    · rcases List.mem_pair.mp h with rfl | rfl <;> obtain rfl := List.mem_singleton.mp hd <;>
        exact ⟨by decide, by decide, by decide⟩
    · rename_i hsigma
      obtain rfl := List.mem_singleton.mp h
      obtain rfl := List.mem_singleton.mp hd
      rcases lowerChar_cases c with hkept | ⟨hsmall, -⟩
      · rw [hkept]
        exact ⟨hdotted, hsigma, hkept⟩
      · exact hsmall

theorem not_blank_of_mem_smallForms {c d : Char} {small : List Char} (hc : isBlank c = false)
    (h : small ∈ smallForms c) (hd : d ∈ small) : isBlank d = false := by
  rw [smallForms] at h
  split at h
  · obtain rfl := List.mem_singleton.mp h
    rcases List.mem_pair.mp hd with rfl | rfl <;> rfl
  · split at h
    · rcases List.mem_pair.mp h with rfl | rfl <;> obtain rfl := List.mem_singleton.mp hd <;> rfl
    · obtain rfl := List.mem_singleton.mp h
      obtain rfl := List.mem_singleton.mp hd
      rcases lowerChar_cases c with hkept | ⟨-, hblank⟩
      · rw [hkept, hc]
      · exact hblank

theorem ne_nil_of_mem_smallForms {c : Char} {small : List Char} (h : small ∈ smallForms c) : small ≠ [] := by
  rintro rfl
  rw [smallForms] at h
  split at h
  · cases List.mem_singleton.mp h
  · split at h
    · rcases List.mem_pair.mp h with h | h <;> cases h
    · cases List.mem_singleton.mp h

theorem isSmall_of_mem_lowerAfter {before s : List Char} {d : Char} (h : d ∈ lowerAfter before s) : IsSmall d := by
  induction s generalizing before with
  | nil => cases h
  | cons c rest ih =>
    obtain ⟨small, hsmall, hlower⟩ := lowerAfter_cons before c rest
    rw [hlower] at h
    exact (List.mem_append.mp h).elim (isSmall_of_mem_smallForms hsmall) ih

theorem lowerAfter_of_small {before s : List Char} (h : ∀ c ∈ s, IsSmall c) : lowerAfter before s = s := by
  induction s generalizing before with
  | nil => rfl
  | cons c rest ih =>
    have hc := h c List.mem_cons_self
    rw [lowerAfter, if_neg hc.undotted, if_neg hc.unended, hc.lowered, List.singleton_append,
      ih fun d hd => h d (List.mem_cons_of_mem _ hd)]

theorem lower_lower (s : String) : lower (lower s) = lower s := by
  rw [lower, lower, String.toList_ofList, lowerAfter_of_small fun _ hd => isSmall_of_mem_lowerAfter hd]

/-! ### Trimmed texts in lower case -/

theorem not_blank_of_head?_lowerAfter {before s : List Char} (h : ∀ c ∈ s.head?, isBlank c = false) :
    ∀ d ∈ (lowerAfter before s).head?, isBlank d = false := by
  intro d hd
  cases s with
  | nil => cases hd
  | cons c rest =>
    obtain ⟨small, hsmall, hlower⟩ := lowerAfter_cons before c rest
    obtain ⟨e, small, rfl⟩ := List.exists_cons_of_ne_nil (ne_nil_of_mem_smallForms hsmall)
    rw [hlower] at hd
    obtain rfl : e = d := Option.some.inj hd
    exact not_blank_of_mem_smallForms (h c rfl) hsmall List.mem_cons_self

theorem not_blank_of_getLast?_lowerAfter {before s : List Char} (h : ∀ c ∈ s.getLast?, isBlank c = false) :
    ∀ d ∈ (lowerAfter before s).getLast?, isBlank d = false := by
  induction s generalizing before with
  | nil => exact fun d hd => nomatch hd
  | cons c rest ih =>
    intro d hd
    obtain ⟨small, hsmall, hlower⟩ := lowerAfter_cons before c rest
    rw [hlower] at hd
    cases rest with
    | nil =>
      rw [lowerAfter, List.append_nil] at hd
      exact not_blank_of_mem_smallForms (h c rfl) hsmall (List.mem_of_getLast? hd)
    | cons c' rest =>
      obtain ⟨small', hsmall', hlower'⟩ := lowerAfter_cons (c :: before) c' rest
      have hne : lowerAfter (c :: before) (c' :: rest) ≠ [] := by
        rw [hlower']
        exact List.append_ne_nil_of_left_ne_nil (ne_nil_of_mem_smallForms hsmall') _
      rw [List.getLast?_append_of_ne_nil _ hne] at hd
      exact ih (fun e he => h e (List.getLast?_cons_cons.trans he)) d hd

theorem strip_lower_strip (s : String) : strip (lower (strip s)) = lower (strip s) := by
  have htrimmed := isTrimmed_stripChars s.toList
  have hlower : IsTrimmed (lowerAfter [] (stripChars s.toList)) :=
    ⟨not_blank_of_head?_lowerAfter htrimmed.first, not_blank_of_getLast?_lowerAfter htrimmed.last⟩
  have hchars : lower (strip s) = String.ofList (lowerAfter [] (stripChars s.toList)) := by
    rw [lower, strip, String.toList_ofList]
  rw [hchars, strip, String.toList_ofList, hlower.stripChars]

end Text

namespace Workflow

theorem normalizeName_normalizeName (name : String) : normalizeName (normalizeName name) = normalizeName name := by
  rw [normalizeName, normalizeName, Text.strip_lower_strip, Text.lower_lower]

end Workflow

end Cadence
