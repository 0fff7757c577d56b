import Cadence.Log.Redaction
import Cadence.Proofs.TrimmedTexts
import Mathlib.Data.Bool.AllAny
import Mathlib.Data.List.Forall2
import Mathlib.Data.List.Infix
import Mathlib.Data.List.TakeWhile

/-!
# Passes that mask a text

A pass over a text that has more text after it. Either the two are masked apart, or a secret that begins in the
first goes on into the second: this needs only what the search finds at one place, and it holds of every search.
What words and runs of characters contribute to such a place is here too.
-/

namespace Cadence.Log

/-! ### Passes over a text -/

section Passes
variable {find : List Char → Option Span} {c : Char} {rest : List Char} {span : Span}

theorem maskWith_nil : maskWith find [] = [] := by rw [maskWith]

theorem maskWith_found (h : find (c :: rest) = some span) :
    maskWith find (c :: rest) = (c :: rest).take span.kept ++ mask.toList ++
      maskWith find (rest.drop (span.kept + span.masked - 1)) := by
  rw [maskWith, h]

theorem maskWith_missed (h : find (c :: rest) = none) :
    maskWith find (c :: rest) = c :: maskWith find rest := by
  rw [maskWith, h]

/-- Every place that is found lies within the text. -/
def Fits (find : List Char → Option Span) : Prop :=
  ∀ s span, find s = some span → span.kept + span.masked ≤ s.length

/-- A pass over a text with something after it comes to the end of the text exactly, unless it stands at a part of
the text before, from which a place may go on beyond the end. -/
def Reaches (find : List Char → Option Span) (Over F : List Char → Prop) (s : List Char) : Prop :=
  (∀ y, F y → maskWith find (s ++ y) = maskWith find s ++ maskWith find y) ∨
    ∃ done q, q <:+ s ∧ Over q ∧ ∀ y, F y → maskWith find (s ++ y) = done ++ maskWith find (q ++ y)

theorem Reaches.of_suffix {Over F : List Char → Prop} {s later : List Char} (front : List Char)
    (hsuffix : later <:+ s) (halone : maskWith find s = front ++ maskWith find later)
    (hstep : ∀ y, F y → maskWith find (s ++ y) = front ++ maskWith find (later ++ y))
    (h : Reaches find Over F later) : Reaches find Over F s := by
  rcases h with hend | ⟨done, q, hq, hover, hrest⟩
  · refine .inl fun y hy => ?_
    rw [hstep y hy, hend y hy, halone, List.append_assoc]
  · refine .inr ⟨front ++ done, q, hq.trans hsuffix, hover, fun y hy => ?_⟩
    rw [hstep y hy, hrest y hy, List.append_assoc]

theorem maskWith_reaches (hfits : Fits find) (Over F : List Char → Prop) (s : List Char)
    (h : ∀ q, q ≠ [] → q <:+ s → Over q ∨ ∀ y, F y → find (q ++ y) = find q) : Reaches find Over F s := by
  induction s using maskWith.induct find with
  | case1 => exact .inl fun y _ => by rw [maskWith_nil, List.nil_append, List.nil_append]
  | case2 c rest span hspan ih =>
    rcases h (c :: rest) (List.cons_ne_nil _ _) List.suffix_rfl with hover | hsame
    · exact .inr ⟨[], c :: rest, List.suffix_rfl, hover, fun _ _ => rfl⟩
    · have hlength := hfits _ _ hspan
      rw [List.length_cons] at hlength
      have hlater : rest.drop (span.kept + span.masked - 1) <:+ c :: rest :=
        (List.drop_suffix _ _).trans (List.suffix_cons _ _)
      refine .of_suffix _ hlater (maskWith_found hspan) (fun y hy => ?_) (ih fun q hq hsuffix =>
        h q hq (hsuffix.trans hlater))
      -- The place lies within the text, so what follows the text has no part in it.
      have hfound : find (c :: (rest ++ y)) = some span := (hsame y hy).trans hspan
      have htake : (c :: rest ++ y).take span.kept = (c :: rest).take span.kept :=
        List.take_append_of_le_length (by rw [List.length_cons]; omega)
      rw [List.cons_append] at htake
      rw [List.cons_append, maskWith_found hfound, htake, List.drop_append_of_le_length (by omega)]
  | case3 c rest hnone ih =>
    rcases h (c :: rest) (List.cons_ne_nil _ _) List.suffix_rfl with hover | hsame
    · exact .inr ⟨[], c :: rest, List.suffix_rfl, hover, fun _ _ => rfl⟩
    · have hlater : rest <:+ c :: rest := List.suffix_cons _ _
      exact .of_suffix [c] hlater (maskWith_missed hnone)
        (fun y hy => maskWith_missed ((hsame y hy).trans hnone))
        (ih fun q hq hsuffix => h q hq (hsuffix.trans hlater))

/-- A secret at the head of a text, after what is kept before it, is masked. -/
theorem maskWith_secret {kept w rest : List Char} (hkept : kept ≠ [])
    (h : find (kept ++ (w ++ rest)) = some ⟨kept.length, w.length⟩) :
    maskWith find (kept ++ (w ++ rest)) = kept ++ (mask.toList ++ maskWith find rest) := by
  obtain ⟨c, kept, rfl⟩ := List.exists_cons_of_ne_nil hkept
  have htake : (c :: (kept ++ (w ++ rest))).take (c :: kept).length = c :: kept := List.take_left' rfl
  have hdrop : (kept ++ (w ++ rest)).drop ((c :: kept).length + w.length - 1) = rest := by
    rw [← List.append_assoc, List.drop_left' (by simp only [List.length_append, List.length_cons]; omega)]
  rw [List.cons_append] at h ⊢
  rw [maskWith_found h, htake, hdrop, List.append_assoc]

/-- A place at the head of a text goes on beyond its end: the secret that begins in the text takes in the run
that follows, and what is kept before it meets a condition. -/
def GoesOn (find : List Char → Option Span) (Ends Next : List Char → List Char → Prop) (q : List Char) :
    Prop :=
  ∃ kept secret, q = kept ++ secret ∧ kept ≠ [] ∧ Ends kept secret ∧
    ∀ w rest, Next w rest → find (q ++ (w ++ rest)) = some ⟨kept.length, secret.length + w.length⟩

/-- A pass over a text and a run after it: the two are masked apart, or a secret at the end of the text takes in
the run. -/
theorem maskWith_append_run (hfits : Fits find) {Ends Next : List Char → List Char → Prop} (s : List Char)
    (h : ∀ q, q ≠ [] → GoesOn find Ends Next q ∨ ∀ w rest, Next w rest → find (q ++ (w ++ rest)) = find q) :
    (∀ w rest, Next w rest → maskWith find (s ++ (w ++ rest)) = maskWith find s ++ maskWith find (w ++ rest)) ∨
    ∃ done kept secret, kept ++ secret <:+ s ∧ Ends kept secret ∧ ∀ w rest, Next w rest →
      maskWith find (s ++ (w ++ rest)) = done ++ kept ++ (mask.toList ++ maskWith find rest) := by
  have hsearch (q : List Char) (hq : q ≠ []) :
      GoesOn find Ends Next q ∨ ∀ y, (∃ w rest, y = w ++ rest ∧ Next w rest) → find (q ++ y) = find q := by
    refine (h q hq).imp_right fun hsame y hy => ?_
    obtain ⟨w, rest, rfl, hnext⟩ := hy
    exact hsame w rest hnext
  rcases maskWith_reaches hfits _ _ s fun q hq _ => hsearch q hq with
    hend | ⟨done, q, hsuffix, ⟨kept, secret, rfl, hkept, hends, hon⟩, hq⟩
  · exact .inl fun w rest hnext => hend _ ⟨w, rest, rfl, hnext⟩
  · refine .inr ⟨done, kept, secret, hsuffix, hends, fun w rest hnext => ?_⟩
    have hparts : kept ++ secret ++ (w ++ rest) = kept ++ ((secret ++ w) ++ rest) := by
      simp only [List.append_assoc]
    have hspan := hon w rest hnext
    rw [hparts, ← List.length_append] at hspan
    rw [hq _ ⟨w, rest, rfl, hnext⟩, hparts, maskWith_secret hkept hspan, List.append_assoc]

/-- Where nothing goes on beyond the end of a text, the text and what is after it are masked apart. -/
theorem maskWith_append (hfits : Fits find) {s y : List Char}
    (h : ∀ q, q ≠ [] → q <:+ s → find (q ++ y) = find q) :
    maskWith find (s ++ y) = maskWith find s ++ maskWith find y := by
  have hends := maskWith_reaches hfits (fun _ => False) (· = y) s
    fun q hq hsuffix => .inr fun z hz => hz ▸ h q hq hsuffix
  rcases hends with hend | ⟨_, _, _, hnever, _⟩
  · exact hend y rfl
  · exact hnever.elim

/-- A text at no part of which a place is found is left as it is. -/
theorem maskWith_plain {s y : List Char} (h : ∀ q, q ≠ [] → q <:+ s → find (q ++ y) = none) :
    maskWith find (s ++ y) = s ++ maskWith find y := by
  induction s with
  | nil => rfl
  | cons c rest ih =>
    have hhead : find (c :: (rest ++ y)) = none := h (c :: rest) (List.cons_ne_nil _ _) List.suffix_rfl
    rw [List.cons_append, maskWith_missed hhead, ih fun q hq hsuffix =>
      h q hq (hsuffix.trans (List.suffix_cons _ _)), List.cons_append]

end Passes

/-! ### Words -/

/-- No end part of a word stands at the head of a text. -/
def StartsAnew (word y : List Char) : Prop :=
  ∀ k, 0 < k → k < word.length → afterWord? (word.drop k) y = none

theorem afterWord?_append {word y : List Char} (hy : StartsAnew word y) {q : List Char} (hq : q ≠ []) :
    afterWord? word (q ++ y) = (afterWord? word q).map (· ++ y) := by
  induction word generalizing q with
  | nil => rfl
  | cons letter word ih =>
    obtain ⟨c, q, rfl⟩ := List.exists_cons_of_ne_nil hq
    rw [List.cons_append, afterWord?, afterWord?]
    cases isLetter letter c with
    | false => rfl
    | true =>
      rw [if_pos rfl, if_pos rfl]
      by_cases hq : q = []
      · subst hq
        cases word with
        | nil => rfl
        | cons next word => exact hy 1 (by decide) (by simp)
      · exact ih (fun k hk hlength => hy (k + 1) (Nat.succ_pos k) (Nat.succ_lt_succ hlength)) hq

theorem afterWord?_eq_some {word s rest : List Char} (h : afterWord? word s = some rest) :
    ∃ u, s = u ++ rest ∧ List.Forall₂ (fun letter c => isLetter letter c = true) word u := by
  induction word generalizing s with
  | nil => exact ⟨[], Option.some.inj h, .nil⟩
  | cons letter word ih =>
    cases s with
    | nil => cases h
    | cons c s =>
      rw [afterWord?] at h
      split at h
      · rename_i hletter
        obtain ⟨u, rfl, hu⟩ := ih h
        exact ⟨c :: u, rfl, .cons hletter hu⟩
      · cases h

theorem isBearerChar_of_isLetter {small c : Char} (hsmall : isBearerChar small = true)
    (h : isLetter small c = true) : isBearerChar c = true := by
  simp only [isLetter, Bool.or_eq_true, Bool.and_eq_true, decide_eq_true_eq, or_assoc] at h
  rcases h with rfl | ⟨hrange, hcase⟩ | ⟨-, rfl⟩ | ⟨-, rfl⟩ | ⟨-, rfl | rfl⟩
  · exact hsmall
  · have hletter : 97 ≤ small.toNat ∧ small.toNat ≤ 122 := hrange
    have hcapital : 65 ≤ c.toNat ∧ c.toNat ≤ 90 := by omega
    have hrange' : 'A' ≤ c ∧ c ≤ 'Z' := hcapital
    simp only [isBearerChar, hrange', decide_true, Bool.and_self, Bool.true_or, Bool.or_true]
  all_goals decide

theorem isLetter_of_not_isBearerChar {small c : Char} (hsmall : isBearerChar small = true)
    (hc : isBearerChar c = false) : isLetter small c = false := by
  rw [← Bool.not_eq_true]
  intro hletter
  rw [isBearerChar_of_isLetter hsmall hletter] at hc
  cases hc

theorem toLower_of_isLetter {small c : Char} (hsmall : small.isUpper = false) (hc : c.toNat < 128)
    (h : isLetter small c = true) : c.toLower = small := by
  simp only [isLetter, Bool.or_eq_true, Bool.and_eq_true, decide_eq_true_eq, or_assoc] at h
  rcases h with rfl | ⟨hrange, hcase⟩ | ⟨-, rfl⟩ | ⟨-, rfl⟩ | ⟨-, rfl | rfl⟩
  · exact dif_neg (of_decide_eq_false hsmall)
  · have hletter : 97 ≤ small.toNat ∧ small.toNat ≤ 122 := hrange
    have hcapital : 65 ≤ c.toNat ∧ c.toNat ≤ 90 := by omega
    have hlower : c.toLower = _ := dif_pos (show c.val ≥ 'A'.val ∧ c.val ≤ 'Z'.val from hcapital)
    rw [hlower]
    refine Char.toNat_inj.mp ?_
    show (c.val + 32).toNat = small.toNat
    rw [UInt32.toNat_add, ← hcase]
    show (c.toNat + 32) % 2 ^ 32 = c.toNat + 32
    omega
  all_goals exact absurd hc (by decide)

theorem startsAnew_of_head {word y : List Char}
    (h : ∀ c ∈ y.head?, ∀ letter ∈ word.tail, isLetter letter c = false) : StartsAnew word y := by
  intro k hk hlength
  rw [List.drop_eq_getElem_cons hlength]
  cases y with
  | nil => rfl
  | cons c y =>
    have hmem : word[k] ∈ word.tail := by
      rw [List.mem_iff_getElem]
      exact ⟨k - 1, by rw [List.length_tail]; omega, by rw [List.getElem_tail]; congr; omega⟩
    rw [afterWord?, h c rfl _ hmem, if_neg Bool.false_ne_true]

/-- A word stands nowhere in a text, in any case. -/
def Absent (word s : List Char) : Prop := ∀ q, q ≠ [] → q <:+ s → afterWord? word q = none

theorem Absent.cons {letter c : Char} {word s : List Char} (hc : isLetter letter c = false)
    (h : Absent (letter :: word) s) : Absent (letter :: word) (c :: s) := by
  intro q hq hsuffix
  rcases List.suffix_cons_iff.mp hsuffix with rfl | hsuffix
  · rw [afterWord?, hc, if_neg Bool.false_ne_true]
  · exact h q hq hsuffix

theorem Absent.append {letter : Char} {word s t : List Char} (h : Absent (letter :: word) s)
    (ht : ∀ c ∈ t, isLetter letter c = false) : Absent (letter :: word) (t ++ s) := by
  induction t with
  | nil => exact h
  | cons c t ih =>
    exact (ih fun d hd => ht d (List.mem_cons_of_mem _ hd)).cons (ht c List.mem_cons_self)

/-! ### Runs of characters -/

/-- A run of characters of a kind, up to the end of the text or to another character. -/
structure Run (kind : Char → Bool) (w rest : List Char) : Prop where
  nonempty : w ≠ []
  all : ∀ c ∈ w, kind c = true
  stops : ∀ c ∈ rest.head?, kind c = false

theorem Run.takeWhile_append {kind : Char → Bool} {w rest : List Char} (h : Run kind w rest) (s : List Char) :
    (s ++ (w ++ rest)).takeWhile kind = if s.takeWhile kind = s then s ++ w else s.takeWhile kind := by
  have hrest := Text.takeWhile_of_head? h.stops
  have hlength : (s.takeWhile kind).length = s.length ↔ s.takeWhile kind = s :=
    ⟨fun heq => (List.takeWhile_prefix kind).eq_of_length heq, congrArg List.length⟩
  rw [List.takeWhile_append, List.takeWhile_append_of_pos h.all, hrest, List.append_nil]
  simp only [hlength]

theorem dropWhile_append_of_head {kind : Char → Bool} {y : List Char} (hy : ∀ c ∈ y.head?, kind c = false)
    (s : List Char) : (s ++ y).dropWhile kind = s.dropWhile kind ++ y := by
  have hhead := Text.dropWhile_of_head? hy
  rw [List.dropWhile_append]
  split
  · rename_i hempty
    rw [List.isEmpty_iff.mp hempty, hhead, List.nil_append]
  · rfl

theorem Run.head_not_blank {kind : Char → Bool} (hkind : ∀ c, kind c = true → Text.isBlank c = false)
    {w rest : List Char} (h : Run kind w rest) : ∀ c ∈ (w ++ rest).head?, Text.isBlank c = false := by
  intro c hc
  obtain ⟨first, w, rfl⟩ := List.exists_cons_of_ne_nil h.nonempty
  cases hc
  exact hkind _ (h.all _ List.mem_cons_self)

theorem last_before_blanks {a a' gap gap' : List Char} {c c' : Char} (h : a ++ c :: gap = a' ++ c' :: gap')
    (hgap : ∀ b ∈ gap, Text.isBlank b = true) (hgap' : ∀ b ∈ gap', Text.isBlank b = true)
    (hc : Text.isBlank c = false) (hc' : Text.isBlank c' = false) : c = c' := by
  have hback (a gap : List Char) (c : Char) (hgap : ∀ b ∈ gap, Text.isBlank b = true)
      (hc : Text.isBlank c = false) : (a ++ c :: gap).reverse.dropWhile Text.isBlank = c :: a.reverse := by
    rw [List.reverse_append, List.reverse_cons, List.append_assoc, List.singleton_append,
      List.dropWhile_append_of_pos fun b hb => hgap b (List.mem_reverse.mp hb),
      List.dropWhile_cons_of_neg (by rw [hc]; exact Bool.false_ne_true)]
  have hends := hback a gap c hgap hc
  rw [h, hback a' gap' c' hgap' hc'] at hends
  exact (List.cons.inj hends).1.symm

end Cadence.Log
