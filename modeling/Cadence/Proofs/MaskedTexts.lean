import Cadence.Proofs.MaskedSecrets

/-!
# Masked texts

A masked text has no bearer token any more, and the value of a field in it is the mask alone: to mask it once more
changes nothing. The mask has no letter of the words that secrets follow, so every word of a masked text was there
before.
-/

namespace Cadence.Log

/-! ### What a search finds -/

/-- A search finds the runs of a kind after the texts that lead to a secret, and nothing else. -/
structure Seeks (find : List Char → Option Span) (Lead : List Char → Prop) (kind : Char → Bool) : Prop where
  lead_ne_nil : ∀ {kept}, Lead kept → kept ≠ []
  lead_unmasked : ∀ {kept}, Lead kept → '*' ∉ kept
  found : ∀ {s span}, find s = some span →
    ∃ kept w rest, s = kept ++ (w ++ rest) ∧ span = ⟨kept.length, w.length⟩ ∧ Lead kept ∧ Run kind w rest
  finds : ∀ {kept w rest}, Lead kept → Run kind w rest → find (kept ++ (w ++ rest)) = some ⟨kept.length, w.length⟩

/-- A text and what a pass makes of it, place after place. -/
inductive Pass (find : List Char → Option Span) (Lead : List Char → Prop) (kind : Char → Bool) :
    List Char → List Char → Prop
  | nil : Pass find Lead kind [] []
  | missed {c : Char} {rest t : List Char} : find (c :: rest) = none → Pass find Lead kind rest t →
      Pass find Lead kind (c :: rest) (c :: t)
  | found {kept w rest t : List Char} : Lead kept → Run kind w rest → Pass find Lead kind rest t →
      Pass find Lead kind (kept ++ (w ++ rest)) (kept ++ (mask.toList ++ t))

theorem run_takeWhile {kind : Char → Bool} {s : List Char} (h : s.takeWhile kind ≠ []) :
    Run kind (s.takeWhile kind) (s.dropWhile kind) where
  nonempty := h
  all _ hc := List.mem_takeWhile_imp hc
  stops c hc := by
    have hstop := List.head?_dropWhile_not kind s
    rw [hc] at hstop
    simpa using hstop

theorem dropWhile_parts (kind : Char → Bool) (s : List Char) :
    ∃ u, s = u ++ s.dropWhile kind ∧ ∀ c ∈ u, kind c = true :=
  ⟨s.takeWhile kind, List.takeWhile_append_dropWhile.symm, fun _ hc => List.mem_takeWhile_imp hc⟩

section Seeks
variable {find : List Char → Option Span} {Lead : List Char → Prop} {kind : Char → Bool} {s t u : List Char}

theorem Seeks.pass (h : Seeks find Lead kind) (s : List Char) : Pass find Lead kind s (maskWith find s) := by
  induction s using maskWith.induct find with
  | case1 => rw [maskWith_nil]; exact .nil
  | case2 c rest span hspan ih =>
    obtain ⟨kept, w, rest', hparts, rfl, hlead, hrun⟩ := h.found hspan
    have hrest : rest.drop (kept.length + w.length - 1) = rest' := by
      have hdrop : (c :: rest).drop (kept.length + w.length) = rest' := by
        rw [hparts, ← List.append_assoc, List.drop_left' List.length_append]
      have hkept := List.length_pos_iff.mpr (h.lead_ne_nil hlead)
      rwa [← Nat.sub_add_cancel (show 1 ≤ kept.length + w.length by omega), List.drop_succ_cons] at hdrop
    have ih' : Pass find Lead kind rest' (maskWith find rest') := hrest ▸ ih
    rw [hparts] at hspan ⊢
    rw [maskWith_secret (h.lead_ne_nil hlead) hspan]
    exact .found hlead hrun ih'
  | case3 c rest hnone ih => rw [maskWith_missed hnone]; exact .missed hnone ih

/-- A place is found as soon as one character of a secret stands after the text that leads to it. -/
theorem Seeks.finds_first (h : Seeks find Lead kind) {kept s : List Char} {y : Char} (hkept : Lead kept)
    (hy : kind y = true) (hs : kept ++ [y] <+: s) : find s ≠ none := by
  obtain ⟨more, rfl⟩ := hs
  have hne : (y :: more).takeWhile kind ≠ [] := by
    rw [List.takeWhile_cons_of_pos hy]
    exact List.cons_ne_nil _ _
  have hspan := h.finds hkept (run_takeWhile hne)
  rw [List.takeWhile_append_dropWhile] at hspan
  rw [List.append_assoc, List.singleton_append, hspan]
  exact Option.some_ne_none _

end Seeks

/-! ### What a pass leaves of a text -/

theorem prefix_of_prefix_append_cons {u a b : List Char} {c : Char} (h : u <+: a ++ c :: b) (hc : c ∉ u) :
    u <+: a := by
  rcases List.prefix_or_prefix_of_prefix h (List.prefix_append a (c :: b)) with hu | ⟨v, rfl⟩
  · exact hu
  · rw [List.prefix_append_right_inj] at h
    cases v with
    | nil => rw [List.append_nil]
    | cons d v =>
      obtain ⟨rfl, -⟩ := List.cons_prefix_cons.mp h
      exact absurd (List.mem_append_right a List.mem_cons_self) hc

theorem infix_of_infix_append_cons {u a b : List Char} {c : Char} (h : u <:+: a ++ c :: b) (hc : c ∉ u) :
    u <:+: a ∨ u <:+: b := by
  induction a with
  | nil =>
    rcases List.infix_cons_iff.mp h with hstart | hpart
    · exact .inl (prefix_of_prefix_append_cons (a := []) hstart hc).isInfix
    · exact .inr hpart
  | cons d a ih =>
    rcases List.infix_cons_iff.mp h with hstart | hpart
    · exact .inl (prefix_of_prefix_append_cons (a := d :: a) hstart hc).isInfix
    · exact (ih hpart).imp_left fun ha => ha.trans (List.suffix_cons d a).isInfix

theorem mask_cons : mask.toList = '*' :: ['*', '*'] := rfl

theorem infix_of_infix_append_mask {u a b : List Char} (h : u <:+: a ++ (mask.toList ++ b)) (hu : '*' ∉ u) :
    u <:+: a ∨ u <:+: b := by
  refine (infix_of_infix_append_cons h hu).imp_right fun hsecond => ?_
  -- Between the stars of the mask there is nothing.
  have hthird : u <:+: '*' :: b :=
    (infix_of_infix_append_cons (a := []) hsecond hu).elim (fun hnil => hnil.trans List.nil_infix) id
  exact (infix_of_infix_append_cons (a := []) hthird hu).elim (fun hnil => hnil.trans List.nil_infix) id

section Pass
variable {find : List Char → Option Span} {Lead : List Char → Prop} {kind : Char → Bool} {s t u : List Char}

/-- What is found at a secret's first character is what was there, or the mask for something of the kind. -/
theorem Pass.start_first (h : Pass find Lead kind s t) {x : Char} (hx : kind x = true) (hu : '*' ∉ u)
    (hstart : u ++ [x] <+: t) : ∃ y, kind y = true ∧ u ++ [y] <+: s := by
  induction h generalizing u with
  | nil => exact absurd (List.prefix_nil.mp hstart) (List.append_ne_nil_of_right_ne_nil u (List.cons_ne_nil x []))
  | @missed c rest t _ _ ih =>
    cases u with
    | nil =>
      obtain ⟨rfl, -⟩ := List.cons_prefix_cons.mp hstart
      exact ⟨x, hx, List.cons_prefix_cons.mpr ⟨rfl, List.nil_prefix⟩⟩
    | cons d u =>
      obtain ⟨rfl, hrest⟩ := List.cons_prefix_cons.mp hstart
      obtain ⟨y, hy, hyrest⟩ := ih (fun hmem => hu (List.mem_cons_of_mem _ hmem)) hrest
      exact ⟨y, hy, List.cons_prefix_cons.mpr ⟨rfl, hyrest⟩⟩
  | @found kept w rest t hlead hrun _ _ =>
    rw [mask_cons, List.cons_append] at hstart
    have hkept : u <+: kept := prefix_of_prefix_append_cons ((List.prefix_append u [x]).trans hstart) hu
    obtain ⟨v, rfl⟩ := hkept
    rw [List.append_assoc, List.prefix_append_right_inj] at hstart
    cases v with
    | nil =>
      obtain ⟨y, w, rfl⟩ := List.exists_cons_of_ne_nil hrun.nonempty
      refine ⟨y, hrun.all y List.mem_cons_self, ?_⟩
      rw [List.append_nil, List.prefix_append_right_inj]
      exact List.cons_prefix_cons.mpr ⟨rfl, List.nil_prefix⟩
    | cons d v =>
      obtain ⟨rfl, -⟩ := List.cons_prefix_cons.mp hstart
      refine ⟨x, hx, ?_⟩
      rw [List.append_assoc, List.prefix_append_right_inj]
      exact List.cons_prefix_cons.mpr ⟨rfl, List.nil_prefix⟩

theorem Pass.start_of_start (h : Pass find Lead kind s t) (hu : '*' ∉ u) (hstart : u <+: t) : u <+: s := by
  induction h generalizing u with
  | nil => exact hstart
  | @missed c rest t _ _ ih =>
    cases u with
    | nil => exact List.nil_prefix
    | cons d u =>
      obtain ⟨rfl, hrest⟩ := List.cons_prefix_cons.mp hstart
      exact List.cons_prefix_cons.mpr ⟨rfl, ih (fun hmem => hu (List.mem_cons_of_mem _ hmem)) hrest⟩
  | @found kept w rest t _ _ _ _ =>
    exact (prefix_of_prefix_append_cons hstart hu).trans (List.prefix_append kept (w ++ rest))

theorem Pass.part_of_part (h : Pass find Lead kind s t) (hu : '*' ∉ u) (hpart : u <:+: t) : u <:+: s := by
  induction h with
  | nil => exact hpart
  | @missed c rest t hnone hrest ih =>
    rcases List.infix_cons_iff.mp hpart with hhead | hlater
    · exact ((Pass.missed hnone hrest).start_of_start hu hhead).isInfix
    · exact (ih hlater).trans (List.suffix_cons c rest).isInfix
  | @found kept w rest t _ _ _ ih =>
    rcases infix_of_infix_append_mask hpart hu with hkept | hlater
    · exact hkept.trans (List.prefix_append kept (w ++ rest)).isInfix
    · exact (ih hlater).trans ((List.suffix_append w rest).trans (List.suffix_append kept (w ++ rest))).isInfix

theorem Pass.head?_eq (h : Seeks find Lead kind) (hpass : Pass find Lead kind s t) : t.head? = s.head? := by
  cases hpass with
  | nil => rfl
  | missed _ _ => rfl
  | found hlead _ _ =>
    obtain ⟨c, kept, rfl⟩ := List.exists_cons_of_ne_nil (h.lead_ne_nil hlead)
    rfl

/-- Where the mask counts as a secret, a second pass finds the mask again in its places, and nothing more. -/
theorem Pass.masked (h : Seeks find Lead kind) (hstar : kind '*' = true) (hpass : Pass find Lead kind s t) :
    maskWith find t = t := by
  induction hpass with
  | nil => exact maskWith_nil
  | @missed c rest t hnone hrest ih =>
    have hstill : find (c :: t) = none := by
      rw [Option.eq_none_iff_forall_ne_some]
      intro span hspan
      obtain ⟨kept, w, after, hparts, -, hlead, hrun⟩ := h.found hspan
      obtain ⟨x, w, rfl⟩ := List.exists_cons_of_ne_nil hrun.nonempty
      have hstart : kept ++ [x] <+: c :: t := ⟨w ++ after, by rw [hparts]; simp⟩
      obtain ⟨y, hy, hbefore⟩ :=
        (Pass.missed hnone hrest).start_first (hrun.all x List.mem_cons_self) (h.lead_unmasked hlead) hstart
      exact h.finds_first hlead hy hbefore hnone
    rw [maskWith_missed hstill, ih]
  | @found kept w rest t hlead hrun hrest ih =>
    have hmask : Run kind mask.toList t := by
      refine ⟨List.cons_ne_nil _ _, fun c hc => ?_, fun c hc => hrun.stops c (hrest.head?_eq h ▸ hc)⟩
      have hc' : c = '*' := by simpa [mask] using hc
      exact hc' ▸ hstar
    rw [maskWith_secret (h.lead_ne_nil hlead) (h.finds hlead hmask), ih]

end Pass

/-! ### Bearer tokens -/

/-- The word "bearer", in any case, and white space. -/
def TokenLead (s : List Char) : Prop :=
  ∃ word gap, s = word ++ gap ∧ List.Forall₂ (fun letter c => isLetter letter c = true) bearerWord word ∧
    gap ≠ [] ∧ ∀ b ∈ gap, Text.isBlank b = true

theorem afterWord?_append_word {word u : List Char}
    (h : List.Forall₂ (fun letter c => isLetter letter c = true) word u) (rest : List Char) :
    afterWord? word (u ++ rest) = some rest := by
  induction h with
  | nil => rfl
  | cons hletter _ ih => rw [List.cons_append, afterWord?, if_pos hletter, ih]

theorem isBearerChar_of_word {word u : List Char} (hword : ∀ letter ∈ word, isBearerChar letter = true)
    (h : List.Forall₂ (fun letter c => isLetter letter c = true) word u) : ∀ c ∈ u, isBearerChar c = true := by
  induction h with
  | nil => intro c hc; cases hc
  | cons hletter _ ih =>
    intro c hc
    rcases List.mem_cons.mp hc with rfl | hc
    · exact isBearerChar_of_isLetter (hword _ List.mem_cons_self) hletter
    · exact ih (fun l hl => hword l (List.mem_cons_of_mem _ hl)) c hc

theorem TokenLead.unmasked {s : List Char} (h : TokenLead s) : '*' ∉ s := by
  obtain ⟨word, gap, rfl, hword, -, hgap⟩ := h
  intro hstar
  rcases List.mem_append.mp hstar with hstar | hstar
  · have hletter := isBearerChar_of_word (List.all_iff_forall_prop.mp (by decide)) hword _ hstar
    cases hletter
  · cases hgap _ hstar

theorem TokenLead.unmasked_token {s : List Char} {c : Char} (h : TokenLead s) (hc : isBearerChar c = true) :
    '*' ∉ s ++ [c] := by
  intro hstar
  rcases List.mem_append.mp hstar with hstar | hstar
  · exact h.unmasked hstar
  · obtain rfl := List.mem_singleton.mp hstar
    cases hc

theorem seeks_bearerSpan? : Seeks bearerSpan? TokenLead isBearerChar where
  lead_ne_nil := by
    rintro _ ⟨word, gap, rfl, -, hgap, -⟩
    exact List.append_ne_nil_of_right_ne_nil word hgap
  lead_unmasked := TokenLead.unmasked
  found := by
    intro s span h
    rw [bearerSpan?_eq] at h
    obtain ⟨rest, hword, hspan⟩ := Option.bind_eq_some_iff.mp h
    obtain ⟨word, rfl, hletters⟩ := afterWord?_eq_some hword
    obtain ⟨gap, hrest, hgap⟩ := dropWhile_parts Text.isBlank rest
    rw [tokenSpan?] at hspan
    generalize rest.dropWhile Text.isBlank = secret at hrest hspan
    subst hrest
    split at hspan
    · cases hspan
    · rename_i hfound
      obtain ⟨hblank, hmasked⟩ := not_or.mp hfound
      have hne : gap ≠ [] := by rintro rfl; exact hblank rfl
      have hw : secret.takeWhile isBearerChar ++ secret.dropWhile isBearerChar = secret :=
        List.takeWhile_append_dropWhile
      refine ⟨word ++ gap, secret.takeWhile isBearerChar, secret.dropWhile isBearerChar, ?_, ?_,
        ⟨word, gap, rfl, hletters, hne, hgap⟩, run_takeWhile (List.length_pos_iff.mp (Nat.pos_of_ne_zero hmasked))⟩
      · rw [hw, List.append_assoc]
      · rw [← Option.some.inj hspan, ← List.append_assoc, @List.length_append _ (word ++ gap), Nat.add_sub_cancel]
  finds := by
    rintro _ w rest ⟨word, gap, rfl, hword, hne, hgap⟩ hrun
    have hsecret : (gap ++ (w ++ rest)).dropWhile Text.isBlank = w ++ rest :=
      Text.dropWhile_front hgap (hrun.head_not_blank isBlank_of_isBearerChar)
    have htoken : (w ++ rest).takeWhile isBearerChar = w := hrun.takeWhile_append []
    have hlength : 0 < gap.length ∧ 0 < w.length :=
      ⟨List.length_pos_iff.mpr hne, List.length_pos_iff.mpr hrun.nonempty⟩
    rw [bearerSpan?_eq, List.append_assoc, afterWord?_append_word hword, Option.bind_some, tokenSpan?, hsecret, htoken]
    rw [if_neg (by rw [@List.length_append _ gap]; omega), ← List.append_assoc,
      @List.length_append _ (word ++ gap), Nat.add_sub_cancel]

/-- A bearer token begins nowhere in a text. -/
def Untokened (s : List Char) : Prop :=
  ∀ kept c, TokenLead kept → isBearerChar c = true → ¬kept ++ [c] <:+: s

theorem Untokened.masked {s : List Char} (h : Untokened s) : maskWith bearerSpan? s = s := by
  have hnone (q : List Char) (hq : q <:+ s) : bearerSpan? q = none := by
    rw [Option.eq_none_iff_forall_ne_some]
    intro span hspan
    obtain ⟨kept, w, rest, rfl, -, hlead, hrun⟩ := seeks_bearerSpan?.found hspan
    obtain ⟨c, w, rfl⟩ := List.exists_cons_of_ne_nil hrun.nonempty
    refine h kept c hlead (hrun.all c List.mem_cons_self) (List.IsInfix.trans ?_ hq.isInfix)
    exact List.IsPrefix.isInfix ⟨w ++ rest, by simp⟩
  have hplain : maskWith bearerSpan? (s ++ []) = s ++ maskWith bearerSpan? [] := maskWith_plain fun q _ hq => by
    rw [List.append_nil]
    exact hnone q hq
  rwa [maskWith_nil, List.append_nil] at hplain

/-- What leads to a token has no room for another one: after its white space there is nothing. -/
theorem TokenLead.untokened {s : List Char} (h : TokenLead s) : Untokened s := by
  rintro kept c ⟨word', gap', rfl, hword', hne, -⟩ hc ⟨before, after, hparts⟩
  obtain ⟨word, gap, rfl, hword, -, hgap⟩ := h
  have hgap' := List.length_pos_iff.mpr hne
  have hlength : word.length = word'.length := hword.length_eq.symm.trans hword'.length_eq
  rw [← List.append_assoc, List.append_assoc, List.singleton_append] at hparts
  rcases List.append_eq_append_iff.mp hparts with ⟨v, hover, -⟩ | ⟨v, -, hlater⟩
  · have hshort := congrArg List.length hover
    simp only [List.length_append] at hshort
    omega
  · have hblank := hgap c (hlater ▸ List.mem_append_right v List.mem_cons_self)
    rw [isBlank_of_isBearerChar c hc] at hblank
    cases hblank

theorem Pass.untokened {s t : List Char} (h : Pass bearerSpan? TokenLead isBearerChar s t) : Untokened t := by
  induction h with
  | nil =>
    rintro kept c - - hpart
    exact absurd (List.infix_nil.mp hpart) (List.append_ne_nil_of_right_ne_nil kept (List.cons_ne_nil c []))
  | @missed c rest t hnone hrest ih =>
    intro kept x hlead hx hpart
    rcases List.infix_cons_iff.mp hpart with hstart | hlater
    · obtain ⟨y, hy, hbefore⟩ := (Pass.missed hnone hrest).start_first hx hlead.unmasked hstart
      exact seeks_bearerSpan?.finds_first hlead hy hbefore hnone
    · exact ih kept x hlead hx hlater
  | @found before w rest t hbefore _ _ ih =>
    intro kept x hlead hx hpart
    rcases infix_of_infix_append_mask hpart (hlead.unmasked_token hx) with hkept | hlater
    · exact hbefore.untokened kept x hlead hx hkept
    · exact ih kept x hlead hx hlater

/-! ### Fields -/

def IsQuote (s : List Char) : Prop := s = [] ∨ s = ['"'] ∨ s = ['\'']

/-- The name of a field, in any case, with what may stand between it and the value. -/
def ValueLead (name s : List Char) : Prop :=
  ∃ word quote gap sep gap' quote', s = word ++ (quote ++ (gap ++ sep :: (gap' ++ quote'))) ∧
    List.Forall₂ (fun letter c => isLetter letter c = true) name word ∧ IsQuote quote ∧
    (∀ b ∈ gap, Text.isBlank b = true) ∧ (sep = ':' ∨ sep = '=') ∧ (∀ b ∈ gap', Text.isBlank b = true) ∧
    IsQuote quote'

theorem dropQuote_parts (s : List Char) : ∃ quote, s = quote ++ dropQuote s ∧ IsQuote quote := by
  rcases dropQuote_cases s with hbare | ⟨c, hc, hquoted⟩
  · exact ⟨[], by rw [List.nil_append, hbare], .inl rfl⟩
  · exact ⟨[c], hquoted, .inr (hc.imp (congrArg (fun d => [d])) (congrArg (fun d => [d])))⟩

theorem dropQuote_quote {quote y : List Char} (hquote : IsQuote quote)
    (hy : ∀ c ∈ y.head?, c ≠ '"' ∧ c ≠ '\'') : dropQuote (quote ++ y) = y := by
  rcases hquote with rfl | rfl | rfl
  · cases y with
    | nil => rfl
    | cons c y =>
      obtain ⟨hdouble, hsingle⟩ := hy c rfl
      rw [List.nil_append, dropQuote, if_neg (not_or.mpr ⟨hdouble, hsingle⟩)]
  · rfl
  · rfl

theorem Run.head_not_quote {w rest : List Char} (h : Run isValueChar w rest) :
    ∀ c ∈ (w ++ rest).head?, c ≠ '"' ∧ c ≠ '\'' := by
  obtain ⟨first, w, rfl⟩ := List.exists_cons_of_ne_nil h.nonempty
  rintro _ ⟨⟩
  have hvalue := h.all first List.mem_cons_self
  simp only [isValueChar, Bool.and_eq_true, decide_eq_true_eq] at hvalue
  exact ⟨hvalue.1.1.2, hvalue.1.2⟩

theorem IsQuote.unmasked {s : List Char} (h : IsQuote s) : '*' ∉ s := by
  rcases h with rfl | rfl | rfl <;> decide

theorem unmasked_of_blank {s : List Char} (h : ∀ b ∈ s, Text.isBlank b = true) : '*' ∉ s := by
  intro hstar
  cases h _ hstar

theorem seeks_fieldSpan? {name : List Char} (hname : name ∈ secretFieldNames) :
    Seeks (fieldSpan? name) (ValueLead name) isValueChar where
  lead_ne_nil := by
    rintro _ ⟨word, quote, gap, sep, gap', quote', rfl, -⟩
    simp
  lead_unmasked := by
    rintro _ ⟨word, quote, gap, sep, gap', quote', rfl, hword, hquote, hgap, hsep, hgap', hquote'⟩ hstar
    simp only [List.mem_append, List.mem_cons] at hstar
    rcases hstar with hstar | hstar | hstar | rfl | hstar | hstar
    · cases isBearerChar_of_word (isBearerChar_of_fieldName name hname) hword _ hstar
    · exact hquote.unmasked hstar
    · exact unmasked_of_blank hgap hstar
    · rcases hsep with hsep | hsep <;> cases hsep
    · exact unmasked_of_blank hgap' hstar
    · exact hquote'.unmasked hstar
  found := by
    intro s span h
    rw [fieldSpan?_eq] at h
    obtain ⟨rest, hword, hspan⟩ := Option.bind_eq_some_iff.mp h
    obtain ⟨word, rfl, hletters⟩ := afterWord?_eq_some hword
    obtain ⟨quote, hrest, hquote⟩ := dropQuote_parts rest
    obtain ⟨gap, hgap, hblank⟩ := dropWhile_parts Text.isBlank (dropQuote rest)
    rw [valueSpan?] at hspan
    split at hspan
    · cases hspan
    rename_i sep more hsep
    obtain ⟨gap', hgap', hblank'⟩ := dropWhile_parts Text.isBlank more
    obtain ⟨quote', hvalue, hquote'⟩ := dropQuote_parts (more.dropWhile Text.isBlank)
    generalize hsecret : dropQuote (more.dropWhile Text.isBlank) = secret at hspan hvalue
    split at hspan
    · rename_i hcolon
      dsimp only at hspan
      split at hspan
      · cases hspan
      · rename_i hmasked
        have hw : secret.takeWhile isValueChar ++ secret.dropWhile isValueChar = secret :=
          List.takeWhile_append_dropWhile
        have hparts : word ++ rest = word ++ (quote ++ (gap ++ sep :: (gap' ++ quote'))) ++ secret := by
          rw [hrest, hgap, hsep, hgap', hvalue]
          simp only [List.append_assoc, List.cons_append]
        refine ⟨word ++ (quote ++ (gap ++ sep :: (gap' ++ quote'))), secret.takeWhile isValueChar,
          secret.dropWhile isValueChar, by rw [hw, hparts], ?_,
          ⟨word, quote, gap, sep, gap', quote', rfl, hletters, hquote, hblank, hcolon, hblank', hquote'⟩,
          run_takeWhile (List.length_pos_iff.mp (Nat.pos_of_ne_zero hmasked))⟩
        rw [← Option.some.inj hspan, hparts, @List.length_append _ _ secret, Nat.add_sub_cancel]
    · cases hspan
  finds := by
    rintro _ w rest ⟨word, quote, gap, sep, gap', quote', rfl, hword, hquote, hgap, hsep, hgap', hquote'⟩ hrun
    have hsecret : dropQuote (quote' ++ (w ++ rest)) = w ++ rest :=
      dropQuote_quote hquote' fun c hc => hrun.head_not_quote c hc
    have hvalue : (gap' ++ (quote' ++ (w ++ rest))).dropWhile Text.isBlank = quote' ++ (w ++ rest) := by
      refine Text.dropWhile_front hgap' fun c hc => ?_
      rcases hquote' with rfl | rfl | rfl
      · exact hrun.head_not_blank isBlank_of_isValueChar c hc
      all_goals (cases hc; rfl)
    have hmore : (gap ++ sep :: (gap' ++ (quote' ++ (w ++ rest)))).dropWhile Text.isBlank =
        sep :: (gap' ++ (quote' ++ (w ++ rest))) := by
      refine Text.dropWhile_front hgap fun c hc => ?_
      cases hc
      rcases hsep with rfl | rfl <;> rfl
    have hfield : dropQuote (quote ++ (gap ++ sep :: (gap' ++ (quote' ++ (w ++ rest))))) =
        gap ++ sep :: (gap' ++ (quote' ++ (w ++ rest))) := by
      refine dropQuote_quote hquote fun c hc => ?_
      cases gap with
      | nil =>
        cases hc
        rcases hsep with rfl | rfl <;> decide
      | cons b gap =>
        cases hc
        have hblank := hgap _ List.mem_cons_self
        constructor <;> (rintro rfl; cases hblank)
    have htoken : (w ++ rest).takeWhile isValueChar = w := hrun.takeWhile_append []
    have hlength : 0 < w.length := List.length_pos_iff.mpr hrun.nonempty
    have hparts : word ++ (quote ++ (gap ++ sep :: (gap' ++ quote'))) ++ (w ++ rest) =
        word ++ (quote ++ (gap ++ sep :: (gap' ++ (quote' ++ (w ++ rest))))) := by
      simp only [List.append_assoc, List.cons_append]
    rw [fieldSpan?_eq, hparts, afterWord?_append_word hword, ← hparts, Option.bind_some, valueSpan?, hfield, hmore]
    dsimp only
    rw [if_pos hsep, hvalue, hsecret, htoken, if_neg (by omega), @List.length_append _ _ (w ++ rest),
      Nat.add_sub_cancel]

theorem isLetter_ne {c : Char} (h : isLetter 'e' c = true) : isLetter 'a' c = false := by
  simp only [isLetter, Bool.or_eq_true, Bool.and_eq_true, decide_eq_true_eq, or_assoc] at h
  rcases h with rfl | ⟨-, hcase⟩ | ⟨hfalse, -⟩ | ⟨hfalse, -⟩ | ⟨hfalse, -⟩
  · rfl
  · have hcapital : c.toNat = 'E'.toNat := by
      have hsmall : 'e'.toNat = 'E'.toNat + 32 := rfl
      omega
    rw [Char.toNat_inj.mp hcapital]
    rfl
  all_goals exact absurd hfalse (by decide)

theorem fieldSpan?_none {letter : Char} {word s : List Char} (h : ∀ c ∈ s.head?, isLetter letter c = false) :
    fieldSpan? (letter :: word) s = none := by
  rw [fieldSpan?_eq]
  cases s with
  | nil => rfl
  | cons c s => rw [afterWord?, h c rfl, if_neg Bool.false_ne_true, Option.bind_none]

/-- The name of one of the secret fields, with what may stand between it and the value. -/
def FieldLead (s : List Char) : Prop := ∃ name ∈ secretFieldNames, ValueLead name s

theorem seeks_secretFieldSpan? : Seeks secretFieldSpan? FieldLead isValueChar where
  lead_ne_nil := by
    rintro kept ⟨name, hname, hlead⟩
    exact (seeks_fieldSpan? hname).lead_ne_nil hlead
  lead_unmasked := by
    rintro kept ⟨name, hname, hlead⟩
    exact (seeks_fieldSpan? hname).lead_unmasked hlead
  found := by
    intro s span h
    obtain ⟨name, hname, hfound⟩ := List.exists_of_findSome?_eq_some h
    obtain ⟨kept, w, rest, hparts, hspan, hlead, hrun⟩ := (seeks_fieldSpan? hname).found hfound
    exact ⟨kept, w, rest, hparts, hspan, ⟨name, hname, hlead⟩, hrun⟩
  finds := by
    rintro kept w rest ⟨name, hname, hlead⟩ hrun
    have hfound := (seeks_fieldSpan? hname).finds hlead hrun
    rw [secretFieldSpan?_eq]
    simp only [secretFieldNames, List.mem_cons, List.not_mem_nil, or_false] at hname
    rcases hname with rfl | rfl
    · rw [hfound, Option.some_or]
    · have hother : fieldSpan? "access_token".toList (kept ++ (w ++ rest)) = none := by
        obtain ⟨word, quote, gap, sep, gap', quote', rfl, hword, -⟩ := hlead
        have hencrypted : "encrypted_secret".toList = 'e' :: "ncrypted_secret".toList := by decide
        have haccess : "access_token".toList = 'a' :: "ccess_token".toList := by decide
        rw [hencrypted] at hword
        cases hword with
        | cons hletter _ =>
          rw [haccess]
          refine fieldSpan?_none fun c hc => ?_
          cases hc
          exact isLetter_ne hletter
      rw [hother, Option.none_or, hfound]

/-! ### Texts without a secret -/

theorem absent_of_letter {letter : Char} {word s : List Char} (hletter : letter ∈ word)
    (h : ∀ c ∈ s, isLetter letter c = false) : Absent word s := by
  intro q _ hsuffix
  rw [Option.eq_none_iff_forall_ne_some]
  intro rest hrest
  obtain ⟨u, rfl, hu⟩ := afterWord?_eq_some hrest
  have hmem : ∀ {word u : List Char}, List.Forall₂ (fun letter c => isLetter letter c = true) word u →
      letter ∈ word → ∃ c ∈ u, isLetter letter c = true := by
    intro word u hu hletter
    obtain ⟨i, hi, rfl⟩ := List.mem_iff_getElem.mp hletter
    have hi' : i < u.length := hu.length_eq ▸ hi
    exact ⟨u[i], List.getElem_mem hi', hu.get hi hi'⟩
  obtain ⟨c, hc, hpresent⟩ := hmem hu hletter
  rw [h c (hsuffix.subset (List.mem_append_left rest hc))] at hpresent
  cases hpresent

/-- A text in which there is neither a b nor a c. Each of the words that secrets follow has one of them. -/
def isPlain (s : String) : Bool := s.toList.all fun c => !isLetter 'b' c && !isLetter 'c' c

@[simp]
theorem isPlain_append (s t : String) : isPlain (s ++ t) = (isPlain s && isPlain t) := by
  rw [isPlain, String.toList_append, List.all_append]
  rfl

theorem redact_of_isPlain {s : String} (hplain : isPlain s = true) : redact s = s := by
  have h : ∀ c ∈ s.toList, isLetter 'b' c = false ∧ isLetter 'c' c = false := by
    simpa [isPlain] using hplain
  have hanew {word : List Char} : StartsAnew word [] := startsAnew_of_head (by rintro c ⟨⟩)
  have hb : 'b' ∈ bearerWord := by decide
  have hc : ∀ name ∈ secretFieldNames, 'c' ∈ name := by decide
  have hbearer := maskWith_bearer_plain (absent_of_letter hb fun c hc => (h c hc).1) hanew
  have hfield := maskWith_field_plain
    (fun name hname => absent_of_letter (hc name hname) fun c hc => (h c hc).2) fun _ _ => hanew
  rw [maskWith_nil, List.append_nil] at hbearer hfield
  rw [redact, redactChars, hbearer, hfield, String.ofList_toList]

/-! ### Masking twice -/

theorem redactChars_redactChars (s : List Char) : redactChars (redactChars s) = redactChars s := by
  have hfields := seeks_secretFieldSpan?.pass (maskWith bearerSpan? s)
  have huntokened : Untokened (redactChars s) := fun kept c hlead hc hpart =>
    (seeks_bearerSpan?.pass s).untokened kept c hlead hc (hfields.part_of_part (hlead.unmasked_token hc) hpart)
  rw [redactChars, huntokened.masked]
  exact hfields.masked seeks_secretFieldSpan? rfl

theorem redact_redact (s : String) : redact (redact s) = redact s := by
  rw [redact, redact, String.toList_ofList, redactChars_redactChars]

end Cadence.Log
