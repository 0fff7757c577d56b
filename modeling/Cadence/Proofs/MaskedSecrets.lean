import Cadence.Proofs.SecretPlaces

/-!
# Secrets that redaction hides

A secret is written after a marker, "Bearer" with a blank or `access_token` with an equals sign. Where the text
before ends in an open bearer token, this token takes in the word of the marker: the mask stands for the marker,
and the secret is left as it is. After every other text the secret is masked, whatever the text holds.
-/

namespace Cadence.Log

/-! ### Texts without a secret -/

/-- The text is empty or begins with white space. -/
def BlankFirst (s : List Char) : Prop := ∀ c ∈ s.head?, Text.isBlank c = true

theorem isLetter_of_isBlank {small c : Char} (hsmall : isBearerChar small = true)
    (hc : Text.isBlank c = true) : isLetter small c = false := by
  refine isLetter_of_not_isBearerChar hsmall ?_
  rw [← Bool.not_eq_true]
  intro hbearer
  rw [isBlank_of_isBearerChar c hbearer] at hc
  cases hc

/-- The words that a secret may follow have letters of tokens only. -/
theorem isBearerChar_of_bearerWord : ∀ letter ∈ bearerWord, isBearerChar letter = true :=
  List.all_iff_forall_prop.mp (by decide)

theorem isBearerChar_of_fieldName :
    ∀ name ∈ secretFieldNames, ∀ letter ∈ name, isBearerChar letter = true := by
  intro name hname
  simp only [secretFieldNames, List.mem_cons, List.not_mem_nil, or_false] at hname
  rcases hname with rfl | rfl <;> exact List.all_iff_forall_prop.mp (by decide)

theorem BlankFirst.startsAnew {s word : List Char} (h : BlankFirst s)
    (hword : ∀ letter ∈ word, isBearerChar letter = true) : StartsAnew word s :=
  startsAnew_of_head fun c hc letter hletter =>
    isLetter_of_isBlank (hword letter (List.mem_of_mem_tail hletter)) (h c hc)

theorem BlankFirst.run {kind : Char → Bool} {w s : List Char} (h : BlankFirst s)
    (hkind : ∀ c, kind c = true → Text.isBlank c = false) (hw : w ≠ []) (hall : ∀ c ∈ w, kind c = true) :
    Run kind w s where
  nonempty := hw
  all := hall
  stops c hc := by
    rw [← Bool.not_eq_true]
    intro hgraphic
    have hblank := hkind c hgraphic
    rw [h c hc] at hblank
    cases hblank

theorem maskWith_bearer_plain {s y : List Char} (hs : Absent bearerWord s) (hy : StartsAnew bearerWord y) :
    maskWith bearerSpan? (s ++ y) = s ++ maskWith bearerSpan? y := by
  refine maskWith_plain fun q hq hsuffix => ?_
  rw [bearerSpan?_eq, afterWord?_append hy hq, hs q hq hsuffix]
  rfl

theorem maskWith_field_plain {s y : List Char} (hs : ∀ name ∈ secretFieldNames, Absent name s)
    (hy : ∀ name ∈ secretFieldNames, StartsAnew name y) :
    maskWith secretFieldSpan? (s ++ y) = s ++ maskWith secretFieldSpan? y := by
  refine maskWith_plain fun q hq hsuffix => ?_
  have hfield (name : List Char) (hname : name ∈ secretFieldNames) : fieldSpan? name (q ++ y) = none := by
    rw [fieldSpan?_eq, afterWord?_append (hy name hname) hq, hs name hname q hq hsuffix]
    rfl
  rw [secretFieldSpan?_eq, hfield _ List.mem_cons_self, hfield _ (List.mem_cons_of_mem _ List.mem_cons_self)]
  rfl

theorem BlankFirst.masked {s : List Char} (h : BlankFirst s) : BlankFirst (maskWith bearerSpan? s) := by
  cases s with
  | nil => rwa [maskWith_nil]
  | cons c s =>
    have hmissed : bearerSpan? (c :: s) = none := by
      rw [bearerSpan?_eq, bearerWord, afterWord?, isLetter_of_isBlank (by decide) (h c rfl),
        if_neg Bool.false_ne_true]
      rfl
    rw [maskWith_missed hmissed]
    rintro _ ⟨⟩
    exact h c rfl

/-! ### A token at the end -/

/-- The text ends in a bearer token of which a letter after it would be a part. -/
def TokenOpen (p : List Char) : Prop := maskWith bearerSpan? (p ++ ['x']) ≠ maskWith bearerSpan? p ++ ['x']

theorem tokenRun_probe : TokenRun ['x'] [] where
  nonempty := List.cons_ne_nil _ _
  all := List.all_iff_forall_prop.mp (by decide)
  stops := by rintro c ⟨⟩
  anew := startsAnew_of_head (by rintro c ⟨⟩; exact List.all_iff_forall_prop.mp (by decide))

/-- The first pass over a text and what follows it: the two are masked apart, or a token at the end of the text
takes in the letters that follow. -/
theorem maskWith_bearer_cases (p : List Char) :
    (¬TokenOpen p ∧ ∀ w rest, TokenRun w rest →
      maskWith bearerSpan? (p ++ (w ++ rest)) = maskWith bearerSpan? p ++ maskWith bearerSpan? (w ++ rest)) ∨
    TokenOpen p ∧ ∃ done kept token, kept ++ token <:+ p ∧ EndsBeforeToken kept ∧
      (∀ c ∈ token, isBearerChar c = true) ∧ ∀ w rest, TokenRun w rest →
        maskWith bearerSpan? (p ++ (w ++ rest)) = done ++ kept ++ (mask.toList ++ maskWith bearerSpan? rest) := by
  rcases maskWith_append_run fits_bearerSpan? p fun q => bearerSpan?_append with
    hend | ⟨done, kept, token, hsuffix, ⟨hkept, htoken⟩, hon⟩
  · refine .inl ⟨not_not.mpr ?_, hend⟩
    have hmissed : maskWith bearerSpan? ['x'] = ['x'] := by rw [maskWith_missed (by decide), maskWith_nil]
    have hapart := hend ['x'] [] tokenRun_probe
    rwa [List.append_nil, hmissed] at hapart
  · refine .inr ⟨fun heq => ?_, done, kept, token, hsuffix, hkept, htoken, hon⟩
    have hprobe := hon ['x'] [] tokenRun_probe
    rw [List.append_nil, heq, maskWith_nil] at hprobe
    have hlast := congrArg List.getLast? hprobe
    simp [mask] at hlast

/-! ### A secret after a marker -/

/-- A secret of ASCII letters, digits, dots, underscores and hyphens, in which no word stands that a secret
may follow. -/
structure PlainSecret (v : String) : Prop where
  nonempty : v ≠ ""
  plain : ∀ c ∈ v.toList, c.isAlphanum = true ∨ c = '.' ∨ c = '_' ∨ c = '-'
  wordless : ∀ word ∈ ["bearer", "access_token", "encrypted_secret"],
    ¬word.toList <:+: v.toList.map Char.toLower

theorem isBearerChar_of_isAlphanum {c : Char} (h : c.isAlphanum = true) :
    isBearerChar c = true ∧ c.toNat < 128 := by
  have hranges : ('A' ≤ c ∧ c ≤ 'Z') ∨ ('a' ≤ c ∧ c ≤ 'z') ∨ '0' ≤ c ∧ c ≤ '9' := by
    rcases Bool.or_eq_true_iff.mp h with hletter | hdigit
    · rcases Bool.or_eq_true_iff.mp hletter with hupper | hlower
      · exact .inl (of_decide_eq_true hupper)
      · exact .inr (.inl ((Bool.and_eq_true_iff.mp hlower).imp of_decide_eq_true of_decide_eq_true))
    · exact .inr (.inr ((Bool.and_eq_true_iff.mp hdigit).imp of_decide_eq_true of_decide_eq_true))
  rcases hranges with hrange | hrange | hrange
  · have hlast : c.toNat ≤ 90 := hrange.2
    exact ⟨by simp only [isBearerChar, hrange, decide_true, Bool.and_self, Bool.true_or, Bool.or_true], by omega⟩
  · have hlast : c.toNat ≤ 122 := hrange.2
    exact ⟨by simp only [isBearerChar, hrange, decide_true, Bool.and_self, Bool.true_or], by omega⟩
  · have hlast : c.toNat ≤ 57 := hrange.2
    exact ⟨by simp only [isBearerChar, hrange, decide_true, Bool.and_self, Bool.true_or, Bool.or_true], by omega⟩

theorem toLower_of_word {word u : List Char} (hword : ∀ letter ∈ word, letter.isUpper = false)
    (hascii : ∀ c ∈ u, c.toNat < 128) (h : List.Forall₂ (fun letter c => isLetter letter c = true) word u) :
    u.map Char.toLower = word := by
  induction h with
  | nil => rfl
  | @cons letter c word u hletter _ ih =>
    rw [List.map_cons, toLower_of_isLetter (hword letter List.mem_cons_self) (hascii c List.mem_cons_self) hletter,
      ih (fun l hl => hword l (List.mem_cons_of_mem _ hl)) fun d hd => hascii d (List.mem_cons_of_mem _ hd)]

section PlainSecret
variable {v : String} (h : PlainSecret v)
include h

theorem PlainSecret.letters : ∀ c ∈ v.toList, isBearerChar c = true ∧ c.toNat < 128 := by
  intro c hc
  rcases h.plain c hc with halphanum | rfl | rfl | rfl
  · exact isBearerChar_of_isAlphanum halphanum
  all_goals decide

theorem PlainSecret.ne_nil : v.toList ≠ [] := fun hnil => h.nonempty (String.toList_eq_nil_iff.mp hnil)

theorem PlainSecret.absent (word : String) (hword : word ∈ ["bearer", "access_token", "encrypted_secret"]) :
    Absent word.toList v.toList := by
  intro q hq hsuffix
  rw [Option.eq_none_iff_forall_ne_some]
  intro rest hrest
  obtain ⟨u, rfl, hu⟩ := afterWord?_eq_some hrest
  have hsmall : ∀ letter ∈ word.toList, letter.isUpper = false := by
    simp only [List.mem_cons, List.not_mem_nil, or_false] at hword
    rcases hword with rfl | rfl | rfl <;> exact List.all_iff_forall_prop.mp (by decide)
  have hpart : u <:+: v.toList := (List.prefix_append u rest).isInfix.trans hsuffix.isInfix
  refine h.wordless word hword ?_
  rw [← toLower_of_word hsmall (fun c hc => (h.letters c (hpart.subset hc)).2) hu]
  exact hpart.map Char.toLower

end PlainSecret

/-- The two texts after which a secret is written. -/
def markers : List String := ["Bearer ", "access_token="]

/-- A word with the character that ends it, as the text before a secret has them. -/
structure MarkedBy (word : List Char) (sep : Char) : Prop where
  nonempty : word ≠ []
  letters : ∀ c ∈ word, isBearerChar c = true
  anew : ∀ rest, StartsAnew bearerWord (word ++ rest)
  ends : isBearerChar sep = false

theorem markedBy_of_marker {marker : String} (h : marker ∈ markers) :
    ∃ word sep, marker.toList = word ++ [sep] ∧ MarkedBy word sep := by
  simp only [markers, List.mem_cons, List.not_mem_nil, or_false] at h
  rcases h with rfl | rfl
  · refine ⟨"Bearer".toList, ' ', rfl, List.cons_ne_nil _ _, List.all_iff_forall_prop.mp (by decide),
      fun rest => ?_, rfl⟩
    exact startsAnew_of_head (by rintro c ⟨⟩; exact List.all_iff_forall_prop.mp (by decide))
  · refine ⟨"access_token".toList, '=', rfl, List.cons_ne_nil _ _, List.all_iff_forall_prop.mp (by decide),
      fun rest k hk hlength => ?_, rfl⟩
    have hlength' : k < 6 := hlength
    match k, hk with
    | 1, _ | 2, _ | 3, _ | 4, _ | 5, _ => rfl
    | k + 6, _ => omega

theorem MarkedBy.tokenRun {word : List Char} {sep : Char} (h : MarkedBy word sep) (rest : List Char) :
    TokenRun word (sep :: rest) where
  nonempty := h.nonempty
  all := h.letters
  stops := by rintro c ⟨⟩; exact h.ends
  anew := h.anew _

theorem bearerSpan?_marked {v s : List Char} (h : Run isBearerChar v s) :
    bearerSpan? ("Bearer ".toList ++ (v ++ s)) = some ⟨7, v.length⟩ := by
  have hsecret : (' ' :: (v ++ s)).dropWhile Text.isBlank = v ++ s :=
    (dropWhile_append_of_head (h.head_not_blank isBlank_of_isBearerChar) [' ']).trans (List.nil_append _)
  have htoken : (v ++ s).takeWhile isBearerChar = v := h.takeWhile_append []
  have hlength := List.length_pos_iff.mpr h.nonempty
  show tokenSpan? ((v ++ s).length + 7) (' ' :: (v ++ s)) = some ⟨7, v.length⟩
  rw [tokenSpan?, hsecret, htoken, List.length_cons, if_neg (by omega), Nat.add_sub_cancel_left]

theorem maskWith_bearer_marked {v s : List Char} (h : Run isBearerChar v s) :
    maskWith bearerSpan? ("Bearer ".toList ++ (v ++ s)) =
      "Bearer ".toList ++ (mask.toList ++ maskWith bearerSpan? s) :=
  maskWith_secret (by decide) (bearerSpan?_marked h)

theorem secretFieldSpan?_marked {v s : List Char} (h : Run isValueChar v s) :
    secretFieldSpan? ("access_token=".toList ++ (v ++ s)) = some ⟨13, v.length⟩ := by
  have hvalue : (v ++ s).takeWhile isValueChar = v := h.takeWhile_append []
  have hlength := List.length_pos_iff.mpr h.nonempty
  have hfield : fieldSpan? "access_token".toList ("access_token=".toList ++ (v ++ s)) = some ⟨13, v.length⟩ := by
    show valueSpan? ((v ++ s).length + 13) ('=' :: (v ++ s)) = some ⟨13, v.length⟩
    have hsep : (dropQuote ('=' :: (v ++ s))).dropWhile Text.isBlank = '=' :: (v ++ s) := rfl
    have hbare : dropQuote ((v ++ s).dropWhile Text.isBlank) = v ++ s := by
      have hblank : (v ++ s).dropWhile Text.isBlank = v ++ s :=
        dropWhile_append_of_head (h.head_not_blank isBlank_of_isValueChar) []
      rw [hblank, h.dropQuote_eq]
    rw [valueSpan?, hsep]
    dsimp only
    rw [if_pos (Or.inr rfl), hbare, hvalue, if_neg (by omega), Nat.add_sub_cancel_left]
  rw [secretFieldSpan?_eq, hfield, Option.some_or]

theorem maskWith_field_marked {v s : List Char} (h : Run isValueChar v s) :
    maskWith secretFieldSpan? ("access_token=".toList ++ (v ++ s)) =
      "access_token=".toList ++ (mask.toList ++ maskWith secretFieldSpan? s) :=
  maskWith_secret (by decide) (secretFieldSpan?_marked h)

/-! ### What is masked of a secret -/

section Secret
variable {p s : List Char} {marker v : String}

theorem PlainSecret.tokenRun (h : PlainSecret v) (hs : BlankFirst s) : Run isBearerChar v.toList s :=
  hs.run isBlank_of_isBearerChar h.ne_nil fun c hc => (h.letters c hc).1

theorem PlainSecret.valueRun (h : PlainSecret v) (hs : BlankFirst s) : Run isValueChar v.toList s :=
  hs.run isBlank_of_isValueChar h.ne_nil fun c hc => isValueChar_of_isBearerChar (h.letters c hc).1

theorem BlankFirst.startsAnew_field (hs : BlankFirst s) : ∀ name ∈ secretFieldNames, StartsAnew name s :=
  fun name hname => hs.startsAnew (isBearerChar_of_fieldName name hname)

/-- The mask goes on as a value, either up to the character after it or through the secret behind that. -/
theorem valueRun_mask {sep : Char} (hv : PlainSecret v) (hs : BlankFirst s) (hsep : isBearerChar sep = false) :
    ∃ w rest, mask.toList ++ sep :: (v.toList ++ s) = w ++ rest ∧ ValueRun w rest := by
  have hhead (rest : List Char) : ∀ name ∈ secretFieldNames, StartsAnew name (mask.toList ++ rest) := by
    intro name hname
    refine startsAnew_of_head ?_
    rintro c ⟨⟩ letter hletter
    have hbearer := isBearerChar_of_fieldName name hname letter (List.mem_of_mem_tail hletter)
    exact isLetter_of_not_isBearerChar hbearer rfl
  have hmask : ∀ c ∈ mask.toList, isValueChar c = true := List.all_iff_forall_prop.mp (by decide)
  cases hvalue : isValueChar sep with
  | false =>
    refine ⟨mask.toList, sep :: (v.toList ++ s), rfl, ⟨List.cons_ne_nil _ _, hmask, ?_⟩, ?_, hhead _⟩
    · rintro c ⟨⟩
      exact hvalue
    · rintro c ⟨⟩
      decide
  | true =>
    have hrun := hv.valueRun hs
    have hall : ∀ c ∈ mask.toList ++ sep :: v.toList, isValueChar c = true := by
      intro c hc
      rcases List.mem_append.mp hc with hc | hc
      · exact hmask c hc
      · rcases List.mem_cons.mp hc with rfl | hc
        · exact hvalue
        · exact hrun.all c hc
    refine ⟨mask.toList ++ sep :: v.toList, s, by rw [List.append_assoc, List.cons_append],
      ⟨List.cons_ne_nil _ _, hall, hrun.stops⟩, ?_, ?_⟩
    · rintro c ⟨⟩
      decide
    · rw [List.append_assoc]
      exact hhead _

/-- After a text at whose end no token is open, nothing of a secret is left but its place. -/
theorem redactChars_masked (hp : ¬TokenOpen p) (hs : BlankFirst s) (hmarker : marker ∈ markers) :
    ∃ t, ∀ v, PlainSecret v → redactChars (p ++ (marker.toList ++ (v.toList ++ s))) = t := by
  have hfirst := ((maskWith_bearer_cases p).resolve_right fun h => hp h.1).2
  obtain ⟨word, sep, hparts, hword⟩ := markedBy_of_marker hmarker
  have hpass (v : String) : maskWith bearerSpan? (p ++ (marker.toList ++ (v.toList ++ s))) =
      maskWith bearerSpan? p ++ maskWith bearerSpan? (marker.toList ++ (v.toList ++ s)) := by
    have hrun := hfirst word (sep :: (v.toList ++ s)) (hword.tokenRun _)
    rwa [← List.singleton_append, ← List.append_assoc word, ← hparts] at hrun
  simp only [markers, List.mem_cons, List.not_mem_nil, or_false] at hmarker
  rcases hmarker with rfl | rfl
  · refine ⟨maskWith secretFieldSpan? (maskWith bearerSpan? p ++
      ("Bearer ".toList ++ (mask.toList ++ maskWith bearerSpan? s))), fun v hv => ?_⟩
    rw [redactChars, hpass v, maskWith_bearer_marked (hv.tokenRun hs)]
  · -- The first pass leaves this marker and the secret as they are, the second one masks the secret.
    have hplain (v : String) (hv : PlainSecret v) :
        maskWith bearerSpan? ("access_token=".toList ++ (v.toList ++ s)) =
          "access_token=".toList ++ (v.toList ++ maskWith bearerSpan? s) := by
      have habsent : Absent bearerWord ("access_token=".toList ++ v.toList) :=
        (hv.absent "bearer" (by decide)).append (List.all_iff_forall_prop.mp (by decide))
      have hrest := maskWith_bearer_plain habsent (hs.startsAnew isBearerChar_of_bearerWord)
      rwa [List.append_assoc, List.append_assoc] at hrest
    have hrun (v : String) (hv : PlainSecret v) :
        ValueRun ("access_token=".toList ++ v.toList) (maskWith bearerSpan? s) := by
      refine ⟨⟨by simp, fun c hc => ?_, (hv.valueRun hs.masked).stops⟩, by rintro c ⟨⟩; decide, ?_⟩
      · rcases List.mem_append.mp hc with hc | hc
        · have hmarker : ∀ d ∈ "access_token=".toList, isValueChar d = true :=
            List.all_iff_forall_prop.mp (by decide)
          exact hmarker c hc
        · exact (hv.valueRun hs.masked).all c hc
      · intro name hname
        simp only [secretFieldNames, List.mem_cons, List.not_mem_nil, or_false] at hname
        rcases hname with rfl | rfl
        all_goals exact startsAnew_of_head (by rintro c ⟨⟩; exact List.all_iff_forall_prop.mp (by decide))
    rcases maskWith_append_run fits_secretFieldSpan? (maskWith bearerSpan? p) fun q => secretFieldSpan?_append
      with hend | ⟨done, kept, -, -, -, hon⟩
    · refine ⟨maskWith secretFieldSpan? (maskWith bearerSpan? p) ++ ("access_token=".toList ++
        (mask.toList ++ maskWith secretFieldSpan? (maskWith bearerSpan? s))), fun v hv => ?_⟩
      have hapart := hend _ _ (hrun v hv)
      rw [List.append_assoc, maskWith_field_marked (hv.valueRun hs.masked)] at hapart
      rw [redactChars, hpass v, hplain v hv, hapart]
    · refine ⟨done ++ kept ++ (mask.toList ++ maskWith secretFieldSpan? (maskWith bearerSpan? s)), fun v hv => ?_⟩
      have hover := hon _ _ (hrun v hv)
      rw [List.append_assoc] at hover
      rw [redactChars, hpass v, hplain v hv, hover]

/-- After a text at whose end a token is open, the secret stays, between texts that do not depend on it. -/
theorem redactChars_shown (hp : TokenOpen p) (hs : BlankFirst s) (hmarker : marker ∈ markers) :
    ∃ a b, ∀ v, PlainSecret v → redactChars (p ++ (marker.toList ++ (v.toList ++ s))) = a ++ (v.toList ++ b) := by
  obtain ⟨done, kept, -, -, hkept, -, hfirst⟩ := ((maskWith_bearer_cases p).resolve_left fun h => h.1 hp).2
  obtain ⟨word, sep, hparts, hword⟩ := markedBy_of_marker hmarker
  have hsep (small : Char) (hsmall : isBearerChar small = true) : isLetter small sep = false :=
    isLetter_of_not_isBearerChar hsmall hword.ends
  refine ⟨maskWith secretFieldSpan? (done ++ kept) ++ (mask.toList ++ [sep]),
    maskWith secretFieldSpan? (maskWith bearerSpan? s), fun v hv => ?_⟩
  have hpass : maskWith bearerSpan? (p ++ (marker.toList ++ (v.toList ++ s))) =
      done ++ kept ++ (mask.toList ++ sep :: (v.toList ++ maskWith bearerSpan? s)) := by
    have hbearer : Absent bearerWord (sep :: v.toList) :=
      (hv.absent "bearer" (by decide)).cons (hsep 'b' rfl)
    have hrest := maskWith_bearer_plain hbearer (hs.startsAnew isBearerChar_of_bearerWord)
    rw [List.cons_append, List.cons_append] at hrest
    rw [hparts, List.append_assoc, List.singleton_append, hfirst word _ (hword.tokenRun _), hrest]
  have hapart : maskWith secretFieldSpan?
        (done ++ kept ++ (mask.toList ++ sep :: (v.toList ++ maskWith bearerSpan? s))) =
      maskWith secretFieldSpan? (done ++ kept) ++
        maskWith secretFieldSpan? (mask.toList ++ sep :: (v.toList ++ maskWith bearerSpan? s)) := by
    obtain ⟨w, rest, hw, hrun⟩ := valueRun_mask hv hs.masked hword.ends
    rw [hw]
    refine maskWith_append fits_secretFieldSpan? fun q hq hsuffix => ?_
    exact (secretFieldSpan?_append hq).resolve_left (not_valueGoesOn (hkept.append_left done) hsuffix) w rest hrun
  have hplain : maskWith secretFieldSpan? (mask.toList ++ sep :: (v.toList ++ maskWith bearerSpan? s)) =
      mask.toList ++ sep :: (v.toList ++ maskWith secretFieldSpan? (maskWith bearerSpan? s)) := by
    have habsent : ∀ name ∈ secretFieldNames, Absent name (mask.toList ++ sep :: v.toList) := by
      intro name hname
      simp only [secretFieldNames, List.mem_cons, List.not_mem_nil, or_false] at hname
      rcases hname with rfl | rfl
      · exact ((hv.absent "access_token" (by decide)).cons (hsep 'a' rfl)).append
          (List.all_iff_forall_prop.mp (by decide))
      · exact ((hv.absent "encrypted_secret" (by decide)).cons (hsep 'e' rfl)).append
          (List.all_iff_forall_prop.mp (by decide))
    have hrest := maskWith_field_plain habsent hs.masked.startsAnew_field
    simpa only [List.append_assoc, List.cons_append] using hrest
  rw [redactChars, hpass, hapart, hplain]
  simp only [List.append_assoc, List.singleton_append]

/-- Redaction hides a secret after a marker unless the text before ends in an open bearer token, and then it shows
the secret. -/
theorem redact_secret_eq_iff (p s marker v v' : String) (hs : BlankFirst s.toList) (hmarker : marker ∈ markers)
    (hv : PlainSecret v) (hv' : PlainSecret v') :
    redact (p ++ marker ++ v ++ s) = redact (p ++ marker ++ v' ++ s) ↔ v = v' ∨ ¬TokenOpen p.toList := by
  have htext (v : String) : (p ++ marker ++ v ++ s).toList =
      p.toList ++ (marker.toList ++ (v.toList ++ s.toList)) := by
    simp only [String.toList_append, List.append_assoc]
  have hchars : redact (p ++ marker ++ v ++ s) = redact (p ++ marker ++ v' ++ s) ↔
      redactChars (p ++ marker ++ v ++ s).toList = redactChars (p ++ marker ++ v' ++ s).toList := String.ofList_inj
  rw [hchars, htext v, htext v']
  by_cases hp : TokenOpen p.toList
  · obtain ⟨before, after, hshown⟩ := redactChars_shown hp hs hmarker
    rw [hshown v hv, hshown v' hv', List.append_cancel_left_eq, List.append_cancel_right_eq, String.toList_inj]
    exact (or_iff_left (not_not.mpr hp)).symm
  · obtain ⟨masked, hmasked⟩ := redactChars_masked hp hs hmarker
    exact iff_of_true ((hmasked v hv).trans (hmasked v' hv').symm) (.inr hp)

end Secret

/-- Both markers show the secret after the word "bearer". -/
theorem redact_shows_secret :
    PlainSecret "abc" ∧ PlainSecret "xyz" ∧
      redact ("bearer " ++ "Bearer " ++ "abc" ++ "") = "bearer *** abc" ∧
      redact ("bearer " ++ "Bearer " ++ "xyz" ++ "") = "bearer *** xyz" ∧
      redact ("bearer " ++ "access_token=" ++ "abc" ++ "") = "bearer ***=abc" ∧
      redact ("bearer " ++ "access_token=" ++ "xyz" ++ "") = "bearer ***=xyz" := by
  refine ⟨⟨by decide, List.all_iff_forall_prop.mp (by decide), by decide⟩,
    ⟨by decide, List.all_iff_forall_prop.mp (by decide), by decide⟩, ?_⟩
  refine ⟨?_, ?_, ?_, ?_⟩ <;> cbv

theorem redact_hides_header :
    redact ("the bearer of Authorization: " ++ "Bearer " ++ "abc" ++ " was refused") =
      redact ("the bearer of Authorization: " ++ "Bearer " ++ "x.y-z" ++ " was refused") :=
  (redact_secret_eq_iff "the bearer of Authorization: " " was refused" "Bearer " "abc" "x.y-z"
    (by rintro c ⟨⟩; decide) (by decide) ⟨by decide, List.all_iff_forall_prop.mp (by decide), by decide⟩
    ⟨by decide, List.all_iff_forall_prop.mp (by decide), by decide⟩).mpr (.inr (by rw [TokenOpen, not_not]; cbv))

end Cadence.Log
