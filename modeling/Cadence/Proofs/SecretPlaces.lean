import Cadence.Proofs.MaskPasses

/-!
# Places of secrets at the end of a text

What is found at a place of a text does not change with what is written after the text, unless a bearer token or
the value of a field goes on there. A text at whose end a bearer token may begin is not one in which the value of
a field goes on.
-/

namespace Cadence.Log

/-! ### Bearer tokens -/

theorem isBlank_of_isBearerChar (c : Char) (h : isBearerChar c = true) : Text.isBlank c = false := by
  have hgraphic (hrange : 33 ≤ c.toNat ∧ c.toNat < 128) : Text.isBlank c = false := by
    simp only [Text.isBlank, Bool.or_eq_false_iff, Bool.and_eq_false_iff, decide_eq_false_iff_not,
      beq_eq_false_iff_ne]
    omega
  simp only [isBearerChar, Bool.or_eq_true, Bool.and_eq_true, decide_eq_true_eq, or_assoc] at h
  rcases h with ⟨hfirst, hlast⟩ | ⟨hfirst, hlast⟩ | ⟨hfirst, hlast⟩ | hmore
  · have hrange : 97 ≤ c.toNat ∧ c.toNat ≤ 122 := ⟨hfirst, hlast⟩
    exact hgraphic (by omega)
  · have hrange : 65 ≤ c.toNat ∧ c.toNat ≤ 90 := ⟨hfirst, hlast⟩
    exact hgraphic (by omega)
  · have hrange : 48 ≤ c.toNat ∧ c.toNat ≤ 57 := ⟨hfirst, hlast⟩
    exact hgraphic (by omega)
  · rcases hmore with rfl | rfl | rfl | rfl | rfl | rfl | rfl <;> decide

theorem isValueChar_of_isBearerChar {c : Char} (h : isBearerChar c = true) : isValueChar c = true := by
  have hne (d : Char) (hd : isBearerChar d = false) : c ≠ d := by
    rintro rfl
    rw [h] at hd
    cases hd
  simp only [isValueChar, isBlank_of_isBearerChar c h, Bool.not_false, Bool.true_and, Bool.and_eq_true,
    decide_eq_true_eq]
  exact ⟨⟨⟨hne ',' (by decide), hne '"' (by decide)⟩, hne '\'' (by decide)⟩, hne '}' (by decide)⟩

def bearerWord : List Char := ['b', 'e', 'a', 'r', 'e', 'r']

/-- What is masked after the word "bearer" in a text of the given length, by the rest of the text. -/
def tokenSpan? (length : Nat) (rest : List Char) : Option Span :=
  let secret := rest.dropWhile Text.isBlank
  let masked := (secret.takeWhile isBearerChar).length
  if secret.length = rest.length ∨ masked = 0 then none else some ⟨length - secret.length, masked⟩

theorem bearerSpan?_eq (s : List Char) :
    bearerSpan? s = (afterWord? bearerWord s).bind (tokenSpan? s.length) := rfl

theorem fits_bearerSpan? : Fits bearerSpan? := by
  intro s span h
  rw [bearerSpan?_eq] at h
  obtain ⟨rest, hword, hspan⟩ := Option.bind_eq_some_iff.mp h
  obtain ⟨u, rfl, -⟩ := afterWord?_eq_some hword
  unfold tokenSpan? at hspan
  dsimp only at hspan
  split at hspan
  · cases hspan
  · cases hspan
    have hdrop := (List.dropWhile_suffix (l := rest) Text.isBlank).length_le
    have htake := (List.takeWhile_prefix (l := rest.dropWhile Text.isBlank) isBearerChar).length_le
    rw [List.length_append]
    dsimp only
    omega

/-- After white space, the letters at the end of a text and those that follow are one token. Whatever else
follows the word stays as it is. -/
theorem tokenSpan?_append (r : List Char) :
    (∃ gap token, r = gap ++ token ∧ gap ≠ [] ∧ (∀ b ∈ gap, Text.isBlank b = true) ∧
      (∀ c ∈ token, isBearerChar c = true) ∧ ∀ n w rest, Run isBearerChar w rest →
        tokenSpan? (n + (w ++ rest).length) (r ++ (w ++ rest)) =
          some ⟨n - token.length, token.length + w.length⟩) ∨
    ∀ n w rest, Run isBearerChar w rest →
      tokenSpan? (n + (w ++ rest).length) (r ++ (w ++ rest)) = tokenSpan? n r := by
  let token := r.dropWhile Text.isBlank
  have hspan (n : Nat) {w rest : List Char} (hrun : Run isBearerChar w rest) :
      tokenSpan? (n + (w ++ rest).length) (r ++ (w ++ rest)) =
        let secret := if token.takeWhile isBearerChar = token then token ++ w else token.takeWhile isBearerChar
        if token.length = r.length ∨ secret.length = 0 then none
        else some ⟨n - token.length, secret.length⟩ := by
    rw [tokenSpan?, dropWhile_append_of_head (hrun.head_not_blank isBlank_of_isBearerChar), hrun.takeWhile_append]
    simp only [List.length_append, Nat.add_right_cancel_iff, Nat.add_sub_add_right, token]
  by_cases hopen : token.length ≠ r.length ∧ token.takeWhile isBearerChar = token
  · have hparts : r.takeWhile Text.isBlank ++ token = r := List.takeWhile_append_dropWhile
    refine .inl ⟨r.takeWhile Text.isBlank, token, hparts.symm, fun hnil => hopen.1 ?_,
      fun b hb => List.mem_takeWhile_imp hb, List.takeWhile_eq_self_iff.mp hopen.2, fun n w rest hrun => ?_⟩
    · rw [hnil, List.nil_append] at hparts
      exact congrArg List.length hparts
    · have hw := List.length_pos_iff.mpr hrun.nonempty
      rw [hspan n hrun, if_pos hopen.2]
      dsimp only
      rw [List.length_append, if_neg (not_or.mpr ⟨hopen.1, by omega⟩)]
  · refine .inr fun n w rest hrun => ?_
    rw [hspan n hrun, tokenSpan?]
    by_cases hgap : token.length = r.length
    · simp only [hgap, token, true_or, if_true]
    · rw [if_neg fun hall => hopen ⟨hgap, hall⟩]

/-- The text ends with the word "bearer", in any case, and white space. -/
def EndsBeforeToken (s : List Char) : Prop :=
  ∃ lead word gap, s = lead ++ (word ++ gap) ∧
    List.Forall₂ (fun letter c => isLetter letter c = true) bearerWord word ∧ gap ≠ [] ∧
      ∀ b ∈ gap, Text.isBlank b = true

/-- A run of letters with which a bearer token may go on, and in which the word "bearer" is not half over. -/
structure TokenRun (w rest : List Char) : Prop extends Run isBearerChar w rest where
  anew : StartsAnew bearerWord (w ++ rest)

/-- The bearer token at the head of a text goes on beyond its end. -/
def TokenGoesOn : List Char → Prop :=
  GoesOn bearerSpan? (fun kept token => EndsBeforeToken kept ∧ ∀ c ∈ token, isBearerChar c = true) TokenRun

theorem EndsBeforeToken.append_left {s : List Char} (h : EndsBeforeToken s) (u : List Char) :
    EndsBeforeToken (u ++ s) := by
  obtain ⟨lead, word, gap, rfl, hgap⟩ := h
  exact ⟨u ++ lead, word, gap, (List.append_assoc ..).symm, hgap⟩

theorem EndsBeforeToken.last {s : List Char} (h : EndsBeforeToken s) :
    ∃ lead c gap, s = lead ++ c :: gap ∧ isLetter 'r' c = true ∧ gap ≠ [] ∧ ∀ b ∈ gap, Text.isBlank b = true := by
  obtain ⟨lead, word, gap, rfl, hword, hgap⟩ := h
  match word, hword with
  | [b, e, a, r, e', c], .cons _ (.cons _ (.cons _ (.cons _ (.cons _ (.cons hletter .nil))))) =>
    exact ⟨lead ++ [b, e, a, r, e'], c, gap, by simp only [List.append_assoc, List.cons_append, List.nil_append],
      hletter, hgap⟩

theorem bearerSpan?_append {q : List Char} (hq : q ≠ []) :
    TokenGoesOn q ∨ ∀ w rest, TokenRun w rest → bearerSpan? (q ++ (w ++ rest)) = bearerSpan? q := by
  have hsearch {w rest : List Char} (h : TokenRun w rest) :
      bearerSpan? (q ++ (w ++ rest)) = ((afterWord? bearerWord q).map (· ++ (w ++ rest))).bind
        (tokenSpan? (q.length + (w ++ rest).length)) := by
    rw [bearerSpan?_eq, afterWord?_append h.anew hq, List.length_append]
  rw [bearerSpan?_eq q]
  rcases hword : afterWord? bearerWord q with _ | r
  · refine .inr fun w rest h => ?_
    rw [hsearch h, hword]
    rfl
  · obtain ⟨u, rfl, hu⟩ := afterWord?_eq_some hword
    rcases tokenSpan?_append r with ⟨gap, token, rfl, hgap, hblank, htoken, hon⟩ | hstays
    · refine .inl ⟨u ++ gap, token, (List.append_assoc ..).symm, List.append_ne_nil_of_right_ne_nil u hgap,
        ⟨⟨[], u, gap, rfl, hu, hgap, hblank⟩, htoken⟩, fun w rest h => ?_⟩
      rw [hsearch h, hword, Option.map_some, Option.bind_some, hon _ w rest h.toRun]
      simp only [List.length_append, ← Nat.add_assoc, Nat.add_sub_cancel]
    · refine .inr fun w rest h => ?_
      rw [hsearch h, hword, Option.map_some, Option.bind_some, hstays _ w rest h.toRun]
      rfl

/-! ### Secret fields -/

theorem dropQuote_suffix (s : List Char) : dropQuote s <:+ s := by
  cases s with
  | nil => exact List.suffix_rfl
  | cons c s =>
    rw [dropQuote]
    split
    · exact List.suffix_cons c s
    · exact List.suffix_rfl

theorem dropQuote_append {y : List Char} (hy : dropQuote y = y) (s : List Char) :
    dropQuote (s ++ y) = dropQuote s ++ y := by
  cases s with
  | nil => exact hy
  | cons c s =>
    rw [List.cons_append, dropQuote, dropQuote]
    split <;> rfl

/-- What is masked after the name of a field in a text of the given length, by the rest of the text. -/
def valueSpan? (length : Nat) (rest : List Char) : Option Span :=
  match (dropQuote rest).dropWhile Text.isBlank with
  | [] => none
  | c :: rest =>
    if c = ':' ∨ c = '=' then
      let value := dropQuote (rest.dropWhile Text.isBlank)
      let masked := (value.takeWhile isValueChar).length
      if masked = 0 then none else some ⟨length - value.length, masked⟩
    else none

theorem fieldSpan?_eq (name s : List Char) :
    fieldSpan? name s = (afterWord? name s).bind (valueSpan? s.length) := rfl

theorem fits_fieldSpan? (name : List Char) : Fits (fieldSpan? name) := by
  intro s span h
  rw [fieldSpan?_eq] at h
  obtain ⟨rest, hword, hspan⟩ := Option.bind_eq_some_iff.mp h
  obtain ⟨u, rfl, -⟩ := afterWord?_eq_some hword
  unfold valueSpan? at hspan
  rw [List.length_append] at hspan ⊢
  have hrest :=
    ((List.dropWhile_suffix (l := dropQuote rest) Text.isBlank).trans (dropQuote_suffix rest)).length_le
  split at hspan
  · cases hspan
  · rename_i c value hvalue
    dsimp only at hspan
    split at hspan
    · split at hspan
      · cases hspan
      · cases hspan
        rw [hvalue, List.length_cons] at hrest
        have hdrop := ((dropQuote_suffix (value.dropWhile Text.isBlank)).trans
          (List.dropWhile_suffix (l := value) Text.isBlank)).length_le
        have htake := (List.takeWhile_prefix (l := dropQuote (value.dropWhile Text.isBlank)) isValueChar).length_le
        dsimp only
        omega
    · cases hspan

theorem secretFieldSpan?_eq (s : List Char) :
    secretFieldSpan? s = (fieldSpan? "access_token".toList s).or (fieldSpan? "encrypted_secret".toList s) := by
  unfold secretFieldSpan? secretFieldNames
  simp only [List.findSome?_cons, List.findSome?_nil]
  cases fieldSpan? "access_token".toList s with
  | some span => rfl
  | none => cases fieldSpan? "encrypted_secret".toList s <;> rfl

theorem fits_secretFieldSpan? : Fits secretFieldSpan? := by
  intro s span h
  rw [secretFieldSpan?_eq, Option.or_eq_some_iff] at h
  rcases h with h | ⟨-, h⟩
  · exact fits_fieldSpan? _ s span h
  · exact fits_fieldSpan? _ s span h

theorem dropQuote_cases (s : List Char) :
    dropQuote s = s ∨ ∃ c, (c = '"' ∨ c = '\'') ∧ s = c :: dropQuote s := by
  cases s with
  | nil => exact .inl rfl
  | cons c s =>
    rw [dropQuote]
    split
    · rename_i hquote
      exact .inr ⟨c, hquote, rfl⟩
    · exact .inl rfl

theorem isBlank_of_isValueChar (c : Char) (h : isValueChar c = true) : Text.isBlank c = false := by
  simp only [isValueChar, Bool.and_eq_true, Bool.not_eq_true'] at h
  exact h.1.1.1.1

theorem Run.dropQuote_eq {w rest : List Char} (h : Run isValueChar w rest) :
    dropQuote (w ++ rest) = w ++ rest := by
  obtain ⟨first, w, rfl⟩ := List.exists_cons_of_ne_nil h.nonempty
  have hvalue := h.all first List.mem_cons_self
  simp only [isValueChar, Bool.and_eq_true, decide_eq_true_eq] at hvalue
  rw [List.cons_append, dropQuote, if_neg (not_or.mpr ⟨hvalue.1.1.2, hvalue.1.2⟩)]

/-- A text with which a value begins or goes on: a run of characters of a value, in which no name of a field
is half over, and which is neither a colon nor an equals sign first. -/
structure ValueRun (w rest : List Char) : Prop extends Run isValueChar w rest where
  unseparated : ∀ c ∈ w.head?, c ≠ ':' ∧ c ≠ '='
  anew : ∀ name ∈ secretFieldNames, StartsAnew name (w ++ rest)

/-- The text ends before a value: with a separator and white space, or with a quote. -/
def EndsBeforeValue (s : List Char) : Prop :=
  ∃ lead c gap, s = lead ++ c :: gap ∧ (c = ':' ∨ c = '=' ∨ c = '"' ∨ c = '\'') ∧
    ∀ b ∈ gap, Text.isBlank b = true

theorem endsBeforeValue_of_separator (lead value : List Char) {c : Char} (hc : c = ':' ∨ c = '=') :
    ∃ kept, EndsBeforeValue kept ∧
      lead ++ c :: value = kept ++ dropQuote (value.dropWhile Text.isBlank) := by
  have hparts : value.takeWhile Text.isBlank ++ value.dropWhile Text.isBlank = value :=
    List.takeWhile_append_dropWhile
  have hblank : ∀ b ∈ value.takeWhile Text.isBlank, Text.isBlank b = true := fun b hb =>
    List.mem_takeWhile_imp hb
  rcases dropQuote_cases (value.dropWhile Text.isBlank) with hbare | ⟨quote, hquote, hquoted⟩
  · refine ⟨lead ++ c :: value.takeWhile Text.isBlank, ⟨lead, c, _, rfl, hc.imp_right .inl, hblank⟩, ?_⟩
    rw [hbare, List.append_assoc, List.cons_append, hparts]
  · refine ⟨lead ++ c :: value.takeWhile Text.isBlank ++ [quote],
      ⟨_, quote, [], rfl, .inr (.inr hquote), fun b hb => absurd hb List.not_mem_nil⟩, ?_⟩
    rw [List.append_assoc, List.singleton_append, ← hquoted, List.append_assoc, List.cons_append, hparts]

theorem valueSpan?_append (r : List Char) :
    (∃ kept value, r = kept ++ value ∧ EndsBeforeValue kept ∧ (∀ c ∈ value, isValueChar c = true) ∧
      ∀ n w rest, ValueRun w rest →
        valueSpan? (n + (w ++ rest).length) (r ++ (w ++ rest)) =
          some ⟨n - value.length, value.length + w.length⟩) ∨
    ∀ n w rest, ValueRun w rest →
      valueSpan? (n + (w ++ rest).length) (r ++ (w ++ rest)) = valueSpan? n r := by
  have hfield {w rest : List Char} (h : ValueRun w rest) :
      (dropQuote (r ++ (w ++ rest))).dropWhile Text.isBlank =
        (dropQuote r).dropWhile Text.isBlank ++ (w ++ rest) := by
    rw [dropQuote_append h.dropQuote_eq, dropWhile_append_of_head (h.head_not_blank isBlank_of_isValueChar)]
  have hsuffix : (dropQuote r).dropWhile Text.isBlank <:+ r :=
    (List.dropWhile_suffix _).trans (dropQuote_suffix r)
  rcases hsep : (dropQuote r).dropWhile Text.isBlank with _ | ⟨c, t⟩
  · refine .inr fun n w rest h => ?_
    obtain ⟨first, w, rfl⟩ := List.exists_cons_of_ne_nil h.nonempty
    obtain ⟨hcolon, hequals⟩ := h.unseparated first rfl
    rw [valueSpan?, valueSpan?, hfield h, hsep, List.nil_append, List.cons_append]
    dsimp only
    rw [if_neg (not_or.mpr ⟨hcolon, hequals⟩)]
  · by_cases hc : c = ':' ∨ c = '='
    · obtain ⟨lead, hlead⟩ := hsuffix
      obtain ⟨kept, hkept, hparts⟩ := endsBeforeValue_of_separator lead t hc
      rw [hsep] at hlead
      have hspan (n : Nat) {w rest : List Char} (h : ValueRun w rest) :
          valueSpan? (n + (w ++ rest).length) (r ++ (w ++ rest)) =
            let value := dropQuote (t.dropWhile Text.isBlank)
            let secret := if value.takeWhile isValueChar = value then value ++ w else value.takeWhile isValueChar
            if secret.length = 0 then none else some ⟨n - value.length, secret.length⟩ := by
        rw [valueSpan?, hfield h, hsep, List.cons_append]
        simp only [if_pos hc, dropWhile_append_of_head (h.head_not_blank isBlank_of_isValueChar),
          dropQuote_append h.dropQuote_eq, h.toRun.takeWhile_append, List.length_append, Nat.add_sub_add_right]
      by_cases hall : (dropQuote (t.dropWhile Text.isBlank)).takeWhile isValueChar =
          dropQuote (t.dropWhile Text.isBlank)
      · refine .inl ⟨kept, _, hlead.symm.trans hparts, hkept, List.takeWhile_eq_self_iff.mp hall,
          fun n w rest h => ?_⟩
        have hw := List.length_pos_iff.mpr h.nonempty
        rw [hspan n h]
        dsimp only
        rw [if_pos hall, List.length_append, if_neg (by omega)]
      · refine .inr fun n w rest h => ?_
        rw [hspan n h, valueSpan?, hsep]
        dsimp only
        rw [if_neg hall, if_pos hc]
    · refine .inr fun n w rest h => ?_
      rw [valueSpan?, valueSpan?, hfield h, hsep, List.cons_append]
      dsimp only
      rw [if_neg hc, if_neg hc]

/-- The value of a field at the head of a text goes on beyond its end. -/
def ValueGoesOn (find : List Char → Option Span) : List Char → Prop :=
  GoesOn find (fun kept value => EndsBeforeValue kept ∧ ∀ c ∈ value, isValueChar c = true) ValueRun

theorem EndsBeforeValue.ne_nil {s : List Char} (h : EndsBeforeValue s) : s ≠ [] := by
  obtain ⟨lead, c, gap, rfl, -⟩ := h
  exact List.append_ne_nil_of_right_ne_nil lead (List.cons_ne_nil c gap)

theorem EndsBeforeValue.append_left {s : List Char} (h : EndsBeforeValue s) (u : List Char) :
    EndsBeforeValue (u ++ s) := by
  obtain ⟨lead, c, gap, rfl, hc, hgap⟩ := h
  exact ⟨u ++ lead, c, gap, (List.append_assoc ..).symm, hc, hgap⟩

theorem fieldSpan?_append {name : List Char} (hname : name ∈ secretFieldNames) {q : List Char} (hq : q ≠ []) :
    ValueGoesOn (fieldSpan? name) q ∨
      ∀ w rest, ValueRun w rest → fieldSpan? name (q ++ (w ++ rest)) = fieldSpan? name q := by
  have hsearch {w rest : List Char} (h : ValueRun w rest) :
      fieldSpan? name (q ++ (w ++ rest)) = ((afterWord? name q).map (· ++ (w ++ rest))).bind
        (valueSpan? (q.length + (w ++ rest).length)) := by
    rw [fieldSpan?_eq, afterWord?_append (h.anew name hname) hq, List.length_append]
  rw [fieldSpan?_eq name q]
  rcases hword : afterWord? name q with _ | r
  · refine .inr fun w rest h => ?_
    rw [hsearch h, hword]
    rfl
  · obtain ⟨u, rfl, hu⟩ := afterWord?_eq_some hword
    rcases valueSpan?_append r with ⟨kept, value, rfl, hkept, hvalue, hon⟩ | hstays
    · have hends := hkept.append_left u
      refine .inl ⟨u ++ kept, value, (List.append_assoc ..).symm, hends.ne_nil, ⟨hends, hvalue⟩,
        fun w rest h => ?_⟩
      rw [hsearch h, hword, Option.map_some, Option.bind_some, hon _ w rest h]
      simp only [List.length_append, ← Nat.add_assoc, Nat.add_sub_cancel]
    · refine .inr fun w rest h => ?_
      rw [hsearch h, hword, Option.map_some, Option.bind_some, hstays _ w rest h]
      rfl

theorem secretFieldSpan?_append {q : List Char} (hq : q ≠ []) :
    ValueGoesOn secretFieldSpan? q ∨
      ∀ w rest, ValueRun w rest → secretFieldSpan? (q ++ (w ++ rest)) = secretFieldSpan? q := by
  have hfirst := fieldSpan?_append (show "access_token".toList ∈ secretFieldNames by decide) hq
  have hsecond := fieldSpan?_append (show "encrypted_secret".toList ∈ secretFieldNames by decide) hq
  rcases hfirst with ⟨kept, value, hparts, hkept, hends, hon⟩ | hstays
  · refine .inl ⟨kept, value, hparts, hkept, hends, fun w rest h => ?_⟩
    rw [secretFieldSpan?_eq, hon w rest h, Option.some_or]
  · rcases hfound : fieldSpan? "access_token".toList q with _ | span
    · rcases hsecond with ⟨kept, value, hparts, hkept, hends, hon⟩ | hstays'
      · refine .inl ⟨kept, value, hparts, hkept, hends, fun w rest h => ?_⟩
        rw [secretFieldSpan?_eq, hstays w rest h, hfound, Option.none_or, hon w rest h]
      · refine .inr fun w rest h => ?_
        rw [secretFieldSpan?_eq, secretFieldSpan?_eq, hstays w rest h, hstays' w rest h]
    · refine .inr fun w rest h => ?_
      rw [secretFieldSpan?_eq, secretFieldSpan?_eq, hstays w rest h, hfound, Option.some_or, Option.some_or]

/-- White space after the word "bearer" keeps the value of a field before it from going on. -/
theorem not_valueGoesOn {s q : List Char} (hs : EndsBeforeToken s) (hq : q <:+ s) :
    ¬ValueGoesOn secretFieldSpan? q := by
  rintro ⟨kept, value, rfl, -, ⟨⟨lead', c', gap', rfl, hc', hgap'⟩, hvalue⟩, -⟩
  obtain ⟨lead, c, gap, rfl, hc, hgap, hblank⟩ := hs.last
  have hletter : Text.isBlank c = false := isBlank_of_isBearerChar _ (isBearerChar_of_isLetter (by decide) hc)
  by_cases hempty : value = []
  · -- The text would end with a letter and with a separator or a quote, white space apart.
    obtain ⟨before, hbefore⟩ := hq
    rw [hempty, List.append_nil, ← List.append_assoc] at hbefore
    have hseparator : Text.isBlank c' = false := by
      rcases hc' with rfl | rfl | rfl | rfl <;> decide
    obtain rfl := last_before_blanks hbefore hgap' hblank hseparator hletter
    rcases hc' with rfl | rfl | rfl | rfl <;> exact absurd hc (by decide)
  · -- Its last character would be one of the value, and white space.
    have hclash {b : Char} (hvalue' : b ∈ value) (hgap' : b ∈ gap) : False := by
      have hgraphic := isBlank_of_isValueChar b (hvalue b hvalue')
      rw [hblank b hgap'] at hgraphic
      cases hgraphic
    have hgap_suffix : gap <:+ lead ++ c :: gap := ⟨lead ++ [c], by rw [List.append_assoc]; rfl⟩
    have hvalue_suffix : value <:+ lead ++ c :: gap := (List.suffix_append _ _).trans hq
    rcases List.suffix_or_suffix_of_suffix hvalue_suffix hgap_suffix with hsub | hsub
    · obtain ⟨b, hb⟩ := List.exists_mem_of_ne_nil _ hempty
      exact hclash hb (hsub.subset hb)
    · obtain ⟨b, hb⟩ := List.exists_mem_of_ne_nil _ hgap
      exact hclash (hsub.subset hb) hb

end Cadence.Log
