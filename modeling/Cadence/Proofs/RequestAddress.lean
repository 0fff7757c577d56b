import Cadence.Provider.Client
import Mathlib.Data.List.TakeWhile

/-!
# Addresses of requests

The address of a request ends in the id of a phone number and the name of the resource, as segments of
their own. That is so for every base address, with dot segments, a query or a fragment in it as well: dot segments
are removed before these two only, and nothing else of an address is normalised.
-/

namespace Cadence.Provider

open Text

/-! ### Ids -/

/-- An id of a phone number, as the provider gives them: ASCII letters and digits. -/
def IsPhoneId (phone : String) : Prop := phone ≠ "" ∧ ∀ c ∈ phone.toList, c.isAlphanum = true

theorem isUnreserved_of_isAlphanum {c : Char} (h : c.isAlphanum = true) : isUnreserved c = true := by
  have hranges : (decide ('A' ≤ c ∧ c ≤ 'Z') || ('a' ≤ c && c ≤ 'z') || ('0' ≤ c && c ≤ '9')) = true := h
  simp only [Bool.or_eq_true, Bool.decide_and] at hranges
  simp only [isUnreserved, Bool.or_eq_true]
  rcases hranges with (hupper | hlower) | hdigit
  · exact .inl (.inl (.inl (.inl (.inl (.inr hupper)))))
  · exact .inl (.inl (.inl (.inl (.inl (.inl hlower)))))
  · exact .inl (.inl (.inl (.inl (.inr hdigit))))

theorem encodeSegment_of_isUnreserved {s : List Char} (h : ∀ c ∈ s, isUnreserved c = true) :
    encodeSegment s = s := by
  induction s with
  | nil => rfl
  | cons c rest ih =>
    have hrest := ih fun d hd => h d (List.mem_cons_of_mem c hd)
    unfold encodeSegment at hrest ⊢
    rw [List.flatMap_cons, if_pos (h c List.mem_cons_self), hrest]
    rfl

/-! ### Segments that are not changed -/

/-- A segment that is neither removed nor cut. -/
structure Plain (segment : List Char) : Prop where
  notDot : segment ≠ ['.']
  notDots : segment ≠ ['.', '.']
  uncut : ∀ c ∈ segment, c ≠ '/' ∧ c ≠ '?' ∧ c ≠ '#'

theorem plain_phoneId {phone : String} (h : IsPhoneId phone) : Plain phone.toList where
  notDot heq := absurd (h.2 '.' (by rw [heq]; exact List.mem_cons_self)) (by decide)
  notDots heq := absurd (h.2 '.' (by rw [heq]; exact List.mem_cons_self)) (by decide)
  uncut c hc := by
    have halphanum := h.2 c hc
    refine ⟨?_, ?_, ?_⟩ <;> rintro rfl <;> exact absurd halphanum (by decide)

theorem plain_messages : Plain "messages".toList := ⟨by decide, by decide, by simp⟩

theorem splitChars_plain {s : List Char} (h : Plain s) : splitChars '/' s = [s] :=
  splitChars_of_not_mem fun hmem => (h.uncut _ hmem).1 rfl

/-- The end of an address: two segments, and a slash before each. -/
def ending (a b : List Char) : List Char := '/' :: (a ++ '/' :: b)

theorem intercalate_ending (first : List Char) (rest : List (List Char)) (a b : List Char) :
    List.intercalate ['/'] (first :: rest ++ [a, b]) =
      List.intercalate ['/'] (first :: rest) ++ ending a b := by
  induction rest generalizing first with
  | nil => simp [List.intercalate_cons_cons, ending]
  | cons second rest ih =>
    rw [List.cons_append, List.cons_append, List.intercalate_cons_cons, List.intercalate_cons_cons,
      ← List.cons_append, ih second]
    simp only [List.append_assoc]

theorem removeDots_of_not_dots (done : List (List Char)) {segments : List (List Char)}
    (h : ∀ s ∈ segments, s ≠ ['.'] ∧ s ≠ ['.', '.']) :
    removeDots done segments = done.reverse ++ segments := by
  induction segments generalizing done with
  | nil => simp [removeDots]
  | cons s rest ih =>
    obtain ⟨hdot, hdots⟩ := h s List.mem_cons_self
    rw [removeDots, if_neg hdot, if_neg hdots, ih _ fun t ht => h t (List.mem_cons_of_mem s ht)]
    simp

theorem removeDots_append (done segments : List (List Char)) {last : List (List Char)}
    (h : ∀ s ∈ last, s ≠ ['.'] ∧ s ≠ ['.', '.']) :
    removeDots done (segments ++ last) = removeDots done segments ++ last := by
  induction segments generalizing done with
  | nil => rw [List.nil_append, removeDots_of_not_dots _ h, removeDots]
  | cons s rest ih =>
    rw [List.cons_append, removeDots, removeDots]
    split
    · exact ih _
    · split
      · exact ih _
      · exact ih _

/-- The empty segment before the slash that a path begins with is never removed. -/
theorem removeDots_ne_nil {done : List (List Char)} (h : [[]] <:+ done) (segments : List (List Char)) :
    removeDots done segments ≠ [] := by
  induction segments generalizing done with
  | nil => simpa [removeDots] using List.ne_nil_of_mem (h.mem List.mem_cons_self)
  | cons s rest ih =>
    rw [removeDots]
    split
    · exact ih h
    · split
      · refine ih ?_
        split
        · rename_i hmore
          obtain ⟨front, rfl⟩ := h
          cases front with
          | nil => exact absurd rfl hmore.2
          | cons top front => exact ⟨front, rfl⟩
        · exact h
      · exact ih (h.trans (List.suffix_cons s done))

section Ending
variable {a b : List Char} (ha : Plain a) (hb : Plain b)
include ha hb

theorem splitChars_ending (front : List Char) :
    splitChars '/' (front ++ ending a b) = splitChars '/' front ++ [a, b] := by
  rw [ending, splitChars_append, splitChars_append, splitChars_plain ha, splitChars_plain hb]
  rfl

theorem suffix_ending (front : List Char) : [a, b] <:+ splitChars '/' (front ++ ending a b) :=
  ⟨_, (splitChars_ending ha hb front).symm⟩

theorem ending_not_dots : ∀ s ∈ [a, b], s ≠ ['.'] ∧ s ≠ ['.', '.'] := by
  intro s hs
  rcases List.mem_cons.mp hs with rfl | hs
  · exact ⟨ha.notDot, ha.notDots⟩
  · obtain rfl := List.mem_singleton.mp hs
    exact ⟨hb.notDot, hb.notDots⟩

theorem not_mem_ending {mark : Char} (hmark : mark = '?' ∨ mark = '#') : mark ∉ ending a b := by
  intro hmem
  simp only [ending, List.mem_cons, List.mem_append] at hmem
  rcases hmem with rfl | hmem | rfl | hmem
  · exact absurd hmark (by decide)
  · rcases hmark with rfl | rfl
    · exact (ha.uncut _ hmem).2.1 rfl
    · exact (ha.uncut _ hmem).2.2 rfl
  · exact absurd hmark (by decide)
  · rcases hmark with rfl | rfl
    · exact (hb.uncut _ hmem).2.1 rfl
    · exact (hb.uncut _ hmem).2.2 rfl

theorem suffix_join_kept (kept : List (List Char)) :
    [a, b] <:+ splitChars '/' (List.intercalate ['/'] (kept ++ [a, b])) := by
  cases kept with
  | nil =>
    have hpair : List.intercalate ['/'] [a, b] = a ++ '/' :: b := by simp [List.intercalate_cons_cons]
    rw [List.nil_append, hpair, splitChars_append, splitChars_plain ha, splitChars_plain hb]
    exact List.suffix_rfl
  | cons first rest =>
    rw [intercalate_ending]
    exact suffix_ending ha hb _

/-- A path that begins with a slash keeps its first segment, so the two segments have a slash before them. -/
theorem suffix_join_rooted (origin : List Char) (segments : List (List Char)) :
    [a, b] <:+ splitChars '/'
      (origin ++ List.intercalate ['/'] (removeDots [] ([] :: (segments ++ [a, b])))) := by
  rw [removeDots, if_neg (by decide), if_neg (by decide), removeDots_append _ _ (ending_not_dots ha hb)]
  obtain ⟨first, rest, hkept⟩ :=
    List.exists_cons_of_ne_nil (removeDots_ne_nil (List.suffix_refl [[]]) segments)
  rw [hkept, intercalate_ending, ← List.append_assoc]
  exact suffix_ending ha hb _

/-- The segments of a path with dot segments begin before the last two segments of the address. -/
theorem segments_of_dots {front origin p : List Char} (hurl : origin ++ '/' :: p = front ++ ending a b)
    (hdots : ['.'] ∈ splitChars '/' p ∨ ['.', '.'] ∈ splitChars '/' p) :
    ∃ between, splitChars '/' p = between ++ [a, b] := by
  have hsegments := congrArg (splitChars '/') hurl
  rw [splitChars_append, splitChars_ending ha hb] at hsegments
  rcases List.append_eq_append_iff.mp hsegments with ⟨between, -, hp⟩ | ⟨between, -, hp⟩
  · exact ⟨between, hp⟩
  · have hkept (s : List Char) (hs : s ∈ splitChars '/' p) : s ≠ ['.'] ∧ s ≠ ['.', '.'] :=
      ending_not_dots ha hb s (hp ▸ List.mem_append_right between hs)
    rcases hdots with hdot | hdots
    · exact absurd rfl (hkept _ hdot).1
    · exact absurd rfl (hkept _ hdots).2

theorem suffix_normalPath {front origin path : List Char} (hurl : origin ++ path = front ++ ending a b)
    (hpath : origin = [] ∨ ∀ c ∈ path.head?, c = '/') :
    [a, b] <:+ splitChars '/' (origin ++ normalPath path) := by
  unfold normalPath
  dsimp only
  split
  · rename_i hdots
    rcases hpath with rfl | hslash
    · -- Without an authority the path is all of the address.
      rw [List.nil_append] at hurl ⊢
      rw [hurl, splitChars_ending ha hb, removeDots_append _ _ (ending_not_dots ha hb)]
      exact suffix_join_kept ha hb _
    · cases path with
      | nil => exact absurd hdots (by decide)
      | cons c p =>
        obtain rfl : c = '/' := hslash c rfl
        have hcut : splitChars '/' ('/' :: p) = [] :: splitChars '/' p := rfl
        rw [hcut] at hdots ⊢
        simp only [List.contains_cons, Bool.or_eq_true, List.contains_iff_mem, beq_iff_eq, reduceCtorEq,
          false_or] at hdots
        obtain ⟨between, hp⟩ := segments_of_dots ha hb hurl hdots
        rw [hp]
        exact suffix_join_rooted ha hb origin between
  · rw [hurl]
    exact suffix_ending ha hb front

end Ending

theorem head?_dropWhile {p : Char → Bool} {s : List Char} : ∀ c ∈ (s.dropWhile p).head?, p c = false := by
  intro c hc
  have h := List.head?_dropWhile_not p s
  rw [Option.mem_def.mp hc] at h
  exact h

/-- An address is cut behind its authority, if it has one. -/
theorem splitOrigin_spec (url : List Char) :
    (splitOrigin url).1 ++ (splitOrigin url).2 = url ∧
      ((splitOrigin url).1 = [] ∨ ∀ c ∈ (splitOrigin url).2.head?, c = '/' ∨ c = '?' ∨ c = '#') := by
  unfold splitOrigin
  dsimp only
  split
  · rename_i rest hrest
    have hwhole := List.prefix_iff_eq_append.mp
      (List.takeWhile_prefix (l := url) fun c => c ≠ ':' && c ≠ '/' && c ≠ '?' && c ≠ '#')
    rw [hrest] at hwhole
    refine ⟨?_, .inr fun c hc => ?_⟩
    · rw [List.append_assoc, List.takeWhile_append_dropWhile, List.append_assoc]
      exact hwhole
    · have hmark := head?_dropWhile c hc
      simp only [ne_eq, decide_not, Bool.and_eq_false_iff, Bool.not_eq_false', decide_eq_true_eq] at hmark
      exact or_assoc.mp hmark
  · exact ⟨rfl, .inl rfl⟩

theorem suffix_assembled {a b front origin path trail : List Char} (ha : Plain a) (hb : Plain b)
    (hurl : origin ++ (path ++ trail) = front ++ ending a b)
    (horigin : origin = [] ∨ ∀ c ∈ (path ++ trail).head?, c = '/' ∨ c = '?' ∨ c = '#')
    (hpath : ∀ c ∈ path, c ≠ '?' ∧ c ≠ '#') (htrail : ∀ c ∈ trail.head?, c = '?' ∨ c = '#') :
    [a, b] <:+ splitChars '/' (origin ++ normalPath path ++ trail) := by
  cases trail with
  | nil =>
    rw [List.append_nil] at hurl horigin ⊢
    refine suffix_normalPath ha hb hurl (horigin.imp_right fun hhead c hc => ?_)
    obtain ⟨hquery, hfragment⟩ := hpath c (List.mem_of_mem_head? hc)
    exact (hhead c hc).resolve_right (not_or.mpr ⟨hquery, hfragment⟩)
  | cons mark trail =>
    rw [← List.append_assoc] at hurl
    rcases List.append_eq_append_iff.mp hurl with ⟨between, -, hkept⟩ | ⟨between, -, hending⟩
    · rw [hkept, ← List.append_assoc]
      exact suffix_ending ha hb _
    · have hmem : mark ∈ ending a b := hending ▸ List.mem_append_right between List.mem_cons_self
      exact absurd hmem (not_mem_ending ha hb (htrail mark rfl))

theorem suffix_normalUrl {a b front : List Char} (ha : Plain a) (hb : Plain b) {url : String}
    (hurl : url.toList = front ++ ending a b) : [a, b] <:+ splitChars '/' (normalUrl url).toList := by
  obtain ⟨hwhole, horigin⟩ := splitOrigin_spec url.toList
  rw [← hwhole] at hurl
  unfold normalUrl
  dsimp only
  rw [String.toList_ofList]
  have hcut := List.takeWhile_append_dropWhile (p := fun c : Char => c ≠ '?' && c ≠ '#')
    (l := (splitOrigin url.toList).2)
  rw [← hcut] at hurl horigin
  refine suffix_assembled ha hb hurl horigin (fun c hc => ?_) fun c hc => ?_
  · simpa using List.mem_takeWhile_imp hc
  · simpa [or_iff_not_imp_left] using head?_dropWhile c hc

/-- Whatever the settings of the client are, the address of its requests ends in the id of the phone number and
the name of the resource. -/
theorem Client.address_ending (c : Client) {phone : String} (h : IsPhoneId phone) :
    [phone, "messages"] <:+ split '/' (normalUrl (c.messagesUrl phone)) := by
  have hurl : (c.messagesUrl phone).toList =
      (c.baseUrl ++ "/" ++ c.apiVersion).toList ++ ending phone.toList "messages".toList := by
    have hid := encodeSegment_of_isUnreserved fun d hd => isUnreserved_of_isAlphanum (h.2 d hd)
    rw [messagesUrl, hid, String.ofList_toList]
    simp only [String.toList_append, ending, List.append_assoc]
    rfl
  have hsuffix := (suffix_normalUrl (plain_phoneId h) plain_messages hurl).map String.ofList
  rw [List.map_cons, List.map_singleton, String.ofList_toList, String.ofList_toList] at hsuffix
  exact hsuffix

end Cadence.Provider
