import Cadence.Proofs.ResolvedPaths
import Mathlib.Data.List.Forall2

/-!
# Positions and their addresses

A position in a value is a row of names in objects and of indexes in lists. Its address, the names and the decimal
indexes with dots between them, is a path on which the value at the position is read. Whatever is read on a path is the
value at a position that the segments of the path spell.
-/

namespace Cadence

/-- The value at a position, if there is one. -/
def Json.at? : Json → List Place → Option Json
  | v, [] => some v
  | .obj members, .field name :: rest => (Members.get? members name).bind (·.at? rest)
  | .arr items, .item index :: rest => items[index]?.bind (·.at? rest)
  | _, _ :: _ => none

namespace Place

def spelling : Place → String
  | field name => name
  | item index => toString index

/-- Whether the spelling of a place is a segment of a path that leads there. -/
def IsAddressable : Place → Prop
  | field name => name ≠ "" ∧ '.' ∉ name.toList
  | item index => (toString index).length ≤ Json.maxNumeralDigits

end Place

/-! ### Pieces between marks -/

namespace Text

theorem splitChars_eq_splitOn (mark : Char) (s : List Char) : splitChars mark s = s.splitOn mark := by
  induction s with
  | nil => rfl
  | cons c rest ih =>
    obtain ⟨piece, pieces, hrest⟩ := List.exists_cons_of_ne_nil (splitChars_ne_nil mark rest)
    rw [splitChars, List.splitOn_cons_eq_if_modifyHead, ← ih, hrest]
    simp only [beq_iff_eq, List.modifyHead_cons]

/-- Pieces without the mark are what their join is split into. -/
theorem split_intercalate {mark : Char} {pieces : List String} (hne : pieces ≠ [])
    (h : ∀ piece ∈ pieces, mark ∉ piece.toList) :
    split mark ((String.singleton mark).intercalate pieces) = pieces := by
  have hpieces : ∀ piece ∈ pieces.map String.toList, mark ∉ piece := List.forall_mem_map.mpr h
  rw [split, splitChars_eq_splitOn, String.toList_intercalate, String.toList_singleton,
    List.splitOn_intercalate mark hpieces (by simpa using hne)]
  simp

/-- What a text is split into joins to the text again. -/
theorem intercalate_split (mark : Char) (s : String) :
    (String.singleton mark).intercalate (split mark s) = s := by
  apply String.toList_injective
  rw [String.toList_intercalate, String.toList_singleton, split, List.map_map]
  simp [Function.comp_def, intercalate_splitChars]

theorem not_mem_of_mem_split {mark : Char} {s piece : String} (h : piece ∈ split mark s) : mark ∉ piece.toList := by
  obtain ⟨chars, hchars, rfl⟩ := List.mem_map.mp h
  rw [String.toList_ofList]
  exact not_mem_of_mem_splitChars hchars

end Text

/-! ### Indexes -/

namespace Payload

theorem toList_toString (n : Nat) : (toString n).toList = Nat.toDigits 10 n := Nat.toList_repr

theorem decimalValue_toString (n : Nat) : Text.decimalValue (toString n).toList = n := by
  rw [toList_toString]
  exact Nat.ofDigitChars_ten_toDigits

theorem isAsciiDigit_of_mem_toString {n : Nat} {c : Char} (h : c ∈ (toString n).toList) :
    Text.isAsciiDigit c = true := by
  rw [toList_toString] at h
  have hdigit : c.isDigit = true := Nat.isDigit_of_mem_toDigits (by decide) (by decide) h
  simp only [Char.isDigit, Bool.and_eq_true, decide_eq_true_eq] at hdigit
  simp only [Text.isAsciiDigit, Bool.and_eq_true, decide_eq_true_eq]
  exact hdigit

theorem toString_ne_empty (n : Nat) : toString n ≠ "" := by
  intro h
  have hempty : Nat.toDigits 10 n = [] := by rw [← toList_toString, h]; rfl
  exact Nat.toDigits_ne_nil hempty

theorem isIndex_toString (n : Nat) : isIndex (toString n) = true := by
  rw [isIndex, Bool.and_eq_true, decide_eq_true_iff, List.all_eq_true]
  exact ⟨toString_ne_empty n, fun c hc => isAsciiDigit_of_mem_toString hc⟩

/-! ### From a position to its address -/

/-- The path that leads to a position. -/
def address (position : List Place) : String := ".".intercalate (position.map Place.spelling)

variable {payload v w : Json} {position : List Place} {place : Place} {path : String}

theorem dot_not_mem_spelling (h : place.IsAddressable) : '.' ∉ place.spelling.toList := by
  cases place with
  | field name => exact h.2
  | item index => exact fun hdot => absurd (isAsciiDigit_of_mem_toString hdot) (by decide)

theorem spelling_ne_empty (h : place.IsAddressable) : place.spelling ≠ "" := by
  cases place with
  | field name => exact h.1
  | item index => exact toString_ne_empty index

theorem segments_address (h : ∀ place ∈ position, place.IsAddressable) :
    segments (address position) = position.map Place.spelling := by
  by_cases hroot : position = []
  · rw [hroot]
    rfl
  · have hne : position.map Place.spelling ≠ [] := by simpa using hroot
    have hdots : ∀ piece ∈ position.map Place.spelling, '.' ∉ piece.toList :=
      List.forall_mem_map.mpr fun place hmem => dot_not_mem_spelling (h place hmem)
    have hgiven : ∀ piece ∈ position.map Place.spelling, piece ≠ "" :=
      List.forall_mem_map.mpr fun place hmem => spelling_ne_empty (h place hmem)
    have hsplit : Text.split '.' (address position) = position.map Place.spelling := Text.split_intercalate hne hdots
    rw [segments, hsplit]
    exact List.filter_eq_self.mpr fun piece hmem => decide_eq_true (hgiven piece hmem)

/-- One spelling after the other leads from each value on the way to the next. -/
theorem follow_spellings (hat : v.at? position = some w) (h : ∀ place ∈ position, place.IsAddressable) :
    follow v (position.map Place.spelling) = .ok (some w) := by
  induction position generalizing v with
  | nil =>
    cases hat
    rfl
  | cons place rest ih =>
    rw [List.forall_mem_cons] at h
    rw [List.map_cons, follow_cons]
    cases v with
    | obj members =>
      cases place with
      | item index => cases hat
      | field name =>
        obtain ⟨next, hnext, hrest⟩ := Option.bind_eq_some_iff.mp hat
        dsimp only [step, Place.spelling]
        rw [hnext]
        exact ih hrest h.2
    | arr items =>
      cases place with
      | field name => cases hat
      | item index =>
        obtain ⟨next, hnext, hrest⟩ := Option.bind_eq_some_iff.mp hat
        dsimp only [step, Place.spelling]
        rw [if_pos (isIndex_toString index), if_neg (Nat.not_lt.mpr h.1), decimalValue_toString, hnext]
        exact ih hrest h.2
    | null | bool _ | int _ | float _ | str _ => simp only [Json.at?, reduceCtorEq] at hat

/-! ### From a path to a position -/

/-- A segment spells the member of its name, and if it consists of digits the item of its decimal value. -/
inductive Spells : String → Place → Prop where
  | field (name : String) : Spells name (.field name)
  | item {digits : String} (index : isIndex digits = true) : Spells digits (.item (Text.decimalValue digits.toList))

theorem Resolves.exists_position {path : List String} (h : Resolves v path w) :
    ∃ position, List.Forall₂ Spells path position ∧ v.at? position = some w := by
  induction h with
  | here v => exact ⟨[], .nil, rfl⟩
  | @member members name rest v w found _ ih =>
    obtain ⟨position, hspells, hat⟩ := ih
    refine ⟨.field name :: position, .cons (.field name) hspells, ?_⟩
    rw [Json.at?, found]
    exact hat
  | @item items digits rest v w index found _ ih =>
    obtain ⟨position, hspells, hat⟩ := ih
    refine ⟨.item _ :: position, .cons (.item index) hspells, ?_⟩
    rw [Json.at?, found]
    exact hat

/-- The value at a position of which every place is addressable is read on the address of the position. A value that is
read on a path is the one at a position that is spelled by those pieces of the path between dots that are not empty. -/
theorem addressed_and_read (payload : Json) :
    (∀ position v, payload.at? position = some v → (∀ place ∈ position, place.IsAddressable) →
        readPath payload (address position) = .ok (some v)) ∧
      ∀ path v, readPath payload path = .ok (some v) →
        ∃ pieces position, path = ".".intercalate pieces ∧ (∀ piece ∈ pieces, '.' ∉ piece.toList) ∧
          List.Forall₂ Spells (pieces.filter (· ≠ "")) position ∧ payload.at? position = some v := by
  constructor
  · intro position v hat hplaces
    rw [readPath, segments_address hplaces]
    exact follow_spellings hat hplaces
  · intro path v hread
    obtain ⟨hresolves, -⟩ := readPath_some.mp hread
    obtain ⟨position, hspells, hat⟩ := hresolves.exists_position
    exact ⟨Text.split '.' path, position, (Text.intercalate_split '.' path).symm,
      fun piece => Text.not_mem_of_mem_split, hspells, hat⟩

def leads : Json := .obj [("leads", .arr [.obj [("phone", .str "5550001")]])]

/-- An address, and another path to the same position: its index has a zero before it, and it has empty pieces. -/
theorem addressed_and_read_lead :
    readPath leads (address [.field "leads", .item 0, .field "phone"]) = .ok (some (.str "5550001")) ∧
      ∃ pieces position, ".leads..00.phone" = ".".intercalate pieces ∧ (∀ piece ∈ pieces, '.' ∉ piece.toList) ∧
        List.Forall₂ Spells (pieces.filter (· ≠ "")) position ∧ leads.at? position = some (.str "5550001") := by
  obtain ⟨haddressed, hread⟩ := addressed_and_read leads
  have hplaces : ∀ place ∈ [Place.field "leads", .item 0, .field "phone"], place.IsAddressable := by
    simp [Place.IsAddressable]
    decide
  exact ⟨haddressed _ _ rfl hplaces, hread _ _ rfl⟩

end Payload

end Cadence
