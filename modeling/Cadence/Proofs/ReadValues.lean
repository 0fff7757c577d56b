import Cadence.Json.Reader
import Cadence.Proofs.WrittenNumbers
import Mathlib.Data.List.TakeWhile

/-!
# Values that are read

The reader puts values together from scalars and texts, so what these have, and lists and objects keep, is had by every
value that is read. In particular it can be written again. A text is not read to its end where its lists go too deep.
-/

namespace Cadence

namespace Json

namespace Reader

/-- What scalars and texts have, and lists and objects of such values keep. -/
structure Kept (P : Json → Prop) : Prop where
  scalar : ∀ {s rest : List Char} {v : Json}, scalar s = .ok (v, rest) → P v
  str : ∀ s, P (.str s)
  arr : ∀ {items : List Json}, (∀ v ∈ items, P v) → P (.arr items)
  empty : P (.obj [])
  set : ∀ {members : Members} {v : Json} (name : String), P (.obj members) → P v → P (.obj (members.set name v))

/-- In that many steps only values with `P` are read. -/
structure Keeps (P : Json → Prop) (fuel : Nat) : Prop where
  ofValue : ∀ {depth : Nat} {s rest : List Char} {v : Json}, value fuel depth s = .ok (v, rest) → P v
  ofItems : ∀ {depth : Nat} {read : List Json} {s rest : List Char} {v : Json}, (∀ u ∈ read, P u) →
    items fuel depth read s = .ok (v, rest) → P v
  ofMembers : ∀ {depth : Nat} {read : Members} {s rest : List Char} {v : Json}, P (.obj read) →
    members fuel depth read s = .ok (v, rest) → P v

section Kept
variable {P : Json → Prop} {fuel depth : Nat} {s rest : List Char} {v : Json} (hkept : Kept P)
include hkept

theorem Kept.value_succ (hfuel : Keeps P fuel) (h : value (fuel + 1) depth s = .ok (v, rest)) : P v := by
  unfold value at h
  split at h
  · rename_i text
    cases htext : textBody _ [] text with
    | error e =>
      rw [htext] at h
      cases h
    | ok read =>
      rw [htext] at h
      cases h
      exact hkept.str _
  · split at h
    · cases h
    · cases h
      exact hkept.arr (List.forall_mem_nil _)
    · exact hfuel.ofItems (List.forall_mem_nil _) h
  · split at h
    · cases h
    · cases h
      exact hkept.empty
    · exact hfuel.ofMembers hkept.empty h
  · exact hkept.scalar h

theorem Kept.items_succ (hfuel : Keeps P fuel) {read : List Json} (hread : ∀ u ∈ read, P u)
    (h : items (fuel + 1) depth read s = .ok (v, rest)) : P v := by
  unfold items at h
  split at h
  · cases h
  · rename_i u after hu
    have hread' : ∀ w ∈ u :: read, P w := List.forall_mem_cons.mpr ⟨hfuel.ofValue hu, hread⟩
    split at h
    · cases h
      exact hkept.arr fun w hw => hread' w (List.mem_reverse.mp hw)
    · exact hfuel.ofItems hread' h
    · cases h

theorem Kept.members_succ (hfuel : Keeps P fuel) {read : Members} (hread : P (.obj read))
    (h : members (fuel + 1) depth read s = .ok (v, rest)) : P v := by
  unfold members at h
  split at h
  · split at h
    · cases h
    · split at h
      · split at h
        · cases h
        · rename_i u after hu
          have hset := fun name => hkept.set name hread (hfuel.ofValue hu)
          split at h
          · cases h
            exact hset _
          · exact hfuel.ofMembers (hset _) h
          · cases h
      · cases h
  · cases h

theorem Kept.keeps (fuel : Nat) : Keeps P fuel := by
  induction fuel with
  | zero => exact ⟨nofun, nofun, nofun⟩
  | succ fuel ih => exact ⟨hkept.value_succ ih, hkept.items_succ ih, hkept.members_succ ih⟩

end Kept

end Reader

theorem Reader.Kept.of_readWithin {P : Json → Prop} (hkept : Reader.Kept P) {depth : Nat} {s : String} {v : Json}
    (h : readWithin depth s = .ok v) : P v := by
  unfold readWithin at h
  cases hdocument : Reader.document depth s.toList with
  | error e => rw [hdocument] at h; cases h
  | ok w =>
    rw [hdocument] at h
    cases h
    unfold Reader.document at hdocument
    split at hdocument
    · cases hdocument
    · rename_i u rest hu
      split at hdocument <;> cases hdocument
      exact (hkept.keeps _).ofValue hu

/-! ### What is read can be written -/

theorem areWritable_iff {items : List Json} : areWritable items = true ↔ ∀ v ∈ items, v.isWritable = true := by
  induction items with
  | nil => exact iff_of_true rfl (List.forall_mem_nil _)
  | cons v rest ih => rw [areWritable, Bool.and_eq_true, ih, List.forall_mem_cons]

namespace Reader

theorem wholeNumber_writable {digits : List Char} (hdigits : ∀ c ∈ digits, Text.isAsciiDigit c = true)
    (hshort : ¬digits.length > maxNumeralDigits) {i : Int} (hi : i.natAbs = Text.decimalValue digits) :
    (int i).isWritable = true := by
  rw [isWritable_int_iff, hi]
  exact Nat.lt_of_lt_of_le (Text.decimalValue_lt hdigits) (Nat.pow_le_pow_right (by decide) (Nat.not_lt.mp hshort))

/-- Of a number that may be whole the digits are counted before it is read. -/
theorem numeral_writable {start s rest : List Char} {negative : Bool} {v : Json}
    (h : numeral start negative s = .ok (v, rest)) : v.isWritable = true := by
  unfold numeral at h
  split at h
  rename_i whole rest' hwhole
  have hdigits : ∀ c ∈ whole, Text.isAsciiDigit c = true := by
    split at hwhole
    · cases hwhole
      exact List.forall_mem_singleton.mpr rfl
    · cases hwhole
      exact fun c hc => List.mem_takeWhile_imp hc
  dsimp only at h
  split_ifs at h with hnone hplain hlong
  · cases h
    exact wholeNumber_writable hdigits hlong (Int.natAbs_neg _)
  · cases h
    exact wholeNumber_writable hdigits hlong rfl
  · cases h
    rfl

theorem scalar_writable {s rest : List Char} {v : Json} (h : scalar s = .ok (v, rest)) : v.isWritable = true := by
  unfold scalar at h
  split at h
  · cases h; rfl
  · cases h; rfl
  · cases h; rfl
  · cases h; rfl
  · cases h; rfl
  · cases h; rfl
  · exact numeral_writable h
  · exact numeral_writable h

theorem writable_kept : Kept fun v => v.isWritable = true where
  scalar := scalar_writable
  str _ := rfl
  arr h := areWritable_iff.mpr h
  empty := rfl
  set _ hmembers hv := haveWritable_set hv hmembers

end Reader

theorem readWithin_writable {depth : Nat} {s : String} {v : Json} (h : readWithin depth s = .ok v) :
    v.isWritable = true :=
  Reader.writable_kept.of_readWithin h

/-! ### Lists that go too deep -/

namespace Reader

theorem value_of_open_lists {depth fuel : Nat} (hfuel : 2 * depth < fuel) (rest : List Char) :
    ∃ place, value fuel depth (List.replicate (depth + 1) '[' ++ rest) = .error (.listTooDeep, place) := by
  induction depth generalizing fuel with
  | zero =>
    obtain ⟨fuel, rfl⟩ := Nat.exists_eq_add_of_le' hfuel
    exact ⟨_, rfl⟩
  | succ depth ih =>
    -- One step enters the list, and one reads its first item.
    obtain ⟨fuel, rfl⟩ : ∃ more, fuel = more + 2 := ⟨fuel - 2, by omega⟩
    obtain ⟨place, hplace⟩ := @ih fuel (by omega)
    refine ⟨place, ?_⟩
    show items (fuel + 1) depth [] (List.replicate (depth + 1) '[' ++ rest) = _
    rw [items, hplace]

end Reader

theorem readWithin_of_open_lists (depth : Nat) (rest : List Char) :
    ∃ position, readWithin depth (String.ofList (List.replicate (depth + 1) '[' ++ rest)) =
      .error ⟨.listTooDeep, position⟩ := by
  have hfuel : 2 * depth < 2 * (List.replicate (depth + 1) '[' ++ rest).length + 2 := by
    rw [List.length_append, List.length_replicate]
    omega
  obtain ⟨place, hvalue⟩ := Reader.value_of_open_lists hfuel rest
  have hstart : Reader.skipSpace (List.replicate (depth + 1) '[' ++ rest) = List.replicate (depth + 1) '[' ++ rest :=
    rfl
  unfold readWithin Reader.document
  rw [String.toList_ofList, hstart, hvalue]
  exact ⟨_, rfl⟩

end Json

end Cadence
