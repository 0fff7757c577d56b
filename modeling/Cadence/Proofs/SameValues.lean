import Cadence.Json.Equality
import Cadence.Proofs.NumberValues
import Mathlib.Data.List.Perm.Subperm

/-!
# Values that are the same

Two values are the same if they are built alike: objects member by member, lists item by item, numbers of one value.
A truth value is the same as itself only. A condition compares in this way except that it takes a truth value inside
of a list or an object for a number.
-/

namespace Cadence

namespace Members

variable {β : Type}

theorem get?_eq_none_iff {members : Members β} {name : String} :
    members.get? name = none ↔ name ∉ members.map Prod.fst := by
  induction members with
  | nil => simp [get?]
  | cons member rest ih =>
    obtain ⟨other, value⟩ := member
    rw [get?, List.map_cons, List.mem_cons, not_or]
    by_cases hname : other = name
    · rw [if_pos hname]
      exact iff_of_false (Option.some_ne_none value) fun h => h.1 hname.symm
    · rw [if_neg hname, ih, and_iff_right (Ne.symm hname)]

theorem mem_of_get? {members : Members β} {name : String} {value : β} (h : members.get? name = some value) :
    (name, value) ∈ members := by
  induction members with
  | nil => cases h
  | cons member rest ih =>
    obtain ⟨other, old⟩ := member
    rw [get?] at h
    split_ifs at h with hname
    · cases h
      rw [hname]
      exact List.mem_cons_self
    · exact List.mem_cons_of_mem _ (ih h)

theorem get?_of_mem {members : Members β} (hnames : (members.map Prod.fst).Nodup) {name : String} {value : β}
    (h : (name, value) ∈ members) : members.get? name = some value := by
  induction members with
  | nil => cases h
  | cons member rest ih =>
    obtain ⟨other, old⟩ := member
    rw [List.map_cons, List.nodup_cons] at hnames
    rcases List.mem_cons.mp h with heq | hrest
    · cases heq
      rw [get?, if_pos rfl]
    · have hne : other ≠ name := by
        rintro rfl
        exact hnames.1 (List.mem_map.mpr ⟨_, hrest, rfl⟩)
      rw [get?, if_neg hne]
      exact ih hnames.2 hrest

end Members

namespace Json

/-- What holds of lists and objects as soon as it holds of what is in them, and of all other values, holds of every
value. -/
theorem of_parts {P : Json → Prop} (null : P null) (bool : ∀ b, P (bool b)) (int : ∀ i, P (int i))
    (float : ∀ x, P (float x)) (str : ∀ s, P (str s)) (arr : ∀ items, (∀ v ∈ items, P v) → P (arr items))
    (obj : ∀ members : Members, (∀ m ∈ members, P m.2) → P (obj members)) (v : Json) : P v := by
  refine @Json.rec P (fun items => ∀ v ∈ items, P v) (fun members => ∀ m ∈ members, P m.2) (fun m => P m.2)
    null bool int float str arr obj ?_ ?_ ?_ ?_ ?_ v
  · exact nofun
  · intro first rest hfirst hrest
    exact List.forall_mem_cons.mpr ⟨hfirst, hrest⟩
  · exact nofun
  · intro first rest hfirst hrest
    exact List.forall_mem_cons.mpr ⟨hfirst, hrest⟩
  · intro name value hvalue
    exact hvalue

/-- No object has two members of one name. -/
inductive Distinct : Json → Prop where
  | null : Distinct null
  | bool (b : Bool) : Distinct (bool b)
  | int (i : ℤ) : Distinct (int i)
  | float (x : Binary64) : Distinct (float x)
  | str (s : String) : Distinct (str s)
  | arr {items : List Json} (values : ∀ v ∈ items, Distinct v) : Distinct (arr items)
  | obj {members : Members} (names : (members.map Prod.fst).Nodup) (values : ∀ m ∈ members, Distinct m.2) :
      Distinct (obj members)

/-- "Not a number" does not occur. -/
inductive WithoutNan : Json → Prop where
  | null : WithoutNan null
  | bool (b : Bool) : WithoutNan (bool b)
  | int (i : ℤ) : WithoutNan (int i)
  | float {x : Binary64} (number : x ≠ .nan) : WithoutNan (float x)
  | str (s : String) : WithoutNan (str s)
  | arr {items : List Json} (values : ∀ v ∈ items, WithoutNan v) : WithoutNan (arr items)
  | obj {members : Members} (values : ∀ m ∈ members, WithoutNan m.2) : WithoutNan (obj members)

structure Proper (v : Json) : Prop where
  distinct : v.Distinct
  withoutNan : v.WithoutNan

namespace Proper

theorem item {items : List Json} (h : (arr items).Proper) {v : Json} (hv : v ∈ items) : v.Proper := by
  obtain ⟨⟨⟩, ⟨⟩⟩ := h
  exact ⟨‹∀ v ∈ items, v.Distinct› v hv, ‹∀ v ∈ items, v.WithoutNan› v hv⟩

theorem value {members : Members} (h : (obj members).Proper) {m : String × Json} (hm : m ∈ members) :
    m.2.Proper := by
  obtain ⟨⟨⟩, ⟨⟩⟩ := h
  exact ⟨‹∀ m ∈ members, m.2.Distinct› m hm, ‹∀ m ∈ members, m.2.WithoutNan› m hm⟩

theorem names {members : Members} (h : (obj members).Proper) : (members.map Prod.fst).Nodup := by
  cases h.distinct
  assumption

end Proper

/-- The number that a value is; a truth value is none. -/
def number? : Json → Option Numeral
  | int i => some (.whole i)
  | float x => some (.binary x)
  | _ => none

/-- The values that are the same, if they stand for numbers by the given rule. -/
inductive SameBy (rule : Json → Option Numeral) : Json → Json → Prop where
  | null : SameBy rule null null
  | bool (b : Bool) : SameBy rule (bool b) (bool b)
  | str (s : String) : SameBy rule (str s) (str s)
  | number {v w : Json} {m n : Numeral} {q : Quantity} (left : rule v = some m) (right : rule w = some n)
      (leftValue : m.quantity? = some q) (rightValue : n.quantity? = some q) : SameBy rule v w
  | arr {xs ys : List Json} (length : xs.length = ys.length)
      (items : ∀ (i : ℕ) (x y : Json), xs[i]? = some x → ys[i]? = some y → SameBy rule x y) :
      SameBy rule (arr xs) (arr ys)
  | obj {xs ys : Members} (names : ∀ name, xs.get? name = none ↔ ys.get? name = none)
      (values : ∀ name x y, xs.get? name = some x → ys.get? name = some y → SameBy rule x y) :
      SameBy rule (obj xs) (obj ys)

/-- The values that are the same, where a truth value is the same as no number. -/
def Same : Json → Json → Prop := SameBy number?

/-! ### Comparing values -/

theorem sameItems_iff {xs ys : List Json} :
    sameItems xs ys = true ↔
      xs.length = ys.length ∧
        ∀ (i : ℕ) (x y : Json), xs[i]? = some x → ys[i]? = some y → sameValue x y = true := by
  induction xs generalizing ys with
  | nil =>
    cases ys with
    | nil => exact iff_of_true rfl ⟨rfl, fun i x y hx _ => by simp at hx⟩
    | cons y ys => exact iff_of_false Bool.false_ne_true nofun
  | cons x xs ih =>
    cases ys with
    | nil => exact iff_of_false Bool.false_ne_true nofun
    | cons y ys =>
      rw [sameItems, Bool.and_eq_true, ih, List.length_cons, List.length_cons, Nat.add_right_cancel_iff]
      constructor
      · rintro ⟨hfirst, hlength, hrest⟩
        refine ⟨hlength, fun i a b ha hb => ?_⟩
        cases i with
        | zero =>
          cases ha
          cases hb
          exact hfirst
        | succ i => exact hrest i a b ha hb
      · rintro ⟨hlength, hall⟩
        exact ⟨hall 0 x y rfl rfl, hlength, fun i => hall (i + 1)⟩

theorem sameMembers_iff {xs ys : Members} :
    sameMembers xs ys = true ↔ ∀ m ∈ xs, ∃ y, ys.get? m.1 = some y ∧ sameValue m.2 y = true := by
  induction xs with
  | nil => exact iff_of_true rfl nofun
  | cons member rest ih =>
    obtain ⟨name, x⟩ := member
    rw [sameMembers, Bool.and_eq_true, ih, List.forall_mem_cons]
    apply and_congr_left'
    cases hy : ys.get? name with
    | none => exact iff_of_false Bool.false_ne_true nofun
    | some y => simp

/-- Objects of as many members have the same names, if each of the names of one is a name of the other. -/
theorem names_iff {xs ys : Members} (hxs : (xs.map Prod.fst).Nodup) (hys : (ys.map Prod.fst).Nodup) :
    (∀ name, xs.get? name = none ↔ ys.get? name = none) ↔
      xs.length = ys.length ∧ ∀ m ∈ xs, ys.get? m.1 ≠ none := by
  simp only [Members.get?_eq_none_iff, not_iff_not, ne_eq, not_not]
  constructor
  · intro hnames
    have hperm : (xs.map Prod.fst).Perm (ys.map Prod.fst) := (List.perm_ext_iff_of_nodup hxs hys).mpr hnames
    have hlength := hperm.length_eq
    rw [List.length_map, List.length_map] at hlength
    exact ⟨hlength, fun m hm => (hnames m.1).mp (List.mem_map_of_mem hm)⟩
  · rintro ⟨hlength, hmem⟩ name
    have hsub : xs.map Prod.fst ⊆ ys.map Prod.fst := by
      intro other hother
      obtain ⟨m, hm, rfl⟩ := List.mem_map.mp hother
      exact hmem m hm
    have hperm : (xs.map Prod.fst).Perm (ys.map Prod.fst) := by
      refine (hxs.subperm hsub).perm_of_length_le ?_
      rw [List.length_map, List.length_map]
      exact hlength.ge
    exact hperm.mem_iff

theorem sameValue_number {v : Json} {m : Numeral} (hv : v.numeral? = some m) (w : Json) :
    sameValue v w = match w.numeral? with
      | some n => m.sameValue n
      | none => false := by
  cases v with
  | bool _ | int _ | float _ =>
    cases hv
    cases w <;> rfl
  | null | str _ | arr _ | obj _ => cases hv

theorem WithoutNan.quantity {v : Json} {m : Numeral} (h : v.WithoutNan) (hv : v.numeral? = some m) :
    ∃ q, m.quantity? = some q := by
  cases h with
  | float number =>
    cases hv
    exact Option.ne_none_iff_exists'.mp (mt Binary64.quantity?_eq_none.mp number)
  | bool _ | int _ =>
    cases hv
    exact ⟨_, rfl⟩
  | null | str _ | arr _ | obj _ => cases hv

/-- A number, or a truth value taken for one, is the same as all that stands for the same quantity. -/
theorem sameBy_number {v w : Json} {m : Numeral} {q : Quantity} (hv : v.numeral? = some m)
    (hq : m.quantity? = some q) :
    SameBy numeral? v w ↔ ∃ n, w.numeral? = some n ∧ n.quantity? = some q := by
  constructor
  · intro h
    cases h with
    | number left right leftValue rightValue =>
      cases hv.symm.trans left
      cases hq.symm.trans leftValue
      exact ⟨_, right, rightValue⟩
    | bool b => exact ⟨m, hv, hq⟩
    | null | str _ | arr _ _ | obj _ _ => cases hv
  · rintro ⟨n, hw, hn⟩
    exact .number hv hw hq hn

theorem sameValue_number_iff {v w : Json} {m : Numeral} (hm : v.numeral? = some m) (hv : v.WithoutNan)
    (hw : w.WithoutNan) : sameValue v w = true ↔ SameBy numeral? v w := by
  obtain ⟨q, hq⟩ := hv.quantity hm
  rw [sameValue_number hm, sameBy_number hm hq]
  cases hn : w.numeral? with
  | none =>
    refine iff_of_false Bool.false_ne_true ?_
    rintro ⟨n, hnone, -⟩
    cases hnone
  | some n =>
    obtain ⟨r, hr⟩ := hw.quantity hn
    dsimp only
    rw [Numeral.sameValue_iff hq hr]
    constructor
    · rintro rfl
      exact ⟨n, rfl, hr⟩
    · rintro ⟨other, hother, hvalue⟩
      cases hother
      exact Option.some.inj (hvalue.symm.trans hr)

/-- Comparing values takes truth values for numbers. -/
theorem sameValue_iff {v w : Json} (hv : v.Proper) (hw : w.Proper) :
    sameValue v w = true ↔ SameBy numeral? v w := by
  induction v using of_parts generalizing w with
  | bool b => exact sameValue_number_iff rfl hv.withoutNan hw.withoutNan
  | int i => exact sameValue_number_iff rfl hv.withoutNan hw.withoutNan
  | float x => exact sameValue_number_iff rfl hv.withoutNan hw.withoutNan
  | null =>
    cases w with
    | null => exact iff_of_true rfl .null
    | _ => exact iff_of_false Bool.false_ne_true fun | .number left _ _ _ => nomatch left
  | str s =>
    cases w with
    | str t =>
      rw [sameValue, decide_eq_true_eq]
      constructor
      · rintro rfl
        exact .str s
      · intro h
        cases h with
        | str => rfl
        | number left => cases left
    | _ => exact iff_of_false Bool.false_ne_true fun | .number left _ _ _ => nomatch left
  | arr xs ih =>
    cases w with
    | arr ys =>
      have hitems {i : ℕ} {x y : Json} (hx : xs[i]? = some x) (hy : ys[i]? = some y) :
          sameValue x y = true ↔ SameBy numeral? x y := by
        have hxs : x ∈ xs := List.mem_of_getElem? hx
        have hys : y ∈ ys := List.mem_of_getElem? hy
        exact ih x hxs (hv.item hxs) (hw.item hys)
      rw [sameValue, sameItems_iff]
      constructor
      · rintro ⟨hlength, hsame⟩
        exact .arr hlength fun i x y hx hy => (hitems hx hy).mp (hsame i x y hx hy)
      · intro h
        cases h with
        | number left => cases left
        | arr length items => exact ⟨length, fun i x y hx hy => (hitems hx hy).mpr (items i x y hx hy)⟩
    | _ => exact iff_of_false Bool.false_ne_true fun | .number left _ _ _ => nomatch left
  | obj xs ih =>
    cases w with
    | obj ys =>
      have hvalues {name : String} {x y : Json} (hx : xs.get? name = some x) (hy : Members.get? ys name = some y) :
          sameValue x y = true ↔ SameBy numeral? x y := by
        have hxs : (name, x) ∈ xs := Members.mem_of_get? hx
        have hys : (name, y) ∈ ys := Members.mem_of_get? hy
        exact ih _ hxs (hv.value hxs) (hw.value hys)
      rw [sameValue, Bool.and_eq_true, decide_eq_true_eq, sameMembers_iff]
      constructor
      · rintro ⟨hlength, hmembers⟩
        have hnames := (names_iff hv.names hw.names).mpr ⟨hlength, fun m hm => by
          obtain ⟨y, hy, -⟩ := hmembers m hm
          rw [hy]
          exact Option.some_ne_none y⟩
        refine .obj hnames fun name x y hx hy => ?_
        obtain ⟨other, hother, hsame⟩ := hmembers _ (Members.mem_of_get? hx)
        cases hy.symm.trans hother
        exact (hvalues hx hy).mp hsame
      · intro h
        cases h with
        | number left => cases left
        | obj names values =>
          obtain ⟨hlength, hmem⟩ := (names_iff hv.names hw.names).mp names
          refine ⟨hlength, fun m hm => ?_⟩
          have hx : xs.get? m.1 = some m.2 := Members.get?_of_mem hv.names hm
          obtain ⟨y, hy⟩ := Option.ne_none_iff_exists'.mp (hmem m hm)
          exact ⟨y, hy, (hvalues hx hy).mpr (values m.1 m.2 y hx hy)⟩
    | _ => exact iff_of_false Bool.false_ne_true fun | .number left _ _ _ => nomatch left

/-! ### Truth values -/

theorem SameBy.mono {rule rule' : Json → Option Numeral} (hrule : ∀ v m, rule v = some m → rule' v = some m)
    {v w : Json} (h : SameBy rule v w) : SameBy rule' v w := by
  induction h with
  | null => exact .null
  | bool b => exact .bool b
  | str s => exact .str s
  | number left right leftValue rightValue =>
    exact .number (hrule _ _ left) (hrule _ _ right) leftValue rightValue
  | arr length _ ih => exact .arr length ih
  | obj names _ ih => exact .obj names ih

theorem numeral?_of_number? {v : Json} {m : Numeral} (h : v.number? = some m) : v.numeral? = some m := by
  cases v with
  | int _ | float _ => exact h
  | null | bool _ | str _ | arr _ | obj _ => cases h

/-- No truth value occurs. -/
inductive WithoutTruth : Json → Prop where
  | null : WithoutTruth null
  | int (i : ℤ) : WithoutTruth (int i)
  | float (x : Binary64) : WithoutTruth (float x)
  | str (s : String) : WithoutTruth (str s)
  | arr {items : List Json} (values : ∀ v ∈ items, WithoutTruth v) : WithoutTruth (arr items)
  | obj {members : Members} (values : ∀ m ∈ members, WithoutTruth m.2) : WithoutTruth (obj members)

/-- Truth values count as numbers only where there are some. -/
theorem SameBy.same {v w : Json} (h : SameBy numeral? v w) (hv : v.WithoutTruth) (hw : w.WithoutTruth) :
    Same v w := by
  induction h with
  | null => exact .null
  | bool b => cases hv
  | str s => exact .str s
  | number left right leftValue rightValue =>
    have hnumber {u : Json} (hu : u.WithoutTruth) : u.numeral? = u.number? := by
      cases hu <;> rfl
    exact .number (hnumber hv ▸ left) (hnumber hw ▸ right) leftValue rightValue
  | arr length _ ih =>
    cases hv with
    | arr hxs =>
      cases hw with
      | arr hys =>
        exact .arr length fun i x y hx hy =>
          ih i x y hx hy (hxs x (List.mem_of_getElem? hx)) (hys y (List.mem_of_getElem? hy))
  | obj names _ ih =>
    cases hv with
    | obj hxs =>
      cases hw with
      | obj hys =>
        exact .obj names fun name x y hx hy =>
          ih name x y hx hy (hxs _ (Members.mem_of_get? hx)) (hys _ (Members.mem_of_get? hy))

/-- The values, if there are any, that a condition takes for equal. -/
inductive TakenEqual : Option Json → Option Json → Prop where
  | absent : TakenEqual none none
  | truth (b : Bool) : TakenEqual (some (bool b)) (some (bool b))
  | alike {v w : Json} (left : ∀ b, v ≠ bool b) (right : ∀ b, w ≠ bool b) (same : SameBy numeral? v w) :
      TakenEqual (some v) (some w)

theorem truth_or_none (v w : Json) :
    ((∃ b, v = bool b) ∨ ∃ b, w = bool b) ∨ (∀ b, v ≠ bool b) ∧ ∀ b, w ≠ bool b := by
  rw [← not_exists, ← not_exists, ← not_or]
  exact em _

theorem TakenEqual.truth_right {v : Json} {b : Bool} (h : TakenEqual (some v) (some (bool b))) : v = bool b := by
  cases h with
  | truth => rfl
  | alike _ right => exact absurd rfl (right b)

theorem TakenEqual.truth_left {w : Json} {b : Bool} (h : TakenEqual (some (bool b)) (some w)) : w = bool b := by
  cases h with
  | truth => rfl
  | alike left => exact absurd rfl (left b)

theorem strictEquals_truth {v w : Json} (h : (∃ b, v = bool b) ∨ ∃ b, w = bool b) :
    strictEquals (some v) (some w) = true ↔ TakenEqual (some v) (some w) := by
  have hself (b : Bool) : strictEquals (some (bool b)) (some (bool b)) = true := decide_eq_true rfl
  constructor
  · intro hequal
    have hsame : ∃ b, v = bool b ∧ w = bool b := by
      rcases h with ⟨b, rfl⟩ | ⟨b, rfl⟩
      · cases w with
        | bool c => exact ⟨b, rfl, congrArg bool (of_decide_eq_true hequal).symm⟩
        | _ => cases hequal
      · cases v with
        | bool c => exact ⟨b, congrArg bool (of_decide_eq_true hequal), rfl⟩
        | _ => cases hequal
    obtain ⟨b, rfl, rfl⟩ := hsame
    exact .truth b
  · intro hequal
    rcases h with ⟨b, rfl⟩ | ⟨b, rfl⟩
    · rw [hequal.truth_left, hself]
    · rw [hequal.truth_right, hself]

theorem strictEquals_alike {v w : Json} (hv : ∀ b, v ≠ bool b) (hw : ∀ b, w ≠ bool b) :
    strictEquals (some v) (some w) = sameValue v w := by
  cases v with
  | bool b => exact absurd rfl (hv b)
  | _ =>
    cases w with
    | bool b => exact absurd rfl (hw b)
    | _ => rfl

theorem strictEquals_iff {left right : Option Json} (hleft : ∀ v ∈ left, v.Proper)
    (hright : ∀ w ∈ right, w.Proper) : strictEquals left right = true ↔ TakenEqual left right := by
  rcases left with _ | v <;> rcases right with _ | w
  · exact iff_of_true rfl .absent
  · have hstrict : strictEquals none (some w) = false := by cases w <;> rfl
    exact iff_of_false (by rw [hstrict]; exact Bool.false_ne_true) nofun
  · have hstrict : strictEquals (some v) none = false := by cases v <;> rfl
    exact iff_of_false (by rw [hstrict]; exact Bool.false_ne_true) nofun
  · rcases truth_or_none v w with htruth | ⟨hv, hw⟩
    · exact strictEquals_truth htruth
    · rw [strictEquals_alike hv hw, sameValue_iff (hleft v rfl) (hright w rfl)]
      constructor
      · exact .alike hv hw
      · intro h
        cases h with
        | truth b => exact absurd rfl (hv b)
        | alike _ _ same => exact same

/-- Values that are the same are taken for equal. -/
theorem takenEqual_of_same {left right : Option Json} (h : Option.Rel Same left right) : TakenEqual left right := by
  cases h with
  | none => exact .absent
  | @some v w same =>
    rcases truth_or_none v w with htruth | ⟨hv, hw⟩
    · have heq : ∃ b, v = bool b ∧ w = bool b := by
        rcases htruth with ⟨b, rfl⟩ | ⟨b, rfl⟩
        · cases same with
          | bool => exact ⟨b, rfl, rfl⟩
          | number left => cases left
        · cases same with
          | bool => exact ⟨b, rfl, rfl⟩
          | number _ right => cases right
      obtain ⟨b, rfl, rfl⟩ := heq
      exact .truth b
    · exact .alike hv hw (same.mono fun _ _ => numeral?_of_number?)

/-- A truth value, or a value in which there is none. -/
def Plain (v : Json) : Prop := (∃ b, v = bool b) ∨ v.WithoutTruth

/-- Values that are taken for equal are the same, unless a truth value is inside of one. -/
theorem same_of_takenEqual {left right : Option Json} (hleft : ∀ v ∈ left, v.Plain)
    (hright : ∀ w ∈ right, w.Plain) (h : TakenEqual left right) : Option.Rel Same left right := by
  cases h with
  | absent => exact .none
  | truth b => exact .some (.bool b)
  | @alike v w hv hw same =>
    have hv' : v.WithoutTruth := (hleft v rfl).resolve_left fun ⟨b, heq⟩ => hv b heq
    have hw' : w.WithoutTruth := (hright w rfl).resolve_left fun ⟨b, heq⟩ => hw b heq
    exact .some (same.same hv' hw')

end Json

end Cadence
