import Cadence.Proofs.ReadValues
import Cadence.Proofs.ResolvedPaths
import Cadence.Proofs.SameValues

/-!
# Conditions of equality

A condition of equality holds of a payload if the value at its path is taken for equal to the value it is configured
with. What a text is read as has no object with two members of one name, so that objects can be compared by name.
-/

namespace Cadence

namespace Members

variable {β : Type}

theorem names_set (members : Members β) (name : String) (value : β) :
    (members.set name value).map Prod.fst =
      if name ∈ members.map Prod.fst then members.map Prod.fst else members.map Prod.fst ++ [name] := by
  induction members with
  | nil => rfl
  | cons member rest ih =>
    obtain ⟨other, old⟩ := member
    rw [set]
    by_cases hname : other = name
    · simp [hname]
    · rw [if_neg hname, List.map_cons, ih]
      by_cases hrest : name ∈ rest.map Prod.fst <;> simp [hrest, Ne.symm hname]

theorem nodup_set {members : Members β} (h : (members.map Prod.fst).Nodup) (name : String) (value : β) :
    ((members.set name value).map Prod.fst).Nodup := by
  rw [names_set]
  split_ifs with hname
  · exact h
  · exact List.nodup_append_comm.mp (List.nodup_cons.mpr ⟨hname, h⟩)

theorem mem_set {members : Members β} {name : String} {value : β} {m : String × β}
    (h : m ∈ members.set name value) : m = (name, value) ∨ m ∈ members := by
  induction members with
  | nil => exact .inl (List.mem_singleton.mp h)
  | cons member rest ih =>
    obtain ⟨other, old⟩ := member
    rw [set] at h
    split_ifs at h with hname
    · exact (List.mem_cons.mp h).imp_right (List.mem_cons_of_mem _)
    · rcases List.mem_cons.mp h with heq | hrest
      · exact .inr (heq ▸ List.mem_cons_self)
      · exact (ih hrest).imp_right (List.mem_cons_of_mem _)

end Members

namespace Json

namespace Reader

theorem numeral_distinct {start s rest : List Char} {negative : Bool} {v : Json}
    (h : numeral start negative s = .ok (v, rest)) : v.Distinct := by
  unfold numeral at h
  dsimp only at h
  split_ifs at h <;> cases h
  · exact .int _
  · exact .int _
  · exact .float _

theorem scalar_distinct {s rest : List Char} {v : Json} (h : scalar s = .ok (v, rest)) : v.Distinct := by
  unfold scalar at h
  split at h
  · cases h; exact .null
  · cases h; exact .bool _
  · cases h; exact .bool _
  · cases h; exact .float _
  · cases h; exact .float _
  · cases h; exact .float _
  · exact numeral_distinct h
  · exact numeral_distinct h

theorem distinct_set {members : Members} (h : (obj members).Distinct) {v : Json} (hv : v.Distinct) (name : String) :
    (obj (members.set name v)).Distinct := by
  cases h with
  | obj names values =>
    refine .obj (Members.nodup_set names name v) fun m hm => ?_
    rcases Members.mem_set hm with rfl | hm
    · exact hv
    · exact values m hm

/-- A later member takes the place of an earlier one of its name. -/
theorem distinct_kept : Kept Json.Distinct where
  scalar := scalar_distinct
  str := .str
  arr := .arr
  empty := .obj List.nodup_nil (List.forall_mem_nil _)
  set name hmembers hv := distinct_set hmembers hv name

end Reader

/-- What is read has no object with two members of one name. -/
theorem readWithin_distinct {depth : ℕ} {s : String} {v : Json} (h : readWithin depth s = .ok v) : v.Distinct :=
  Reader.distinct_kept.of_readWithin h

end Json

namespace Payload

/-- Whatever is found within a proper value is proper. -/
theorem Resolves.proper {v w : Json} {path : List String} (h : Resolves v path w) (hv : v.Proper) : w.Proper := by
  induction h with
  | here v => exact hv
  | member found _ ih => exact ih (hv.value (Members.mem_of_get? found))
  | item _ found _ ih => exact ih (hv.item (List.mem_of_getElem? found))

end Payload

namespace Workflow

open Payload

variable {payload : Json} {path : String}

theorem Finds.proper {left : Option Json} (h : Finds path payload left) (hpayload : payload.Proper) :
    ∀ v ∈ left, v.Proper := by
  intro v hv
  obtain ⟨-, hresolves⟩ := (h v).mp hv
  exact hresolves.proper hpayload

/-- A condition of equality compares what it finds with the configured value, a condition of difference does the
opposite. Values that are the same are taken for equal, and so are no others without truth values inside. A condition
fails only if its operator or its path has no text, or if its path cannot be read. -/
theorem equality_conditions (config : Members) (payload : Json) (hconfig : (Json.obj config).Proper)
    (hpayload : payload.Proper) :
    (Unshown config ∧ evaluateCondition config payload = .error .integerTooLong) ∨
      (∃ comparison path digits, Shows config comparison path ∧ Overlong payload (segments path) digits ∧
        evaluateCondition config payload = .error (.indexTooLong digits)) ∨
      ∃ comparison path left, Shows config comparison path ∧ Finds path payload left ∧
        (comparison = .equals →
          ∃ passed, evaluateCondition config payload = .ok passed ∧
            (passed = true ↔ Json.TakenEqual left (config.get? "value"))) ∧
        (comparison = .differs →
          ∃ passed, evaluateCondition config payload = .ok passed ∧
            (passed = true ↔ ¬Json.TakenEqual left (config.get? "value"))) ∧
        (Option.Rel Json.Same left (config.get? "value") → Json.TakenEqual left (config.get? "value")) ∧
        ((∀ v ∈ left, v.Plain) → (∀ w ∈ config.get? "value", w.Plain) →
          Json.TakenEqual left (config.get? "value") → Option.Rel Json.Same left (config.get? "value")) := by
  rcases unshown_or_shows config with hunshown | ⟨comparison, path, hshows⟩
  · exact .inl ⟨hunshown, evaluateCondition_unshown hunshown⟩
  right
  by_cases hlong : ∃ digits, Overlong payload (segments path) digits
  · obtain ⟨digits, hlong⟩ := hlong
    exact .inl ⟨comparison, path, digits, hshows, hlong, (evaluateCondition_overlong hshows).mpr ⟨digits, rfl, hlong⟩⟩
  · obtain ⟨left, hfinds, heval⟩ := evaluateCondition_finds hshows fun digits h => hlong ⟨digits, h⟩
    have hleft : ∀ v ∈ left, v.Proper := hfinds.proper hpayload
    have hright : ∀ w ∈ config.get? "value", w.Proper := fun w hw => hconfig.value (Members.mem_of_get? hw)
    have hequal := Json.strictEquals_iff hleft hright
    refine .inr ⟨comparison, path, left, hshows, hfinds, fun hop => ?_, fun hop => ?_, Json.takenEqual_of_same,
      Json.same_of_takenEqual⟩
    · rw [hop] at heval
      exact ⟨_, heval, hequal⟩
    · rw [hop] at heval
      refine ⟨_, heval, ?_⟩
      rw [Comparison.holds, Bool.not_eq_true', ← Bool.not_eq_true, not_iff_not]
      exact hequal

/-- The condition that the value at `a` equals a value. -/
def equalsAt (value : Json) : Members := [("operator", .str "equals"), ("path", .str "a"), ("value", value)]

theorem shows_equalsAt (value : Json) : Shows (equalsAt value) .equals "a" where
  comparison := by
    have hlower : Text.lower "equals" = "equals" := by rfl
    have hname : settingText (equalsAt value) "operator" = .ok "equals" := by rfl
    unfold Comparison.ofSettings
    rw [hname]
    show (.ok (.ofName (Text.lower "equals")) : Outcome Comparison) = _
    rw [hlower]
    rfl
  path := by rfl

theorem finds_equalsAt (found : Json) : Finds "a" (.obj [("a", found)]) (some found) := by
  have hsegments : segments "a" = ["a"] := by rfl
  have hgiven : "a" ≠ "" := by decide
  intro v
  rw [hsegments, and_iff_right hgiven]
  constructor
  · intro h
    cases h
    exact .member rfl (.here found)
  · intro h
    obtain ⟨next, hnext, honward⟩ := resolves_obj.mp h
    cases hnext
    cases honward
    rfl

theorem evaluateCondition_equalsAt (value found : Json) :
    evaluateCondition (equalsAt value) (.obj [("a", found)]) = .ok (Json.strictEquals (some found) (some value)) := by
  have hread : readPath (.obj [("a", found)]) "a" = .ok (some found) := by rfl
  have hgiven : "a" ≠ "" := by decide
  rw [evaluateCondition_eq (shows_equalsAt value), if_neg hgiven, hread]
  rfl

/-- A list with a whole number, and the same list with a floating-point number in its place. -/
theorem equality_conditions_pair :
    let found : Json := .arr [.int 1]
    let value : Json := .arr [.float (.ofInt 1)]
    (Json.obj (equalsAt value)).Proper ∧ (Json.obj [("a", found)]).Proper ∧
      Shows (equalsAt value) .equals "a" ∧ found.Plain ∧ value.Plain ∧ Json.Same found value := by
  intro found value
  have hvalue : value.Proper := by
    have hnumber : Binary64.ofInt 1 ≠ .nan := by decide
    exact ⟨.arr (List.forall_mem_singleton.mpr (.float _)), .arr (List.forall_mem_singleton.mpr (.float hnumber))⟩
  have hfound : found.Proper :=
    ⟨.arr (List.forall_mem_singleton.mpr (.int 1)), .arr (List.forall_mem_singleton.mpr (.int 1))⟩
  have hconfig : (Json.obj (equalsAt value)).Proper := by
    have hnames : ((equalsAt value).map Prod.fst).Nodup := by
      exact (by decide : ["operator", "path", "value"].Nodup)
    refine ⟨.obj hnames ?_, .obj ?_⟩
    · simp [equalsAt, hvalue.distinct, Json.Distinct.str]
    · simp [equalsAt, hvalue.withoutNan, Json.WithoutNan.str]
  have hpayload : (Json.obj [("a", found)]).Proper :=
    ⟨.obj (List.nodup_singleton _) (List.forall_mem_singleton.mpr hfound.distinct),
      .obj (List.forall_mem_singleton.mpr hfound.withoutNan)⟩
  have hplain : found.Plain ∧ value.Plain :=
    ⟨.inr (.arr (List.forall_mem_singleton.mpr (.int 1))), .inr (.arr (List.forall_mem_singleton.mpr (.float _)))⟩
  have hshows := shows_equalsAt value
  refine ⟨hconfig, hpayload, hshows, hplain.1, hplain.2, ?_⟩
  rcases equality_conditions (equalsAt value) (.obj [("a", found)]) hconfig hpayload with
    ⟨hunshown, -⟩ | ⟨_, _, _, -, -, hraised⟩ | ⟨comparison, path, left, hshown, hfinds, hequals, -, -, hsame⟩
  · exact absurd hunshown hshows.shown
  · rw [evaluateCondition_equalsAt] at hraised
    cases hraised
  · obtain rfl : path = "a" := Except.ok.inj (hshown.path.symm.trans hshows.path)
    obtain rfl : left = some found := (hfinds found).mpr ((finds_equalsAt found found).mp rfl)
    obtain ⟨passed, hpassed, htaken⟩ := hequals (Except.ok.inj (hshown.comparison.symm.trans hshows.comparison))
    have hstrict : Json.strictEquals (some found) (some value) = true := by rfl
    rw [evaluateCondition_equalsAt, hstrict] at hpassed
    have hrel : Option.Rel Json.Same (some found) (some value) :=
      hsame (fun v hv => Option.some.inj hv ▸ hplain.1) (fun w hw => Option.some.inj hw ▸ hplain.2)
        (htaken.mp (Except.ok.inj hpassed).symm)
    cases hrel with
    | some same => exact same

/-- A truth value inside of a list is taken for a number. -/
theorem truth_taken_for_number :
    Finds "a" (.obj [("a", .arr [.bool true])]) (some (.arr [.bool true])) ∧
      evaluateCondition (equalsAt (.arr [.int 1])) (.obj [("a", .arr [.bool true])]) = .ok true ∧
      ¬Json.Same (.arr [.bool true]) (.arr [.int 1]) := by
  refine ⟨finds_equalsAt _, ?_, fun h => ?_⟩
  · rw [evaluateCondition_equalsAt]
    rfl
  · cases h with
    | number left => cases left
    | arr _ items =>
      have hitem : Json.Same (.bool true) (.int 1) := items 0 _ _ rfl rfl
      cases hitem with
      | number left => cases left

end Workflow

end Cadence
