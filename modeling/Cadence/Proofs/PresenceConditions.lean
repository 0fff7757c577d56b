import Cadence.Proofs.AddressedPositions

/-!
# Conditions of presence

A condition of presence fails if its path is empty, if the path leads nowhere, and if what it leads to has an empty
text. The text of a list is that of its items with commas between them, so it is empty for an empty list and for a list
of one item whose text is empty, and for no list of two items or more.
-/

namespace Cadence

namespace Json

/-- A text form of values. Null has the empty text, a text is its own, and a list has the texts of its items with commas
between them; no other value has the empty text. -/
structure IsTextForm (form : Json → String) : Prop where
  null : form .null = ""
  str (s : String) : form (.str s) = s
  arr (items : List Json) : form (.arr items) = ",".intercalate (items.map form)
  bool (b : Bool) : form (.bool b) ≠ ""
  int (i : Int) : form (.int i) ≠ ""
  float (x : Binary64) : form (.float x) ≠ ""
  obj (members : Members) : form (.obj members) ≠ ""

variable {form : Json → String}

/-- Two items have a comma between them. -/
theorem IsTextForm.arr_ne_empty (h : IsTextForm form) (v w : Json) (rest : List Json) :
    form (.arr (v :: w :: rest)) ≠ "" := by
  rw [h.arr, List.map_cons, List.map_cons, String.intercalate_cons_cons]
  simp

theorem IsTextForm.rendersEmpty_iff (h : IsTextForm form) (v : Json) :
    Workflow.rendersEmpty v = true ↔ form v = "" := by
  induction v using Workflow.rendersEmpty.induct with
  | case1 => exact iff_of_true rfl h.null
  | case2 s => rw [Workflow.rendersEmpty, decide_eq_true_iff, h.str]
  | case3 => exact iff_of_true rfl (h.arr [])
  | case4 v ih =>
    rw [Workflow.rendersEmpty, ih, h.arr, List.map_singleton, String.intercalate_singleton]
  | case5 v hnull hstr hempty hsingle =>
    rw [Workflow.rendersEmpty.eq_def]
    cases v with
    | null => exact absurd rfl hnull
    | str s => exact absurd rfl (hstr s)
    | arr items =>
      match items with
      | [] => exact absurd rfl hempty
      | [v] => exact absurd rfl (hsingle v)
      | v :: w :: rest => exact iff_of_false Bool.false_ne_true (h.arr_ne_empty v w rest)
    | bool b => exact iff_of_false Bool.false_ne_true (h.bool b)
    | int i => exact iff_of_false Bool.false_ne_true (h.int i)
    | float x => exact iff_of_false Bool.false_ne_true (h.float x)
    | obj members => exact iff_of_false Bool.false_ne_true (h.obj members)

end Json

namespace Workflow

open Payload

variable {config : Members} {payload : Json}

/-- No operator is given, or its text is `exists` in any case of its letters. -/
def AsksForPresence (config : Members) : Prop :=
  ∀ v, config.get? "operator" = some v → v.isGiven = true → Text.lower <$> v.shown = .ok "exists"

theorem ofSettings_of_asksForPresence (h : AsksForPresence config) : Comparison.ofSettings config = .ok .present := by
  have hlower : Text.lower "exists" = "exists" := by rfl
  unfold Comparison.ofSettings settingText
  cases hoperator : Members.get? config "operator" with
  | none =>
    show (.ok (.ofName (Text.lower "exists")) : Outcome Comparison) = _
    rw [hlower]
    rfl
  | some v =>
    rw [Option.getD_some, Json.shownGiven]
    by_cases hgiven : v.isGiven = true
    · have hname := h v hoperator hgiven
      rw [if_pos hgiven]
      cases hshown : v.shown with
      | error fault =>
        rw [hshown] at hname
        cases hname
      | ok name =>
        rw [hshown] at hname
        have hexists : Text.lower name = "exists" := Except.ok.inj hname
        have hne : name ≠ "" := by
          rintro rfl
          exact absurd hexists (by decide)
        show (.ok (.ofName (Text.lower (if name = "" then "exists" else name))) : Outcome Comparison) = _
        rw [if_neg hne, hexists]
        rfl
    · rw [if_neg hgiven]
      show (.ok (.ofName (Text.lower "exists")) : Outcome Comparison) = _
      rw [hlower]
      rfl

/-- Where the path has a text and can be read, a condition of presence fails if and only if the path is empty, leads
nowhere, or leads to a value whose text is empty, whatever the text form of values. -/
theorem presence_conditions (form : Json → String) (hform : Json.IsTextForm form) (config : Members) (payload : Json)
    (path : String) (hasks : AsksForPresence config) (hshown : settingText config "path" = .ok path)
    (hread : ∃ found, readPath payload path = .ok found) :
    ∃ passed, evaluateCondition config payload = .ok passed ∧
      (passed = false ↔
        path = "" ∨
          (∀ v, ¬Resolves payload (segments path) v) ∨
          ∃ v, Resolves payload (segments path) v ∧ form v = "") := by
  obtain ⟨found, hfound⟩ := hread
  have hwithin : ∀ digits, ¬Overlong payload (segments path) digits := by
    intro digits hlong
    rw [readPath_error.mpr ⟨digits, rfl, hlong⟩] at hfound
    cases hfound
  obtain ⟨left, hfinds, heval⟩ := evaluateCondition_finds ⟨ofSettings_of_asksForPresence hasks, hshown⟩ hwithin
  refine ⟨_, heval, ?_⟩
  by_cases hpath : path = ""
  · obtain rfl : left = none := Option.eq_none_iff_forall_ne_some.mpr fun v hv => ((hfinds v).mp hv).1 hpath
    exact iff_of_true rfl (.inl hpath)
  · have hleads : ∀ v, left = some v ↔ Resolves payload (segments path) v := fun v =>
      (hfinds v).trans (and_iff_right hpath)
    rw [or_iff_right hpath]
    cases left with
    | none => exact iff_of_true rfl (.inl fun v hv => nomatch (hleads v).mpr hv)
    | some v =>
      have hv : Resolves payload (segments path) v := (hleads v).mp rfl
      have hshown : Comparison.holds .present (some v) (config.get? "value") = false ↔ form v = "" := by
        rw [← hform.rendersEmpty_iff, Comparison.holds, Option.map_some, Option.getD_some, Bool.not_eq_false']
      rw [hshown]
      constructor
      · exact fun hempty => .inr ⟨v, hv, hempty⟩
      · rintro (hnowhere | ⟨w, hw, hempty⟩)
        · exact absurd hv (hnowhere v)
        · rwa [hw.unique hv]

end Workflow

/-! ### A text form -/

namespace Binary64

theorem place_ne_nil (l : Layout) (d : Decimal) : l.place d ≠ [] := by
  unfold Layout.place
  split
  · split
    · exact List.cons_ne_nil _ _
    · exact List.append_ne_nil_of_right_ne_nil _ (List.cons_ne_nil _ _)
  · exact List.append_ne_nil_of_right_ne_nil _ (List.cons_ne_nil _ _)

theorem text_ne_empty (x : Binary64) : x.text ≠ "" := by
  cases x with
  | nan => decide
  | infinite negative => cases negative <;> decide
  | finite negative coefficient exponent _ =>
    have hdigits :
        (if coefficient = 0 then ['0', '.', '0'] else layout.place (interval coefficient exponent).shortest) ≠ [] := by
      split
      · exact List.cons_ne_nil _ _
      · exact place_ne_nil _ _
    cases negative with
    | false => simpa [text] using hdigits
    | true => simp [text]

end Binary64

namespace Json

mutual

/-- The text of a value: lists are written without brackets, null as nothing, and all else as it is displayed. -/
def plainText : Json → String
  | null => ""
  | arr items => ",".intercalate (plainTexts items)
  | v => v.display

def plainTexts : List Json → List String
  | [] => []
  | v :: rest => plainText v :: plainTexts rest

end

theorem plainTexts_eq (items : List Json) : plainTexts items = items.map plainText := by
  induction items with
  | nil => rfl
  | cons v rest ih => rw [plainTexts, ih, List.map_cons]

theorem isTextForm_plainText : IsTextForm plainText where
  null := by rw [plainText]
  str s := by simp [plainText, display]
  arr items := by rw [plainText, plainTexts_eq]
  bool b := by cases b <;> simp [plainText, display, literal]
  int i := by
    cases i with
    | ofNat n => exact Payload.toString_ne_empty n
    | negSucc n => simp [plainText, display, literal, Int.repr]
  float x := by simpa [plainText, display, literal] using x.text_ne_empty
  obj members := by simp [plainText, display, literal]

end Json

namespace Workflow

open Payload

def presentAt (path : String) : Members := [("operator", .str "Exists"), ("path", .str path)]

theorem asksForPresence_presentAt (path : String) : AsksForPresence (presentAt path) := by
  rintro v hv -
  cases hv
  rfl

/-- A list of the empty text in a list is absent, and a list of nothing twice is present. -/
theorem presence_conditions_nested :
    let payload : Json := .obj [("one", .arr [.arr [.str ""]]), ("two", .arr [.null, .null])]
    (∃ found, readPath payload "one" = .ok found) ∧ evaluateCondition (presentAt "one") payload = .ok false ∧
      (∃ found, readPath payload "two" = .ok found) ∧ evaluateCondition (presentAt "two") payload = .ok true := by
  intro payload
  have hsingle : readPath payload "one" = .ok (some (.arr [.arr [.str ""]])) := rfl
  have hdouble : readPath payload "two" = .ok (some (.arr [.null, .null])) := rfl
  obtain ⟨one, hone, honeIff⟩ := presence_conditions Json.plainText Json.isTextForm_plainText (presentAt "one") payload
    "one" (asksForPresence_presentAt "one") rfl ⟨_, hsingle⟩
  obtain ⟨two, htwo, htwoIff⟩ := presence_conditions Json.plainText Json.isTextForm_plainText (presentAt "two") payload
    "two" (asksForPresence_presentAt "two") rfl ⟨_, hdouble⟩
  have hempty : Json.plainText (.arr [.arr [.str ""]]) = "" := by
    simp [Json.plainText, Json.plainTexts, Json.display]
  have hcomma : Json.plainText (.arr [.null, .null]) ≠ "" := Json.isTextForm_plainText.arr_ne_empty .null .null []
  have habsent : one = false := honeIff.mpr (.inr (.inr ⟨_, (readPath_some.mp hsingle).1, hempty⟩))
  have hpresent : two ≠ false := by
    rw [ne_eq, htwoIff]
    rintro (hpath | hnowhere | ⟨v, hv, hshown⟩)
    · exact absurd hpath (by decide)
    · exact hnowhere _ (readPath_some.mp hdouble).1
    · rw [(readPath_some.mp hdouble).1.unique hv] at hshown
      exact hcomma hshown
  rw [hone, htwo, habsent, Bool.ne_false_iff.mp hpresent]
  exact ⟨⟨_, hsingle⟩, rfl, ⟨_, hdouble⟩, rfl⟩

end Workflow

end Cadence
