import Cadence.Proofs.WrittenNumbers
import Cadence.Workflow.Condition

/-!
# Paths that resolve

A path resolves to a value if every segment on the way is the name of a member of an object, or the index of an item
of a list. A reading of the path gives that value, and nothing if there is none. It fails only where it meets a list
with an index of more digits than can be read. A condition on the path fails only there, too, or if its operator or
its path has no text.
-/

namespace Cadence

namespace Payload

/-- The value to which segments lead. -/
inductive Resolves : Json → List String → Json → Prop where
  | here (v : Json) : Resolves v [] v
  | member {members : Members} {name : String} {rest : List String} {v w : Json}
      (found : members.get? name = some v) (onward : Resolves v rest w) : Resolves (.obj members) (name :: rest) w
  | item {items : List Json} {segment : String} {rest : List String} {v w : Json} (index : isIndex segment = true)
      (found : items[Text.decimalValue segment.toList]? = some v) (onward : Resolves v rest w) :
      Resolves (.arr items) (segment :: rest) w

/-- On the way, the first index that is too long for a number has so many digits. -/
inductive Overlong : Json → List String → Nat → Prop where
  | here {items : List Json} {segment : String} {rest : List String} (index : isIndex segment = true)
      (long : Json.maxNumeralDigits < segment.length) : Overlong (.arr items) (segment :: rest) segment.length
  | member {members : Members} {name : String} {rest : List String} {v : Json} {digits : Nat}
      (found : members.get? name = some v) (onward : Overlong v rest digits) :
      Overlong (.obj members) (name :: rest) digits
  | item {items : List Json} {segment : String} {rest : List String} {v : Json} {digits : Nat}
      (index : isIndex segment = true) (short : segment.length ≤ Json.maxNumeralDigits)
      (found : items[Text.decimalValue segment.toList]? = some v) (onward : Overlong v rest digits) :
      Overlong (.arr items) (segment :: rest) digits

theorem foldlM_step_none (path : List String) : path.foldlM step none = .ok none := by
  induction path with
  | nil => rfl
  | cons segment rest ih =>
    rw [List.foldlM_cons]
    exact ih

theorem follow_cons (v : Json) (segment : String) (rest : List String) :
    follow v (segment :: rest) =
      match step (some v) segment with
      | .ok (some next) => follow next rest
      | .ok none => .ok none
      | .error fault => .error fault := by
  rw [follow, List.foldlM_cons]
  rcases step (some v) segment with fault | ⟨⟨⟩ | next⟩
  · rfl
  · exact foldlM_step_none rest
  · rfl

theorem resolves_obj {members : Members} {name : String} {rest : List String} {w : Json} :
    Resolves (.obj members) (name :: rest) w ↔ ∃ v, members.get? name = some v ∧ Resolves v rest w := by
  constructor
  · rintro ⟨⟩
    exact ⟨_, ‹_›, ‹_›⟩
  · rintro ⟨v, found, onward⟩
    exact .member found onward

theorem resolves_arr {items : List Json} {segment : String} {rest : List String} {w : Json} :
    Resolves (.arr items) (segment :: rest) w ↔
      isIndex segment = true ∧ ∃ v, items[Text.decimalValue segment.toList]? = some v ∧ Resolves v rest w := by
  constructor
  · rintro ⟨⟩
    exact ⟨‹_›, _, ‹_›, ‹_›⟩
  · rintro ⟨index, v, found, onward⟩
    exact .item index found onward

theorem overlong_obj {members : Members} {name : String} {rest : List String} {digits : Nat} :
    Overlong (.obj members) (name :: rest) digits ↔ ∃ v, members.get? name = some v ∧ Overlong v rest digits := by
  constructor
  · rintro ⟨⟩
    exact ⟨_, ‹_›, ‹_›⟩
  · rintro ⟨v, found, onward⟩
    exact .member found onward

theorem overlong_arr {items : List Json} {segment : String} {rest : List String} {digits : Nat} :
    Overlong (.arr items) (segment :: rest) digits ↔
      isIndex segment = true ∧
        (Json.maxNumeralDigits < segment.length ∧ digits = segment.length ∨
          segment.length ≤ Json.maxNumeralDigits ∧
            ∃ v, items[Text.decimalValue segment.toList]? = some v ∧ Overlong v rest digits) := by
  constructor
  · intro h
    cases h with
    | here index long => exact ⟨index, .inl ⟨long, rfl⟩⟩
    | item index short found onward => exact ⟨index, .inr ⟨short, _, found, onward⟩⟩
  · rintro ⟨index, ⟨long, rfl⟩ | ⟨short, v, found, onward⟩⟩
    · exact .here index long
    · exact .item index short found onward

/-- How following segments ends. -/
inductive Followed (v : Json) (path : List String) : Outcome (Option Json) → Prop where
  | found {w : Json} (within : ∀ digits, ¬Overlong v path digits) (resolves : Resolves v path w) :
      Followed v path (.ok (some w))
  | missing (within : ∀ digits, ¬Overlong v path digits) (nowhere : ∀ w, ¬Resolves v path w) :
      Followed v path (.ok none)
  | failed {digits : Nat} (overlong : Overlong v path digits) : Followed v path (.error (.indexTooLong digits))

/-- A first segment that leads to a value leaves the rest to be followed from there. -/
theorem Followed.from_next {v next : Json} {path rest : List String} {outcome : Outcome (Option Json)}
    (h : Followed next rest outcome) (hresolves : ∀ w, Resolves v path w ↔ Resolves next rest w)
    (hoverlong : ∀ digits, Overlong v path digits ↔ Overlong next rest digits) : Followed v path outcome := by
  cases h with
  | found within resolves =>
    exact .found (fun digits hlong => within digits ((hoverlong digits).mp hlong)) ((hresolves _).mpr resolves)
  | missing within nowhere =>
    exact .missing (fun digits hlong => within digits ((hoverlong digits).mp hlong))
      fun w hw => nowhere w ((hresolves w).mp hw)
  | failed overlong => exact .failed ((hoverlong _).mpr overlong)

theorem follow_followed (v : Json) (path : List String) : Followed v path (follow v path) := by
  induction path generalizing v with
  | nil => exact .found nofun (.here v)
  | cons segment rest ih =>
    rw [follow_cons]
    cases v with
    | obj members =>
      dsimp only [step]
      cases hfound : Members.get? members segment with
      | none =>
        refine .missing (fun digits h => ?_) fun w h => ?_
        · simp [overlong_obj, hfound] at h
        · simp [resolves_obj, hfound] at h
      | some next => exact (ih next).from_next (by simp [resolves_obj, hfound]) (by simp [overlong_obj, hfound])
    | arr items =>
      dsimp only [step]
      by_cases hindex : isIndex segment = true
      · rw [if_pos hindex]
        by_cases hlong : Json.maxNumeralDigits < segment.length
        · rw [if_pos hlong]
          exact .failed (.here hindex hlong)
        · rw [if_neg hlong]
          have hshort : segment.length ≤ Json.maxNumeralDigits := Nat.not_lt.mp hlong
          cases hfound : items[Text.decimalValue segment.toList]? with
          | none =>
            refine .missing (fun digits h => ?_) fun w h => ?_
            · simp [overlong_arr, hfound, hlong] at h
            · simp [resolves_arr, hfound] at h
          | some next =>
            exact (ih next).from_next (by simp [resolves_arr, hindex, hfound])
              (by simp [overlong_arr, hindex, hfound, hlong, hshort])
      · rw [if_neg hindex]
        exact .missing (fun _ h => hindex (overlong_arr.mp h).1) fun _ h => hindex (resolves_arr.mp h).1
    | null | bool _ | int _ | float _ | str _ => exact .missing nofun nofun

theorem Resolves.unique {v w w' : Json} {path : List String} (h : Resolves v path w) (h' : Resolves v path w') :
    w' = w := by
  induction h with
  | here v =>
    cases h'
    rfl
  | member found onward ih =>
    obtain ⟨next, hnext, honward⟩ := resolves_obj.mp h'
    rw [found] at hnext
    cases hnext
    exact ih honward
  | item index found onward ih =>
    obtain ⟨-, next, hnext, honward⟩ := resolves_arr.mp h'
    rw [found] at hnext
    cases hnext
    exact ih honward

theorem Overlong.unique {v : Json} {path : List String} {m n : Nat} (h : Overlong v path m) (h' : Overlong v path n) :
    n = m := by
  induction h with
  | here index long =>
    obtain ⟨-, ⟨-, rfl⟩ | ⟨short, -⟩⟩ := overlong_arr.mp h'
    · rfl
    · omega
  | member found onward ih =>
    obtain ⟨next, hnext, honward⟩ := overlong_obj.mp h'
    rw [found] at hnext
    cases hnext
    exact ih honward
  | item index short found onward ih =>
    obtain ⟨-, ⟨long, -⟩ | ⟨-, next, hnext, honward⟩⟩ := overlong_arr.mp h'
    · omega
    · rw [found] at hnext
      cases hnext
      exact ih honward

variable {payload : Json} {path : String}

theorem readPath_error {fault : Fault} :
    readPath payload path = .error fault ↔
      ∃ digits, fault = .indexTooLong digits ∧ Overlong payload (segments path) digits := by
  have hread : Followed payload (segments path) (readPath payload path) := follow_followed payload _
  generalize readPath payload path = outcome at hread ⊢
  constructor
  · rintro rfl
    cases hread with
    | failed overlong => exact ⟨_, rfl, overlong⟩
  · rintro ⟨digits, rfl, hlong⟩
    cases hread with
    | found within resolves => exact absurd hlong (within digits)
    | missing within nowhere => exact absurd hlong (within digits)
    | failed overlong => rw [hlong.unique overlong]

theorem readPath_some {v : Json} :
    readPath payload path = .ok (some v) ↔
      Resolves payload (segments path) v ∧ ∀ digits, ¬Overlong payload (segments path) digits := by
  have hread : Followed payload (segments path) (readPath payload path) := follow_followed payload _
  generalize readPath payload path = outcome at hread ⊢
  constructor
  · rintro rfl
    cases hread with
    | found within resolves => exact ⟨resolves, within⟩
  · rintro ⟨hresolves, hwithin⟩
    cases hread with
    | found within resolves => rw [hresolves.unique resolves]
    | missing within nowhere => exact absurd hresolves (nowhere v)
    | failed overlong => exact absurd overlong (hwithin _)

theorem readPath_none :
    readPath payload path = .ok none ↔
      (∀ v, ¬Resolves payload (segments path) v) ∧ ∀ digits, ¬Overlong payload (segments path) digits := by
  have hread : Followed payload (segments path) (readPath payload path) := follow_followed payload _
  generalize readPath payload path = outcome at hread ⊢
  constructor
  · rintro rfl
    cases hread with
    | missing within nowhere => exact ⟨nowhere, within⟩
  · rintro ⟨hnowhere, hwithin⟩
    cases hread with
    | found within resolves => exact absurd resolves (hnowhere _)
    | missing within nowhere => rfl
    | failed overlong => exact absurd overlong (hwithin _)

theorem Overlong.exists_index {v : Json} {segments : List String} {digits : Nat} (h : Overlong v segments digits) :
    ∃ segment ∈ segments, isIndex segment = true := by
  induction h with
  | here index _ => exact ⟨_, List.mem_cons_self, index⟩
  | member _ _ ih =>
    obtain ⟨segment, hmem, hindex⟩ := ih
    exact ⟨segment, List.mem_cons_of_mem _ hmem, hindex⟩
  | item index _ _ _ _ => exact ⟨_, List.mem_cons_self, index⟩

/-- Only a segment that is an index can end in a fault. -/
theorem readPath_total (payload : Json) (h : ∀ segment ∈ segments path, isIndex segment = false) :
    ∃ found, readPath payload path = .ok found := by
  cases hread : readPath payload path with
  | ok found => exact ⟨found, rfl⟩
  | error fault =>
    obtain ⟨digits, -, hlong⟩ := readPath_error.mp hread
    obtain ⟨segment, hmem, hindex⟩ := hlong.exists_index
    rw [h segment hmem] at hindex
    cases hindex

/-- The segments of two paths with a dot between them, whatever dots the two begin or end with. -/
theorem segments_append (a b : String) : segments (a ++ "." ++ b) = segments a ++ segments b := by
  have hsplit : Text.split '.' (a ++ "." ++ b) = Text.split '.' a ++ Text.split '.' b := Text.split_append '.' a b
  rw [segments, hsplit, List.filter_append]
  rfl

theorem segments_plain {piece : String} (hne : piece ≠ "") (hdot : '.' ∉ piece.toList) : segments piece = [piece] := by
  rw [segments, Text.split, Text.splitChars_of_not_mem hdot]
  simp [hne]

end Payload

namespace Workflow

open Payload

/-- The operator of a condition has a text, which names a comparison, and so has its path. -/
structure Shows (config : Members) (comparison : Comparison) (path : String) : Prop where
  comparison : Comparison.ofSettings config = .ok comparison
  path : settingText config "path" = .ok path

/-- The operator or the path of a condition holds a number that has no written form. -/
def Unshown (config : Members) : Prop :=
  ∃ name ∈ ["operator", "path"], ((config.get? name).getD .null).isWritable = false

/-- What a condition finds at its path. The empty path leads nowhere. -/
def Finds (path : String) (payload : Json) (left : Option Json) : Prop :=
  ∀ v, left = some v ↔ path ≠ "" ∧ Resolves payload (segments path) v

variable {config : Members} {payload : Json} {comparison : Comparison} {path : String}

theorem settingText_of_writable {name : String} (h : ((config.get? name).getD .null).isWritable = true) :
    settingText config name = .ok ((config.get? name).getD .null).displayGiven := Json.shownGiven_of_writable h

theorem settingText_of_unwritten {name : String} (h : ((config.get? name).getD .null).isWritable = false) :
    settingText config name = .error .integerTooLong := Json.shownGiven_of_unwritten h

theorem unshown_or_shows (config : Members) : Unshown config ∨ ∃ comparison path, Shows config comparison path := by
  cases hoperator : ((config.get? "operator").getD .null).isWritable with
  | false => exact .inl ⟨"operator", List.mem_cons_self, hoperator⟩
  | true =>
    cases hpath : ((config.get? "path").getD .null).isWritable with
    | false => exact .inl ⟨"path", by decide, hpath⟩
    | true =>
      obtain ⟨comparison, hcomparison⟩ : ∃ comparison, Comparison.ofSettings config = .ok comparison := by
        unfold Comparison.ofSettings
        rw [settingText_of_writable hoperator]
        exact ⟨_, rfl⟩
      exact .inr ⟨comparison, _, hcomparison, settingText_of_writable hpath⟩

theorem evaluateCondition_unshown (h : Unshown config) : evaluateCondition config payload = .error .integerTooLong := by
  obtain ⟨name, hname, hunwritten⟩ := h
  unfold evaluateCondition
  cases hoperator : ((config.get? "operator").getD .null).isWritable with
  | false =>
    unfold Comparison.ofSettings
    rw [settingText_of_unwritten hoperator]
    rfl
  | true =>
    have hpath : settingText config "path" = .error .integerTooLong := by
      rcases List.mem_cons.mp hname with rfl | hname
      · cases hoperator.symm.trans hunwritten
      · rw [List.mem_singleton.mp hname] at hunwritten
        exact settingText_of_unwritten hunwritten
    unfold Comparison.ofSettings
    rw [settingText_of_writable hoperator, hpath]
    rfl

theorem Shows.shown (h : Shows config comparison path) : ¬Unshown config := by
  rintro ⟨name, hname, hunwritten⟩
  have hnone := settingText_of_unwritten hunwritten
  rcases List.mem_cons.mp hname with rfl | hname
  · have hcomparison := h.comparison
    rw [Comparison.ofSettings, hnone] at hcomparison
    cases hcomparison
  · rw [List.mem_singleton.mp hname] at hnone
    cases h.path.symm.trans hnone

theorem evaluateCondition_eq (h : Shows config comparison path) :
    evaluateCondition config payload =
      match if path = "" then .ok none else readPath payload path with
      | .ok left => .ok (comparison.holds left (config.get? "value"))
      | .error fault => .error fault := by
  unfold evaluateCondition
  rw [h.comparison, h.path]
  by_cases hpath : path = ""
  · rw [if_pos hpath]
    simp only [hpath]
    rfl
  · rw [if_neg hpath]
    simp only [bind, Except.bind, if_neg hpath]
    rcases readPath payload path with fault | left <;> rfl

theorem evaluateCondition_overlong (h : Shows config comparison path) {fault : Fault} :
    evaluateCondition config payload = .error fault ↔
      ∃ digits, fault = .indexTooLong digits ∧ Overlong payload (segments path) digits := by
  rw [evaluateCondition_eq h]
  by_cases hpath : path = ""
  · have hnothing : segments path = [] := by
      rw [hpath]
      rfl
    rw [if_pos hpath, hnothing]
    exact iff_of_false nofun fun ⟨_, _, hlong⟩ => nomatch hlong
  · rw [if_neg hpath, ← readPath_error]
    rcases readPath payload path with other | left
    · exact ⟨fun h => congrArg _ (Except.error.inj h), fun h => congrArg _ (Except.error.inj h)⟩
    · exact iff_of_false nofun nofun

theorem evaluateCondition_error {fault : Fault} :
    evaluateCondition config payload = .error fault ↔
      (Unshown config ∧ fault = .integerTooLong) ∨
        ∃ comparison path digits, Shows config comparison path ∧ fault = .indexTooLong digits ∧
          Overlong payload (segments path) digits := by
  rcases unshown_or_shows config with hunshown | ⟨comparison, path, hshows⟩
  · rw [evaluateCondition_unshown hunshown]
    constructor
    · exact fun h => .inl ⟨hunshown, (Except.error.inj h).symm⟩
    · rintro (⟨-, rfl⟩ | ⟨_, _, _, hshows, -⟩)
      · rfl
      · exact absurd hunshown hshows.shown
  · rw [evaluateCondition_overlong hshows]
    constructor
    · rintro ⟨digits, hfault, hlong⟩
      exact .inr ⟨comparison, path, digits, hshows, hfault, hlong⟩
    · rintro (⟨hunshown, -⟩ | ⟨_, other, digits, hother, hfault, hlong⟩)
      · exact absurd hunshown hshows.shown
      · obtain rfl : path = other := Except.ok.inj (hshows.path.symm.trans hother.path)
        exact ⟨digits, hfault, hlong⟩

theorem evaluateCondition_finds (hshows : Shows config comparison path)
    (h : ∀ digits, ¬Overlong payload (segments path) digits) :
    ∃ left, Finds path payload left ∧
      evaluateCondition config payload = .ok (comparison.holds left (config.get? "value")) := by
  rw [evaluateCondition_eq hshows]
  by_cases hpath : path = ""
  · rw [if_pos hpath]
    exact ⟨none, fun v => iff_of_false nofun fun hfound => hfound.1 hpath, rfl⟩
  · rw [if_neg hpath]
    cases hread : readPath payload path with
    | error fault =>
      obtain ⟨digits, -, hlong⟩ := readPath_error.mp hread
      exact absurd hlong (h digits)
    | ok left =>
      refine ⟨left, fun v => ?_, rfl⟩
      have hv : readPath payload path = .ok (some v) ↔ Resolves payload (segments path) v :=
        readPath_some.trans (and_iff_left h)
      rw [and_iff_right hpath, ← hv, hread, Except.ok.injEq]

/-- A reading fails only by an index that is too long. Where it does not meet one, a path that resolves is read as the
value it leads to, and any other as none. A condition fails if its operator or its path has no text, or if its path
cannot be read, and in no other way. Otherwise it compares what its path leads to. -/
theorem reading_endings (config : Members) (payload : Json) (path : String) :
    (∀ fault, readPath payload path = .error fault ↔
        ∃ digits, fault = .indexTooLong digits ∧ Overlong payload (segments path) digits) ∧
      ((∀ digits, ¬Overlong payload (segments path) digits) →
        (∀ v, readPath payload path = .ok (some v) ↔ Resolves payload (segments path) v) ∧
        (readPath payload path = .ok none ↔ ∀ v, ¬Resolves payload (segments path) v)) ∧
      (∀ fault, evaluateCondition config payload = .error fault ↔
        (Unshown config ∧ fault = .integerTooLong) ∨
          ∃ comparison path digits, Shows config comparison path ∧ fault = .indexTooLong digits ∧
            Overlong payload (segments path) digits) ∧
      (¬Unshown config → ∃ comparison path, Shows config comparison path ∧
        ((∀ digits, ¬Overlong payload (segments path) digits) →
          ∃ left, Finds path payload left ∧
            evaluateCondition config payload = .ok (comparison.holds left (config.get? "value")))) := by
  refine ⟨fun _ => readPath_error, fun h => ⟨fun _ => readPath_some.trans (and_iff_left h),
    readPath_none.trans (and_iff_left h)⟩, fun _ => evaluateCondition_error, fun hshown => ?_⟩
  obtain ⟨comparison, shown, hshows⟩ := (unshown_or_shows config).resolve_left hshown
  exact ⟨comparison, shown, hshows, evaluateCondition_finds hshows⟩

/-- The path to an item of the list `a`, by an index of so many nines. -/
def ninesPath (n : Nat) : String := String.ofList (['a'] ++ '.' :: List.replicate n '9')

def emptyList : Json := .obj [("a", .arr [])]

def truthAt (path : String) : Members := [("operator", .str "is_true"), ("path", .str path)]

section Nines
variable {n : Nat} (h : Json.maxNumeralDigits < n)
include h

theorem segments_ninesPath : segments (ninesPath n) = ["a", String.ofList (List.replicate n '9')] := by
  have hpath : ninesPath n = "a" ++ "." ++ String.ofList (List.replicate n '9') :=
    String.toList_injective (by simp [ninesPath])
  have hne : String.ofList (List.replicate n '9') ≠ "" := by
    have hpos : n ≠ 0 := by omega
    simp [hpos]
  have hdot : '.' ∉ (String.ofList (List.replicate n '9')).toList := by
    rw [String.toList_ofList]
    exact fun hmem => absurd (List.eq_of_mem_replicate hmem) (by decide)
  rw [hpath, segments_append, segments_plain (by decide) (by decide), segments_plain hne hdot, List.singleton_append]

theorem overlong_ninesPath : Overlong emptyList (segments (ninesPath n)) n := by
  have hlength : (String.ofList (List.replicate n '9')).length = n := by
    rw [String.length_ofList, List.length_replicate]
  have hindex : isIndex (String.ofList (List.replicate n '9')) = true := by
    have hpos : n ≠ 0 := by omega
    have hnine : Text.isAsciiDigit '9' = true := by decide
    simp [isIndex, hpos, hnine]
  have hhere : Overlong (.arr []) [String.ofList (List.replicate n '9')] n :=
    overlong_arr.mpr ⟨hindex, .inl ⟨by rw [hlength]; exact h, hlength.symm⟩⟩
  rw [segments_ninesPath h]
  exact .member rfl hhere

theorem ninesPath_nowhere (v : Json) : ¬Resolves emptyList (segments (ninesPath n)) v := by
  rw [segments_ninesPath h]
  intro hresolves
  obtain ⟨w, hw, honward⟩ := resolves_obj.mp hresolves
  cases hw
  obtain ⟨-, item, hitem, -⟩ := resolves_arr.mp honward
  simp at hitem

end Nines

theorem shows_truthAt (path : String) : Shows (truthAt path) .isTrue path where
  comparison := by
    have hlower : Text.lower "is_true" = "is_true" := by rfl
    have hname : settingText (truthAt path) "operator" = .ok "is_true" := by rfl
    unfold Comparison.ofSettings
    rw [hname]
    show (.ok (.ofName (Text.lower "is_true")) : Outcome Comparison) = _
    rw [hlower]
    rfl
  path := by
    by_cases hpath : path = ""
    · rw [hpath]
      rfl
    · simp [truthAt, settingText, Members.get?, Json.shownGiven, Json.shown, Json.isWritable, Json.isGiven, hpath,
        Json.display]

/-- A path that leads nowhere, and that cannot be read; and an operator without a text. -/
theorem long_path_raises :
    (∀ v, ¬Resolves emptyList (segments (ninesPath 4301)) v) ∧
      readPath emptyList (ninesPath 4301) = .error (.indexTooLong 4301) ∧
      evaluateCondition (truthAt (ninesPath 4301)) emptyList = .error (.indexTooLong 4301) ∧
      evaluateCondition [("operator", .leastUnwritten)] emptyList = .error .integerTooLong := by
  have hlong : Json.maxNumeralDigits < 4301 := by decide
  have hoverlong := overlong_ninesPath hlong
  refine ⟨ninesPath_nowhere hlong, readPath_error.mpr ⟨4301, rfl, hoverlong⟩,
    (evaluateCondition_overlong (shows_truthAt _)).mpr ⟨4301, rfl, hoverlong⟩, ?_⟩
  exact evaluateCondition_unshown ⟨"operator", List.mem_cons_self, Json.leastUnwritten_unwritten⟩

end Workflow

end Cadence
