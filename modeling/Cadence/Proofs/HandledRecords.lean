import Cadence.Proofs.LogEntries

/-!
# Records that several handlers take

Every handler stamps and masks the record as the handler before left it. A record that was stamped and masked once
is left alone from then on, so the console and the file are given the same line.
-/

namespace Cadence

namespace Members

theorem isSome_get?_set {members : Members} {name other : String} {value : Json}
    (h : (members.get? other).isSome = true ∨ other = name) : ((members.set name value).get? other).isSome = true := by
  by_cases hother : other = name
  · rw [hother, get?_set_self]
    rfl
  · rw [get?_set_ne members value hother]
    exact h.resolve_right hother

end Members

namespace Log

/-! ### Fields that were stamped and masked -/

/-- All names of the context are among the fields. -/
def Stamped (context fields : Members) : Prop := ∀ field ∈ context, (fields.get? field.1).isSome = true

theorem stampFields_cons (field : String × Json) (context fields : Members) :
    stampFields (field :: context) fields =
      stampFields context (if (fields.get? field.1).isSome then fields else fields.set field.1 field.2) := rfl

theorem Stamped.stampFields {context fields : Members} (h : Stamped context fields) :
    stampFields context fields = fields := by
  induction context with
  | nil => rfl
  | cons field context ih =>
    rw [stampFields_cons, if_pos (h field List.mem_cons_self)]
    exact ih fun other hother => h other (List.mem_cons_of_mem _ hother)

theorem isSome_get?_stampFields {context fields : Members} {name : String}
    (h : (fields.get? name).isSome = true) : ((stampFields context fields).get? name).isSome = true := by
  induction context generalizing fields with
  | nil => exact h
  | cons field context ih =>
    rw [stampFields_cons]
    apply ih
    split
    · exact h
    · exact Members.isSome_get?_set (.inl h)

theorem stamped_stampFields (context fields : Members) : Stamped context (stampFields context fields) := by
  induction context generalizing fields with
  | nil => exact fun _ h => absurd h List.not_mem_nil
  | cons field context ih =>
    intro other hother
    rw [stampFields_cons]
    rcases List.mem_cons.mp hother with rfl | hother
    · apply isSome_get?_stampFields
      split
      · assumption
      · exact Members.isSome_get?_set (.inr rfl)
    · exact ih _ other hother

theorem isSome_get?_maskFields (fields : Members) (name : String) :
    ((maskFields fields).get? name).isSome = (fields.get? name).isSome := by
  induction fields with
  | nil => rfl
  | cons field fields ih =>
    obtain ⟨other, value⟩ := field
    show (if other = name then some _ else (maskFields fields).get? name).isSome = _
    rw [Members.get?]
    split
    · rfl
    · exact ih

theorem Stamped.maskFields {context fields : Members} (h : Stamped context fields) :
    Stamped context (maskFields fields) := fun field hfield =>
  (isSome_get?_maskFields fields field.1).trans (h field hfield)

theorem maskFields_maskFields (fields : Members) : maskFields (maskFields fields) = maskFields fields := by
  rw [maskFields, maskFields, List.map_map]
  refine List.map_congr_left fun field _ => ?_
  obtain ⟨name, value⟩ := field
  dsimp only [Function.comp_apply]
  split <;> rfl

/-! ### Records that were stamped and masked -/

namespace Record

theorem maskSecrets_of_fault {r : Record} {fault : Fault} (h : r.text = .error fault) :
    r.maskSecrets = .error fault := by
  unfold maskSecrets
  rw [h]
  rfl

theorem maskSecrets_of_clean {r : Record} {message : String} (htext : r.text = .ok message)
    (hclean : redact message = message) : r.maskSecrets = .ok { r with fields := r.fields.map maskFields } := by
  unfold maskSecrets
  rw [htext]
  show Except.ok _ = _
  rw [if_pos hclean]

/-- A masked record: nothing is left to be masked in it. -/
theorem maskSecrets_settled {r : Record} {message : String} (htext : r.text = .ok message) :
    ∃ left, r.maskSecrets = .ok left ∧ left.maskSecrets = .ok left ∧ left.text = .ok (redact message) ∧
      left.fields = r.fields.map maskFields := by
  obtain ⟨left, hleft, hmessage, -, -, -, -, -, hfields⟩ := maskSecrets_eq htext
  have hagain : left.fields.map maskFields = left.fields := by
    rw [hfields, Option.map_map]
    exact congrArg (Option.map · r.fields) (funext maskFields_maskFields)
  refine ⟨left, hleft, ?_, hmessage, hfields⟩
  rw [maskSecrets_of_clean hmessage (redact_redact message), hagain]

theorem maskSecrets_maskSecrets (r : Record) : r.maskSecrets >>= maskSecrets = r.maskSecrets := by
  cases htext : r.text with
  | error fault =>
    rw [maskSecrets_of_fault htext]
    rfl
  | ok message =>
    obtain ⟨left, hleft, hagain, -⟩ := maskSecrets_settled htext
    rw [hleft]
    exact hagain

theorem text_maskSecrets (r : Record) : r.maskSecrets >>= text = r.text.map redact := by
  cases htext : r.text with
  | error fault =>
    rw [maskSecrets_of_fault htext]
    rfl
  | ok message =>
    obtain ⟨left, hleft, -, hmessage, -⟩ := maskSecrets_settled htext
    rw [hleft]
    exact hmessage

end Record

/-! ### The console and the file -/

theorem render_settled {l : Logbook} {r left : Record} (h : (r.stamp l.context).maskSecrets = .ok left) :
    l.render left = l.render r := by
  obtain ⟨message, htext⟩ : ∃ message, (r.stamp l.context).text = .ok message := by
    cases htext : (r.stamp l.context).text with
    | error fault => cases (Record.maskSecrets_of_fault htext).symm.trans h
    | ok message => exact ⟨message, rfl⟩
  obtain ⟨same, hsame, hagain, -, hfields⟩ := Record.maskSecrets_settled htext
  obtain rfl : same = left := Except.ok.inj (hsame.symm.trans h)
  have hstamped : same.stamp l.context = same := by
    have hkept : stampFields l.context (same.fields.getD []) = maskFields (r.stampedFields l.context) := by
      rw [hfields]
      exact (stamped_stampFields _ _).maskFields.stampFields
    rw [Record.stamp, hkept]
    exact congrArg (fun fields => { same with fields }) hfields.symm
  unfold Logbook.render
  rw [hstamped, hagain, h]

/-- Masking a text once more changes nothing, so a record that was masked is left as it is by every further handler:
its message is the same, and the file gets the line that the console got. -/
theorem handlers_agree (l : Logbook) (r : Record) :
    (∀ t : String, redact (redact t) = redact t) ∧
    r.maskSecrets >>= Record.maskSecrets = r.maskSecrets ∧
    r.maskSecrets >>= Record.text = r.text.map redact ∧
    r.maskSecrets >>= Record.maskSecrets >>= Record.text = r.text.map redact ∧
    l.write r = (l.render r, l.filed (l.render r)) := by
  refine ⟨redact_redact, r.maskSecrets_maskSecrets, r.text_maskSecrets, ?_, ?_⟩
  · rw [r.maskSecrets_maskSecrets, r.text_maskSecrets]
  · unfold Logbook.write
    cases hleft : (r.stamp l.context).maskSecrets with
    | error fault =>
      have hrender : l.render r = .error fault := by
        unfold Logbook.render
        rw [hleft]
        rfl
      rw [hrender]
      rfl
    | ok left =>
      dsimp only
      rw [render_settled hleft]

end Log

end Cadence
