import Cadence.Log.Setup
import Cadence.Proofs.MaskedTexts

/-!
# Secrets in structured entries

What an entry shows of a record: its message and the message of its fault are redacted, and a field is masked as a
whole if its name is that of a secret. The values of all other fields go into the entry as they are, at any depth, and
so do the lines of a traceback, with the text of the fault among them. The entry is free of secrets exactly if these
are.
-/

namespace Cadence

/-! ### Texts in values -/

namespace Json

mutual

/-- Every text in a value, at any depth. Names of members do not count. -/
def texts : Json → List String
  | str s => [s]
  | arr items => itemTexts items
  | obj members => memberTexts members
  | null | bool _ | int _ | float _ => []

def itemTexts : List Json → List String
  | [] => []
  | v :: rest => texts v ++ itemTexts rest

def memberTexts : List (String × Json) → List String
  | [] => []
  | (_, v) :: rest => texts v ++ memberTexts rest

end

end Json

theorem Fault.message_of_text {fault : Fault} {text : String} (h : fault.text = .ok text) : fault.message = text := by
  cases fault with
  | unreadable _ _ _ => cases h
  | _ => exact Except.ok.inj h

namespace Log

/-- Redaction leaves every text of the value as it is. -/
def IsMasked (v : Json) : Prop := ∀ s ∈ v.texts, redact s = s

theorem isMasked_str {s : String} : IsMasked (.str s) ↔ redact s = s := by
  simp [IsMasked, Json.texts]

theorem isMasked_mask : IsMasked (.str mask) :=
  isMasked_str.mpr (redact_of_isPlain rfl)

namespace Raised

/-- What is shown of a fault that has a text. -/
def shown (r : Raised) : Json :=
  .obj [("type", .str r.fault.label), ("message", .str (redact r.fault.message)),
    ("traceback", .arr (r.traceback.map .str))]

theorem toJson_eq (r : Raised) : r.toJson = r.fault.text.map fun _ => r.shown := by
  unfold toJson shown
  cases hfault : r.fault <;> rfl

theorem itemTexts_str (lines : List String) : Json.itemTexts (lines.map .str) = lines := by
  induction lines with
  | nil => rfl
  | cons line rest ih => rw [List.map_cons, Json.itemTexts, ih]; rfl

theorem areWritable_str (lines : List String) : Json.areWritable (lines.map .str) = true := by
  induction lines with
  | nil => rfl
  | cons line rest ih => rw [List.map_cons, Json.areWritable, ih]; rfl

theorem isWritable_shown (r : Raised) : r.shown.isWritable = true := by
  simp [shown, Json.isWritable, Json.haveWritable, areWritable_str]

theorem isMasked_shown {r : Raised} :
    IsMasked r.shown ↔ redact r.fault.label = r.fault.label ∧ ∀ line ∈ r.traceback, redact line = line := by
  simp [IsMasked, shown, Json.texts, Json.memberTexts, itemTexts_str, redact_redact]

end Raised

/-! ### What a record says of itself -/

theorem isLetter_digit {small c : Char} (hsmall : small = 'b' ∨ small = 'c') (hc : c.isDigit = true) :
    isLetter small c = false := by
  have hrange : 48 ≤ c.toNat ∧ c.toNat ≤ 57 := by
    simpa [Char.isDigit, UInt32.le_iff_toNat_le] using hc
  rw [← Bool.not_eq_true]
  intro hletter
  have hlower : c.toLower = small := toLower_of_isLetter (by rcases hsmall with rfl | rfl <;> rfl) (by omega) hletter
  have hsame : c.toLower = c := by
    refine dif_neg fun hupper => ?_
    have hcapital : 65 ≤ c.toNat := hupper.1
    omega
  rw [← hlower, hsame] at hsmall
  rcases hsmall with rfl | rfl <;> exact absurd hrange (by decide)

theorem isPlain_digits {digits : List Char} (h : ∀ c ∈ digits, c.isDigit = true) :
    isPlain (String.ofList digits) = true := by
  rw [isPlain, String.toList_ofList, List.all_eq_true]
  intro c hc
  rw [isLetter_digit (.inl rfl) (h c hc), isLetter_digit (.inr rfl) (h c hc)]
  rfl

theorem isPlain_nat (n : Nat) : isPlain (Nat.repr n) = true :=
  isPlain_digits fun _ hc => Nat.isDigit_of_mem_toDigits (by decide) (by decide) hc

theorem isPlain_int (i : Int) : isPlain (toString i) = true := by
  cases i with
  | ofNat n => exact isPlain_nat n
  | negSucc n =>
    show isPlain ("-" ++ Nat.repr (n + 1)) = true
    rw [isPlain_append, isPlain_nat]
    rfl

@[simp]
theorem isPlain_padded (width n : Nat) : isPlain (Calendar.padded width n) = true := by
  refine isPlain_digits fun c hc => ?_
  rcases List.mem_append.mp hc with hzero | hdigit
  · rw [List.eq_of_mem_replicate hzero]
    rfl
  · exact Nat.isDigit_of_mem_toDigits (by decide) (by decide) hdigit

theorem redact_levelName (number : Int) : redact (levelName number) = levelName number := by
  unfold levelName
  split
  · exact redact_of_isPlain rfl
  · split
    · rename_i level _
      cases level <;> cbv
    · refine redact_of_isPlain ?_
      rw [isPlain_append, isPlain_int]
      rfl

theorem isPlain_clockText (micros : Nat) : isPlain (Calendar.clockText micros) = true := by
  have hcolon : isPlain ":" = true := rfl
  have hpoint : isPlain "." = true := rfl
  unfold Calendar.clockText
  dsimp only
  rw [isPlain_append]
  split <;> simp only [isPlain_append, isPlain_padded, hcolon, hpoint, Bool.and_self]
  rfl

theorem redact_instant (t : Instant) : redact t.text = t.text := by
  have hdate (d : Calendar.Date) : isPlain (Calendar.dateText d) = true := by
    have hdash : isPlain "-" = true := rfl
    simp only [Calendar.dateText, isPlain_append, isPlain_padded, hdash, Bool.and_self]
  have htext : t.text = Calendar.dateText (.ofDays (t.micros.toNat / Calendar.microsPerDay)) ++ "T" ++
      Calendar.clockText (t.micros.toNat % Calendar.microsPerDay) ++ Calendar.offsetText 0 := rfl
  refine redact_of_isPlain ?_
  rw [htext, isPlain_append, isPlain_append, isPlain_append, hdate, isPlain_clockText]
  rfl

namespace Record

def location (r : Record) : String := r.module ++ ":" ++ r.function ++ ":" ++ toString r.line

/-- The members of an entry that are no fields, except for the fault. -/
def ownMembers (r : Record) (instant : Instant) (message : String) : Members := [
  ("timestamp", .str instant.text),
  ("level", .str (levelName r.level)),
  ("logger", .str r.logger),
  ("message", .str message),
  ("location", .str r.location)]

/-- The fields of a record with those of the logging context, before any of them is masked. -/
def stampedFields (context : Members) (r : Record) : Members := stampFields context (r.fields.getD [])

/-- A record with some fields as an object: its own members, the fields over them, and the fault. -/
def withFields (r : Record) (fields : Members) (instant : Instant) (message : String) : Members :=
  let members := (r.ownMembers instant message).setAll fields
  match r.raised with
  | some raised => members.set "exception" raised.shown
  | none => members

/-- The entry of a record, in which the fields are masked. -/
def entry (r : Record) (context : Members) (instant : Instant) (message : String) : Members :=
  r.withFields (maskFields (r.stampedFields context)) instant message

/-- Asks for the text of the fault of a record. -/
def readFault (r : Record) : Outcome Unit :=
  match r.raised with
  | some raised => raised.fault.text.map fun _ => ()
  | none => .ok ()

theorem maskSecrets_eq {r : Record} {message : String} (htext : r.text = .ok message) :
    ∃ masked, r.maskSecrets = .ok masked ∧ masked.text = .ok (redact message) ∧ masked.logger = r.logger ∧
      masked.level = r.level ∧ masked.location = r.location ∧ masked.raised = r.raised ∧ masked.created = r.created ∧
      masked.fields = r.fields.map maskFields := by
  unfold maskSecrets
  rw [htext]
  by_cases hclean : redact message = message
  · refine ⟨{ r with fields := r.fields.map maskFields }, ?_, htext.trans (congrArg _ hclean.symm), rfl, rfl, rfl, rfl,
      rfl, rfl⟩
    show Except.ok _ = _
    rw [if_pos hclean]
  · refine ⟨{ r with message := redact message, arguments := none, fields := r.fields.map maskFields }, ?_,
      rfl, rfl, rfl, rfl, rfl, rfl, rfl⟩
    show Except.ok _ = _
    rw [if_neg hclean]

theorem structured_eq {r : Record} {message : String} {instant : Instant} (htext : r.text = .ok message)
    (hcreated : instantOfSeconds r.created = .ok instant) :
    r.structured = r.readFault.bind fun _ =>
      if Json.haveWritable (r.withFields (r.fields.getD []) instant message) then
        .ok (r.withFields (r.fields.getD []) instant message)
      else .error .integerTooLong := by
  unfold structured
  rw [hcreated, htext]
  unfold readFault withFields
  cases r.raised with
  | none => rfl
  | some raised =>
    dsimp only
    rw [raised.toJson_eq]
    cases raised.fault.text <;> rfl

end Record

/-- A record with a text and a time becomes its entry, if the fault has a text and the entry can be written. -/
theorem render_eq {l : Logbook} {r : Record} {message : String} {instant : Instant}
    (hstructured : l.structured = true) (htext : r.text = .ok message)
    (hcreated : instantOfSeconds r.created = .ok instant) :
    let entry := r.entry l.context instant (redact message)
    l.render r = r.readFault.bind fun _ =>
      if Json.haveWritable entry then .ok (some entry, (Json.obj entry).write) else .error .integerTooLong := by
  have hstamped : (r.stamp l.context).text = .ok message := htext
  obtain ⟨masked, hmasked, hmessage, hlogger, hlevel, hlocation, hraised, hinstant, hfields⟩ :=
    Record.maskSecrets_eq hstamped
  have hentry : masked.withFields (masked.fields.getD []) instant (redact message) =
      r.entry l.context instant (redact message) := by
    unfold Record.withFields Record.ownMembers
    rw [hlogger, hlevel, hlocation, hraised, hfields]
    rfl
  have hfault : masked.readFault = r.readFault := by
    unfold Record.readFault
    rw [hraised]
    rfl
  intro entry
  unfold Logbook.render
  rw [hmasked]
  show (if l.structured = true then _ else _) = _
  rw [if_pos hstructured, Record.structured_eq hmessage (hinstant.symm ▸ hcreated), hentry, hfault]
  cases r.readFault with
  | error fault => rfl
  | ok done =>
    show Except.bind (if Json.haveWritable entry = true then _ else _) _ =
      if Json.haveWritable entry = true then _ else _
    split <;> rfl

theorem render_of_writable {l : Logbook} {r : Record} {message : String} {instant : Instant}
    (hstructured : l.structured = true) (htext : r.text = .ok message)
    (hcreated : instantOfSeconds r.created = .ok instant) (hfault : r.readFault = .ok ())
    (hwritable : Json.haveWritable (r.entry l.context instant (redact message)) = true) :
    l.render r = .ok (some (r.entry l.context instant (redact message)),
      (Json.obj (r.entry l.context instant (redact message))).write) := by
  rw [render_eq hstructured htext hcreated, hfault]
  exact if_pos hwritable

/-! ### Which entries are free of secrets -/

def IsSecretField (name : String) : Prop := secretFields.contains (Text.lower name) = true

theorem last?_maskFields (fields : Members) (name : String) :
    (maskFields fields).last? name =
      (fields.last? name).map fun value => if secretFields.contains (Text.lower name) then .str mask else value := by
  induction fields with
  | nil => rfl
  | cons field rest ih =>
    obtain ⟨key, value⟩ := field
    show ((maskFields rest).last? name).or _ = _
    rw [ih, Members.last?]
    cases Members.last? rest name with
    | some _ => rfl
    | none =>
      by_cases hkey : key = name
      · subst hkey
        simp
      · simp [hkey]

namespace Record
variable {r : Record} {instant : Instant} {message : String} {context : Members}

/-- The values of an entry are those of the fields, masked by name, then those that the record says of itself. -/
theorem get?_entry (name : String) :
    (r.entry context instant message).get? name =
      if name = "exception" ∧ r.raised.isSome then r.raised.map Raised.shown
      else ((maskFields (r.stampedFields context)).last? name).or
        ((r.ownMembers instant message).get? name) := by
  unfold entry withFields
  cases r.raised with
  | none =>
    rw [if_neg fun h => absurd h.2 Bool.false_ne_true]
    exact Members.get?_setAll ..
  | some raised =>
    dsimp only
    by_cases hname : name = "exception"
    · subst hname
      rw [if_pos ⟨rfl, rfl⟩, Members.get?_set_self]
      rfl
    · rw [if_neg fun h => hname h.1, Members.get?_set_ne _ _ hname, Members.get?_setAll]

/-- The time and the level of an entry are free of secrets whatever they are, and so is its message. -/
theorem isMasked_ownMember {name : String} {value : Json}
    (h : (r.ownMembers instant (redact message)).get? name = some value)
    (hlogger : name = "logger" → redact r.logger = r.logger)
    (hlocation : name = "location" → redact r.location = r.location) : IsMasked value := by
  unfold ownMembers at h
  simp only [Members.get?] at h
  split at h
  · exact Option.some.inj h ▸ isMasked_str.mpr (redact_instant instant)
  split at h
  · exact Option.some.inj h ▸ isMasked_str.mpr (redact_levelName r.level)
  split at h
  · rename_i hname
    exact Option.some.inj h ▸ isMasked_str.mpr (hlogger hname.symm)
  split at h
  · exact Option.some.inj h ▸ isMasked_str.mpr (redact_redact message)
  split at h
  · rename_i hname
    exact Option.some.inj h ▸ isMasked_str.mpr (hlocation hname.symm)
  · cases h

theorem get?_entry_own {name : String} (hname : name ≠ "exception")
    (habsent : (r.stampedFields context).last? name = none) :
    (r.entry context instant message).get? name = (r.ownMembers instant message).get? name := by
  rw [get?_entry, if_neg fun h => hname h.1, last?_maskFields, habsent]
  rfl

theorem get?_entry_raised {raised : Raised} (hraised : r.raised = some raised) :
    (r.entry context instant message).get? "exception" = some raised.shown := by
  rw [get?_entry, hraised, if_pos ⟨rfl, rfl⟩]
  rfl

/-- An entry is free of secrets if what reaches it unmasked is: the fields whose names are not a secret's, the names of
the logger, of the place and of the fault, and the lines of the traceback. -/
theorem isMasked_entry_iff :
    (∀ name value, (r.entry context instant (redact message)).get? name = some value → IsMasked value) ↔
      (∀ name value, (r.stampedFields context).last? name = some value →
        IsSecretField name ∨ (name = "exception" ∧ r.raised.isSome) ∨ IsMasked value) ∧
      ((r.stampedFields context).last? "logger" = none → redact r.logger = r.logger) ∧
      ((r.stampedFields context).last? "location" = none → redact r.location = r.location) ∧
      ∀ raised, r.raised = some raised →
        redact raised.fault.label = raised.fault.label ∧ ∀ line ∈ raised.traceback, redact line = line := by
  constructor
  · intro hall
    refine ⟨fun name value hfield => ?_, fun habsent => ?_, fun habsent => ?_, fun raised hraised => ?_⟩
    · refine or_iff_not_imp_left.mpr fun hpublic => or_iff_not_imp_left.mpr fun hother => hall name value ?_
      have hplain : ¬secretFields.contains (Text.lower name) = true := hpublic
      rw [get?_entry, if_neg hother, last?_maskFields, hfield, Option.map_some, if_neg hplain, Option.some_or]
    · exact isMasked_str.mp (hall "logger" _ (get?_entry_own (by decide) habsent))
    · exact isMasked_str.mp (hall "location" _ (get?_entry_own (by decide) habsent))
    · exact Raised.isMasked_shown.mp (hall "exception" _ (get?_entry_raised hraised))
  · rintro ⟨hfields, hlogger, hlocation, hfault⟩ name value hvalue
    rw [get?_entry] at hvalue
    split at hvalue
    · obtain ⟨raised, hraised, rfl⟩ := Option.map_eq_some_iff.mp hvalue
      exact Raised.isMasked_shown.mpr (hfault raised hraised)
    · rename_i hother
      rw [last?_maskFields, Option.or_eq_some_iff, Option.map_eq_some_iff, Option.map_eq_none_iff] at hvalue
      rcases hvalue with ⟨given, hgiven, rfl⟩ | ⟨habsent, hown⟩
      · split
        · exact isMasked_mask
        · rename_i hpublic
          exact ((hfields name given hgiven).resolve_left hpublic).resolve_left hother
      · refine isMasked_ownMember hown (fun hname => ?_) fun hname => ?_
        · exact hlogger (hname ▸ habsent)
        · exact hlocation (hname ▸ habsent)

theorem haveWritable_maskFields {fields : Members} (h : Json.haveWritable fields = true) :
    Json.haveWritable (maskFields fields) = true := by
  induction fields with
  | nil => rfl
  | cons field rest ih =>
    obtain ⟨name, value⟩ := field
    obtain ⟨hvalue, hrest⟩ := Bool.and_eq_true_iff.mp h
    refine Bool.and_eq_true_iff.mpr ⟨?_, ih hrest⟩
    split
    · rfl
    · exact hvalue

/-- An entry can be written if the fields can, also those that are masked. -/
theorem haveWritable_entry (h : Json.haveWritable (r.stampedFields context) = true) :
    Json.haveWritable (r.entry context instant message) = true := by
  have hmembers : Json.haveWritable ((r.ownMembers instant message).setAll (maskFields (r.stampedFields context))) =
      true :=
    Json.haveWritable_setAll rfl (haveWritable_maskFields h)
  unfold entry withFields
  cases r.raised with
  | none => exact hmembers
  | some raised => exact Json.haveWritable_set raised.isWritable_shown hmembers

end Record

/-- A record with a text and a time becomes an entry, unless its fault has no text or the entry cannot be written.
Whether every text of the entry is masked is up to the fields that have no secret's name, to the names of the logger, of
the place and of the fault, and to the lines of the traceback. -/
theorem render_masked_iff (l : Logbook) (r : Record) (message : String) (instant : Instant)
    (hstructured : l.structured = true) (htext : r.text = .ok message)
    (hcreated : instantOfSeconds r.created = .ok instant) :
    let entry := r.entry l.context instant (redact message)
    (l.render r = r.readFault.bind fun _ =>
      if Json.haveWritable entry then .ok (some entry, (Json.obj entry).write) else .error .integerTooLong) ∧
    ((∀ name value, entry.get? name = some value → IsMasked value) ↔
      (∀ name value, (r.stampedFields l.context).last? name = some value →
        IsSecretField name ∨ (name = "exception" ∧ r.raised.isSome) ∨ IsMasked value) ∧
      ((r.stampedFields l.context).last? "logger" = none → redact r.logger = r.logger) ∧
      ((r.stampedFields l.context).last? "location" = none → redact r.location = r.location) ∧
      ∀ raised, r.raised = some raised →
        redact raised.fault.label = raised.fault.label ∧ ∀ line ∈ raised.traceback, redact line = line) ∧
    ((r.stampedFields l.context).last? "message" = none →
      entry.get? "message" = some (.str (redact message))) ∧
    ∀ raised text, r.raised = some raised → raised.fault.text = .ok text → entry.get? "exception" =
      some (.obj [("type", .str raised.fault.label), ("message", .str (redact text)),
        ("traceback", .arr (raised.traceback.map .str))]) := by
  intro entry
  refine ⟨render_eq hstructured htext hcreated, Record.isMasked_entry_iff, fun habsent =>
    Record.get?_entry_own (by decide) habsent, fun raised text hraised htold => ?_⟩
  rw [Record.get?_entry_raised hraised, Raised.shown, Fault.message_of_text htold]

theorem instantOfSeconds_whole {count : Int}
    (h : Calendar.inRange (epoch.micros + count * Calendar.microsPerSecond) = true) :
    instantOfSeconds (.whole count) = .ok ⟨epoch.micros + count * Calendar.microsPerSecond⟩ := by
  unfold instantOfSeconds
  rw [Calendar.durationMicros_whole]
  exact if_pos h

/-- A log of structured entries, as it is set up, and a record with a text in a field. -/
def structuredLog : Logbook where
  rootLevel := Level.info.number
  levels := []
  structured := true
  template := defaultTemplate
  file := none

def recordWith (fields : Members) : Record :=
  { logger := "outreach_engine.api", level := 20, module := "api", function := "call", line := 7,
    message := "calling with Bearer abc", fields := some fields }

/-- A record of a fault, with no frames in its traceback but the line that tells the fault. -/
def recordOf (fault : Fault) : Record := { recordWith [("access_token", .str "abc")] with raised := some { fault } }

theorem message_redacted : redact "calling with Bearer abc" = "calling with Bearer ***" := by cbv

theorem entry_recordOf (fault : Fault) :
    (recordOf fault).entry structuredLog.context epoch (redact (recordOf fault).message) = [
      ("timestamp", .str epoch.text), ("level", .str "INFO"), ("logger", .str "outreach_engine.api"),
      ("message", .str "calling with Bearer ***"), ("location", .str "api:call:7"), ("access_token", .str mask),
      ("exception", Raised.shown { fault })] := by
  show (recordOf fault).entry structuredLog.context epoch (redact "calling with Bearer abc") = _
  rw [message_redacted]
  rfl

theorem render_masked_token :
    ∃ entry : Members, structuredLog.render (recordOf (.timeout "no answer")) =
        .ok (some entry, (Json.obj entry).write) ∧
      entry.get? "access_token" = some (.str mask) ∧
      ∀ name value, entry.get? name = some value → IsMasked value := by
  have hcreated : instantOfSeconds (.whole 0) = .ok epoch := instantOfSeconds_whole (by decide)
  obtain ⟨hrender, hmasked, -⟩ := render_masked_iff structuredLog (recordOf (.timeout "no answer")) _ epoch rfl
    rfl hcreated
  have hfault : (recordOf (.timeout "no answer")).readFault = .ok () := rfl
  refine ⟨_, ?_, ?_, hmasked.mpr ⟨?_, ?_, ?_, ?_⟩⟩
  · rw [hrender, hfault]
    dsimp only [Except.bind]
    rw [if_pos (Record.haveWritable_entry rfl)]
  · rw [entry_recordOf]
    rfl
  · intro name value hfield
    have hname : "access_token" = name := by
      by_contra hother
      have habsent : Members.last? [("access_token", Json.str "abc")] name = none := if_neg hother
      cases habsent.symm.trans hfield
    subst hname
    exact .inl rfl
  · intro _
    cbv
  · intro _
    cbv
  · intro raised hraised
    obtain rfl : { fault := .timeout "no answer" } = raised := Option.some.inj hraised
    have hlabel : redact "TimeoutError" = "TimeoutError" := redact_of_isPlain rfl
    have hlast : redact "TimeoutError: no answer\n" = "TimeoutError: no answer\n" := redact_of_isPlain rfl
    exact ⟨hlabel, fun line hline => List.mem_singleton.mp hline ▸ hlast⟩

/-- A field under another name than that of a secret shows its secret, at the top or deeper in it, and so does the
traceback of a fault. -/
theorem entry_shows_secret :
    (∃ entry line, structuredLog.render (recordWith [("note", .str "Bearer abc")]) = .ok (some entry, line) ∧
      entry.get? "message" = some (.str "calling with Bearer ***") ∧
      entry.get? "note" = some (.str "Bearer abc")) ∧
    (∃ entry line, structuredLog.render (recordWith [("headers", .obj [("authorization", .str "Bearer abc")])]) =
        .ok (some entry, line) ∧
      entry.get? "headers" = some (.obj [("authorization", .str "Bearer abc")])) ∧
    (∃ entry line, structuredLog.render (recordOf (.timeout "no answer to Bearer abc")) = .ok (some entry, line) ∧
      entry.get? "exception" = some (.obj [("type", .str "TimeoutError"), ("message", .str "no answer to Bearer ***"),
        ("traceback", .arr [.str "TimeoutError: no answer to Bearer abc\n"])])) ∧
    redact "Bearer abc" = "Bearer ***" := by
  have hcreated : instantOfSeconds (.whole 0) = .ok epoch := instantOfSeconds_whole (by decide)
  have hfault : redact "no answer to Bearer abc" = "no answer to Bearer ***" := by cbv
  refine ⟨⟨_, _, render_of_writable rfl rfl hcreated rfl (Record.haveWritable_entry rfl), ?_, rfl⟩,
    ⟨_, _, render_of_writable rfl rfl hcreated rfl (Record.haveWritable_entry rfl), rfl⟩,
    ⟨_, _, render_of_writable rfl rfl hcreated rfl (Record.haveWritable_entry rfl), ?_⟩, by cbv⟩
  · exact congrArg (fun text => some (Json.str text)) message_redacted
  · rw [← hfault]
    rfl

end Log

end Cadence
