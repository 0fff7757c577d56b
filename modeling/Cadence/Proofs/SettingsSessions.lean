import Cadence.Settings.Session

/-!
# Sessions of a process with its settings

The settings that a process has read are kept until they are forgotten or loaded anew, whatever happens to the
environment and to the files, and a reading that fails keeps them as well. A load reads the settings from the
environment with the variables of a file: a variable that is set has its value, and any other the one that the file
gives it.
-/

namespace Cadence.Settings

/-! ### Variables of the environment -/

namespace Environment

variable (env : Environment) {name other : String} (value : String)

theorem lookup_filter_ne (h : other ≠ name) :
    List.lookup other (env.filter fun v => v.1 ≠ name) = List.lookup other env := by
  induction env with
  | nil => rfl
  | cons v rest ih =>
    by_cases hname : v.1 = name
    · have hother : (other == v.1) = false := beq_eq_false_iff_ne.mpr fun heq => h (heq.trans hname)
      rw [List.filter_cons_of_neg (by simpa using hname), ih, List.lookup_cons, hother]
    · rw [List.filter_cons_of_pos (by simpa using hname), List.lookup_cons, List.lookup_cons, ih]

theorem get?_set_self : (env.set name value).get? name = some value := List.lookup_cons_self

theorem get?_set_ne (h : other ≠ name) : (env.set name value).get? other = env.get? other := by
  have hother : (other == name) = false := beq_eq_false_iff_ne.mpr h
  rw [get?, set, List.lookup_cons, hother]
  exact lookup_filter_ne env h

theorem get?_unset_ne (h : other ≠ name) : (env.unset name).get? other = env.get? other := lookup_filter_ne env h

variable {env value} {env' : Environment}

theorem eq_set_of_assign (h : env.assign name value = .ok env') : env' = env.set name value := by
  unfold assign at h
  split at h
  · cases h
  · split at h
    · cases h
    · exact (Except.ok.inj h).symm

end Environment

/-! ### Variables of a file -/

namespace VariableFile

variable {env : Environment} {name value : String} {vars : List (String × String)}

/-- A variable that is set keeps its value, however the taking of others ends. -/
theorem addAll_kept (h : env.get? name = some value) : (addAll env vars).2.get? name = some value := by
  induction vars generalizing env with
  | nil => exact h
  | cons v rest ih =>
    obtain ⟨other, text⟩ := v
    rw [addAll]
    split
    · exact ih h
    · rename_i hunset
      cases hassign : env.assign other text with
      | error fault => exact h
      | ok next =>
        have hne : name ≠ other := by
          rintro rfl
          rw [h] at hunset
          exact hunset rfl
        refine ih ?_
        rw [Environment.eq_set_of_assign hassign, Environment.get?_set_ne env text hne, h]

/-- If all variables are taken, each one has the value that it had, or else the first that is given to it. -/
theorem addAll_get? (h : (addAll env vars).1 = .ok ()) (name : String) :
    (addAll env vars).2.get? name = (env.get? name).or (vars.lookup name) := by
  induction vars generalizing env with
  | nil => rw [List.lookup_nil, Option.or_none]; rfl
  | cons v rest ih =>
    obtain ⟨other, text⟩ := v
    rw [addAll] at h ⊢
    by_cases hset : (env.get? other).isSome = true
    · rw [if_pos hset] at h ⊢
      rw [ih h]
      by_cases hname : name = other
      · obtain ⟨kept, hkept⟩ := Option.isSome_iff_exists.mp hset
        rw [hname, hkept, Option.some_or, Option.some_or]
      · rw [List.lookup_cons, beq_eq_false_iff_ne.mpr hname]
    · rw [if_neg hset] at h ⊢
      cases hassign : env.assign other text with
      | error fault =>
        rw [hassign] at h
        cases h
      | ok next =>
        rw [hassign] at h
        obtain rfl := Environment.eq_set_of_assign hassign
        dsimp only at h ⊢
        rw [ih h]
        by_cases hname : name = other
        · rw [hname, Environment.get?_set_self, Option.some_or, List.lookup_cons_self,
            Option.not_isSome_iff_eq_none.mp hset, Option.none_or]
        · rw [Environment.get?_set_ne env text hname, List.lookup_cons, beq_eq_false_iff_ne.mpr hname]

theorem lookup_filterMap (f : String → Option String) (names : List String) (name : String) :
    (names.filterMap fun n => (f n).map (n, ·)).lookup name = if name ∈ names then f name else none := by
  induction names with
  | nil => rfl
  | cons other rest ih =>
    by_cases hname : name = other
    · subst hname
      rw [if_pos List.mem_cons_self]
      cases hf : f name with
      | none =>
        rw [List.filterMap_cons_none (by rw [hf]; rfl), ih, hf]
        split <;> rfl
      | some value => rw [List.filterMap_cons_some (by rw [hf]; rfl), List.lookup_cons_self]
    · have hmem : name ∈ other :: rest ↔ name ∈ rest := List.mem_cons.trans (or_iff_right hname)
      simp only [hmem]
      rw [← ih]
      cases hf : f other with
      | none => rw [List.filterMap_cons_none (by rw [hf]; rfl)]
      | some value =>
        rw [List.filterMap_cons_some (by rw [hf]; rfl), List.lookup_cons, beq_eq_false_iff_ne.mpr hname]

theorem Variables.entries_lookup (vars : Variables) (name : String) : vars.entries.lookup name = vars.value? name := by
  rw [entries, lookup_filterMap]
  split
  · rfl
  · rename_i hmem
    rw [List.mem_eraseDups, List.mem_reverse] at hmem
    have hnone : vars.lookup name = none := by
      rw [List.lookup_eq_none_iff]
      intro v hv
      rw [bne_iff_ne]
      rintro rfl
      exact hmem (List.mem_map_of_mem hv)
    rw [value?, hnone]
    rfl

theorem load_get? {text : String} (h : (load env text).1 = .ok ()) (name : String) :
    (load env text).2.get? name = (env.get? name).or ((read env text).value? name) := by
  rw [load, addAll_get? h, Variables.entries_lookup]

end VariableFile

/-! ### Calls -/

/-- What can happen to a process: its environment or its folder changes, or its settings are forgotten, asked for, or
loaded. -/
inductive Call where
  | setVariable (name value : String)
  | unsetVariable (name : String)
  | changeFiles (folder : Folder)
  | reset
  | current
  | load (file : String)

namespace Session

/-- What a call answers, if it is for settings, and the session after it. -/
def perform (s : Session) : Call → Option (Outcome Loaded) × Session
  | .setVariable name value => (none, { s with environment := s.environment.set name value })
  | .unsetVariable name => (none, { s with environment := s.environment.unset name })
  | .changeFiles folder => (none, { s with folder })
  | .reset => (none, s.reset)
  | .current => (some s.current.1, s.current.2)
  | .load file => (some (s.load file).1, (s.load file).2)

def after (s : Session) (calls : List Call) : Session := calls.foldl (fun s call => (s.perform call).2) s

/-- No call forgets the settings, and no load succeeds. -/
def Quiet (s : Session) : List Call → Prop
  | [] => True
  | call :: rest =>
    call ≠ .reset ∧ (∀ file loaded, call = .load file → (s.load file).1 ≠ .ok loaded) ∧ (s.perform call).2.Quiet rest

variable {s : Session} {loaded : Loaded} {fault : Fault} {file name value : String} {calls : List Call}

/-! ### Readings -/

theorem reread_ok (h : s.reread.1 = .ok loaded) :
    ofEnvironment s.environment = .ok loaded.settings ∧ loaded.serial = s.readings ∧
      s.reread.2 = { s with cached := some loaded, readings := s.readings + 1 } := by
  unfold reread at h ⊢
  cases hread : ofEnvironment s.environment with
  | error fault =>
    rw [hread] at h
    cases h
  | ok settings =>
    rw [hread] at h
    obtain rfl := Except.ok.inj h
    exact ⟨rfl, rfl, rfl⟩

theorem reread_error (h : s.reread.1 = .error fault) : s.reread.2 = s := by
  unfold reread at h ⊢
  cases hread : ofEnvironment s.environment with
  | error fault => rfl
  | ok settings =>
    rw [hread] at h
    cases h

theorem reread_environment (s : Session) : s.reread.2.environment = s.environment := by
  unfold reread
  split <;> rfl

/-- A load takes the variables of the file, all of them if it succeeds, and reads the settings then. -/
theorem load_cases (s : Session) (file : String) :
    ∃ environment : Environment,
      (∀ name value, s.environment.get? name = some value → environment.get? name = some value) ∧
      ((∃ fault, s.load file = (.error fault, { s with environment })) ∨
        (s.load file = ({ s with environment }).reread ∧
          ∀ name, environment.get? name =
            (s.environment.get? name).or
              ((s.variableText? file).bind fun text => (VariableFile.read s.environment text).value? name))) := by
  unfold load
  cases htext : s.variableText? file with
  | none => exact ⟨s.environment, fun _ _ h => h, .inr ⟨rfl, fun name => (Option.or_none).symm⟩⟩
  | some text =>
    refine ⟨(VariableFile.load s.environment text).2, fun _ _ => VariableFile.addAll_kept, ?_⟩
    dsimp only
    rcases hload : VariableFile.load s.environment text with ⟨fault | ⟨⟩, environment⟩
    · exact .inl ⟨fault, rfl⟩
    · refine .inr ⟨rfl, fun name => ?_⟩
      have hdone : (VariableFile.load s.environment text).1 = .ok () := by rw [hload]
      have hget := VariableFile.load_get? hdone name
      rwa [hload] at hget

/-- What a load that succeeds has done. -/
theorem load_ok (h : (s.load file).1 = .ok loaded) :
    ofEnvironment (s.load file).2.environment = .ok loaded.settings ∧ loaded.serial = s.readings ∧
      (s.load file).2.readings = s.readings + 1 ∧ (s.load file).2.cached = some loaded ∧
      ∀ name, (s.load file).2.environment.get? name =
        (s.environment.get? name).or
          ((s.variableText? file).bind fun text => (VariableFile.read s.environment text).value? name) := by
  obtain ⟨environment, -, ⟨fault, hload⟩ | ⟨hload, hget⟩⟩ := load_cases s file
  · rw [hload] at h
    cases h
  · rw [hload] at h ⊢
    obtain ⟨hread, hserial, hafter⟩ := reread_ok h
    rw [hafter]
    exact ⟨hread, hserial, rfl, rfl, hget⟩

theorem load_error (h : (s.load file).1 = .error fault) :
    (s.load file).2.cached = s.cached ∧ (s.load file).2.readings = s.readings := by
  obtain ⟨environment, -, ⟨_, hload⟩ | ⟨hload, -⟩⟩ := load_cases s file
  · rw [hload]
    exact ⟨rfl, rfl⟩
  · rw [hload] at h ⊢
    rw [reread_error h]
    exact ⟨rfl, rfl⟩

theorem load_kept (h : s.environment.get? name = some value) : (s.load file).2.environment.get? name = some value := by
  obtain ⟨environment, hkept, ⟨_, hload⟩ | ⟨hload, -⟩⟩ := load_cases s file
  · rw [hload]
    exact hkept name value h
  · rw [hload, reread_environment]
    exact hkept name value h

theorem current_of_cached (h : s.cached = some loaded) : s.current = (.ok loaded, s) := by
  rw [current, h]

theorem current_of_empty (h : s.cached = none) : s.current = s.reread := by
  rw [current, h]

/-! ### What a call leaves -/

/-- Settings that a call has answered with are those that are kept. -/
theorem cached_of_answer {call : Call} (h : (s.perform call).1 = some (.ok loaded)) :
    (s.perform call).2.cached = some loaded := by
  cases call with
  | setVariable | unsetVariable | changeFiles | reset => cases h
  | load file => exact (load_ok (Option.some.inj h)).2.2.2.1
  | current =>
    have hanswer : s.current.1 = .ok loaded := Option.some.inj h
    show s.current.2.cached = some loaded
    cases hcached : s.cached with
    | some kept =>
      rw [current_of_cached hcached] at hanswer ⊢
      rw [hcached, Except.ok.inj hanswer]
    | none =>
      rw [current_of_empty hcached] at hanswer ⊢
      rw [(reread_ok hanswer).2.2]

/-- A call that fails leaves the kept settings as they were. -/
theorem cached_of_fault {call : Call} (h : (s.perform call).1 = some (.error fault)) :
    (s.perform call).2.cached = s.cached := by
  cases call with
  | setVariable | unsetVariable | changeFiles | reset => cases h
  | load file => exact (load_error (Option.some.inj h)).1
  | current =>
    have hanswer : s.current.1 = .error fault := Option.some.inj h
    show s.current.2.cached = s.cached
    cases hcached : s.cached with
    | some kept =>
      rw [current_of_cached hcached] at hanswer
      cases hanswer
    | none =>
      rw [current_of_empty hcached] at hanswer ⊢
      rw [reread_error hanswer, hcached]

theorem perform_quiet {call : Call} (hreset : call ≠ .reset)
    (hload : ∀ file loaded, call = .load file → (s.load file).1 ≠ .ok loaded) (h : s.cached = some loaded) :
    (s.perform call).2.cached = some loaded := by
  cases call with
  | setVariable | unsetVariable | changeFiles => exact h
  | reset => exact absurd rfl hreset
  | current =>
    show s.current.2.cached = some loaded
    rw [current_of_cached h, h]
  | load file =>
    cases hanswer : (s.load file).1 with
    | ok other => exact absurd hanswer (hload file other rfl)
    | error fault => exact (load_error hanswer).1.trans h

theorem perform_kept {call : Call} (hset : ∀ other, call ≠ .setVariable name other)
    (hunset : call ≠ .unsetVariable name) (h : s.environment.get? name = some value) :
    (s.perform call).2.environment.get? name = some value := by
  cases call with
  | changeFiles | reset => exact h
  | setVariable other text =>
    have hne : name ≠ other := fun heq => hset text (heq ▸ rfl)
    exact (Environment.get?_set_ne _ text hne).trans h
  | unsetVariable other =>
    have hne : name ≠ other := fun heq => hunset (heq ▸ rfl)
    exact (Environment.get?_unset_ne _ hne).trans h
  | load file => exact load_kept h
  | current =>
    show s.current.2.environment.get? name = some value
    unfold current
    split
    · exact h
    · rwa [reread_environment]

/-- The kept settings have a number that no later reading has. -/
def Numbered (s : Session) : Prop := ∀ kept, s.cached = some kept → kept.serial < s.readings

theorem reread_numbered (h : s.Numbered) : s.reread.2.Numbered := by
  cases hanswer : s.reread.1 with
  | ok loaded =>
    obtain ⟨-, hserial, hafter⟩ := reread_ok hanswer
    rw [hafter]
    rintro _ ⟨⟩
    rw [hserial]
    exact Nat.lt_succ_self _
  | error fault => rwa [reread_error hanswer]

theorem perform_numbered (h : s.Numbered) (call : Call) : (s.perform call).2.Numbered := by
  cases call with
  | setVariable | unsetVariable | changeFiles => exact h
  | reset =>
    rintro kept hkept
    cases hkept
  | current =>
    show s.current.2.Numbered
    unfold current
    split
    · exact h
    · exact reread_numbered h
  | load file =>
    obtain ⟨environment, -, ⟨fault, hload⟩ | ⟨hload, -⟩⟩ := load_cases s file
    · show (s.load file).2.Numbered
      rw [hload]
      exact h
    · show (s.load file).2.Numbered
      rw [hload]
      exact reread_numbered h

/-! ### What a run of calls leaves -/

theorem after_quiet (hquiet : s.Quiet calls) (h : s.cached = some loaded) : (s.after calls).cached = some loaded := by
  induction calls generalizing s with
  | nil => exact h
  | cons call rest ih => exact ih hquiet.2.2 (perform_quiet hquiet.1 hquiet.2.1 h)

theorem after_kept (hset : ∀ other, .setVariable name other ∉ calls) (hunset : .unsetVariable name ∉ calls)
    (h : s.environment.get? name = some value) : (s.after calls).environment.get? name = some value := by
  induction calls generalizing s with
  | nil => exact h
  | cons call rest ih =>
    have hcall : (s.perform call).2.environment.get? name = some value :=
      perform_kept (fun other heq => hset other (heq ▸ List.mem_cons_self))
        (fun heq => hunset (heq ▸ List.mem_cons_self)) h
    exact ih (fun other hmem => hset other (List.mem_cons_of_mem _ hmem))
      (fun hmem => hunset (List.mem_cons_of_mem _ hmem)) hcall

theorem after_numbered (h : s.Numbered) (calls : List Call) : (s.after calls).Numbered := by
  induction calls generalizing s with
  | nil => exact h
  | cons call rest ih => exact ih (perform_numbered h call)

/-- At any time in a session: settings that are answered are answered again until they are forgotten or a load succeeds.
A call that fails leaves them as they were. A load that succeeds answers with new settings, and has read them from the
environment in which a variable that is set, be it by an earlier load, has kept its value, and any other has the one
that the file gives it. -/
theorem settings_through_session (environment : Environment) (folder : Folder) (history : List Call) :
    let s : Session := ({ environment, folder } : Session).after history
    (∀ call rest loaded, (s.perform call).1 = some (.ok loaded) → (s.perform call).2.Quiet rest →
        ((s.perform call).2.after rest).current.1 = .ok loaded) ∧
      (∀ call fault, (s.perform call).1 = some (.error fault) → (s.perform call).2.cached = s.cached) ∧
      (∀ file loaded, (s.load file).1 = .ok loaded →
        s.cached ≠ some loaded ∧ ofEnvironment (s.load file).2.environment = .ok loaded.settings ∧
        ∀ name, (s.load file).2.environment.get? name =
          (s.environment.get? name).or
            ((s.variableText? file).bind fun text => (VariableFile.read s.environment text).value? name)) ∧
      ∀ name value calls, s.environment.get? name = some value → (∀ other, .setVariable name other ∉ calls) →
        .unsetVariable name ∉ calls → (s.after calls).environment.get? name = some value := by
  intro s
  refine ⟨fun call rest loaded hanswer hquiet => ?_, fun call fault => cached_of_fault, fun file loaded hanswer => ?_,
    fun name value calls h hset hunset => after_kept hset hunset h⟩
  · rw [current_of_cached (after_quiet hquiet (cached_of_answer hanswer))]
  · obtain ⟨hread, hserial, -, -, hget⟩ := load_ok hanswer
    have hstart : ({ environment, folder } : Session).Numbered := by
      rintro kept hkept
      cases hkept
    have hnumbered : s.Numbered := after_numbered hstart history
    refine ⟨fun hcached => ?_, hread, hget⟩
    have hless : loaded.serial < s.readings := hnumbered loaded hcached
    omega

/-- A folder with a file that gives two variables. -/
def localized : Folder := { files := [(["b.env"], "TZ=cet\nLANG=en\n")] }

theorem variableText?_localized (environment : Environment) :
    ({ environment, folder := localized } : Session).variableText? "b.env" = some "TZ=cet\nLANG=en\n" := by
  have hrooted : Folder.isRooted "b.env" = false := by decide +kernel
  have hfind : localized.find "b.env" = .file ["b.env"] "TZ=cet\nLANG=en\n" := by
    rw [Folder.find, hrooted]
    rfl
  have hpath : localized.hasPath "b.env" = true := by
    rw [Folder.hasPath, hfind]
    rfl
  rw [variableText?, hpath, if_pos rfl, hfind]

/-- The zone that is set stays as it is, the language is taken from the file, and the settings are kept although a
variable is changed to what they cannot be. -/
theorem settings_through_session_localized :
    let s : Session := { environment := [("TZ", "utc")], folder := localized }
    ∃ loaded, (s.load "b.env").1 = .ok loaded ∧
      (s.load "b.env").2.environment.get? "TZ" = some "utc" ∧
      (s.load "b.env").2.environment.get? "LANG" = some "en" ∧
      ((s.load "b.env").2.after [.setVariable "OUTREACH_ENGINE_PORT" "99999", .current]).current.1 = .ok loaded := by
  intro s
  obtain ⟨hanswered, -, hloads, -⟩ := settings_through_session [("TZ", "utc")] localized []
  have hvariables : VariableFile.load [("TZ", "utc")] "TZ=cet\nLANG=en\n" =
      (.ok (), [("LANG", "en"), ("TZ", "utc")]) := by
    rfl
  obtain ⟨settings, hsettings⟩ : ∃ settings, ofEnvironment [("LANG", "en"), ("TZ", "utc")] = .ok settings := ⟨_, rfl⟩
  have hanswer : (s.load "b.env").1 = .ok ⟨settings, 0⟩ := by
    rw [load, variableText?_localized]
    dsimp only
    rw [hvariables]
    dsimp only
    rw [reread, hsettings]
  obtain ⟨-, -, hget⟩ := hloads "b.env" _ hanswer
  refine ⟨_, hanswer, (hget "TZ").trans rfl, (hget "LANG").trans ?_, ?_⟩
  · rw [after, List.foldl_nil, variableText?_localized]
    rfl
  · refine hanswered (.load "b.env") _ _ (congrArg some hanswer) ⟨?_, ?_, ?_, ?_, trivial⟩
    · exact nofun
    · rintro file loaded ⟨⟩
    · exact nofun
    · rintro file loaded ⟨⟩

end Session

end Cadence.Settings
