import Cadence.Action.Defaults
import Cadence.Proofs.NormalNames
import Cadence.Proofs.TaskRuns

/-!
# What a registry holds after a history

A history of registrations and unregistrations, refused ones among them, leaves under each name the action that was
registered there last and not unregistered since. The table of descriptions is filled after that of the actions, so
an action has no description if the one it was offered with is no text.
-/

namespace Cadence.Workflow

variable {σ : Type}

/-- A call that registers an action, or unregisters one. -/
inductive Change (σ : Type) where
  | register (name : String) (offer : Offer σ) (description : Json) (now : Instant)
  | unregister (name : String)

/-- What is held under a name: an action, and its description if it has one. -/
structure Holding (σ : Type) where
  run : Handler σ
  description : Option String

namespace Change

def apply (r : Registry σ) : Change σ → Registry σ
  | register name offer description now => (r.register name offer description now).2
  | unregister name => (r.unregister name).2

/-- What a change leaves under a normal form under which something is held, or nothing. -/
def holding (n : String) (held : Option (Holding σ)) : Change σ → Option (Holding σ)
  | register name (.handler run) description _ =>
    if normalizeName name = n ∧ n ≠ "" ∧ held = none then some ⟨run, (descriptionText description).toOption⟩ else held
  | register _ _ _ _ => held
  | unregister name => if normalizeName name = n then none else held

/-- The description that a call gives, if any, is a text. -/
def IsDescribed : Change σ → Prop
  | register _ _ description _ => ∃ text, descriptionText description = .ok text
  | unregister _ => True

end Change

/-- What a history that began with nothing leaves under a normal form. -/
def held (history : List (Change σ)) (n : String) : Option (Holding σ) := history.foldl (Change.holding n) none

theorem held_append (history : List (Change σ)) (c : Change σ) (n : String) :
    held (history ++ [c]) n = c.holding n (held history n) := by
  rw [held, List.foldl_append]
  rfl

/-- What is held stays until it is unregistered: a name that is taken is not given to another action. -/
theorem Change.holding_some {n : String} {h : Holding σ} {c : Change σ}
    (hkept : ∀ name, c = .unregister name → normalizeName name ≠ n) : c.holding n (some h) = some h := by
  cases c with
  | register name offer description now =>
    cases offer with
    | handler run => rw [holding, if_neg fun hfree => Option.some_ne_none h hfree.2.2]
    | immediate | inert => rfl
  | unregister name => rw [holding, if_neg (hkept name rfl)]

theorem foldl_holding_some {n : String} {h : Holding σ} {after : List (Change σ)}
    (hkept : ∀ name, .unregister name ∈ after → normalizeName name ≠ n) :
    after.foldl (Change.holding n) (some h) = some h := by
  induction after with
  | nil => rfl
  | cons c after ih =>
    rw [List.foldl_cons, Change.holding_some fun name hc => hkept name (hc ▸ List.mem_cons_self)]
    exact ih fun name hname => hkept name (List.mem_cons_of_mem _ hname)

/-- The change that put something where nothing was is a registration. -/
theorem Change.holding_cases (n : String) (before : Option (Holding σ)) (c : Change σ) :
    (∃ name run description now, c = .register name (.handler run) description now ∧ normalizeName name = n ∧
      n ≠ "" ∧ before = none ∧ c.holding n before = some ⟨run, (descriptionText description).toOption⟩) ∨
    (∃ name, c = .unregister name ∧ normalizeName name = n ∧ c.holding n before = none) ∨
    ((∀ name, c = .unregister name → normalizeName name ≠ n) ∧ c.holding n before = before) := by
  cases c with
  | register name offer description now =>
    cases offer with
    | handler run =>
      by_cases hfree : normalizeName name = n ∧ n ≠ "" ∧ before = none
      · refine .inl ⟨name, run, description, now, rfl, hfree.1, hfree.2.1, hfree.2.2, ?_⟩
        rw [holding, if_pos hfree]
      · refine .inr (.inr ⟨(fun _ h => nomatch h), ?_⟩)
        rw [holding, if_neg hfree]
    | immediate | inert => exact .inr (.inr ⟨(fun _ h => nomatch h), rfl⟩)
  | unregister name =>
    by_cases hname : normalizeName name = n
    · refine .inr (.inl ⟨name, rfl, hname, ?_⟩)
      rw [holding, if_pos hname]
    · refine .inr (.inr ⟨?_, by rw [holding, if_neg hname]⟩)
      rintro _ ⟨⟩
      exact hname

/-- What is held is what was registered last, unless it was unregistered since. -/
theorem held_eq_some_iff {history : List (Change σ)} {n : String} {h : Holding σ} :
    held history n = some h ↔ ∃ before name run description now after,
      history = before ++ .register name (.handler run) description now :: after ∧
      normalizeName name = n ∧ n ≠ "" ∧ held before n = none ∧
      h = ⟨run, (descriptionText description).toOption⟩ ∧
      ∀ name', .unregister name' ∈ after → normalizeName name' ≠ n := by
  constructor
  · intro hheld
    -- By induction from the end: the last change put it there, took it away, or left it as it was.
    induction history using List.reverseRecOn with
    | nil => cases hheld
    | append_singleton history c ih =>
      rw [held_append] at hheld
      rcases c.holding_cases n (held history n) with
        ⟨name, run, description, now, rfl, hname, hne, hfree, hput⟩ | ⟨name, rfl, hname, hgone⟩ | ⟨hother, hsame⟩
      · refine ⟨history, name, run, description, now, [], rfl, hname, hne, hfree, ?_, fun _ h => nomatch h⟩
        exact Option.some.inj (hheld.symm.trans hput)
      · cases hgone.symm.trans hheld
      · obtain ⟨before, name, run, description, now, after, rfl, hname, hne, hfree, rfl, hkept⟩ :=
          ih (hsame.symm.trans hheld)
        refine ⟨before, name, run, description, now, after ++ [c], by simp, hname, hne, hfree, rfl, ?_⟩
        intro name' hname'
        rcases List.mem_append.mp hname' with hearlier | hlast
        · exact hkept name' hearlier
        · exact hother name' (List.mem_singleton.mp hlast).symm
  · rintro ⟨before, name, run, description, now, after, rfl, hname, hne, hfree, rfl, hkept⟩
    have hput : (Change.register name (.handler run) description now).holding n (held before n) =
        some ⟨run, (descriptionText description).toOption⟩ := by
      rw [Change.holding, if_pos ⟨hname, hne, hfree⟩]
    rw [held, List.foldl_append, List.foldl_cons]
    show after.foldl (Change.holding n) (Change.holding n (held before n) _) = _
    rw [hput, foldl_holding_some hkept]

namespace Registry

/-- The registry after a history. -/
def after (r : Registry σ) (history : List (Change σ)) : Registry σ := history.foldl Change.apply r

theorem after_append (r : Registry σ) (history : List (Change σ)) (c : Change σ) :
    r.after (history ++ [c]) = c.apply (r.after history) := by
  rw [after, List.foldl_append]
  rfl

/-- Both tables of a registry show what is held. -/
structure Shows (r : Registry σ) (view : String → Option (Holding σ)) : Prop where
  actions : ∀ n, r.find? n = (view n).map fun h => ⟨n, h.run⟩
  descriptions : ∀ n text, (n, text) ∈ r.descriptions ↔ ∃ h, view n = some h ∧ h.description = some text
  once : (r.descriptions.map Prod.fst).Nodup
  normal : ∀ n h, view n = some h → n ≠ "" ∧ normalizeName n = n

section Tables
variable {r : Registry σ} {action n text text' : String} {run : Handler σ}

theorem find?_add (hfree : r.find? action = none) :
    (r.add action run).find? n = if action = n then some ⟨n, run⟩ else r.find? n := by
  show (r.entries ++ [_]).find? _ = _
  rw [List.find?_append]
  by_cases hn : action = n
  · subst hn
    have hnone : r.entries.find? (fun e => e.name = action) = none := hfree
    rw [hnone, if_pos rfl, Option.none_or, List.find?_cons_of_pos (by exact decide_eq_true rfl)]
  · rw [if_neg hn, List.find?_cons_of_neg (by simpa using hn), List.find?_nil, Option.or_none]
    rfl

theorem find?_remove : (r.remove action).find? n = if action = n then none else r.find? n := by
  show (r.entries.filter _).find? _ = _
  rw [List.find?_filter]
  split
  · rename_i hn
    subst hn
    rw [List.find?_eq_none]
    simp
  · rename_i hn
    show _ = r.entries.find? _
    congr 1
    funext e
    by_cases he : e.name = n
    · simp [he, Ne.symm hn]
    · simp [he]

theorem mem_undescribe : (n, text) ∈ (r.undescribe action).descriptions ↔ n ≠ action ∧ (n, text) ∈ r.descriptions := by
  simp [undescribe, and_comm]

theorem mem_describe : (n, text) ∈ (r.describe action text').descriptions ↔
    (n ≠ action ∧ (n, text) ∈ r.descriptions) ∨ (n = action ∧ text = text') := by
  show (n, text) ∈ (r.undescribe action).descriptions ++ [(action, text')] ↔ _
  rw [List.mem_append, mem_undescribe, List.mem_singleton, Prod.mk.injEq]

theorem nodup_undescribe (h : (r.descriptions.map Prod.fst).Nodup) :
    ((r.undescribe action).descriptions.map Prod.fst).Nodup :=
  h.sublist (List.filter_sublist.map Prod.fst)

theorem nodup_describe (h : (r.descriptions.map Prod.fst).Nodup) :
    ((r.describe action text).descriptions.map Prod.fst).Nodup := by
  show (((r.undescribe action).descriptions ++ [(action, text)]).map Prod.fst).Nodup
  rw [List.map_append, List.map_singleton, List.nodup_append]
  refine ⟨nodup_undescribe h, List.pairwise_singleton _ _, fun n hn m hm => ?_⟩
  obtain ⟨⟨_, text'⟩, hd, rfl⟩ := List.mem_map.mp hn
  rw [List.mem_singleton.mp hm]
  exact (mem_undescribe.mp hd).1

end Tables

/-! ### One call -/

section Register
variable {r : Registry σ} {name : String} {offer : Offer σ} {run : Handler σ} {description : Json} {now : Instant}

/-- An offer that can be accepted: an action, under a name that is not empty and not taken. -/
def Admits (r : Registry σ) (name : String) (offer : Offer σ) : Prop :=
  normalizeName name ≠ "" ∧ (∃ run, offer = .handler run) ∧ r.find? (normalizeName name) = none

theorem register_refused (h : ¬r.Admits name offer) (description : Json) (now : Instant) :
    ∃ message action, r.register name offer description now = (refusal message action now, r) := by
  unfold Registry.register
  by_cases hempty : normalizeName name = ""
  · exact ⟨_, _, if_pos hempty⟩
  · dsimp only
    rw [if_neg hempty]
    cases offer with
    | inert | immediate => exact ⟨_, _, rfl⟩
    | handler run =>
      have htaken : (r.find? (normalizeName name)).isSome = true :=
        Option.isSome_iff_ne_none.mpr fun hfree => h ⟨hempty, ⟨run, rfl⟩, hfree⟩
      dsimp only
      rw [if_pos htaken]
      exact ⟨_, _, rfl⟩

theorem register_admitted (h : r.Admits name (.handler run)) :
    r.register name (.handler run) description now = r.accept (normalizeName name) run description := by
  obtain ⟨hempty, -, hfree⟩ := h
  have huntaken : ¬(r.find? (normalizeName name)).isSome = true := by
    rw [hfree]
    exact Bool.false_ne_true
  unfold Registry.register
  dsimp only
  rw [if_neg hempty, if_neg huntaken]

end Register

section Shows
variable {r : Registry σ} {view : String → Option (Holding σ)}

theorem Shows.find?_eq_none_iff (h : r.Shows view) (n : String) : r.find? n = none ↔ view n = none := by
  rw [h.actions, Option.map_eq_none_iff]

theorem Shows.add (h : r.Shows view) {action : String} (hnormal : action ≠ "" ∧ normalizeName action = action)
    (hfree : view action = none) (run : Handler σ) :
    (r.add action run).Shows fun n => if action = n then some ⟨run, none⟩ else view n := by
  refine ⟨fun n => ?_, fun n text => ?_, h.once, fun n h' hheld => ?_⟩
  · rw [find?_add ((h.find?_eq_none_iff action).mpr hfree)]
    split
    · rfl
    · exact h.actions n
  · show (n, text) ∈ r.descriptions ↔ _
    rw [h.descriptions]
    split
    · rename_i hn
      simp [← hn, hfree]
    · exact Iff.rfl
  · split at hheld
    · rename_i hn
      exact hn ▸ hnormal
    · exact h.normal n h' hheld

theorem Shows.describe (h : r.Shows view) (action text : String) {held : Holding σ} (hheld : view action = some held) :
    (r.describe action text).Shows fun n => if action = n then some ⟨held.run, some text⟩ else view n := by
  refine ⟨fun n => ?_, fun n text' => ?_, nodup_describe h.once, fun n h' hheld' => ?_⟩
  · show r.find? n = _
    rw [h.actions]
    split
    · rename_i hn
      rw [← hn, hheld]
      rfl
    · rfl
  · rw [mem_describe, h.descriptions]
    by_cases hn : action = n
    · simp [← hn, eq_comm]
    · simp [hn, Ne.symm hn]
  · split at hheld'
    · rename_i hn
      exact hn ▸ h.normal action held hheld
    · exact h.normal n h' hheld'

theorem Shows.register (h : r.Shows view) {name : String} {run : Handler σ} (hadmits : r.Admits name (.handler run))
    (description : Json) (now : Instant) :
    (r.register name (.handler run) description now).2.Shows fun n =>
      if normalizeName name = n then some ⟨run, (descriptionText description).toOption⟩ else view n := by
  have hnormal := And.intro hadmits.1 (normalizeName_normalizeName name)
  have hadded := h.add hnormal ((h.find?_eq_none_iff _).mp hadmits.2.2) run
  rw [register_admitted hadmits, accept]
  -- The action is there before its description is looked at, and stays if that is no text.
  cases descriptionText description with
  | error fault => exact hadded
  | ok text =>
    have hdescribed := hadded.describe (normalizeName name) text (if_pos rfl)
    convert hdescribed using 1
    funext n
    by_cases hn : normalizeName name = n <;> simp [hn, Except.toOption]

theorem Shows.unregister (h : r.Shows view) (name : String) :
    (r.unregister name).2.Shows fun n => if normalizeName name = n then none else view n := by
  unfold Registry.unregister
  dsimp only
  split
  · refine ⟨fun n => ?_, fun n text => ?_, nodup_undescribe (r := r) h.once, fun n h' hheld => ?_⟩
    · show (r.remove (normalizeName name)).find? n = _
      rw [find?_remove]
      split
      · rfl
      · exact h.actions n
    · show (n, text) ∈ ((r.remove _).undescribe _).descriptions ↔ _
      rw [mem_undescribe]
      show n ≠ normalizeName name ∧ (n, text) ∈ r.descriptions ↔ _
      by_cases hn : normalizeName name = n
      · simp [hn]
      · simp [hn, Ne.symm hn, h.descriptions]
    · split at hheld
      · cases hheld
      · exact h.normal n h' hheld
  · rename_i hnone
    have hfree : view (normalizeName name) = none :=
      (h.find?_eq_none_iff _).mp (Option.not_isSome_iff_eq_none.mp hnone)
    have hsame : (fun n => if normalizeName name = n then none else view n) = view := by
      funext n
      split
      · rename_i hn
        rw [← hn, hfree]
      · rfl
    rw [hsame]
    exact h

theorem Shows.apply (h : r.Shows view) (c : Change σ) : (c.apply r).Shows fun n => c.holding n (view n) := by
  cases c with
  | unregister name => exact h.unregister name
  | register name offer description now =>
    by_cases hadmits : r.Admits name offer
    · obtain ⟨hempty, ⟨run, rfl⟩, hfree⟩ := hadmits
      have hview : (fun n => (Change.register name (.handler run) description now).holding n (view n)) = fun n =>
          if normalizeName name = n then some ⟨run, (descriptionText description).toOption⟩ else view n := by
        funext n
        rw [Change.holding]
        by_cases hn : normalizeName name = n
        · subst hn
          rw [if_pos ⟨rfl, hempty, (h.find?_eq_none_iff _).mp hfree⟩, if_pos rfl]
        · rw [if_neg fun hboth => hn hboth.1, if_neg hn]
      rw [hview]
      exact h.register ⟨hempty, ⟨run, rfl⟩, hfree⟩ description now
    · obtain ⟨message, action, hrefused⟩ := register_refused hadmits description now
      have hsame : (fun n => (Change.register name offer description now).holding n (view n)) = view := by
        funext n
        cases offer with
        | inert | immediate => rfl
        | handler run =>
          rw [Change.holding, if_neg]
          rintro ⟨rfl, hempty, hnone⟩
          exact hadmits ⟨hempty, ⟨run, rfl⟩, (h.find?_eq_none_iff _).mpr hnone⟩
      rw [hsame]
      show (r.register name offer description now).2.Shows view
      rw [hrefused]
      exact h

end Shows

theorem empty_shows : ({} : Registry σ).Shows fun _ => none where
  actions _ := rfl
  descriptions n text := by simp
  once := List.nodup_nil
  normal _ _ h := nomatch h

/-- Every history leaves both tables in step with what is held. -/
theorem after_shows (history : List (Change σ)) : (({} : Registry σ).after history).Shows (held history) := by
  induction history using List.reverseRecOn with
  | nil => exact empty_shows
  | append_singleton history c ih =>
    rw [after_append]
    have hheld : held (history ++ [c]) = fun n => c.holding n (held history n) := funext (held_append history c)
    rw [hheld]
    exact ih.apply c

/-! ### What the registry answers -/

section Answers
variable {r : Registry σ} {view : String → Option (Holding σ)}

theorem Shows.contains (h : r.Shows view) (name : String) : r.contains name = (view (normalizeName name)).isSome := by
  rw [Registry.contains, h.actions, Option.isSome_map]

theorem Shows.mem_list (h : r.Shows view) (n text : String) :
    (n, text) ∈ r.list ↔ ∃ held, view n = some held ∧ held.description = some text := by
  rw [Registry.list, List.mem_mergeSort, h.descriptions]

theorem Shows.mem_names (h : r.Shows view) (n : String) :
    n ∈ r.list.map Prod.fst ↔ ∃ held, view n = some held ∧ held.description.isSome = true := by
  rw [List.mem_map]
  constructor
  · rintro ⟨⟨_, text⟩, hlisted, rfl⟩
    obtain ⟨held, hheld, htext⟩ := (h.mem_list _ _).mp hlisted
    exact ⟨held, hheld, htext ▸ rfl⟩
  · rintro ⟨held, hheld, hdescribed⟩
    obtain ⟨text, htext⟩ := Option.isSome_iff_exists.mp hdescribed
    exact ⟨(n, text), (h.mem_list n text).mpr ⟨held, hheld, htext⟩, rfl⟩

theorem Shows.lookUp (h : r.Shows view) (name : String) (now : Instant) :
    r.lookUp name now =
      match view (normalizeName name) with
      | some held => .ok held.run
      | none => .error (.failure (.unsupportedAction (normalizeName name) none now)) := by
  rw [Registry.lookUp, h.actions]
  cases view (normalizeName name) <;> rfl

theorem Shows.dispatch (h : r.Shows view) (clock : σ → Instant) (call : ActionCall) (context : RunContext) (s : σ) :
    (r.dispatch clock call context).runOn s =
      if normalizeName call.action = "" then
        (.error (.failure (.missingAction (some call.nodeId) call.nodeId (clock s))), s)
      else
        match view (normalizeName call.action) with
        | none => (.error (.failure (.unsupportedAction (normalizeName call.action) (some call.nodeId) (clock s))), s)
        | some held => (held.run { call with action := normalizeName call.action } context).runOn s := by
  unfold Registry.dispatch
  rw [Task.runOn_bind_ok (Task.runOn_get s)]
  by_cases hempty : normalizeName call.action = ""
  · simp only [hempty, if_true]
    rfl
  · simp only [hempty, if_false, h.actions]
    cases view (normalizeName call.action) <;> rfl

theorem Shows.nodup_names (h : r.Shows view) : (r.list.map Prod.fst).Nodup :=
  ((List.mergeSort_perm _ _).map Prod.fst).nodup_iff.mpr h.once

end Answers

/-- A call that fails changes nothing, except that an action that is admitted stays if its description cannot be
kept. -/
theorem register_fault {r : Registry σ} {name : String} {offer : Offer σ} {description : Json} {now : Instant}
    {fault : Fault} (h : (r.register name offer description now).1 = .error fault) :
    (r.register name offer description now).2 = r ∨
      r.Admits name offer ∧ descriptionText description = .error fault := by
  by_cases hadmits : r.Admits name offer
  · obtain ⟨hempty, ⟨run, rfl⟩, hfree⟩ := hadmits
    have hadmits : r.Admits name (.handler run) := ⟨hempty, ⟨run, rfl⟩, hfree⟩
    rw [register_admitted hadmits, accept] at h
    cases htext : descriptionText description with
    | ok text =>
      rw [htext] at h
      cases h
    | error other =>
      rw [htext] at h
      cases h
      exact .inr ⟨hadmits, rfl⟩
  · obtain ⟨message, action, hrefused⟩ := register_refused hadmits description now
    exact .inl (congrArg Prod.snd hrefused)

end Registry

theorem isSome_description_of_held {history : List (Change σ)} (hdescribed : ∀ c ∈ history, c.IsDescribed)
    {n : String} {h : Holding σ} (hheld : held history n = some h) : h.description.isSome = true := by
  obtain ⟨before, name, run, description, now, after, rfl, -, -, -, rfl, -⟩ := held_eq_some_iff.mp hheld
  obtain ⟨text, htext⟩ := hdescribed _ (List.mem_append_right before List.mem_cons_self)
  show (descriptionText description).toOption.isSome = true
  rw [htext]
  rfl

/-- After every history, an action is found under all spellings of its name, and runs with the normal form; it is the
one that was registered there last and not unregistered since. All names are listed whose description was a text, or
not given. A registration that fails changes nothing, unless only the description is at fault. -/
theorem registry_after (history : List (Change σ)) (clock : σ → Instant) :
    let r := ({} : Registry σ).after history
    let names := r.list.map Prod.fst
    (∀ n h, held history n = some h ↔ ∃ before name run description now after,
      history = before ++ .register name (.handler run) description now :: after ∧
      normalizeName name = n ∧ n ≠ "" ∧ held before n = none ∧
      h = ⟨run, (descriptionText description).toOption⟩ ∧
      ∀ name', .unregister name' ∈ after → normalizeName name' ≠ n) ∧
    (∀ n h, held history n = some h → n ≠ "" ∧ normalizeName n = n) ∧
    names.Nodup ∧ (∀ n, n ∈ names ↔ ∃ h, held history n = some h ∧ h.description.isSome) ∧
    (∀ name, r.contains name = (held history (normalizeName name)).isSome) ∧
    ((∀ c ∈ history, c.IsDescribed) → ∀ name, normalizeName name ∈ names ↔ r.contains name = true) ∧
    (∀ name now, r.lookUp name now =
      match held history (normalizeName name) with
      | some h => .ok h.run
      | none => .error (.failure (.unsupportedAction (normalizeName name) none now))) ∧
    (∀ name offer description now fault, (r.register name offer description now).1 = .error fault →
      (r.register name offer description now).2 = r ∨
        r.Admits name offer ∧ descriptionText description = .error fault) ∧
    ∀ call context s, (r.dispatch clock call context).runOn s =
      if normalizeName call.action = "" then
        (.error (.failure (.missingAction (some call.nodeId) call.nodeId (clock s))), s)
      else
        match held history (normalizeName call.action) with
        | none => (.error (.failure (.unsupportedAction (normalizeName call.action) (some call.nodeId) (clock s))), s)
        | some h => (h.run { call with action := normalizeName call.action } context).runOn s := by
  intro r names
  have hshows : r.Shows (held history) := Registry.after_shows history
  refine ⟨fun n h => held_eq_some_iff, hshows.normal, hshows.nodup_names, hshows.mem_names, hshows.contains,
    fun hdescribed name => ?_, hshows.lookUp, fun _ _ _ _ _ => Registry.register_fault, hshows.dispatch clock⟩
  rw [hshows.mem_names, hshows.contains, Option.isSome_iff_exists]
  exact exists_congr fun h => and_iff_left_of_imp fun hheld => isSome_description_of_held hdescribed hheld

/-- A description that is no text fails the call, but the action is registered then, and not listed. -/
theorem registered_unlisted :
    let r : Registry Unit := {}
    let called := r.register "extra" (.handler fun _ _ => pure .null) (.int 5) ⟨0⟩
    called.1 = .error (.other "AttributeError" "'int' object has no attribute 'strip'") ∧
      r.contains "extra" = false ∧ called.2.contains "extra" = true ∧ called.2.list = [] := by
  have hname : normalizeName "extra" = "extra" := by decide
  have hadmits : ({} : Registry Unit).Admits "extra" (.handler fun _ _ => pure .null) :=
    ⟨hname ▸ by decide, ⟨_, rfl⟩, rfl⟩
  intro r called
  have hcalled : called = r.accept "extra" (fun _ _ => pure .null) (.int 5) := by
    show r.register "extra" (.handler fun _ _ => pure .null) (.int 5) ⟨0⟩ = _
    rw [Registry.register_admitted hadmits, hname]
  rw [hcalled, Registry.contains, Registry.contains, hname]
  exact ⟨rfl, rfl, rfl, List.mergeSort_nil⟩

theorem Registry.register_new {r : Registry σ} {name text : String} (hname : normalizeName name = name)
    (hne : name ≠ "") (hfree : r.find? name = none) (htext : Text.strip text = text) (run : Handler σ) (now : Instant) :
    (r.register name (.handler run) (.str text) now).2 = (r.add name run).describe name text := by
  have hadmits : r.Admits name (.handler run) := by
    rw [Admits, hname]
    exact ⟨hne, ⟨run, rfl⟩, hfree⟩
  rw [register_admitted hadmits, accept, descriptionText, htext, hname]

/-- The standard actions are those that their registrations leave. -/
theorem defaults_after {α : Type} (services : Action.WhatsApp.Services) (now : Instant) :
    (Action.defaults services : Registry (World α)) = ({} : Registry (World α)).after [
      .register Action.WhatsApp.name (.handler (Action.WhatsApp.sendTemplate services))
        (.str "Send a WhatsApp template message to the lead") now,
      .register Action.Email.name (.handler (Action.Email.send services.dryRun))
        (.str "Send a templated email to the lead") now,
      .register Action.Crm.name (.handler Action.Crm.updateStatus) (.str "Update the lead's CRM status") now] := by
  simp only [Registry.after, List.foldl_cons, List.foldl_nil, Change.apply]
  rw [Registry.register_new (by decide) (by decide) rfl (by decide),
    Registry.register_new (by decide) (by decide) rfl (by decide),
    Registry.register_new (by decide) (by decide) rfl (by decide)]
  rfl

end Cadence.Workflow
