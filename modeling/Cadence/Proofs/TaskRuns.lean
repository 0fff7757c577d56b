import Cadence.Task

/-!
# Runs of tasks

What a task does from a state, read off the way it is put together, and relations on tasks built from
that: `Leads`, which bounds the results and the states that a task can end with, and `Couples`, which says
that two tasks on different states end alike; `Agrees` is that with equal results. All of them keep the state of a
task that ends in a fault in view, since a fault undoes nothing.
-/

namespace Cadence.Task

variable {σ τ α β : Type}

/-! ### Outcome and state -/

@[simp] theorem runOn_pure (a : α) (s : σ) : (pure a : Task σ α).runOn s = (.ok a, s) := rfl

@[simp] theorem runOn_throw (f : Fault) (s : σ) : (throw f : Task σ α).runOn s = (.error f, s) := rfl

@[simp] theorem runOn_get (s : σ) : (get : Task σ σ).runOn s = (.ok s, s) := rfl

@[simp] theorem runOn_modify (g : σ → σ) (s : σ) :
    (modify g : Task σ PUnit).runOn s = (.ok ⟨⟩, g s) := rfl

@[simp] theorem runOn_lift (o : Outcome α) (s : σ) : (liftM o : Task σ α).runOn s = (o, s) := rfl

theorem runOn_lift_ok {o : Outcome α} {a : α} (h : o = .ok a) (s : σ) :
    (liftM o : Task σ α).runOn s = (.ok a, s) := by rw [runOn_lift, h]

theorem runOn_lift_error {o : Outcome α} {f : Fault} (h : o = .error f) (s : σ) :
    (liftM o : Task σ α).runOn s = (.error f, s) := by rw [runOn_lift, h]

@[simp] theorem runOn_attempt (t : Task σ α) (s : σ) :
    t.attempt.runOn s = (.ok (t.runOn s).1, (t.runOn s).2) := rfl

@[simp] theorem runOn_focus (get : σ → τ) (set : σ → τ → σ) (t : Task τ α) (s : σ) :
    (focus get set t).runOn s = ((t.runOn (get s)).1, set s (t.runOn (get s)).2) := rfl

theorem runOn_bind (t : Task σ α) (f : α → Task σ β) (s : σ) :
    (t >>= f).runOn s =
      match t.runOn s with
      | (.ok a, s') => (f a).runOn s'
      | (.error e, s') => (.error e, s') := by
  show ExceptT.bindCont f (t s).1 (t s).2 = _
  unfold runOn
  rcases t s with ⟨e | a, s'⟩ <;> rfl

theorem runOn_bind_ok {t : Task σ α} {f : α → Task σ β} {s s' : σ} {a : α}
    (h : t.runOn s = (.ok a, s')) : (t >>= f).runOn s = (f a).runOn s' := by
  rw [runOn_bind, h]

theorem runOn_bind_error {t : Task σ α} {f : α → Task σ β} {s s' : σ} {e : Fault}
    (h : t.runOn s = (.error e, s')) : (t >>= f).runOn s = (.error e, s') := by
  rw [runOn_bind, h]

theorem runOn_bind_pure (t : Task σ α) (f : α → β) (s : σ) :
    (t >>= fun a => pure (f a)).runOn s = ((t.runOn s).1.map f, (t.runOn s).2) := by
  rcases h : t.runOn s with ⟨_ | _, s'⟩
  · rw [runOn_bind_error h]
    rfl
  · rw [runOn_bind_ok h]
    rfl

theorem runOn_attempt_bind {t : Task σ α} {f : Outcome α → Task σ β} {s s' : σ} {o : Outcome α}
    (h : t.runOn s = (o, s')) : (t.attempt >>= f).runOn s = (f o).runOn s' := by
  rw [runOn_bind, runOn_attempt, h]

/-! ### Bounds on a task -/

/-- From every state with `pre` the task ends with a result and a state with `post`, or in a fault and a
state with `lost`. -/
def Leads (pre : σ → Prop) (t : Task σ α) (post : α → σ → Prop) (lost : Fault → σ → Prop) : Prop :=
  ∀ s, pre s →
    match t.runOn s with
    | (.ok a, s') => post a s'
    | (.error f, s') => lost f s'

/-- However the task ends, it keeps `I`. -/
def Keeps (I : σ → Prop) (t : Task σ α) : Prop := ∀ s, I s → I (t.runOn s).2

section Leads
variable {pre : σ → Prop} {mid post : α → σ → Prop} {last : β → σ → Prop} {lost : Fault → σ → Prop}

theorem Leads.pure {a : α} (h : ∀ s, pre s → post a s) : Leads pre (pure a) post lost := h

theorem Leads.throw {f : Fault} (h : ∀ s, pre s → lost f s) : Leads pre (throw f) post lost := h

theorem Leads.lift {o : Outcome α} (hok : ∀ a s, o = .ok a → pre s → post a s)
    (herr : ∀ f s, o = .error f → pre s → lost f s) : Leads pre (liftM o) post lost := by
  intro s hs
  cases o with
  | ok a => exact hok a s rfl hs
  | error f => exact herr f s rfl hs

theorem Leads.bind {t : Task σ α} {f : α → Task σ β} (ht : Leads pre t mid lost)
    (hf : ∀ a, Leads (mid a) (f a) last lost) : Leads pre (t >>= f) last lost := by
  intro s hs
  have h := ht s hs
  rcases hr : t.runOn s with ⟨e | a, s'⟩
  · simp only [hr] at h
    rw [runOn_bind_error hr]
    exact h
  · simp only [hr] at h
    rw [runOn_bind_ok hr]
    exact hf a s' h

theorem Leads.of_and {P : Prop} {t : Task σ α} (h : P → Leads pre t post lost) :
    Leads (fun s => P ∧ pre s) t post lost := fun s hs => h hs.1 s hs.2

/-- An attempt returns what the task ends with. -/
theorem Leads.attempt {t : Task σ α} {other : Fault → σ → Prop} (h : Leads pre t post lost) :
    Leads pre t.attempt
      (fun o s => match o with
        | .ok a => post a s
        | .error f => lost f s) other := by
  intro s hs
  have hrun := h s hs
  rw [runOn_attempt]
  rcases hr : t.runOn s with ⟨e | a, s'⟩ <;> simpa only [hr] using hrun

/-- A task that cannot be lost returns. -/
theorem Leads.returns {t : Task σ α} (h : Leads pre t post fun _ _ => False) {s : σ} (hs : pre s) :
    ∃ a s', t.runOn s = (.ok a, s') ∧ post a s' := by
  have hrun := h s hs
  rcases hr : t.runOn s with ⟨e | a, s'⟩ <;> simp only [hr] at hrun
  exact ⟨a, s', rfl, hrun⟩

theorem Leads.loses {t : Task σ α} (h : Leads pre t post lost) {s : σ} (hs : pre s) {f : Fault}
    (hf : (t.runOn s).1 = .error f) : lost f (t.runOn s).2 := by
  have hrun := h s hs
  rcases hr : t.runOn s with ⟨e | a, s'⟩ <;> rw [hr] at hf <;> cases hf
  simpa only [hr] using hrun

end Leads

section Keeps
variable {I : σ → Prop}

theorem Keeps.leads {t : Task σ α} (h : Keeps I t) : Leads I t (fun _ => I) (fun _ => I) := by
  intro s hs
  have ht := h s hs
  rcases hr : t.runOn s with ⟨e | a, s'⟩ <;> simpa only [hr] using ht

theorem Leads.keeps {t : Task σ α} (h : Leads I t (fun _ => I) (fun _ => I)) : Keeps I t := by
  intro s hs
  have ht := h s hs
  rcases hr : t.runOn s with ⟨e | a, s'⟩ <;> simpa only [hr] using ht

theorem Keeps.pure (a : α) : Keeps I (pure a) := fun _ hs => hs

theorem Keeps.throw (f : Fault) : Keeps I (throw f : Task σ α) := fun _ hs => hs

theorem Keeps.get : Keeps I (get : Task σ σ) := fun _ hs => hs

theorem Keeps.lift (o : Outcome α) : Keeps I (liftM o : Task σ α) := fun _ hs => hs

theorem Keeps.attempt {t : Task σ α} (h : Keeps I t) : Keeps I t.attempt := h

theorem Keeps.bind {t : Task σ α} {f : α → Task σ β} (ht : Keeps I t) (hf : ∀ a, Keeps I (f a)) :
    Keeps I (t >>= f) :=
  (ht.leads.bind fun a => (hf a).leads).keeps

theorem Keeps.ite {c : Prop} [Decidable c] {t u : Task σ α} (ht : Keeps I t) (hu : Keeps I u) :
    Keeps I (if c then t else u) := by
  split
  · exact ht
  · exact hu

end Keeps

/-! ### Two tasks that end alike -/

/-- Both outcomes are results, which `Q` relates, or both are the same fault. -/
inductive Alike (Q : α → β → Prop) : Outcome α → Outcome β → Prop where
  | ok {a : α} {b : β} (h : Q a b) : Alike Q (.ok a) (.ok b)
  | error (f : Fault) : Alike Q (.error f) (.error f)

theorem Alike.imp {Q Q' : α → β → Prop} {o : Outcome α} {o' : Outcome β} (h : Alike Q o o')
    (himp : ∀ a b, Q a b → Q' a b) : Alike Q' o o' := by
  cases h with
  | ok h => exact .ok (himp _ _ h)
  | error f => exact .error f

theorem alike_eq_iff {o o' : Outcome α} : Alike Eq o o' ↔ o = o' := by
  refine ⟨fun h => ?_, fun h => h ▸ ?_⟩
  · cases h with
    | ok h => exact congrArg Except.ok h
    | error f => rfl
  · cases o with
    | ok a => exact .ok rfl
    | error f => exact .error f

/-- From related states the outcomes of the two tasks are alike, and their states stay related. -/
def Couples (R : σ → τ → Prop) (Q : α → β → Prop) (t : Task σ α) (u : Task τ β) : Prop :=
  ∀ s s', R s s' → Alike Q (t.runOn s).1 (u.runOn s').1 ∧ R (t.runOn s).2 (u.runOn s').2

section Couples
variable {γ δ : Type} {R : σ → τ → Prop} {Q : α → β → Prop} {last : γ → δ → Prop}

theorem Couples.pure {a : α} {b : β} (h : Q a b) : Couples R Q (pure a) (pure b) := fun _ _ hr => ⟨.ok h, hr⟩

theorem Couples.throw (f : Fault) : Couples R Q (throw f : Task σ α) (throw f : Task τ β) :=
  fun _ _ hr => ⟨.error f, hr⟩

theorem Couples.bind {t : Task σ α} {u : Task τ β} {f : α → Task σ γ} {g : β → Task τ δ}
    (ht : Couples R Q t u) (hf : ∀ a b, Q a b → Couples R last (f a) (g b)) :
    Couples R last (t >>= f) (u >>= g) := by
  intro s s' hr
  have h := ht s s' hr
  rcases hx : t.runOn s with ⟨o, s₁⟩
  rcases hy : u.runOn s' with ⟨o', s₁'⟩
  rw [hx, hy] at h
  obtain ⟨halike, hs⟩ := h
  cases halike with
  | ok hq =>
    rw [runOn_bind_ok hx, runOn_bind_ok hy]
    exact hf _ _ hq s₁ s₁' hs
  | error e =>
    rw [runOn_bind_error hx, runOn_bind_error hy]
    exact ⟨.error e, hs⟩

theorem Couples.imp {Q' : α → β → Prop} {t : Task σ α} {u : Task τ β} (h : Couples R Q t u)
    (himp : ∀ a b, Q a b → Q' a b) : Couples R Q' t u := by
  intro s s' hr
  obtain ⟨halike, hs⟩ := h s s' hr
  exact ⟨halike.imp himp, hs⟩

theorem Couples.attempt {t : Task σ α} {u : Task τ β} (h : Couples R Q t u) :
    Couples R (Alike Q) t.attempt u.attempt := by
  intro s s' hr
  obtain ⟨halike, hs⟩ := h s s' hr
  exact ⟨.ok halike, hs⟩

end Couples

/-- From related states the two tasks have one outcome, and their states stay related. -/
def Agrees (R : σ → τ → Prop) (t : Task σ α) (u : Task τ α) : Prop :=
  ∀ s s', R s s' → (t.runOn s).1 = (u.runOn s').1 ∧ R (t.runOn s).2 (u.runOn s').2

section Agrees
variable {R : σ → τ → Prop}

theorem agrees_iff_couples {t : Task σ α} {u : Task τ α} : Agrees R t u ↔ Couples R Eq t u :=
  forall₂_congr fun _ _ => imp_congr_right fun _ => and_congr_left fun _ => alike_eq_iff.symm

theorem Agrees.pure (a : α) : Agrees R (pure a) (pure a) := fun _ _ h => ⟨rfl, h⟩

theorem Agrees.throw (f : Fault) : Agrees R (throw f : Task σ α) (throw f : Task τ α) :=
  fun _ _ h => ⟨rfl, h⟩

theorem Agrees.lift (o : Outcome α) : Agrees R (liftM o : Task σ α) (liftM o : Task τ α) :=
  fun _ _ h => ⟨rfl, h⟩

theorem Agrees.bind {t : Task σ α} {u : Task τ α} {f : α → Task σ β} {g : α → Task τ β}
    (ht : Agrees R t u) (hf : ∀ a, Agrees R (f a) (g a)) : Agrees R (t >>= f) (u >>= g) := by
  refine agrees_iff_couples.mpr (Couples.bind (agrees_iff_couples.mp ht) ?_)
  rintro a _ rfl
  exact agrees_iff_couples.mp (hf a)

theorem Couples.bind_agrees {γ : Type} {Q : α → β → Prop} {t : Task σ α} {u : Task τ β} {f : α → Task σ γ}
    {g : β → Task τ γ} (ht : Couples R Q t u) (hf : ∀ a b, Q a b → Agrees R (f a) (g b)) :
    Agrees R (t >>= f) (u >>= g) :=
  agrees_iff_couples.mpr (ht.bind fun a b hab => agrees_iff_couples.mp (hf a b hab))

theorem Agrees.attempt {t : Task σ α} {u : Task τ α} (h : Agrees R t u) : Agrees R t.attempt u.attempt := by
  intro s s' hr
  obtain ⟨houtcome, hs⟩ := h s s' hr
  exact ⟨congrArg Except.ok houtcome, hs⟩

theorem Agrees.ite {c : Prop} [Decidable c] {t₁ t₂ : Task σ α} {u₁ u₂ : Task τ α}
    (h₁ : Agrees R t₁ u₁) (h₂ : Agrees R t₂ u₂) :
    Agrees R (if c then t₁ else t₂) (if c then u₁ else u₂) := by
  split
  · exact h₁
  · exact h₂

theorem Agrees.get_bind {f : σ → Task σ β} {g : τ → Task τ β}
    (h : ∀ s s', R s s' → Agrees R (f s) (g s')) : Agrees R (get >>= f) (get >>= g) := by
  intro s s' hr
  rw [runOn_bind_ok (runOn_get s), runOn_bind_ok (runOn_get s')]
  exact h s s' hr s s' hr

end Agrees

end Cadence.Task
