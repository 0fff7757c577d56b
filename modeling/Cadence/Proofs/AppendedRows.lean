import Cadence.Proofs.ClientEffects

/-!
# Histories of calls to a store

A store is called time after time, while its clock is set forwards and backwards and the database cannot always be
reached. A call commits a row and then reads it back. If the database is lost in between, the call fails and its row
stays. So the rows after a history are those from before it and then what the calls committed, in their order, whatever
the clock showed and whichever of the calls returned.
-/

namespace Cadence.Storage

variable {κ ρ : Type}

/-- How long the database can be reached in a call: to its end, until the row is committed, or not at all. -/
inductive Reach where
  | throughout
  | untilCommitted
  | never
deriving DecidableEq

/-- What happens next: a call is made, or the clock is set. -/
inductive StoreStep (κ : Type) where
  | call (c : κ) (reach : Reach)
  | clock (now : Instant)

/-- A database with the clock that its stores read. -/
structure Clocked where
  now : Instant
  database : Database

/-- What a call to a store commits, with the position of its row, and how a row is read back. -/
structure Store (κ ρ : Type) where
  commit : κ → Instant → Task Database Nat
  reload : Nat → Instant → Task Database ρ

/-- A call that committed its row: when it was made, the row, and how the call ended. -/
structure Made (κ ρ : Type) where
  time : Instant
  call : κ
  row : ρ
  ending : Outcome ρ

/-- A task while the database cannot be reached. It finds no tables, and the database is as before. -/
def unreached {β : Type} (t : Task Database β) : Task Database β :=
  Task.focus (fun db => { db with tables := none }) (fun db _ => db) t

namespace Store
variable (store : Store κ ρ)

def perform (c : κ) (now : Instant) : Task Database ρ := do store.reload (← store.commit c now) now

/-- A call while the database can be reached as long as that. -/
def performWithin (reach : Reach) (c : κ) (now : Instant) : Task Database ρ :=
  match reach with
  | .throughout => store.perform c now
  | .untilCommitted => do unreached (store.reload (← store.commit c now) now)
  | .never => unreached (store.perform c now)

end Store

section Histories
variable (store : Store κ ρ)

def StoreStep.run (s : Clocked) : StoreStep κ → Clocked
  | call c reach => { s with database := ((store.performWithin reach c s.now).runOn s.database).2 }
  | clock now => { s with now := now }

/-- How the call of a step ends. -/
def StoreStep.ending? (s : Clocked) : StoreStep κ → Option (Outcome ρ)
  | call c reach => some ((store.performWithin reach c s.now).runOn s.database).1
  | clock _ => none

/-- The call of a step if it commits a row. The row is what a call returns that can read it back. -/
def StoreStep.made? (s : Clocked) : StoreStep κ → Option (Made κ ρ)
  | call c reach =>
    match reach, ((store.perform c s.now).runOn s.database).1 with
    | .throughout, .ok row | .untilCommitted, .ok row =>
      some ⟨s.now, c, row, ((store.performWithin reach c s.now).runOn s.database).1⟩
    | _, _ => none
  | clock _ => none

def Clocked.after (s : Clocked) (steps : List (StoreStep κ)) : Clocked := steps.foldl (StoreStep.run store) s

/-- The calls of a history that committed a row, in their order. -/
def Clocked.made (s : Clocked) : List (StoreStep κ) → List (Made κ ρ)
  | [] => []
  | step :: rest => (step.made? store s).toList ++ (step.run store s).made rest

/-- The calls append to rows of the tables. `Fits` says what a call commits as the row of a number, and `lost` is the
fault of a row that cannot be read back. -/
structure Appends (rows : Tables → List ρ) (lost : Instant → Fault) (Fits : Nat → Made κ ρ → Prop) : Prop where
  committed : ∀ (c : κ) (now : Instant) (db : Database) (t : Tables), db.tables = some t →
    (∃ f, (store.commit c now).runOn db = (.error f, db)) ∨
      ∃ row t', (store.commit c now).runOn db = (.ok (rows t).length, { db with tables := some t' }) ∧
        rows t' = rows t ++ [row] ∧ ∀ ending, Fits (rows t).length ⟨now, c, row, ending⟩
  reloaded : ∀ (position : Nat) (row : ρ) (now : Instant) (db : Database) (t : Tables), db.tables = some t →
    (rows t)[position]? = some row → (store.reload position now).runOn db = (.ok row, db)
  dropped : ∀ (c : κ) (now : Instant) (db : Database), db.tables = none →
    ∃ f, ((store.commit c now).runOn db).1 = .error f
  unread : ∀ (position : Nat) (now : Instant) (db : Database), db.tables = none →
    (store.reload position now).runOn db = (.error (lost now), db)

end Histories

section Appends
variable {store : Store κ ρ} {rows : Tables → List ρ} {lost : Instant → Fault} {Fits : Nat → Made κ ρ → Prop}
  {s : Clocked} {t : Tables}

/-- A call whose row is lost has committed it all the same. -/
theorem Appends.runOn_untilCommitted (h : Appends store rows lost Fits) {c : κ} {now : Instant} {db db' : Database}
    {position : Nat} (hcommit : (store.commit c now).runOn db = (.ok position, db')) :
    (store.performWithin .untilCommitted c now).runOn db = (.error (lost now), db') := by
  have hunread := h.unread position now { db' with tables := none } rfl
  rw [Store.performWithin, Task.runOn_bind_ok hcommit, unreached, Task.runOn_focus, hunread]

theorem Appends.runOn_never (h : Appends store rows lost Fits) (c : κ) (now : Instant) (db : Database) :
    ∃ f, (store.performWithin .never c now).runOn db = (.error f, db) := by
  obtain ⟨f, hf⟩ := h.dropped c now { db with tables := none } rfl
  refine ⟨f, ?_⟩
  rw [Store.performWithin, unreached, Task.runOn_focus, Store.perform, Task.runOn_bind_error (Prod.ext hf rfl)]

/-- A call either commits nothing and fails, or appends its row. -/
theorem Appends.call (h : Appends store rows lost Fits) (c : κ) (reach : Reach)
    (ht : s.database.tables = some t) :
    (∃ f, (store.performWithin reach c s.now).runOn s.database = (.error f, s.database) ∧
      (StoreStep.call c reach).made? store s = none) ∨
      ∃ row ending t', (store.performWithin reach c s.now).runOn s.database =
          (ending, { s.database with tables := some t' }) ∧
        (StoreStep.call c reach).made? store s = some ⟨s.now, c, row, ending⟩ ∧ rows t' = rows t ++ [row] ∧
        Fits (rows t).length ⟨s.now, c, row, ending⟩ ∧ (ending = .ok row ∨ ending = .error (lost s.now)) := by
  rcases h.committed c s.now s.database t ht with ⟨f, hcommit⟩ | ⟨row, t', hcommit, hrows, hfits⟩
  · have hperform : (store.perform c s.now).runOn s.database = (.error f, s.database) :=
      Task.runOn_bind_error hcommit
    have hmade : (StoreStep.call c reach).made? store s = none := by
      cases reach <;> simp only [StoreStep.made?, hperform]
    left
    cases reach with
    | throughout => exact ⟨f, hperform, hmade⟩
    | untilCommitted => exact ⟨f, Task.runOn_bind_error hcommit, hmade⟩
    | never => exact (h.runOn_never c s.now s.database).imp fun _ hrun => ⟨hrun, hmade⟩
  · have hrow : (rows t')[(rows t).length]? = some row := by rw [hrows, List.getElem?_concat_length]
    have hperform : (store.perform c s.now).runOn s.database = (.ok row, { s.database with tables := some t' }) :=
      (Task.runOn_bind_ok hcommit).trans (h.reloaded _ row s.now _ t' rfl hrow)
    cases reach with
    | throughout =>
      refine .inr ⟨row, .ok row, t', hperform, ?_, hrows, hfits _, .inl rfl⟩
      simp only [StoreStep.made?, hperform, Store.performWithin]
    | untilCommitted =>
      have hrun := h.runOn_untilCommitted hcommit
      refine .inr ⟨row, .error (lost s.now), t', hrun, ?_, hrows, hfits _, .inr rfl⟩
      simp only [StoreStep.made?, hperform, hrun]
    | never => exact .inl ((h.runOn_never c s.now s.database).imp fun _ hrun => ⟨hrun, rfl⟩)

theorem Appends.step (h : Appends store rows lost Fits) (step : StoreStep κ) (ht : s.database.tables = some t) :
    ∃ t', (step.run store s).database.tables = some t' ∧
      rows t' = rows t ++ ((step.made? store s).map (·.row)).toList ∧
      ∀ m, step.made? store s = some m →
        Fits (rows t).length m ∧ (m.ending = .ok m.row ∨ m.ending = .error (lost m.time)) := by
  cases step with
  | clock now => exact ⟨t, ht, by simp [StoreStep.made?], by simp [StoreStep.made?]⟩
  | call c reach =>
    rcases h.call c reach ht with ⟨f, hrun, hmade⟩ | ⟨row, ending, t', hrun, hmade, hrows, hfits, hending⟩
    · refine ⟨t, ?_, by simp [hmade], by simp [hmade]⟩
      rwa [StoreStep.run, hrun]
    · refine ⟨t', ?_, by simp [hmade, hrows], fun m hm => ?_⟩
      · rw [StoreStep.run, hrun]
      · obtain rfl := Option.some.inj (hmade.symm.trans hm)
        exact ⟨hfits, hending⟩

/-- What is said of a call that committed is how the call ended, and a call that returns a row has committed it. -/
theorem Appends.ending (h : Appends store rows lost Fits) (step : StoreStep κ) (ht : s.database.tables = some t) :
    (∀ m, step.made? store s = some m → step.ending? store s = some m.ending) ∧
      ∀ row, step.ending? store s = some (.ok row) → ∃ m, step.made? store s = some m ∧ m.row = row := by
  cases step with
  | clock now => exact ⟨by simp [StoreStep.made?], by simp [StoreStep.ending?]⟩
  | call c reach =>
    rcases h.call c reach ht with ⟨f, hrun, hmade⟩ | ⟨row, ending, t', hrun, hmade, -, -, hending⟩
    · rw [hmade, StoreStep.ending?, hrun]
      exact ⟨by simp, by simp⟩
    · rw [hmade, StoreStep.ending?, hrun]
      refine ⟨fun m hm => Option.some.inj hm ▸ rfl, fun row' hrow' => ⟨_, rfl, ?_⟩⟩
      rcases hending with rfl | rfl
      · exact Except.ok.inj (Option.some.inj hrow')
      · cases hrow'

theorem Appends.after (h : Appends store rows lost Fits) (steps : List (StoreStep κ))
    (ht : s.database.tables = some t) :
    ∃ t', (s.after store steps).database.tables = some t' ∧
      rows t' = rows t ++ (s.made store steps).map (·.row) ∧
      ∀ (i : Nat) (m : Made κ ρ), (s.made store steps)[i]? = some m →
        Fits ((rows t).length + i) m ∧ (m.ending = .ok m.row ∨ m.ending = .error (lost m.time)) := by
  -- The tables are general in the induction: every row that is appended moves the numbers of the later ones.
  induction steps generalizing s t with
  | nil => exact ⟨t, ht, by simp [Clocked.made], by simp [Clocked.made]⟩
  | cons step rest ih =>
    obtain ⟨t₁, ht₁, hrows₁, hfits₁⟩ := h.step step ht
    obtain ⟨t₂, ht₂, hrows₂, hfits₂⟩ := ih ht₁
    refine ⟨t₂, ht₂, ?_, fun i m hm => ?_⟩
    · rw [hrows₂, hrows₁, Clocked.made, List.map_append, List.append_assoc]
      cases step.made? store s <;> rfl
    · rw [Clocked.made] at hm
      cases hmade : step.made? store s with
      | none =>
        have hfirst := hfits₂ i m (by simpa [hmade] using hm)
        simpa [hrows₁, hmade] using hfirst
      | some first =>
        rw [hmade, Option.toList_some, List.singleton_append] at hm
        cases i with
        | zero =>
          obtain rfl : first = m := by simpa using hm
          exact hfits₁ _ hmade
        | succ i =>
          have hlater := hfits₂ i m (by simpa using hm)
          simp only [hrows₁, hmade, Option.map_some, Option.toList_some, List.length_append,
            List.length_singleton] at hlater
          have hindex : (rows t).length + 1 + i = (rows t).length + (i + 1) := by omega
          rwa [hindex] at hlater

/-- What is said of a row by its number is said of every row, and rows that come later have greater numbers. -/
theorem Appends.made (h : Appends store rows lost Fits) (steps : List (StoreStep κ))
    (ht : s.database.tables = some t) :
    (∀ m ∈ s.made store steps,
      (∃ n, Fits n m) ∧ (m.ending = .ok m.row ∨ m.ending = .error (lost m.time))) ∧
      (s.made store steps).Pairwise fun a b => ∃ i j, i < j ∧ Fits i a ∧ Fits j b := by
  obtain ⟨-, -, -, hfits⟩ := h.after steps ht
  refine ⟨fun m hm => ?_, List.pairwise_iff_getElem.mpr fun i j hi hj hij => ?_⟩
  · obtain ⟨i, hi⟩ := List.mem_iff_getElem?.mp hm
    exact ⟨⟨_, (hfits i m hi).1⟩, (hfits i m hi).2⟩
  · have hfirst := hfits i _ (List.getElem?_eq_getElem hi)
    have hsecond := hfits j _ (List.getElem?_eq_getElem hj)
    exact ⟨_, _, Nat.add_lt_add_left hij _, hfirst.1, hsecond.1⟩

end Appends

end Cadence.Storage
