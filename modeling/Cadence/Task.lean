import Cadence.Fault

/-!
# Tasks

A task acts on a state and ends with a result or in a fault. The state is kept in either case.
-/

namespace Cadence

abbrev Task (σ α : Type) := ExceptT Fault (StateM σ) α

namespace Task

variable {σ τ α : Type}

def ofPair (f : σ → Outcome α × σ) : Task σ α := f

/-- The outcome of a task from a state, and the state it leaves. -/
def runOn (t : Task σ α) (s : σ) : Outcome α × σ := t s

def ofOutcome (o : Outcome α) : Task σ α := fun s => (o, s)

def attempt (t : Task σ α) : Task σ (Outcome α) := fun s =>
  let (o, s) := t s
  (.ok o, s)

def focus (get : σ → τ) (set : σ → τ → σ) (t : Task τ α) : Task σ α := fun s =>
  let (o, part) := t (get s)
  (o, set s part)

instance : MonadLift (Except Fault) (Task σ) := ⟨ofOutcome⟩

end Task

end Cadence
