import Cadence.Failure.Kinds
import Cadence.Task
import Cadence.Text.LowerCase
import Cadence.Workflow.Request

/-!
# The registry of actions

Actions are registered under names that are compared without regard to case and to the white space
around them. A name that is taken stays with its action until the action is unregistered. Actions and
their descriptions are kept in two tables, of which the second one is filled last.
-/

namespace Cadence.Workflow

/-- An action: it answers a call with a value, and may act on the state. -/
abbrev Handler (σ : Type) := ActionCall → RunContext → Task σ Json

/-- What can be offered for registration; only a handler is accepted. -/
inductive Offer (σ : Type) where
  | handler (run : Handler σ)
  /-- Something that answers at once and cannot be waited for. -/
  | immediate
  | inert

def normalizeName (name : String) : String := Text.lower (Text.strip name)

/-- A description as it is kept: trimmed, and empty if none is given. What is given must be a text. -/
def descriptionText : Json → Outcome String
  | .str s => .ok (Text.strip s)
  | v =>
    if v.isGiven then .error (.other "AttributeError" ("'" ++ v.typeName ++ "' object has no attribute 'strip'"))
    else .ok ""

structure Registration (σ : Type) where
  name : String
  run : Handler σ

/-- The registered actions, in the order of their registration, and descriptions by name. -/
structure Registry (σ : Type) where
  entries : List (Registration σ) := []
  descriptions : List (String × String) := []

namespace Registry

variable {σ : Type}

def find? (r : Registry σ) (name : String) : Option (Registration σ) :=
  r.entries.find? fun e => e.name = name

def contains (r : Registry σ) (name : String) : Bool := (r.find? (normalizeName name)).isSome

def add (r : Registry σ) (action : String) (run : Handler σ) : Registry σ :=
  { r with entries := r.entries ++ [⟨action, run⟩] }

def remove (r : Registry σ) (action : String) : Registry σ :=
  { r with entries := r.entries.filter fun e => e.name ≠ action }

/-- The registry without the description of an action. -/
def undescribe (r : Registry σ) (action : String) : Registry σ :=
  { r with descriptions := r.descriptions.filter fun d => d.1 ≠ action }

/-- The registry with a description of an action, in place of any that it had. -/
def describe (r : Registry σ) (action text : String) : Registry σ :=
  let r := r.undescribe action
  { r with descriptions := r.descriptions ++ [(action, text)] }

/-- Adds an action and then its description. If that cannot be kept, the action stays without one. -/
def accept (r : Registry σ) (action : String) (run : Handler σ) (description : Json) : Outcome Unit × Registry σ :=
  match descriptionText description with
  | .ok text => (.ok (), (r.add action run).describe action text)
  | .error fault => (.error fault, r.add action run)

def refusal (message : String) (action : Option String) (now : Instant) : Outcome Unit :=
  .error (.failure (.actionRegistry message action {} now))

/-- Registers an action with a description, unless the name is empty or taken or no action is offered. -/
def register (r : Registry σ) (name : String) (offer : Offer σ) (description : Json)
    (now : Instant) : Outcome Unit × Registry σ :=
  let action := normalizeName name
  if action = "" then (refusal "Action name cannot be empty" none now, r)
  else
    match offer with
    | .inert => (refusal ("Action '" ++ action ++ "' handler must be callable") (some action) now, r)
    | .immediate =>
      (refusal ("Action '" ++ action ++ "' handler must be a coroutine function") (some action) now, r)
    | .handler run =>
      if (r.find? action).isSome then
        (refusal ("Action '" ++ action ++ "' is already registered") (some action) now, r)
      else r.accept action run description

/-- Removes an action and its description, and tells whether there was one. -/
def unregister (r : Registry σ) (name : String) : Bool × Registry σ :=
  let action := normalizeName name
  if (r.find? action).isSome then
    (true, (r.remove action).undescribe action)
  else (false, r)

def lookUp (r : Registry σ) (name : String) (now : Instant) : Outcome (Handler σ) :=
  match r.find? (normalizeName name) with
  | some e => .ok e.run
  | none => .error (.failure (.unsupportedAction (normalizeName name) none now))

/-- Names and descriptions of the actions, sorted by name. -/
def list (r : Registry σ) : List (String × String) :=
  r.descriptions.mergeSort fun a b => a.1 ≤ b.1

/-- Runs the action that a call names; the action is told the normal form of its name. -/
def dispatch (r : Registry σ) (clock : σ → Instant) : Handler σ := fun call context => do
  let now := clock (← get)
  let action := normalizeName call.action
  if action = "" then throw (.failure (.missingAction (some call.nodeId) call.nodeId now))
  match r.find? action with
  | none => throw (.failure (.unsupportedAction action (some call.nodeId) now))
  | some e => e.run { call with action := action } context

end Registry

end Cadence.Workflow
