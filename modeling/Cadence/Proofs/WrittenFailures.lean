import Cadence.Http.Envelope

/-!
# Failures as they are written

A failure is told with its details and its context, each as JSON and in order. The first value that JSON has no form
for decides the fault in which the telling ends; if there is none, all of them are told.
-/

namespace Cadence

/-- A fault in which writing a value as JSON can end. -/
inductive Fault.Unwritten : Fault → Prop where
  | tooLong : Unwritten .integerTooLong
  | notFinite : Unwritten .numberNotFinite
  | other (error message : String) : Unwritten (.other error message)

variable {fault : Fault}

namespace Json

mutual

theorem unwritten_of_obstacle? (v : Json) (h : v.obstacle? = some fault) : fault.Unwritten := by
  cases v with
  | int i =>
    rw [obstacle?] at h
    split at h <;> cases h
    exact .tooLong
  | float x =>
    rw [obstacle?] at h
    split at h <;> cases h
    exact .notFinite
  | arr items => exact unwritten_of_itemsObstacle? items h
  | obj members => exact unwritten_of_membersObstacle? members h
  | null | bool _ | str _ => cases h

theorem unwritten_of_itemsObstacle? (items : List Json) (h : itemsObstacle? items = some fault) :
    fault.Unwritten := by
  cases items with
  | nil => cases h
  | cons v rest =>
    rcases Option.or_eq_some_iff.mp h with hfirst | ⟨-, hrest⟩
    · exact unwritten_of_obstacle? v hfirst
    · exact unwritten_of_itemsObstacle? rest hrest

theorem unwritten_of_membersObstacle? (members : List (String × Json))
    (h : membersObstacle? members = some fault) : fault.Unwritten := by
  match members, h with
  | (_, v) :: rest, h =>
    rcases Option.or_eq_some_iff.mp h with hfirst | ⟨-, hrest⟩
    · exact unwritten_of_obstacle? v hfirst
    · exact unwritten_of_membersObstacle? rest hrest

end

end Json

namespace Detail

/-- The fault in which writing a detail ends, if it cannot be written. -/
def obstacle? : Detail → Option Fault
  | known v => v.obstacle?
  | unwritable error message => some (.other error message)

theorem unwritten_of_obstacle? {detail : Detail} (h : detail.obstacle? = some fault) : fault.Unwritten := by
  cases detail with
  | known v => exact Json.unwritten_of_obstacle? v h
  | unwritable error message => exact Option.some.inj h ▸ .other error message

end Detail

namespace Http

/-! ### Details -/

/-- The fault of the first detail that cannot be written. -/
def firstObstacle? (details : Members Detail) : Option Fault := details.findSome? (·.2.obstacle?)

/-- The details that are values. -/
def valuesOf (details : Members Detail) : Members :=
  details.filterMap fun
    | (name, .known v) => some (name, v)
    | (_, .unwritable ..) => none

theorem firstObstacle?_cons (m : String × Detail) (rest : Members Detail) :
    firstObstacle? (m :: rest) = m.2.obstacle?.or (firstObstacle? rest) := by
  rw [firstObstacle?, List.findSome?_cons]
  cases m.2.obstacle? <;> rfl

theorem firstObstacle?_append (details more : Members Detail) :
    firstObstacle? (details ++ more) = (firstObstacle? details).or (firstObstacle? more) := List.findSome?_append

theorem unwritten_of_firstObstacle? {details : Members Detail} (h : firstObstacle? details = some fault) :
    fault.Unwritten := by
  obtain ⟨m, -, hm⟩ := List.exists_of_findSome?_eq_some h
  exact Detail.unwritten_of_obstacle? hm

theorem firstObstacle?_eq_none_iff {details : Members Detail} :
    firstObstacle? details = none ↔ ∀ m ∈ details, m.2.obstacle? = none :=
  List.findSome?_eq_none_iff

def asDetails (values : Members) : Members Detail := values.map fun m => (m.1, .known m.2)

/-- Where nothing stands in the way, every detail is a value. -/
theorem asDetails_valuesOf {details : Members Detail} (h : firstObstacle? details = none) :
    asDetails (valuesOf details) = details := by
  induction details with
  | nil => rfl
  | cons m rest ih =>
    obtain ⟨hfirst, hrest⟩ := List.forall_mem_cons.mp (firstObstacle?_eq_none_iff.mp h)
    obtain ⟨name, v | ⟨error, message⟩⟩ := m
    · exact congrArg ((name, Detail.known v) :: ·) (ih (firstObstacle?_eq_none_iff.mpr hrest))
    · cases hfirst

theorem writeAll_eq (details : Members Detail) :
    writeAll details =
      match firstObstacle? details with
      | some fault => .error fault
      | none => .ok (valuesOf details) := by
  induction details with
  | nil => rfl
  | cons m rest ih =>
    obtain ⟨name, v | ⟨error, message⟩⟩ := m
    · rw [writeAll, ih, firstObstacle?_cons, written, Detail.obstacle?]
      cases v.obstacle? with
      | some fault => rfl
      | none => cases firstObstacle? rest <;> rfl
    · rfl

/-! ### Failures -/

/-- What a request is told of a failure whose details and context can be written. -/
def toldBody (f : Failure) (requestId : String) : Json :=
  .obj [("error", .str f.code), ("message", .str f.message), ("details", .obj (valuesOf f.toldDetails)),
    ("context", .obj (valuesOf f.context)), ("request_id", .str requestId)]

/-- Details are written before the context. -/
theorem failureBody_eq (f : Failure) (requestId : String) :
    failureBody f requestId =
      match firstObstacle? (f.toldDetails ++ f.context) with
      | some fault => .error fault
      | none => .ok (toldBody f requestId) := by
  rw [failureBody, writeAll_eq, writeAll_eq, firstObstacle?_append]
  cases firstObstacle? f.toldDetails <;> cases firstObstacle? f.context <;> rfl

end Http

end Cadence
