import Cadence.Proofs.ReadValues
import Cadence.Provider.Client

/-!
# Bodies of answers

An answer of any status is read, whether its body is JSON or not, and what is read can be written again. What is not
read is a body whose lists and objects go deeper than the client follows them.
-/

namespace Cadence

namespace Provider

def Answer.IsSuccess (a : Answer) : Prop := 200 ≤ a.status ∧ a.status < 300

instance (a : Answer) : Decidable a.IsSuccess := inferInstanceAs (Decidable (200 ≤ a.status ∧ a.status < 300))

/-- The body of an answer goes too deep to be read. -/
def Client.Unread (c : Client) (a : Answer) : Prop := ∃ kind, c.readAnswer a = .error (tooDeep kind)

variable {c : Client} {answer : Answer} {response : Response}

theorem Client.readAnswer_cases (c : Client) (answer : Answer) :
    (∃ response, c.readAnswer answer = .ok response) ∨ c.Unread answer := by
  unfold Unread readAnswer
  dsimp only
  split
  · exact .inl ⟨_, rfl⟩
  · exact .inl ⟨_, rfl⟩
  · exact .inr ⟨_, rfl⟩
  · exact .inr ⟨_, rfl⟩
  · exact .inl ⟨_, rfl⟩

theorem Client.not_unread (h : c.readAnswer answer = .ok response) : ¬c.Unread answer := by
  rintro ⟨kind, hunread⟩
  cases h.symm.trans hunread

theorem Client.unread_of_error {f : Fault} (h : c.readAnswer answer = .error f) : c.Unread answer := by
  rcases c.readAnswer_cases answer with ⟨response, hread⟩ | hunread
  · cases h.symm.trans hread
  · exact hunread

theorem Client.readAnswer_status (h : c.readAnswer answer = .ok response) : response.status = answer.status := by
  unfold readAnswer at h
  dsimp only at h
  split at h <;> cases h <;> rfl

theorem Client.isOk_iff (h : c.readAnswer answer = .ok response) : response.isOk = true ↔ answer.IsSuccess := by
  rw [Response.isOk, readAnswer_status h, Bool.and_eq_true, decide_eq_true_eq, decide_eq_true_eq]
  rfl

theorem Client.body_writable (h : c.readAnswer answer = .ok response) : Json.haveWritable response.body = true := by
  unfold readAnswer at h
  dsimp only at h
  split at h
  · rename_i members hread
    cases h
    exact Json.readWithin_writable hread
  · rename_i v _ hread
    cases h
    simp [Json.haveWritable, Json.readWithin_writable hread]
  · cases h
  · cases h
  · cases h
    rfl

/-- A body of lists in each other goes too deep where more of them are opened than the client follows. -/
theorem Client.readAnswer_of_open_lists (c : Client) (status : Int) {n : Nat} (hdeep : c.maxNesting < n)
    (rest : List Char) :
    c.readAnswer ⟨status, String.ofList (List.replicate n '[' ++ rest)⟩ = .error (tooDeep "array") := by
  obtain ⟨more, rfl⟩ := Nat.exists_eq_add_of_lt hdeep
  have hopen : List.replicate (c.maxNesting + more + 1) '[' ++ rest =
      List.replicate (c.maxNesting + 1) '[' ++ (List.replicate more '[' ++ rest) := by
    rw [← List.append_assoc, List.replicate_append_replicate, Nat.add_right_comm]
  obtain ⟨position, hread⟩ := Json.readWithin_of_open_lists c.maxNesting (List.replicate more '[' ++ rest)
  have hmark : (List.replicate (c.maxNesting + 1) '[' ++ (List.replicate more '[' ++ rest)).head? ≠ some '\ufeff' := by
    rw [List.replicate_succ, List.cons_append, List.head?_cons]
    decide
  unfold readAnswer
  dsimp only
  rw [hopen, String.toList_ofList, if_neg hmark, hread]

end Provider

end Cadence
