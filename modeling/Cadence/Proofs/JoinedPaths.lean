import Cadence.Proofs.AddressedPositions

/-!
# Joined paths

A path may be cut at any of its dots: what it leads to is read in two steps, the second path from what the first one
leads to. Empty segments do not count, so the two may begin and end with dots. From nothing, every path leads to
nothing.
-/

namespace Cadence

namespace Payload

/-- What a path leads to from what was found before it. -/
def readOn (found : Option Json) (path : String) : Outcome (Option Json) := (segments path).foldlM step found

theorem readOn_some (v : Json) (path : String) : readOn (some v) path = readPath v path := rfl

theorem readOn_none (path : String) : readOn none path = .ok none := foldlM_step_none (segments path)

theorem readPath_append (payload : Json) (a b : String) :
    readPath payload (a ++ "." ++ b) =
      match readPath payload a with
      | .ok found => readOn found b
      | .error fault => .error fault := by
  have hfold : readPath payload (a ++ "." ++ b) = (readPath payload a).bind (readOn · b) := by
    rw [readPath, segments_append, follow, List.foldlM_append]
    rfl
  rw [hfold]
  cases readPath payload a <;> rfl

/-- Two paths with a dot between them lead to what the second leads to from the value that the first leads to, and to
nothing if the first leads to nothing. The reading fails if and only if one of the two readings does, by its fault. -/
theorem joined_paths (payload : Json) (a b : String) :
    (∀ v, readPath payload a = .ok (some v) → readPath payload (a ++ "." ++ b) = readPath v b) ∧
      (readPath payload a = .ok none → readPath payload (a ++ "." ++ b) = .ok none) ∧
      ∀ fault, readPath payload (a ++ "." ++ b) = .error fault ↔
        readPath payload a = .error fault ∨
          ∃ found, readPath payload a = .ok found ∧ readOn found b = .error fault := by
  rw [readPath_append]
  refine ⟨fun v hv => ?_, fun hnone => ?_, fun fault => ?_⟩
  · rw [hv]
    exact readOn_some v b
  · rw [hnone]
    exact readOn_none b
  · cases readPath payload a with
    | error other => simp
    | ok found => simp

/-- Dots on both sides of the seam, and an index beyond the end of a list before it. -/
theorem joined_paths_lead :
    readPath leads ".leads..0." = .ok (some (.obj [("phone", .str "5550001")])) ∧
      readPath leads (".leads..0." ++ "." ++ ".phone.") = .ok (some (.str "5550001")) ∧
      readPath leads "leads.1" = .ok none ∧ readPath leads ("leads.1" ++ "." ++ "phone") = .ok none := by
  have hlead : readPath leads ".leads..0." = .ok (some (.obj [("phone", .str "5550001")])) := rfl
  have hbeyond : readPath leads "leads.1" = .ok none := rfl
  obtain ⟨hfound, -, -⟩ := joined_paths leads ".leads..0." ".phone."
  obtain ⟨-, hmissing, -⟩ := joined_paths leads "leads.1" "phone"
  exact ⟨hlead, hfound _ hlead, hbeyond, hmissing hbeyond⟩

end Payload

end Cadence
