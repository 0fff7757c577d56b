import Cadence.Proofs.ActionCap
import Cadence.Proofs.NumberValues

/-!
# Nodes that delay

A delay asks for a number of milliseconds, and waits for as many of them as lie within bounds. Whatever value its
settings hold, the number is finite, unless an integer is so great that no floating-point number is near it. Such
an integer ends the run. Apart from that a delay cannot fail: only the hook and the waiting itself can.
-/

namespace Cadence

namespace Workflow

/-- An integer that is at least half a step beyond the greatest floating-point number, on either side of zero. -/
def TooLarge (ms : Json) : Prop := ∃ i, ms = .int i ∧ 2 ^ 1024 - 2 ^ 970 ≤ i.natAbs

/-- The floating-point number that a value is taken for. -/
def asBinary : Json → Binary64
  | .bool b => .ofInt (if b then 1 else 0)
  | .int i => .ofInt i
  | .float x => x
  | .str s => (Binary64.ofText? s).getD .nan
  | .null | .arr _ | .obj _ => .nan

/-- The milliseconds that a value asks for. -/
def askedMs (ms : Json) : ℚ := (asBinary ms).valueOrZero

/-- So many milliseconds, within the bounds of a delay. -/
def clamped (q : ℚ) : ℚ := max 0 (min q maxDelayMs)

theorem quantity?_appliedMs {requested : Numeral} {q : ℚ} (h : requested.quantity? = some (.exact q)) :
    (appliedMs requested).quantity? = some (.exact (clamped q)) := by
  have hleast := Numeral.quantity?_least h (n := .whole maxDelayMs) rfl
  have hgreatest := Numeral.quantity?_greatest (m := .whole 0) rfl hleast
  have hmono := Quantity.exact_strictMono.monotone
  rw [appliedMs, hgreatest, clamped, hmono.map_max, hmono.map_min]
  push_cast
  rfl

theorem isLess_appliedMs {requested : Numeral} {q : ℚ} (h : requested.quantity? = some (.exact q)) :
    (Numeral.whole 0).isLess (appliedMs requested) = true ↔ 0 < clamped q := by
  rw [Numeral.isLess_iff (m := .whole 0) rfl (quantity?_appliedMs h), Quantity.exact_strictMono.lt_iff_lt,
    Int.cast_zero]

theorem quantity?_normalNumber (x : Binary64) :
    (normalNumber x).quantity? = some (.exact x.valueOrZero) := by
  rcases x.cases_ratio? with ⟨num, den, hratio, hden, hvalue⟩ | ⟨negative, rfl⟩ | rfl
  · have hden' : ((den : ℤ) : ℚ) ≠ 0 := by
      simp only [Int.cast_natCast, ne_eq, Nat.cast_eq_zero]
      omega
    simp only [normalNumber, Binary64.truncate?, Binary64.isWhole, Binary64.valueOrZero, hratio, Option.map_some,
      decide_eq_true_eq]
    split_ifs with hwhole
    · have hdvd : (den : ℤ) ∣ num := Int.dvd_of_emod_eq_zero hwhole
      rw [Numeral.quantity?, Int.tdiv_eq_ediv_of_dvd hdvd, Int.cast_div hdvd hden', Int.cast_natCast]
    · exact hvalue
  · rfl
  · rfl

theorem askedMs_bool (b : Bool) : askedMs (.bool b) = ((if b then 1 else 0 : ℤ) : ℚ) := by
  cases b
  · have hzero : asBinary (.bool false) = Binary64.zero false := rfl
    rw [askedMs, hzero, Binary64.valueOrZero_zero]
    rfl
  · have hratio : (Binary64.ofInt 1).ratio? = some (2 ^ 52, 2 ^ 52) := by decide +kernel
    simp [askedMs, asBinary, Binary64.valueOrZero, hratio]

/-- Every value asks for a finite number of milliseconds, except an integer that is too large. -/
theorem delayMs_cases (ms : Json) :
    (TooLarge ms ∧ delayMs ms = .error .numberTooLarge) ∨
      (¬TooLarge ms ∧
        ∃ requested, delayMs ms = .ok requested ∧ requested.quantity? = some (.exact (askedMs ms))) := by
  have hother (hint : ∀ i, ms ≠ .int i) : ¬TooLarge ms := fun ⟨i, heq, _⟩ => hint i heq
  cases ms with
  | int i =>
    rw [delayMs]
    by_cases hfinite : (Binary64.ofInt i).isFinite = true
    · have hbound := (Binary64.isFinite_ofInt i).mp hfinite
      refine .inr ⟨?_, _, if_pos hfinite, quantity?_normalNumber _⟩
      rintro ⟨j, heq, hlarge⟩
      cases heq
      exact absurd hbound (Nat.not_lt.mpr hlarge)
    · have hbound := mt (Binary64.isFinite_ofInt i).mpr hfinite
      exact .inl ⟨⟨i, rfl, Nat.not_lt.mp hbound⟩, if_neg hfinite⟩
  | float x => exact .inr ⟨hother fun _ => Json.noConfusion, _, rfl, quantity?_normalNumber x⟩
  | str s =>
    refine .inr ⟨hother fun _ => Json.noConfusion, _, rfl, ?_⟩
    rw [askedMs, asBinary]
    cases Binary64.ofText? s with
    | none => rfl
    | some x => exact quantity?_normalNumber x
  | bool b =>
    have hasked := (askedMs_bool b).symm
    exact .inr ⟨hother fun _ => Json.noConfusion, _, rfl, congrArg (fun q => some (Quantity.exact q)) hasked⟩
  | null | arr _ | obj _ => exact .inr ⟨hother fun _ => Json.noConfusion, _, rfl, rfl⟩

namespace Runtime

variable {σ : Type} (env : Surroundings σ) (r : RunRequest) (node : Node) (p : Progress σ)

/-- The wait of a delay of `q` milliseconds. -/
def waited (requested : Numeral) (q : ℚ) : Progress σ :=
  if 0 < clamped q then slept env ((appliedMs requested).divNat 1000) p else p

/-- The hook takes both events of a delay node, and the wait between them comes to its end. -/
structure Undisturbed (requested : Numeral) (q : ℚ) : Prop where
  entering : tellingOutcome env (entry node) p.world = .ok ()
  waiting : 0 < clamped q →
    ((env.sleep ((appliedMs requested).divNat 1000)).runOn (told env (entry node) p).world).1 = .ok ()
  finishing :
    tellingOutcome env (delayDone node requested) (waited env (told env (entry node) p) requested q).world = .ok ()

variable {env r node p}

theorem Undisturbed.of_neverInterrupts (h : env.NeverInterrupts)
    (hsleep : ∀ seconds w, ((env.sleep seconds).runOn w).1 = .ok ()) (requested : Numeral) (q : ℚ) :
    Undisturbed env node p requested q where
  entering := tellingOutcome_of_neverInterrupts h ..
  waiting _ := hsleep ..
  finishing := tellingOutcome_of_neverInterrupts h ..

/-- The fault is an order to stop, or what asking for the text of a fault of the hook raised. -/
def ByHook (env : Surroundings σ) (fault : Fault) : Prop :=
  fault.isCancellation = true ∨
    ∃ e w dropped, ((env.hook e).runOn w).1 = .error dropped ∧ dropped.text = .error fault

theorem tellingOutcome_error {e : Event} {w : σ} {fault : Fault} (h : tellingOutcome env e w = .error fault) :
    ByHook env fault := by
  unfold tellingOutcome at h
  split at h
  · cases h
  · rename_i dropped hhook
    split_ifs at h with hcancel
    · cases h
      exact .inl hcancel
    · refine .inr ⟨e, w, dropped, hhook, ?_⟩
      cases htext : dropped.text with
      | ok text =>
        rw [htext] at h
        cases h
      | error raised =>
        rw [htext] at h
        cases h
        rfl

/-- A delay of a finite number of milliseconds can only be broken off while it waits, or by the hook. -/
theorem runOn_runDelay_finite {requested : Numeral} {q : ℚ} (hdelay : delayMs (setting node "ms") = .ok requested)
    (hq : requested.quantity? = some (.exact q)) :
    (runDelay env node).runOn p =
      if 0 < clamped q then
        match ((env.sleep ((appliedMs requested).divNat 1000)).runOn p.world).1 with
        | .ok () => (emit env (delayDone node requested)).runOn (waited env p requested q)
        | .error fault => (.error fault, waited env p requested q)
      else (emit env (delayDone node requested)).runOn (waited env p requested q) := by
  rw [runOn_runDelay, hdelay]
  simp only [isLess_appliedMs hq, waited]
  split_ifs <;> rfl

theorem runOn_body_delay (hnode : NodeType.ofName? node.type = some .delay) :
    (body env r node).runOn p =
      match (runDelay env node).runOn p with
      | (.ok (), done) => (.ok false, done)
      | (.error fault, done) => (.error fault, done) := by
  unfold body
  rw [hnode, Task.runOn_bind]
  rcases (runDelay env node).runOn p with ⟨fault | ⟨⟩, done⟩ <;> rfl

theorem runNode_undisturbed (hnode : NodeType.ofName? node.type = some .delay) {requested : Numeral} {q : ℚ}
    (hdelay : delayMs (setting node "ms") = .ok requested) (hq : requested.quantity? = some (.exact q))
    (h : Undisturbed env node p requested q) :
    (runNode env r node).runOn p =
      (.ok false, told env (delayDone node requested) (waited env (told env (entry node) p) requested q)) := by
  have hwait : (runDelay env node).runOn (told env (entry node) p) =
      (.ok (), told env (delayDone node requested) (waited env (told env (entry node) p) requested q)) := by
    rw [runOn_runDelay_finite hdelay hq, runOn_emit (delayDone_written hdelay), h.finishing]
    split_ifs with hpos
    · rw [h.waiting hpos]
    · rfl
  rw [runOn_runNode, h.entering]
  dsimp only
  rw [runOn_body_delay hnode, hwait]

theorem runNode_disturbed (hnode : NodeType.ofName? node.type = some .delay) {requested : Numeral} {q : ℚ}
    (hdelay : delayMs (setting node "ms") = .ok requested) (hq : requested.quantity? = some (.exact q))
    (h : ¬Undisturbed env node p requested q) :
    ∃ fault done, (runNode env r node).runOn p = (.error fault, done) ∧
      (ByHook env fault ∨ ∃ seconds w, ((env.sleep seconds).runOn w).1 = .error fault) := by
  rw [runOn_runNode]
  rcases hentering : tellingOutcome env (entry node) p.world with fault | ⟨⟩
  · exact ⟨fault, _, rfl, .inl (tellingOutcome_error hentering)⟩
  dsimp only
  rw [runOn_body_delay hnode, runOn_runDelay_finite hdelay hq, runOn_emit (delayDone_written hdelay)]
  rcases hfinishing : tellingOutcome env (delayDone node requested)
    (waited env (told env (entry node) p) requested q).world with fault | ⟨⟩
  · have hhook := tellingOutcome_error hfinishing
    split_ifs with hpos
    · rcases hwaiting : ((env.sleep ((appliedMs requested).divNat 1000)).runOn
        (told env (entry node) p).world).1 with broken | ⟨⟩
      · exact ⟨broken, _, rfl, .inr ⟨_, _, hwaiting⟩⟩
      · exact ⟨fault, _, rfl, .inl hhook⟩
    · exact ⟨fault, _, rfl, .inl hhook⟩
  · -- the hook took both events, so the wait was broken off
    by_contra hnone
    refine h ⟨hentering, fun hpos => ?_, hfinishing⟩
    rcases hwaiting : ((env.sleep ((appliedMs requested).divNat 1000)).runOn
      (told env (entry node) p).world).1 with broken | ⟨⟩
    · exact absurd ⟨broken, _, by rw [if_pos hpos, hwaiting], .inr ⟨_, _, hwaiting⟩⟩ hnone
    · rfl

theorem runOn_runNodes_tooLarge (rest : List Node) (hnode : NodeType.ofName? node.type = some .delay)
    (hdelay : delayMs (setting node "ms") = .error .numberTooLarge)
    (hentering : tellingOutcome env (entry node) p.world = .ok ()) :
    (runNodes env r (node :: rest)).runOn p = (.error .numberTooLarge, told env (entry node) p) := by
  rw [runOn_runNodes_cons, runOn_runNode, hentering]
  dsimp only
  rw [runOn_body_delay hnode, runOn_runDelay, hdelay]

/-- A run passes every node that delays and goes on with the next one, after a wait of the milliseconds that were
asked for, within bounds; only the hook and the waiting can keep it from there. The exception is an integer that is
too large: it ends the run. -/
theorem delay_passed (env : Surroundings σ) (r : RunRequest) (node : Node) (rest : List Node) (p : Progress σ)
    (hnode : NodeType.ofName? node.type = some .delay) :
    let ms := setting node "ms"
    let q := askedMs ms
    (TooLarge ms ∧ delayMs ms = .error .numberTooLarge ∧
      (tellingOutcome env (entry node) p.world = .ok () →
        (runNodes env r (node :: rest)).runOn p = (.error .numberTooLarge, told env (entry node) p))) ∨
      (¬TooLarge ms ∧ ∃ requested, delayMs ms = .ok requested ∧ requested.quantity? = some (.exact q) ∧
        (appliedMs requested).quantity? = some (.exact (clamped q)) ∧
        (Undisturbed env node p requested q →
          (runNodes env r (node :: rest)).runOn p =
            (runNodes env r rest).runOn
              (told env (delayDone node requested) (waited env (told env (entry node) p) requested q))) ∧
        (¬Undisturbed env node p requested q →
          ∃ fault done, (runNodes env r (node :: rest)).runOn p = (.error fault, done) ∧
            (ByHook env fault ∨ ∃ seconds w, ((env.sleep seconds).runOn w).1 = .error fault))) := by
  intro ms q
  rcases delayMs_cases ms with ⟨hlarge, hdelay⟩ | ⟨hsmall, requested, hdelay, hq⟩
  · exact .inl ⟨hlarge, hdelay, runOn_runNodes_tooLarge rest hnode hdelay⟩
  · refine .inr ⟨hsmall, requested, hdelay, hq, quantity?_appliedMs hq, fun h => ?_, fun h => ?_⟩
    · rw [runOn_runNodes_cons, runNode_undisturbed hnode hdelay hq h]
    · obtain ⟨fault, done, hrun, hfault⟩ := runNode_disturbed (r := r) hnode hdelay hq h
      refine ⟨fault, done, ?_, hfault⟩
      rw [runOn_runNodes_cons, hrun]

/-- A delay of one and a half seconds. -/
def shortDelay : Node := ⟨"wait", "delay", [("ms", .int 1500)]⟩

theorem askedMs_shortDelay : askedMs (setting shortDelay "ms") = 1500 := by
  have hratio : (Binary64.ofInt 1500).ratio? = some (1500 * 2 ^ 42, 2 ^ 42) := by decide +kernel
  have hasked : askedMs (setting shortDelay "ms") = (Binary64.ofInt 1500).valueOrZero := rfl
  rw [hasked, Binary64.valueOrZero, hratio]
  norm_num

theorem delay_passed_short :
    NodeType.ofName? shortDelay.type = some .delay ∧ clamped (askedMs (setting shortDelay "ms")) = 1500 ∧
      ∃ requested, delayMs (setting shortDelay "ms") = .ok requested ∧
        (runNodes counting twoActions [shortDelay]).runOn { world := 0 } =
          (.ok none, told counting (delayDone shortDelay requested)
            (slept counting ((appliedMs requested).divNat 1000)
              (told counting (entry shortDelay) { world := 0 }))) := by
  have hnode : NodeType.ofName? shortDelay.type = some .delay := by decide
  have hclamped : clamped (askedMs (setting shortDelay "ms")) = 1500 := by
    rw [askedMs_shortDelay]
    norm_num [clamped, maxDelayMs]
  refine ⟨hnode, hclamped, ?_⟩
  rcases delay_passed counting twoActions shortDelay [] { world := 0 } hnode with
    ⟨-, hdelay, -⟩ | ⟨-, requested, hdelay, -, -, hpassed, -⟩
  · have hwhole : delayMs (setting shortDelay "ms") = .ok (.whole 1500) := rfl
    rw [hwhole] at hdelay
    cases hdelay
  · have hhook : counting.NeverInterrupts := fun _ _ _ h => nomatch h
    refine ⟨requested, hdelay, ?_⟩
    rw [hpassed (.of_neverInterrupts hhook (fun _ _ => rfl) ..), waited, if_pos (by rw [hclamped]; norm_num)]
    rfl

/-- Beyond the floating-point numbers a delay ends the run. -/
theorem delay_raises :
    let node : Node := ⟨"wait", "delay", [("ms", .int (2 ^ 1024 : ℕ))]⟩
    delayMs (setting node "ms") = .error .numberTooLarge ∧
      (runNodes counting twoActions [node]).runOn { world := 0 } =
        (.error .numberTooLarge, told counting (entry node) { world := 0 }) := by
  intro node
  have hlarge : TooLarge (setting node "ms") := by
    refine ⟨(2 ^ 1024 : ℕ), rfl, ?_⟩
    rw [Int.natAbs_natCast]
    exact Nat.sub_le _ _
  have hdelay : delayMs (setting node "ms") = .error .numberTooLarge := by
    rcases delayMs_cases (setting node "ms") with ⟨-, hdelay⟩ | ⟨hsmall, -⟩
    · exact hdelay
    · exact absurd hlarge hsmall
  exact ⟨hdelay, runOn_runNodes_tooLarge [] (by decide) hdelay rfl⟩

end Runtime

end Workflow

end Cadence
