import BlockSafe.Generation.Ladder

/-!
# Runs of the ladder

What one attempt can do is said once, in `attempt_cases`: it finds the token cancelled, or it makes
one call, and what comes back is read as a reply or as a failure.  What every attempt keeps, a whole
climb keeps (`climb_rule`).
-/

namespace BlockSafe

/-! ## Results of calls -/

section
variable {ε ε' α : Type} {f : ε → ε'} {result : Except ε α}

theorem mapError_eq_ok {a : α} : result.mapError f = .ok a ↔ result = .ok a := by
  cases result with
  | error e => exact ⟨nofun, nofun⟩
  | ok b => exact ⟨fun h => congrArg _ (Except.ok.inj h), fun h => congrArg _ (Except.ok.inj h)⟩

theorem mapError_eq_error {e' : ε'} :
    result.mapError f = .error e' ↔ ∃ e, result = .error e ∧ e' = f e := by
  cases result with
  | error e =>
    constructor
    · intro h
      exact ⟨e, rfl, (Except.error.inj h).symm⟩
    · rintro ⟨_, he, rfl⟩
      cases he
      rfl
  | ok a => exact ⟨nofun, fun ⟨_, he, _⟩ => nomatch he⟩

end

section
variable {limits : Limits} {result : Except Failure Text}

theorem ofResult_error (failure : Failure) :
    Reply.ofResult limits (.error failure) = .error failure := rfl

theorem ofResult_ok (raw : Text) :
    Reply.ofResult limits (.ok raw) = (Reply.ofText limits raw).mapError Excess.failure := rfl

/-- A reply is read where the call brought a text within the limits. -/
theorem ofResult_eq_ok {reply : Reply} : Reply.ofResult limits result = .ok reply ↔
    ∃ raw, result = .ok raw ∧ Reply.ofText limits raw = .ok reply := by
  cases result with
  | error failure => simp [ofResult_error]
  | ok raw => simp [ofResult_ok, mapError_eq_ok]

/-- Otherwise the call failed, or its text goes beyond the limits. -/
theorem ofResult_eq_error {failure : Failure} : Reply.ofResult limits result = .error failure ↔
    result = .error failure ∨ ∃ raw excess, result = .ok raw ∧
      Reply.ofText limits raw = .error excess ∧ failure = excess.failure := by
  cases result with
  | error e => simp [ofResult_error]
  | ok raw => simp [ofResult_ok, mapError_eq_error]

end

variable {σ : Type} {gateway : Gateway σ} {plan : Plan}

/-- An attempt ends on a cancelled token without a call, or with what is read of its call: a failure
or a reply. -/
theorem attempt_cases {suffix : Text} {now after : Progress σ} {result : Except Failure Attempt}
    (h : attempt gateway plan suffix now = (result, after)) :
    (now.cancelled = true ∧ result = .error .cancellation ∧ after = now) ∨
    (now.cancelled = false ∧ after.calls = now.calls ++ [plan.call suffix] ∧
      ∃ brought, gateway.call (plan.call suffix) false now.state =
          ⟨brought, after.cancelled, after.state⟩ ∧
        ((∃ failure, Reply.ofResult plan.limits brought = .error failure ∧
            result = .error failure ∧ after.notes = now.notes) ∨
          ∃ reply, Reply.ofResult plan.limits brought = .ok reply ∧
            result = .ok (Attempt.ofReply plan.target reply) ∧
            after.notes = now.notes ++ reply.feedback)) := by
  unfold attempt checkToken at h
  cases hc : now.cancelled with
  | true =>
    simp only [hc, if_true] at h
    cases h
    exact .inl ⟨rfl, rfl, rfl⟩
  | false =>
    simp only [hc, Bool.false_eq_true, if_false] at h
    right
    cases ha : gateway.call (plan.call suffix) false now.state with
    | mk brought cancelled state =>
      rw [ha] at h
      dsimp only at h
      cases hread : Reply.ofResult plan.limits brought with
      | error failure =>
        rw [hread] at h
        cases h
        exact ⟨rfl, rfl, brought, rfl, .inl ⟨failure, hread, rfl, rfl⟩⟩
      | ok reply =>
        rw [hread] at h
        cases h
        exact ⟨rfl, rfl, brought, rfl, .inr ⟨reply, hread, rfl, rfl⟩⟩

/-! ## What attempts keep -/

/-- What holds at the end of a step: of the attempt that it yields, or of its failure. -/
def Ends {α : Type} (A : α → Progress σ → Prop) (F : Failure → Progress σ → Prop) :
    Step σ α → Prop
  | (.ok last, after) => A last after
  | (.error failure, after) => F failure after

theorem Ends.imp {α : Type} {A A' : α → Progress σ → Prop} {F F' : Failure → Progress σ → Prop}
    {step : Step σ α} (h : Ends A F step) (hA : ∀ last after, A last after → A' last after)
    (hF : ∀ failure after, F failure after → F' failure after) : Ends A' F' step := by
  cases step with
  | mk result after =>
    cases result with
    | ok last => exact hA last after h
    | error failure => exact hF failure after h

theorem Ends.and {α : Type} {A A' : α → Progress σ → Prop} {F F' : Failure → Progress σ → Prop}
    {step : Step σ α} (h : Ends A F step) (h' : Ends A' F' step) :
    Ends (fun last after => A last after ∧ A' last after)
      (fun failure after => F failure after ∧ F' failure after) step := by
  cases step with
  | mk result after =>
    cases result with
    | ok last => exact ⟨h, h'⟩
    | error failure => exact ⟨h, h'⟩

/-- What holds at either end holds where the step ends. -/
theorem ends_progress {α : Type} {P : Progress σ → Prop} {step : Step σ α} :
    Ends (fun _ => P) (fun _ => P) step ↔ P step.2 := by
  cases step with
  | mk result after =>
    cases result with
    | ok last => exact Iff.rfl
    | error failure => exact Iff.rfl

section
variable {A : Attempt → Progress σ → Prop} {F : Failure → Progress σ → Prop}
  (hstep : ∀ suffix last now, A last now → Ends A F (attempt gateway plan suffix now))

include hstep

theorem climbEmpty_rule (budget : Nat) :
    ∀ last now, A last now → Ends A F (climbEmpty gateway plan budget last now) := by
  induction budget with
  | zero => exact fun last now h => h
  | succ budget ih =>
    intro last now h
    rw [climbEmpty]
    split
    · exact h
    · have hs := hstep emptySuffix last now h
      split
      · next next after ha => exact ih next after (by rwa [ha] at hs)
      · next failure after ha => rwa [ha] at hs

theorem climbInvalid_rule (budget : Nat) :
    ∀ retry last now, A last now → Ends A F (climbInvalid gateway plan budget retry last now) := by
  induction budget with
  | zero => exact fun retry last now h => h
  | succ budget ih =>
    intro retry last now h
    rw [climbInvalid]
    split
    · have hs := hstep (violationSuffix last.violations retry) last now h
      split
      · next next after ha => exact ih (retry + 1) next after (by rwa [ha] at hs)
      · next failure after ha => rwa [ha] at hs
    · exact h

/-- What the first attempt establishes and every later one keeps holds at the end of a climb. -/
theorem climb_rule (budgets : Budgets) {now : Progress σ}
    (hfirst : Ends A F (attempt gateway plan [] now)) :
    Ends A F (climb gateway plan budgets now) := by
  unfold climb
  split
  · next failure after ha => rwa [ha] at hfirst
  · next first afterFirst ha =>
    rw [ha] at hfirst
    have he := climbEmpty_rule hstep budgets.empty first afterFirst hfirst
    split
    · next failure after hb => rwa [hb] at he
    · next second afterSecond hb =>
      rw [hb] at he
      exact climbInvalid_rule hstep budgets.validation 0 second afterSecond he

end

end BlockSafe
