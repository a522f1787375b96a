import BlockSafe.Proofs.Generation.Guarantee
import BlockSafe.Proofs.Generation.Trace

/-!
# Larger budgets

A larger budget asks for everything that a smaller one asks for (`next?_mono`), so the calls made
with the smaller one are the first calls made with the larger one (`climb_extends`).  A run differs
only where the smaller budget gave out: a failure, or a block-safe program of the provider, ends the
run with either budget.
-/

namespace BlockSafe

/-- What a budget asks for, a larger one asks for. -/
theorem next?_mono {small large : Budgets} (hempty : small.empty ≤ large.empty)
    (hvalidation : small.validation ≤ large.validation) {earlier : List Attempt} {last : Attempt}
    {suffix : Text} (h : small.next? earlier last = some suffix) :
    large.next? earlier last = some suffix := by
  rcases next?_eq_some.1 h with ⟨hc, hv, hlt, hs⟩ | ⟨hc, h0, hlt, hs⟩
  · exact next?_eq_some.2 (.inl ⟨hc, hv, Nat.lt_of_lt_of_le hlt hvalidation, hs⟩)
  · exact next?_eq_some.2 (.inr ⟨hc, h0, Nat.lt_of_lt_of_le hlt hempty, hs⟩)

/-- No budget asks for anything after a block-safe program. -/
theorem next?_of_compliant {last : Attempt} (hc : last.hasCode = true)
    (hv : last.compliant = true) (budgets : Budgets) (earlier : List Attempt) :
    budgets.next? earlier last = none :=
  next?_eq_none_of (fun _ => .inl hv) fun h => by
    rw [hc] at h
    cases h

section
variable {σ : Type} {gateway : Gateway σ} {plan : Plan}

/-! ## Calls only grow -/

theorem calls_attempt (gateway : Gateway σ) (plan : Plan) (suffix : Text) (now : Progress σ) :
    now.calls <+: (attempt gateway plan suffix now).2.calls := by
  cases ha : attempt gateway plan suffix now with
  | mk result after =>
    rcases attempt_cases ha with ⟨-, -, rfl⟩ | ⟨-, hcalls, -⟩
    · exact List.prefix_refl _
    · show now.calls <+: after.calls
      rw [hcalls]
      exact List.prefix_append _ _

theorem calls_follow (next? : List Attempt → Attempt → Option Text) (n : Nat)
    (earlier : List Attempt) (last : Attempt) (now : Progress σ) :
    now.calls <+: (follow gateway plan next? n earlier last now).2.calls := by
  let Grown := fun after : Progress σ => now.calls <+: after.calls
  have hstep : ∀ (earlier : List Attempt) (last : Attempt) between suffix, Grown between →
      next? earlier last = some suffix →
      Ends (fun _ => Grown) (fun _ => Grown) (attempt gateway plan suffix between) :=
    fun _ _ between suffix h _ =>
      ends_progress.2 (List.IsPrefix.trans h (calls_attempt gateway plan suffix between))
  have hfollow := follow_history (A := fun _ _ => Grown) hstep n earlier last now
    (List.prefix_refl _)
  exact ends_progress.1 (hfollow.imp (fun _ _ ⟨_, h⟩ => h) fun _ _ h => h)

theorem calls_ask (next? : List Attempt → Attempt → Option Text) (n : Nat)
    (earlier : List Attempt) (suffix : Text) (now : Progress σ) :
    (attempt gateway plan suffix now).2.calls <+:
      (ask gateway plan next? n earlier suffix now).2.calls := by
  unfold ask
  cases attempt gateway plan suffix now with
  | mk result after =>
    cases result with
    | ok made => exact calls_follow next? n earlier made after
    | error failure => exact List.prefix_refl _

/-! ## Two rules -/

/-- Nothing is asked after the attempt that a step yields. -/
def Final (next? : List Attempt → Attempt → Option Text) : Step σ Attempt → Prop :=
  Ends (fun last _ => ∀ earlier, next? earlier last = none) fun _ _ => True

variable {small large : List Attempt → Attempt → Option Text}

/-- A run by the rule `large` extends one by `small`: it makes the same calls first, and it is the
same if the shorter one is final for `large`. -/
def Extends (large : List Attempt → Attempt → Option Text) (run longer : Step σ Attempt) : Prop :=
  run.2.calls <+: longer.2.calls ∧ (Final large run → longer = run)

theorem ask_extends {n m : Nat} {earlier : List Attempt}
    (hfollow : ∀ last (now : Progress σ), Extends large
      (follow gateway plan small n earlier last now) (follow gateway plan large m earlier last now))
    (suffix : Text) (now : Progress σ) :
    Extends large (ask gateway plan small n earlier suffix now)
      (ask gateway plan large m earlier suffix now) := by
  unfold ask
  cases attempt gateway plan suffix now with
  | mk result after =>
    cases result with
    | ok made => exact hfollow made after
    | error failure => exact ⟨List.prefix_refl _, fun _ => rfl⟩

theorem follow_extends
    (hle : ∀ earlier last suffix, small earlier last = some suffix →
      large earlier last = some suffix) :
    ∀ n m earlier last (now : Progress σ), n ≤ m →
      Extends large (follow gateway plan small n earlier last now)
        (follow gateway plan large m earlier last now) := by
  -- Where the smaller rule stops, the larger may go on, but not after what is final for it.
  have hstop : ∀ m earlier last (now : Progress σ),
      Extends large (.ok last, now) (follow gateway plan large m earlier last now) :=
    fun m earlier last now =>
      ⟨calls_follow large m earlier last now, fun h => follow_of_none (h earlier) m now⟩
  intro n
  induction n with
  | zero => exact fun m earlier last now _ => hstop m earlier last now
  | succ n ih =>
    intro m earlier last now hm
    obtain ⟨m, rfl⟩ : ∃ k, m = k + 1 := ⟨m - 1, by omega⟩
    cases hs : small earlier last with
    | none =>
      rw [follow_of_none hs]
      exact hstop (m + 1) earlier last now
    | some suffix =>
      rw [follow_of_some hs, follow_of_some (hle earlier last suffix hs)]
      exact ask_extends (fun made after => ih m (last :: earlier) made after (by omega)) suffix now

theorem climb_extends {small large : Budgets} (hempty : small.empty ≤ large.empty)
    (hvalidation : small.validation ≤ large.validation) (gateway : Gateway σ) (plan : Plan)
    (now : Progress σ) :
    Extends large.next? (climb gateway plan small now) (climb gateway plan large now) := by
  rw [climb_eq_ask, climb_eq_ask]
  exact ask_extends (fun first after =>
    follow_extends (fun _ _ _ h => next?_mono hempty hvalidation h) _ _ [] first after
      (Nat.add_le_add hempty hvalidation)) [] now

end

/-! ## Generations -/

/-- An outcome with the program of the reply itself comes of a block-safe program: the stub that
stands in for any other differs from it. -/
theorem compliant_of_settle {target : Target} {reply : Reply} {notes : List Text}
    (hcanonical : Canonical reply.code)
    (h : (settle target (Attempt.ofReply target reply) notes).code = reply.code) :
    (Attempt.ofReply target reply).hasCode = true ∧
      (Attempt.ofReply target reply).compliant = true := by
  have hg := settle_guaranteed target hcanonical notes
  have hprogram := hg.program
  have hcompliant := hg.compliant
  rw [h] at hprogram hcompliant
  simp [Attempt.hasCode, Attempt.compliant, Attempt.ofReply, Attempt.isProgram, hprogram,
    hcompliant]

section
variable {σ : Type} {gateway : Gateway σ} {plan : Plan} {start : σ} {step : Step σ Attempt}

theorem final_of_failure {target : Target} {failure : Failure}
    {next? : List Attempt → Attempt → Option Text}
    (h : (concluded target step).1 = .error failure) : Final next? step := by
  cases step with
  | mk result after =>
    cases result with
    | ok last => cases h
    | error failure => trivial

theorem final_of_program {raw : Text} {reply : Reply} {outcome : Outcome}
    {F : Failure → Progress σ → Prop} (large : Budgets)
    (hstanding : Ends
      (fun last after => ∃ earlier, Standing gateway plan start (last :: earlier) after) F step)
    (hlast : (gateway.results start step.2.calls).getLast? = some (.ok raw))
    (hread : Reply.ofText plan.limits raw = .ok reply)
    (hok : (concluded plan.target step).1 = .ok outcome) (hcode : outcome.code = reply.code) :
    Final large.next? step := by
  cases step with
  | mk result after =>
    cases result with
    | error failure => cases hok
    | ok last =>
      obtain ⟨earlier, h⟩ := hstanding
      obtain ⟨raw', reply', hraw, hread', rfl⟩ := h.last_result
      rw [hraw] at hlast
      cases hlast
      rw [hread'] at hread
      cases hread
      cases hok
      obtain ⟨hprogram, hcompliant⟩ := compliant_of_settle (canonical_code hread') hcode
      exact fun earlier => next?_of_compliant hprogram hcompliant large earlier

end

/-- **Larger budgets change no call that was made.**  The calls with smaller budgets are the first
calls with larger ones, and a generation that returns the program of its last reply, or fails, is
the same generation with larger ones. -/
theorem generate_larger_budgets {σ : Type} (generator : Generator) (gateway : Gateway σ)
    (request : Request) (cancelled : Bool) (state : σ) {small large : Budgets}
    (hempty : small.empty ≤ large.empty) (hvalidation : small.validation ≤ large.validation) :
    let run := fun budgets : Budgets =>
      { generator with budgets := budgets }.generate gateway request cancelled state
    (run small).2.calls <+: (run large).2.calls ∧
    (∀ raw reply outcome,
      (gateway.results state (run small).2.calls).getLast? = some (.ok raw) →
      Reply.ofText generator.limits raw = .ok reply → (run small).1 = .ok outcome →
      outcome.code = reply.code → run large = run small) ∧
    ∀ failure, (run small).1 = .error failure → run large = run small := by
  intro run
  let plan := generator.plan request
  let climbed := fun budgets => climb gateway plan budgets ⟨state, cancelled, [], []⟩
  have hrun : ∀ budgets, run budgets = concluded request.target (climbed budgets) :=
    fun budgets => generate_eq_concluded { generator with budgets := budgets } _ _ _ _
  obtain ⟨hcalls, hsame⟩ : Extends large.next? (climbed small) (climbed large) :=
    climb_extends hempty hvalidation gateway plan ⟨state, cancelled, [], []⟩
  have hfinal : Final large.next? (climbed small) → run large = run small := by
    intro h
    rw [hrun, hrun, hsame h]
  refine ⟨?_, ?_, ?_⟩
  · rw [hrun, hrun, concluded_progress, concluded_progress]
    exact hcalls
  · intro raw reply outcome hlast hread hok hcode
    rw [hrun, concluded_progress] at hlast
    rw [hrun] at hok
    exact hfinal (final_of_program large (climb_standing gateway plan state small cancelled)
      hlast hread hok hcode)
  · intro failure herror
    rw [hrun] at herror
    exact hfinal (final_of_failure herror)

/-- A reply without a program, and then no provider any more. -/
def lostScript : List ScriptedReply := [.text "", .fail ⟨.transport, "down"⟩]

/-- The one retry fails, and no other is tried with larger budgets. -/
theorem generate_larger_budgets_lost :
    let run := fun budgets : Budgets =>
      { plainGenerator with budgets := budgets }.generate scripted plainRequest false lostScript
    (run ⟨1, 0⟩).1 = .error ⟨.transport, "down"⟩ ∧ run ⟨3, 2⟩ = run ⟨1, 0⟩ := by
  intro run
  have herror : (run ⟨1, 0⟩).1 = .error ⟨.transport, "down"⟩ := by decide +kernel
  have hempty : (⟨1, 0⟩ : Budgets).empty ≤ (⟨3, 2⟩ : Budgets).empty := by decide
  have hvalidation : (⟨1, 0⟩ : Budgets).validation ≤ (⟨3, 2⟩ : Budgets).validation := by decide
  have hlarger := generate_larger_budgets plainGenerator scripted plainRequest false lostScript
    hempty hvalidation
  exact ⟨herror, hlarger.2.2 _ herror⟩

end BlockSafe
