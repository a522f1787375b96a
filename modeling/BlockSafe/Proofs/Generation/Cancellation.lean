import BlockSafe.Proofs.Generation.LargerBudgets

/-!
# Cancellation

A token that is cancelled during a call is noticed before the next one.  So a run with a token that
may be cancelled is compared with the same run on a token that nobody cancels (`undisturbed`): the
two agree to the end, or the first is cut off by a cancellation where the second goes on to another
call (`CutOff`).

    generate = the undisturbed generation, or cut off by a cancellation       (generate_undisturbed)

In a session with one token for all requests, whatever follows a cancellation fails without a call
(`serve_cancelled`).  A cancellation during the call that ends the ladder makes no difference,
unless the gateway itself fails on it (`Gateway.Surfaces`).
-/

namespace BlockSafe

variable {σ : Type}

/-! ## Nobody cancels -/

/-- The same gateway with a token that nobody cancels. -/
def Gateway.undisturbed (gateway : Gateway σ) : Gateway σ where
  call call cancelled state := { gateway.call call cancelled state with cancelled := cancelled }

/-- The same point of a generation with a token that nobody has cancelled. -/
def Progress.reopened (now : Progress σ) : Progress σ := { now with cancelled := false }

/-- A run ends on a cancelled token where the undisturbed one goes on to another call. -/
def CutOff {α : Type} (run undisturbed : Step σ α) : Prop :=
  run.1 = .error .cancellation ∧ run.2.cancelled = true ∧
    run.2.calls <+: undisturbed.2.calls ∧ run.2.calls.length < undisturbed.2.calls.length

/-- A run ends like the undisturbed one, or it is cut off. -/
def Accords {α : Type} (run undisturbed : Step σ α) : Prop :=
  undisturbed = (run.1, run.2.reopened) ∨ CutOff run undisturbed

section
variable (gateway : Gateway σ) (plan : Plan)

theorem attempt_cancelled {now : Progress σ} (h : now.cancelled = true) (suffix : Text) :
    attempt gateway plan suffix now = (.error .cancellation, now) := by
  unfold attempt checkToken
  rw [h]
  rfl

theorem attempt_undisturbed {now : Progress σ} (h : now.cancelled = false) (suffix : Text) :
    attempt gateway.undisturbed plan suffix now.reopened =
      ((attempt gateway plan suffix now).1, (attempt gateway plan suffix now).2.reopened) := by
  unfold attempt checkToken Gateway.undisturbed Progress.reopened
  rw [h]
  simp only [Bool.false_eq_true, if_false]
  cases Reply.ofResult plan.limits (gateway.call (plan.call suffix) false now.state).result with
  | error failure => rfl
  | ok reply => rfl

/-- An attempt that finds the token open makes its call. -/
theorem calls_attempt_of_open {now : Progress σ} (h : now.cancelled = false) (suffix : Text) :
    (attempt gateway plan suffix now).2.calls = now.calls ++ [plan.call suffix] := by
  cases ha : attempt gateway plan suffix now with
  | mk result after =>
    rcases attempt_cases ha with ⟨hc, -⟩ | ⟨-, hcalls, -⟩
    · rw [h] at hc
      cases hc
    · exact hcalls

/-- Where the token is cancelled before an attempt, the run is cut off, however the undisturbed one
goes on after its call. -/
theorem cutOff_of_cancelled {α : Type} {now : Progress σ} (h : now.cancelled = true)
    {suffix : Text} {undisturbed : Step σ α}
    (hgrown : (attempt gateway.undisturbed plan suffix now.reopened).2.calls <+:
      undisturbed.2.calls) :
    CutOff ((.error .cancellation, now) : Step σ α) undisturbed := by
  rw [calls_attempt_of_open _ _ rfl] at hgrown
  refine ⟨rfl, h, (List.prefix_append _ _).trans hgrown, ?_⟩
  have hlength := hgrown.length_le
  rw [List.length_append] at hlength
  exact Nat.lt_of_succ_le hlength

theorem ask_undisturbed {next? : List Attempt → Attempt → Option Text} {n : Nat}
    {earlier : List Attempt}
    (hfollow : ∀ last (now : Progress σ), Accords (follow gateway plan next? n earlier last now)
      (follow gateway.undisturbed plan next? n earlier last now.reopened))
    (suffix : Text) (now : Progress σ) :
    Accords (ask gateway plan next? n earlier suffix now)
      (ask gateway.undisturbed plan next? n earlier suffix now.reopened) := by
  cases hc : now.cancelled with
  | true =>
    have hgrown : (attempt gateway.undisturbed plan suffix now.reopened).2.calls <+: _ :=
      calls_ask next? n earlier suffix now.reopened
    have hcut := cutOff_of_cancelled gateway plan hc hgrown
    unfold ask
    rw [attempt_cancelled _ _ hc]
    exact .inr hcut
  | false =>
    unfold ask
    rw [attempt_undisturbed _ _ hc]
    cases attempt gateway plan suffix now with
    | mk result after =>
      cases result with
      | ok made => exact hfollow made after
      | error failure => exact .inl rfl

theorem follow_undisturbed (next? : List Attempt → Attempt → Option Text) :
    ∀ n earlier last (now : Progress σ),
      Accords (follow gateway plan next? n earlier last now)
        (follow gateway.undisturbed plan next? n earlier last now.reopened) := by
  intro n
  induction n with
  | zero => exact fun _ _ _ => .inl rfl
  | succ n ih =>
    intro earlier last now
    cases hs : next? earlier last with
    | none =>
      rw [follow_of_none hs, follow_of_none hs]
      exact .inl rfl
    | some suffix =>
      rw [follow_of_some hs, follow_of_some hs]
      exact ask_undisturbed gateway plan (ih (last :: earlier)) suffix now

end

theorem Accords.concluded {target : Target} {run undisturbed : Step σ Attempt}
    (h : Accords run undisturbed) :
    Accords (concluded target run) (concluded target undisturbed) := by
  rcases h with hsame | ⟨herror, hcut⟩
  · left
    rw [hsame]
    cases run with
    | mk result after =>
      cases result with
      | ok last => rfl
      | error failure => rfl
  · right
    refine ⟨concluded_error herror, ?_⟩
    rw [concluded_progress, concluded_progress]
    exact hcut

/-- A generation ends like the undisturbed one, or it is cut off. -/
theorem generate_undisturbed (generator : Generator) (gateway : Gateway σ) (request : Request)
    (cancelled : Bool) (state : σ) :
    Accords (generator.generate gateway request cancelled state)
      (generator.generate gateway.undisturbed request false state) := by
  rw [generate_eq_concluded, generate_eq_concluded, climb_eq_ask, climb_eq_ask]
  have hask := ask_undisturbed gateway (generator.plan request)
    (follow_undisturbed gateway (generator.plan request) generator.budgets.next?
      (generator.budgets.empty + generator.budgets.validation) [])
    [] ⟨state, cancelled, [], []⟩
  exact hask.concluded

/-! ## Cancelled tokens -/

section
variable (generator : Generator) (gateway : Gateway σ)

/-- On a token that is cancelled from the start a generation makes no call. -/
theorem generate_cancelled (request : Request) (state : σ) :
    generator.generate gateway request true state =
      (.error .cancellation, ⟨state, true, [], []⟩) := by
  unfold Generator.generate climb
  rw [attempt_cancelled _ _ rfl]

/-- A token stays cancelled. -/
theorem generate_stays_cancelled (request : Request) (cancelled : Bool) (state : σ) :
    let after := (generator.generate gateway request cancelled state).2
    cancelled = true ∨ (∃ answer ∈ gateway.answers state after.calls, answer.cancelled = true) →
      after.cancelled = true := by
  intro after h
  rcases h with rfl | ⟨answer, hmem, hanswer⟩
  · exact congrArg (·.2.cancelled) (generate_cancelled generator gateway request state)
  · by_contra hopen
    have hanswered : Answered gateway state after :=
      generate_answered generator gateway request cancelled state
    have h := hanswered.uncancelled (Bool.eq_false_iff.2 hopen) answer hmem
    rw [hanswer] at h
    cases h

/-! ## Sessions -/

/-- The token of a session is cancelled before its request `j`. -/
def CancelledBefore (cancelled : Bool) (session : List (Served σ)) (j : Nat) : Prop :=
  cancelled = true ∨ ∃ i result after, i < j ∧ session[i]? = some (.done result after) ∧
    after.cancelled = true

/-- What is cancelled before a request is cancelled before it in the rest of the session, which has
the token as the first request leaves it. -/
theorem CancelledBefore.tail {cancelled left : Bool} {first : Served σ}
    {session : List (Served σ)} {j : Nat}
    (h : CancelledBefore cancelled (first :: session) (j + 1))
    (hstays : cancelled = true → left = true)
    (hfirst : ∀ result after, first = .done result after → after.cancelled = true → left = true) :
    CancelledBefore left session j := by
  rcases h with hc | ⟨i, result, after, hi, hdone, hafter⟩
  · exact .inl (hstays hc)
  · cases i with
    | zero => exact .inl (hfirst result after (Option.some.inj hdone) hafter)
    | succ i => exact .inr ⟨i, result, after, Nat.lt_of_succ_lt_succ hi, hdone, hafter⟩

/-- After a cancellation every request of a session fails without a call. -/
theorem serve_cancelled {request : Request} : ∀ (requests : List (Checked Request))
    (cancelled : Bool) (state : σ) (j : Nat), requests[j]? = some (.ok request) →
    CancelledBefore cancelled (serve generator gateway (.shared cancelled) state requests) j →
    ∃ after, (serve generator gateway (.shared cancelled) state requests)[j]? =
      some (.done (.error .cancellation) after) ∧ after.calls = [] := by
  intro requests
  induction requests with
  | nil => exact fun _ _ _ h => nomatch h
  | cons first rest ih =>
    intro cancelled state j hj hbefore
    cases first with
    | error issues =>
      cases j with
      | zero => cases hj
      | succ j => exact ih cancelled state j hj (hbefore.tail id nofun)
    | ok first =>
      have hstays := generate_stays_cancelled generator gateway first cancelled state
      cases j with
      | zero =>
        rcases hbefore with rfl | ⟨i, -, -, hi, -⟩
        · unfold serve
          rw [show TokenUse.cancelled (.shared true) = true from rfl, generate_cancelled]
          exact ⟨_, rfl, rfl⟩
        · exact absurd hi (Nat.not_lt_zero i)
      | succ j =>
        apply ih _ _ j hj
        apply hbefore.tail fun hc => hstays (.inl hc)
        rintro result after hdone hafter
        cases hdone
        exact hafter

/-- **No call after a cancellation.**  No call is made on a cancelled token.  A generation that
would have gone on to another call fails with the cancellation instead, and so does, without a
call, every later one of a session with the same token. -/
theorem no_call_after_cancellation (request : Request) (cancelled : Bool) (state : σ) :
    let run := generator.generate gateway request cancelled state
    let undisturbed := generator.generate gateway.undisturbed request false state
    EachCall (InTime gateway state) run.2.calls ∧
    (cancelled = true → run.1 = .error .cancellation ∧ run.2.calls = []) ∧
    (run.2.calls.length < undisturbed.2.calls.length → run.1 = .error .cancellation) ∧
    ((∃ answer ∈ gateway.answers state run.2.calls, answer.cancelled = true) →
      run.2.cancelled = true) ∧
    ∀ requests j later,
      let session := serve generator gateway (.shared cancelled) state requests
      requests[j]? = some (.ok later) → CancelledBefore cancelled session j →
        ∃ after, session[j]? = some (.done (.error .cancellation) after) ∧ after.calls = [] := by
  intro run undisturbed
  refine ⟨?_, ?_, ?_, ?_, ?_⟩
  · exact (generate_answered generator gateway request cancelled state).inTime
  · rintro rfl
    have hrun : run = (.error .cancellation, ⟨state, true, [], []⟩) :=
      generate_cancelled generator gateway request state
    rw [hrun]
    exact ⟨rfl, rfl⟩
  · intro hshorter
    have haccords : Accords run undisturbed :=
      generate_undisturbed generator gateway request cancelled state
    rcases haccords with hsame | hcut
    · rw [hsame] at hshorter
      exact absurd hshorter (Nat.lt_irrefl _)
    · exact hcut.1
  · intro hanswer
    exact generate_stays_cancelled generator gateway request cancelled state (.inr hanswer)
  · intro requests j later session hj hbefore
    exact serve_cancelled generator gateway requests cancelled state j hj hbefore

/-! ## What comes of a cancellation -/

/-- A gateway surfaces cancellations if every call during which the token is cancelled fails for
that reason. -/
def Gateway.Surfaces (gateway : Gateway σ) : Prop :=
  ∀ call state, (gateway.call call false state).cancelled = true →
    (gateway.call call false state).result = .error .cancellation

theorem attempt_surfaces {gateway : Gateway σ} (hsurfaces : gateway.Surfaces) (plan : Plan)
    (suffix : Text) (now : Progress σ) :
    Ends (fun _ after => after.cancelled = false)
      (fun failure after => after.cancelled = true → failure = .cancellation)
      (attempt gateway plan suffix now) := by
  cases ha : attempt gateway plan suffix now with
  | mk result after =>
    rcases attempt_cases ha with ⟨-, rfl, rfl⟩ | ⟨-, -, brought, hg, hread⟩
    · exact fun _ => rfl
    · have hcall := hsurfaces (plan.call suffix) now.state
      rw [hg] at hcall
      rcases hread with ⟨failure, hread, rfl, -⟩ | ⟨reply, hread, rfl, -⟩
      · intro hc
        rw [show brought = _ from hcall hc, ofResult_error] at hread
        cases hread
        rfl
      · refine Bool.eq_false_iff.2 fun hc => ?_
        rw [show brought = _ from hcall hc, ofResult_error] at hread
        cases hread

theorem generate_surfaces {gateway : Gateway σ} (hsurfaces : gateway.Surfaces)
    (request : Request) (cancelled : Bool) (state : σ) :
    let run := generator.generate gateway request cancelled state
    run.2.cancelled = true → run.1 = .error .cancellation := by
  intro run hcancelled
  have hattempt := attempt_surfaces hsurfaces (generator.plan request)
  have hclimb := climb_rule (fun suffix _ now _ => hattempt suffix now) generator.budgets
    (hattempt [] ⟨state, cancelled, [], []⟩)
  have hrun : run = concluded request.target (climb gateway (generator.plan request)
      generator.budgets ⟨state, cancelled, [], []⟩) :=
    generate_eq_concluded generator gateway request cancelled state
  rw [hrun, concluded_progress] at hcancelled
  rw [hrun]
  apply concluded_error
  cases hc : climb gateway (generator.plan request) generator.budgets
      ⟨state, cancelled, [], []⟩ with
  | mk result after =>
    rw [hc] at hclimb hcancelled
    cases result with
    | ok last => exact absurd hcancelled (Bool.eq_false_iff.1 hclimb)
    | error failure => exact congrArg Except.error (hclimb hcancelled)

/-- **What comes of a cancellation.**  It decides a generation that would have gone on to another
call, and no other: a call that brings the end of the ladder may be cancelled and nothing comes of
it.  On a gateway that surfaces cancellations every one is the end of its generation. -/
theorem cancellation_surfaces (request : Request) (cancelled : Bool) (state : σ) :
    let run := generator.generate gateway request cancelled state
    let undisturbed := generator.generate gateway.undisturbed request false state
    (run.1 = if run.2.calls.length < undisturbed.2.calls.length then .error .cancellation
      else undisturbed.1) ∧
    (gateway.Surfaces →
      cancelled = true ∨
        (∃ answer ∈ gateway.answers state run.2.calls, answer.cancelled = true) →
      run.1 = .error .cancellation) := by
  intro run undisturbed
  refine ⟨?_, ?_⟩
  · have haccords : Accords run undisturbed :=
      generate_undisturbed generator gateway request cancelled state
    rcases haccords with hsame | ⟨herror, -, -, hshorter⟩
    · rw [hsame]
      exact (if_neg (Nat.lt_irrefl _)).symm
    · rw [if_pos hshorter]
      exact herror
  · intro hsurfaces hnoticed
    exact generate_surfaces generator hsurfaces request cancelled state
      (generate_stays_cancelled generator gateway request cancelled state hnoticed)

end

/-- A block-safe program in a reply that was cancelled. -/
def cancelledScript : List ScriptedReply := [.cancel "let x = 0"]

/-- The program is returned though the token was cancelled. -/
theorem cancelled_call_can_return :
    let run := plainGenerator.generate scripted plainRequest false cancelledScript
    (scripted.answers cancelledScript run.2.calls).map (·.cancelled) = [true] ∧
      run.1 = .ok ⟨"let x = 0", [defaultNote]⟩ := by
  decide +kernel

end BlockSafe
