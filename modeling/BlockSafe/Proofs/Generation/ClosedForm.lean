import BlockSafe.Generation.Ladder
import BlockSafe.Proofs.Generation.Run
import BlockSafe.Proofs.Verdict

/-!
# Where the ladder stops

For a gateway that answers from a sequence of texts and failures, the whole climb is decided by how
each reply counts that is read from them: without a program (`blank`), with a program that is not
block-safe (`invalid`), or with one that is (`compliant`).  The ladder stops at reply `k + m`
(`Stops`): `k` blank replies use up empty retries, then `m` invalid ones use up validation retries.

    Stops … k m → read (k + m) = .ok reply →
      k + m + 1 calls, and the outcome is settled by that reply          (generate_of_stops)
    Stops … k m → read (k + m) = .error failure →
      k + m + 1 calls, and the generation fails with that failure        (generate_of_stops_failed)

For every sequence there is such a place (`exists_stops`), so the two say what every generation
does; `generate_sequence` spells it out.
-/

namespace BlockSafe

/-! ## Sequences of replies -/

/-- The gateway that answers call number `n`, counted from zero, by result number `n`. -/
def sequence (results : Nat → Except Failure Text) : Gateway Nat where
  call _ cancelled n := ⟨results n, cancelled, n + 1⟩

/-- How a reply counts for the ladder. -/
inductive ReplyKind where
  | blank
  | invalid
  | compliant
deriving DecidableEq, Repr

/-- How a reply counts: by its program, and by the verdict on it. -/
def Reply.kind (target : Target) (reply : Reply) : ReplyKind :=
  if Text.isBlank reply.code then .blank
  else if (validate reply.code target).compliant then .compliant
  else .invalid

/-- How a reply counts; a failure counts as none of the three. -/
def kindOf? (target : Target) : Except Failure Reply → Option ReplyKind
  | .ok reply => some (reply.kind target)
  | .error _ => none

theorem reply_of_kind {target : Target} {read : Except Failure Reply} {kind : ReplyKind}
    (h : kindOf? target read = some kind) :
    ∃ reply, read = .ok reply ∧ reply.kind target = kind := by
  cases read with
  | ok reply => exact ⟨reply, rfl, Option.some.inj h⟩
  | error failure => cases h

/-- The notes of the first `n` replies. -/
def notesOf (read : Nat → Except Failure Reply) (n : Nat) : List Text :=
  (List.range n).flatMap fun i => match read i with
    | .ok reply => reply.feedback
    | .error _ => []

/-! ## Kinds of attempts -/

/-- What an attempt knows of its reply, kind by kind. -/
theorem ofReply_cases (target : Target) (reply : Reply) :
    (reply.kind target = .blank ∧ (Attempt.ofReply target reply).hasCode = false) ∨
    (reply.kind target = .invalid ∧ (Attempt.ofReply target reply).hasCode = true ∧
      (Attempt.ofReply target reply).compliant = false ∧
      (validate reply.code target).compliant = false ∧
      (Attempt.ofReply target reply).violations = (validate reply.code target).violations) ∨
    (reply.kind target = .compliant ∧ (Attempt.ofReply target reply).hasCode = true ∧
      (Attempt.ofReply target reply).compliant = true) := by
  by_cases hb : Text.isBlank reply.code = true
  · left
    simp [Reply.kind, Attempt.hasCode, Attempt.ofReply, Attempt.isProgram, hb]
  · right
    by_cases hv : (validate reply.code target).compliant = true
    · right
      simp [Reply.kind, Attempt.hasCode, Attempt.compliant, Attempt.ofReply, Attempt.isProgram, hb,
        hv]
    · left
      simp [Reply.kind, Attempt.hasCode, Attempt.compliant, Attempt.violations, Attempt.ofReply,
        Attempt.isProgram, hb, hv]

section
variable {target : Target} {reply : Reply}

theorem hasCode_eq_false_iff :
    (Attempt.ofReply target reply).hasCode = false ↔ reply.kind target = .blank := by
  rcases ofReply_cases target reply with h | h | h
  · simp [h.1, h.2]
  · simp [h.1, h.2.1]
  · simp [h.1, h.2.1]

/-- The second loop goes on behind the programs that are not block-safe. -/
theorem rejected_iff :
    ((Attempt.ofReply target reply).hasCode = true ∧
      (Attempt.ofReply target reply).compliant = false) ↔ reply.kind target = .invalid := by
  rcases ofReply_cases target reply with h | h | h
  · simp [h.1, h.2]
  · simp [h.1, h.2.1, h.2.2.1]
  · simp [h.1, h.2.1, h.2.2]

/-- An attempt with a program that is not block-safe lists what the verdict on it lists. -/
theorem named_of_invalid (h : reply.kind target = .invalid) :
    (validate reply.code target).compliant = false ∧
      (Attempt.ofReply target reply).violations = (validate reply.code target).violations := by
  rcases ofReply_cases target reply with hk | hk | hk
  · rw [h] at hk
    cases hk.1
  · exact hk.2.2.2
  · rw [h] at hk
    cases hk.1

end

/-! ## One attempt -/

/-- Where a generation stands after `n` replies without a failure. -/
structure Reached (read : Nat → Except Failure Reply) (n : Nat) (now : Progress Nat) : Prop where
  state : now.state = n
  uncancelled : now.cancelled = false
  calls : now.calls.length = n
  notes : now.notes = notesOf read n

variable {results : Nat → Except Failure Text} {read : Nat → Except Failure Reply} {plan : Plan}
  {n : Nat} {reply : Reply} {failure : Failure} {now : Progress Nat}

theorem notesOf_succ (h : read n = .ok reply) :
    notesOf read (n + 1) = notesOf read n ++ reply.feedback := by
  unfold notesOf
  rw [List.range_succ, List.flatMap_append, List.flatMap_singleton, h]

/-- A climb that ends with reply `n`: it yields the attempt that the reply makes, or it fails as the
reply does. -/
def Settled (read : Nat → Except Failure Reply) (plan : Plan) (n : Nat)
    (climbed : Step Nat Attempt) : Prop :=
  match read n with
  | .ok reply => ∃ after, Reached read (n + 1) after ∧
      climbed = (.ok (Attempt.ofReply plan.target reply), after)
  | .error failure => ∃ after, after.calls.length = n + 1 ∧ climbed = (.error failure, after)

section
variable {climbed : Step Nat Attempt}

theorem Settled.replied (h : Settled read plan n climbed) (hr : read n = .ok reply) :
    ∃ after, Reached read (n + 1) after ∧
      climbed = (.ok (Attempt.ofReply plan.target reply), after) := by
  unfold Settled at h
  rwa [hr] at h

theorem Settled.failed (h : Settled read plan n climbed) (hr : read n = .error failure) :
    ∃ after, after.calls.length = n + 1 ∧ climbed = (.error failure, after) := by
  unfold Settled at h
  rwa [hr] at h

end

/-- The replies read from the results within the limits. -/
def readings (limits : Limits) (results : Nat → Except Failure Text) (n : Nat) :
    Except Failure Reply :=
  Reply.ofResult limits (results n)

/-- One attempt is a climb that ends with the next reply. -/
theorem attempt_settled (plan : Plan) (h : Reached (readings plan.limits results) n now)
    (suffix : Text) : Settled (readings plan.limits results) plan n
      (attempt (sequence results) plan suffix now) := by
  have hcall (call : Call) :
      (sequence results).call call false now.state = ⟨results n, false, n + 1⟩ := by
    show (⟨results now.state, false, now.state + 1⟩ : Answer Nat) = _
    rw [h.state]
  cases ha : attempt (sequence results) plan suffix now with
  | mk result after =>
    rcases attempt_cases ha with ⟨hc, -⟩ | ⟨-, hcalls, brought, hanswer, hresult⟩
    · rw [h.uncancelled] at hc
      cases hc
    have hlength : after.calls.length = n + 1 := by
      rw [hcalls, List.length_append, h.calls]
      rfl
    obtain ⟨rfl, hcancelled, hstate⟩ := Answer.mk.inj ((hcall _).symm.trans hanswer)
    unfold Settled
    rcases hresult with ⟨failure, hr, rfl, -⟩ | ⟨reply, hr, rfl, hnotes⟩
    · rw [show readings plan.limits results n = .error failure from hr]
      exact ⟨after, hlength, rfl⟩
    · have hr : readings plan.limits results n = .ok reply := hr
      have hall : after.notes = notesOf (readings plan.limits results) (n + 1) := by
        rw [hnotes, h.notes, notesOf_succ hr]
      rw [hr]
      exact ⟨after, ⟨hstate.symm, hcancelled.symm, hlength, hall⟩, rfl⟩

/-! ## One loop -/

/-- A loop that asks again while the last reply is of one kind and the budget lasts. -/
structure RetryLoop (results : Nat → Except Failure Text) (plan : Plan) (kind : ReplyKind)
    (loop : Nat → Nat → Attempt → Progress Nat → Step Nat Attempt) : Prop where
  spent : ∀ retry last now, loop 0 retry last now = (.ok last, now)
  left : ∀ budget retry reply now, reply.kind plan.target ≠ kind →
    loop budget retry (Attempt.ofReply plan.target reply) now =
      (.ok (Attempt.ofReply plan.target reply), now)
  again : ∀ budget retry reply now, reply.kind plan.target = kind → ∃ suffix,
    (∀ next after, attempt (sequence results) plan suffix now = (.ok next, after) →
      loop (budget + 1) retry (Attempt.ofReply plan.target reply) now =
        loop budget (retry + 1) next after) ∧
    ∀ failure after, attempt (sequence results) plan suffix now = (.error failure, after) →
      loop (budget + 1) retry (Attempt.ofReply plan.target reply) now = (.error failure, after)

theorem retryLoop_climbEmpty :
    RetryLoop results plan .blank fun budget _ => climbEmpty (sequence results) plan budget where
  spent _ _ _ := rfl
  left budget _ reply now hk := by
    cases budget with
    | zero => rfl
    | succ budget =>
      have hc : (Attempt.ofReply plan.target reply).hasCode = true := by
        simpa using mt hasCode_eq_false_iff.1 hk
      simp only [climbEmpty, hc, if_true]
  again budget _ reply now hk := by
    have hc : (Attempt.ofReply plan.target reply).hasCode = false := hasCode_eq_false_iff.2 hk
    refine ⟨emptySuffix, ?_, ?_⟩
    · intro next after ha
      simp only [climbEmpty, hc, Bool.false_eq_true, if_false, ha]
    · intro failure after ha
      simp only [climbEmpty, hc, Bool.false_eq_true, if_false, ha]

theorem retryLoop_climbInvalid :
    RetryLoop results plan .invalid (climbInvalid (sequence results) plan) where
  spent _ _ _ := rfl
  left budget retry reply now hk := by
    cases budget with
    | zero => rfl
    | succ budget =>
      have hc : ((Attempt.ofReply plan.target reply).hasCode &&
          !(Attempt.ofReply plan.target reply).compliant) = false := by
        simpa using mt rejected_iff.1 hk
      simp only [climbInvalid, hc, Bool.false_eq_true, if_false]
  again budget retry reply now hk := by
    have hc : ((Attempt.ofReply plan.target reply).hasCode &&
        !(Attempt.ofReply plan.target reply).compliant) = true := by
      simpa using rejected_iff.2 hk
    refine ⟨violationSuffix (Attempt.ofReply plan.target reply).violations retry, ?_, ?_⟩
    · intro next after ha
      simp only [climbInvalid, hc, if_true, ha]
    · intro failure after ha
      simp only [climbInvalid, hc, if_true, ha]

/-- A failure is of no kind, so no replies of one kind start with it. -/
theorem eq_zero_of_failure {target : Target} {kind : ReplyKind} {i d : Nat}
    (hkind : ∀ j < d, kindOf? target (read (i + j)) = some kind)
    (hr : read i = .error failure) : d = 0 := by
  cases d with
  | zero => rfl
  | succ d =>
    have h0 := hkind 0 (Nat.succ_pos d)
    rw [Nat.add_zero, hr] at h0
    cases h0

/-- From reply `i` on, `d` replies of its kind use up `d` retries of a loop, and reply `i + d` ends
it. -/
theorem RetryLoop.finished {kind : ReplyKind}
    {loop : Nat → Nat → Attempt → Progress Nat → Step Nat Attempt}
    (hloop : RetryLoop results plan kind loop) :
    ∀ (d i budget retry : Nat) (reply : Reply) (now : Progress Nat),
      Reached (readings plan.limits results) (i + 1) now →
      readings plan.limits results i = .ok reply → d ≤ budget →
      (∀ j < d, kindOf? plan.target (readings plan.limits results (i + j)) = some kind) →
      (kindOf? plan.target (readings plan.limits results (i + d)) = some kind → d = budget) →
      Settled (readings plan.limits results) plan (i + d)
        (loop budget retry (Attempt.ofReply plan.target reply) now) := by
  intro d
  induction d with
  | zero =>
    intro i budget retry reply now hnow hr _ _ hend
    rw [Nat.add_zero, hr] at hend
    unfold Settled
    simp only [Nat.add_zero, hr]
    refine ⟨now, hnow, ?_⟩
    by_cases hk : reply.kind plan.target = kind
    · rw [← hend (congrArg some hk), hloop.spent]
    · exact hloop.left _ _ _ _ hk
  | succ d ih =>
    intro i budget retry reply now hnow hr hd hkind hend
    obtain ⟨budget, rfl⟩ : ∃ b, budget = b + 1 := ⟨budget - 1, by omega⟩
    have hk := hkind 0 (by omega)
    rw [Nat.add_zero, hr] at hk
    obtain ⟨suffix, hok, herror⟩ := hloop.again budget retry reply now (Option.some.inj hk)
    have hrest : ∀ j < d,
        kindOf? plan.target (readings plan.limits results (i + 1 + j)) = some kind := by
      intro j hj
      rw [show i + 1 + j = i + (j + 1) by omega]
      exact hkind (j + 1) (by omega)
    cases hr1 : readings plan.limits results (i + 1) with
    | error failure =>
      obtain rfl : d = 0 := eq_zero_of_failure hrest hr1
      obtain ⟨after, hcalls, ha⟩ := (attempt_settled plan hnow suffix).failed hr1
      unfold Settled
      simp only [Nat.zero_add, hr1]
      exact ⟨after, hcalls, herror _ _ ha⟩
    | ok reply1 =>
      obtain ⟨after, hafter, ha⟩ := (attempt_settled plan hnow suffix).replied hr1
      rw [hok _ _ ha]
      have he : i + (d + 1) = i + 1 + d := by omega
      rw [he] at hend ⊢
      refine ih (i + 1) budget (retry + 1) reply1 after hafter hr1 (by omega) hrest ?_
      intro h
      have := hend h
      omega

/-! ## The whole climb -/

/-- Reply `k + m` is the last one that is asked for: `k` blank replies come first, then `m` invalid
ones, and no budget lasts for another. -/
structure Stops (budgets : Budgets) (target : Target) (read : Nat → Except Failure Reply)
    (k m : Nat) : Prop where
  empty_le : k ≤ budgets.empty
  validation_le : m ≤ budgets.validation
  blank : ∀ i < k, kindOf? target (read i) = some .blank
  invalid : ∀ j < m, kindOf? target (read (k + j)) = some .invalid
  empty_spent : kindOf? target (read k) = some .blank → k = budgets.empty
  validation_spent : kindOf? target (read (k + m)) = some .invalid → m = budgets.validation

/-- A property of the first numbers up to `n` holds up to some number, which is `n` or lacks it. -/
theorem exists_first (P : Nat → Prop) (n : Nat) :
    ∃ k, k ≤ n ∧ (∀ i < k, P i) ∧ (P k → k = n) := by
  induction n with
  | zero => exact ⟨0, Nat.le_refl 0, fun i hi => absurd hi (Nat.not_lt_zero i), fun _ => rfl⟩
  | succ n ih =>
    obtain ⟨k, hk, hbefore, hlast⟩ := ih
    by_cases hP : P k
    · obtain rfl := hlast hP
      refine ⟨k + 1, Nat.le_refl _, ?_, fun _ => rfl⟩
      intro i hi
      rcases Nat.lt_succ_iff_lt_or_eq.1 hi with h | rfl
      · exact hbefore i h
      · exact hP
    · exact ⟨k, by omega, hbefore, fun h => absurd h hP⟩

/-- Every sequence of replies has a last one that is asked for. -/
theorem exists_stops (budgets : Budgets) (target : Target)
    (read : Nat → Except Failure Reply) : ∃ k m, Stops budgets target read k m := by
  obtain ⟨k, hk, hblank, hempty⟩ :=
    exists_first (fun i => kindOf? target (read i) = some .blank) budgets.empty
  obtain ⟨m, hm, hinvalid, hvalidation⟩ :=
    exists_first (fun j => kindOf? target (read (k + j)) = some .invalid) budgets.validation
  exact ⟨k, m, hk, hm, hblank, hinvalid, hempty, hvalidation⟩

variable {budgets : Budgets} {target : Target} {k m : Nat}

/-- Blank replies all through the empty budget stop the ladder there. -/
theorem Stops.of_blank (h : ∀ i ≤ budgets.empty, kindOf? target (read i) = some .blank) :
    Stops budgets target read budgets.empty 0 where
  empty_le := Nat.le_refl _
  validation_le := Nat.zero_le _
  blank i hi := h i (Nat.le_of_lt hi)
  invalid j hj := absurd hj (Nat.not_lt_zero j)
  empty_spent _ := rfl
  validation_spent hi := by
    rw [Nat.add_zero, h budgets.empty (Nat.le_refl _)] at hi
    cases hi

/-- The ladder stops behind the first reply that is not blank, at the first from there on that is
not invalid, or where the budget is spent. -/
theorem Stops.of_nonblank (hk : k ≤ budgets.empty) (hm : m ≤ budgets.validation)
    (hblank : ∀ i < k, kindOf? target (read i) = some .blank)
    (hnot : kindOf? target (read k) ≠ some .blank)
    (hinvalid : ∀ j < m, kindOf? target (read (k + j)) = some .invalid)
    (hlast : m < budgets.validation → kindOf? target (read (k + m)) ≠ some .invalid) :
    Stops budgets target read k m where
  empty_le := hk
  validation_le := hm
  blank := hblank
  invalid := hinvalid
  empty_spent h := absurd h hnot
  validation_spent h := Nat.le_antisymm hm (Nat.not_lt.1 fun hlt => hlast hlt h)

/-- A failed call stops the ladder, wherever it comes. -/
theorem Stops.of_failure (hk : k ≤ budgets.empty) (hm : m ≤ budgets.validation)
    (hblank : ∀ i < k, kindOf? target (read i) = some .blank)
    (hinvalid : ∀ j < m, kindOf? target (read (k + j)) = some .invalid)
    (hr : read (k + m) = .error failure) : Stops budgets target read k m where
  empty_le := hk
  validation_le := hm
  blank := hblank
  invalid := hinvalid
  empty_spent h := by
    cases m with
    | zero =>
      rw [Nat.add_zero] at hr
      rw [hr] at h
      cases h
    | succ m =>
      have h0 := hinvalid 0 (Nat.succ_pos m)
      rw [Nat.add_zero, h] at h0
      cases h0
  validation_spent h := by
    rw [hr] at h
    cases h

/-- Every reply before the last one is blank or invalid. -/
theorem Stops.last_of_compliant (h : Stops budgets target read k m) {i : Nat} (hi : i ≤ k + m)
    (hc : kindOf? target (read i) = some .compliant) : i = k + m := by
  apply Classical.byContradiction
  intro hne
  by_cases hik : i < k
  · have hb := h.blank i hik
    rw [hc] at hb
    cases hb
  · have hv := h.invalid (i - k) (by omega)
    rw [show k + (i - k) = i by omega, hc] at hv
    cases hv

theorem reached_start : Reached read 0 ⟨0, false, [], []⟩ := ⟨rfl, rfl, rfl, rfl⟩

theorem climb_finished (plan : Plan)
    (h : Stops budgets plan.target (readings plan.limits results) k m) :
    Settled (readings plan.limits results) plan (k + m)
      (climb (sequence results) plan budgets ⟨0, false, [], []⟩) := by
  cases h0 : readings plan.limits results 0 with
  | error failure =>
    -- the first call fails, so neither loop is entered
    obtain rfl : k = 0 := eq_zero_of_failure (i := 0) (by simpa using h.blank) h0
    obtain rfl : m = 0 := eq_zero_of_failure h.invalid h0
    obtain ⟨after, hcalls, ha⟩ := (attempt_settled plan reached_start []).failed h0
    unfold Settled climb
    simp only [Nat.add_zero, h0, ha]
    exact ⟨after, hcalls, rfl⟩
  | ok reply0 =>
    obtain ⟨first, hfirst, ha⟩ := (attempt_settled plan reached_start []).replied h0
    have hempty := retryLoop_climbEmpty.finished k 0 budgets.empty 0 reply0 first hfirst h0
      h.empty_le (by simpa using h.blank) (by simpa using h.empty_spent)
    rw [Nat.zero_add] at hempty
    unfold climb
    simp only [ha]
    cases hk : readings plan.limits results k with
    | error failure =>
      obtain rfl : m = 0 := eq_zero_of_failure h.invalid hk
      obtain ⟨after, hcalls, he⟩ := hempty.failed hk
      unfold Settled
      simp only [Nat.add_zero, hk, he]
      exact ⟨after, hcalls, rfl⟩
    | ok reply =>
      obtain ⟨second, hsecond, he⟩ := hempty.replied hk
      simp only [he]
      exact retryLoop_climbInvalid.finished m k budgets.validation 0 reply second hsecond hk
        h.validation_le h.invalid h.validation_spent

/-! ## Outcomes -/

/-- The outcome that the last reply settles, kind by kind. -/
def settledBy (target : Target) (reply : Reply) (notes : List Text) : Outcome :=
  match reply.kind target with
  | .compliant => outcomeOf reply.code notes
  | .blank => outcomeOf target.profile.stub (notes ++ [emptyNote])
  | .invalid => outcomeOf target.profile.stub (notes ++ ["Validation fallback: ".toList ++
      commaJoin (validate reply.code target).violations])

theorem invalidNote_eq {violations : List Text} (h : commaJoin violations ≠ []) :
    invalidNote violations = "Validation fallback: ".toList ++ commaJoin violations := by
  unfold invalidNote
  simp only [List.isEmpty_iff, h, if_false]

theorem settle_ofReply (target : Target) (reply : Reply) (notes : List Text) :
    settle target (Attempt.ofReply target reply) notes = settledBy target reply notes := by
  unfold settle settledBy
  rcases ofReply_cases target reply with ⟨hk, hc⟩ | ⟨hk, hc, hv, hn, hl⟩ | ⟨hk, hc, hv⟩
  · simp only [hk, hc, Bool.not_false, if_true]
  · simp only [hk, hc, hv, hl, invalidNote_eq (commaJoin_violations hn), Bool.not_false,
      Bool.not_true, Bool.false_eq_true, if_true, if_false]
  · simp only [hk, hc, hv, Bool.not_true, Bool.false_eq_true, if_false]
    rfl

/-! ## Generations -/

section
variable {generator : Generator} {request : Request}

/-- The reply that the ladder stops at settles the outcome. -/
theorem generate_of_stops (h : Stops generator.budgets request.target
      (readings generator.limits results) k m)
    (hr : readings generator.limits results (k + m) = .ok reply) :
    let run := generator.generate (sequence results) request false 0
    run.2.calls.length = k + m + 1 ∧
      run.1 = .ok (settledBy request.target reply
        (notesOf (readings generator.limits results) (k + m + 1))) := by
  obtain ⟨after, hafter, he⟩ := (climb_finished (generator.plan request) h).replied hr
  unfold Generator.generate
  rw [he]
  have hnotes : after.notes = notesOf (readings generator.limits results) (k + m + 1) :=
    hafter.notes
  refine ⟨hafter.calls, congrArg Except.ok ?_⟩
  rw [← settle_ofReply, ← hnotes]
  rfl

theorem generate_of_stops_failed (h : Stops generator.budgets request.target
      (readings generator.limits results) k m)
    (hr : readings generator.limits results (k + m) = .error failure) :
    let run := generator.generate (sequence results) request false 0
    run.2.calls.length = k + m + 1 ∧ run.1 = .error failure := by
  obtain ⟨after, hcalls, he⟩ := (climb_finished (generator.plan request) h).failed hr
  unfold Generator.generate
  rw [he]
  exact ⟨hcalls, rfl⟩

theorem calls_of_stops (h : Stops generator.budgets request.target
      (readings generator.limits results) k m) :
    (generator.generate (sequence results) request false 0).2.calls.length = k + m + 1 := by
  cases hr : readings generator.limits results (k + m) with
  | error failure => exact (generate_of_stops_failed h hr).1
  | ok reply => exact (generate_of_stops h hr).1

end

/-- **The closed form of the ladder.**  For every sequence of replies: with nothing but blank
replies in the empty budget the outcome is the stub; otherwise the reply `k + m` decides, where `k`
is the first that is not blank and `m` the number of invalid ones from there on; a failure among
the replies that are asked for, be it of the call or of the reading, ends the generation.  No
further call is made in any case, and a compliant reply is always the last one. -/
theorem generate_sequence (generator : Generator) (request : Request)
    (results : Nat → Except Failure Text) :
    let budgets := generator.budgets
    let target := request.target
    let read := fun n => Reply.ofResult generator.limits (results n)
    let kind := fun n => kindOf? target (read n)
    let run := generator.generate (sequence results) request false 0
    ((∀ i ≤ budgets.empty, kind i = some .blank) →
      run.2.calls.length = 1 + budgets.empty ∧
      run.1 = .ok (outcomeOf target.profile.stub
        (notesOf read (1 + budgets.empty) ++ [emptyNote]))) ∧
    (∀ k m, k ≤ budgets.empty → m ≤ budgets.validation →
      (∀ i < k, kind i = some .blank) → kind k ≠ some .blank →
      (∀ j < m, kind (k + j) = some .invalid) →
      (m < budgets.validation → kind (k + m) ≠ some .invalid) →
      ∀ reply, read (k + m) = .ok reply →
        run.2.calls.length = k + m + 1 ∧
        run.1 = .ok (settledBy target reply (notesOf read (k + m + 1)))) ∧
    (∀ k m, k ≤ budgets.empty → m ≤ budgets.validation →
      (∀ i < k, kind i = some .blank) → (∀ j < m, kind (k + j) = some .invalid) →
      ∀ failure, read (k + m) = .error failure →
        run.2.calls.length = k + m + 1 ∧ run.1 = .error failure) ∧
    run.2.calls.length ≤ 1 + budgets.empty + budgets.validation ∧
    ∀ i < run.2.calls.length, ∀ reply, read i = .ok reply → reply.kind target = .compliant →
      run.2.calls.length = i + 1 ∧
      run.1 = .ok (outcomeOf reply.code (notesOf read (i + 1))) := by
  intro budgets target read kind run
  refine ⟨?_, ?_, ?_, ?_, ?_⟩
  · intro hblank
    obtain ⟨reply, hr, hkind⟩ := reply_of_kind (hblank budgets.empty (Nat.le_refl _))
    have hend := generate_of_stops (Stops.of_blank hblank) hr
    rw [settledBy.eq_def, hkind] at hend
    rwa [Nat.add_comm 1]
  · intro k m hk hm hblank hnot hinvalid hlast reply hr
    exact generate_of_stops (.of_nonblank hk hm hblank hnot hinvalid hlast) hr
  · intro k m hk hm hblank hinvalid failure hr
    exact generate_of_stops_failed (.of_failure hk hm hblank hinvalid hr) hr
  · obtain ⟨k, m, hstops⟩ := exists_stops budgets target read
    have hk := hstops.empty_le
    have hm := hstops.validation_le
    have hcalls : run.2.calls.length = k + m + 1 := calls_of_stops hstops
    omega
  · intro i hi reply hr hkind
    obtain ⟨k, m, hstops⟩ := exists_stops budgets target read
    have hcalls : run.2.calls.length = k + m + 1 := calls_of_stops hstops
    obtain rfl : i = k + m := by
      apply hstops.last_of_compliant (by omega)
      show kindOf? target (read i) = _
      rw [hr]
      exact congrArg some hkind
    have hend := generate_of_stops hstops hr
    rw [settledBy.eq_def, hkind] at hend
    exact hend

end BlockSafe
