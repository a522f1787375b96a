import BlockSafe.Proofs.Generation.Run

/-!
# What the ladder asks next

The two loops of the ladder, seen together, follow one rule.  What is asked next depends on the
budgets and on the attempts made so far, and on nothing else (`Budgets.next?`): while no attempt
held a program, again for a program; after a program that is not block-safe, again with its
violations and with the number of such retries before.  `ask` makes one attempt, and `follow` asks
on by a rule for as long as the rule has something to ask.

    climb gateway plan budgets now = ask gateway plan budgets.next? … [] [] now       (climb_eq_ask)

What the attempts of a climb keep, given that the rule asked for them, is then proved once
(`climb_history`), with the attempts made so far at hand.
-/

namespace BlockSafe

/-! ## The rule -/

/-- The suffix of the call after the attempt `last`, with the attempts `earlier` before it, latest
first; `none` where the ladder stops.  Of the earlier attempts those with a program were answered
by a validation retry. -/
def Budgets.next? (budgets : Budgets) (earlier : List Attempt) (last : Attempt) : Option Text :=
  let retries := earlier.countP (·.hasCode)
  if last.hasCode then
    if last.compliant = false ∧ retries < budgets.validation then
      some (violationSuffix last.violations retries)
    else none
  else if retries = 0 ∧ earlier.length < budgets.empty then some emptySuffix
  else none

/-- Asks by a rule, at most `n` times, after the attempt `last` and those before it. -/
def follow {σ : Type} (gateway : Gateway σ) (plan : Plan)
    (next? : List Attempt → Attempt → Option Text) :
    Nat → List Attempt → Attempt → Progress σ → Step σ Attempt
  | 0, _, last, now => (.ok last, now)
  | n + 1, earlier, last, now =>
    match next? earlier last with
    | none => (.ok last, now)
    | some suffix =>
      match attempt gateway plan suffix now with
      | (.ok made, after) => follow gateway plan next? n (last :: earlier) made after
      | (.error failure, after) => (.error failure, after)

/-- Asks once, after the attempts `earlier`, and then at most `n` times by a rule. -/
def ask {σ : Type} (gateway : Gateway σ) (plan : Plan)
    (next? : List Attempt → Attempt → Option Text) (n : Nat) (earlier : List Attempt)
    (suffix : Text) (now : Progress σ) : Step σ Attempt :=
  match attempt gateway plan suffix now with
  | (.ok made, after) => follow gateway plan next? n earlier made after
  | (.error failure, after) => (.error failure, after)

section
variable {budgets : Budgets} {earlier : List Attempt} {last : Attempt} {suffix : Text}

/-- What the rule asks for, with the reason. -/
theorem next?_eq_some : budgets.next? earlier last = some suffix ↔
    (last.hasCode = true ∧ last.compliant = false ∧
      earlier.countP (·.hasCode) < budgets.validation ∧
      suffix = violationSuffix last.violations (earlier.countP (·.hasCode))) ∨
    (last.hasCode = false ∧ earlier.countP (·.hasCode) = 0 ∧ earlier.length < budgets.empty ∧
      suffix = emptySuffix) := by
  unfold Budgets.next?
  cases hc : last.hasCode with
  | true =>
    simp only [if_true, true_and, Bool.true_eq_false, false_and, or_false]
    split
    · next h => simp [h, eq_comm]
    · next h => simp only [reduceCtorEq, false_iff]; exact fun h1 => h ⟨h1.1, h1.2.1⟩
  | false =>
    simp only [Bool.false_eq_true, if_false, true_and, false_and, false_or]
    split
    · next h => simp [h, eq_comm]
    · next h => simp only [reduceCtorEq, false_iff]; exact fun h1 => h ⟨h1.1, h1.2.1⟩

/-- Where the rule stops: each kind of attempt has nothing left to be asked. -/
theorem next?_eq_none_of (hcode : last.hasCode = true →
      last.compliant = true ∨ budgets.validation ≤ earlier.countP (·.hasCode))
    (hblank : last.hasCode = false → earlier.countP (·.hasCode) = 0 →
      budgets.empty ≤ earlier.length) : budgets.next? earlier last = none := by
  apply Option.eq_none_iff_forall_ne_some.2
  intro suffix hs
  rcases next?_eq_some.1 hs with ⟨hc, hv, hlt, -⟩ | ⟨hc, h0, hlt, -⟩
  · rcases hcode hc with h | h
    · rw [hv] at h
      cases h
    · omega
  · have := hblank hc h0
    omega

end

/-! ## The climb follows it -/

section
variable {σ : Type} {gateway : Gateway σ} {plan : Plan}
  {next? : List Attempt → Attempt → Option Text} {earlier : List Attempt} {last : Attempt}

theorem follow_of_none (h : next? earlier last = none) (n : Nat) (now : Progress σ) :
    follow gateway plan next? n earlier last now = (.ok last, now) := by
  cases n with
  | zero => rfl
  | succ n => simp only [follow, h]

theorem follow_of_some {suffix : Text} (h : next? earlier last = some suffix) (n : Nat)
    (now : Progress σ) :
    follow gateway plan next? (n + 1) earlier last now =
      ask gateway plan next? n (last :: earlier) suffix now := by
  simp only [follow, h, ask]

theorem climbInvalid_of_stop {retry : Nat} (h : (last.hasCode && !last.compliant) = false)
    (left : Nat) (now : Progress σ) :
    climbInvalid gateway plan left retry last now = (.ok last, now) := by
  cases left with
  | zero => rfl
  | succ left => simp only [climbInvalid, h, Bool.false_eq_true, if_false]

variable (budgets : Budgets)

/-- The second loop follows the rule, with as many retries left as the rule has.  A reply without a
program is its end, because there was one with a program before or no empty retry is left. -/
theorem follow_eq_climbInvalid (gateway : Gateway σ) (plan : Plan) :
    ∀ (left n : Nat) (earlier : List Attempt) (last : Attempt) (now : Progress σ), left ≤ n →
    (last.hasCode = true → earlier.countP (·.hasCode) + left = budgets.validation) →
    (last.hasCode = false → earlier.countP (·.hasCode) = 0 → budgets.empty ≤ earlier.length) →
    follow gateway plan budgets.next? n earlier last now =
      climbInvalid gateway plan left (earlier.countP (·.hasCode)) last now := by
  intro left
  induction left with
  | zero =>
    intro n earlier last now _ hleft hspent
    have hnone : budgets.next? earlier last = none :=
      next?_eq_none_of (fun hc => .inr (Nat.le_of_eq (hleft hc).symm)) hspent
    rw [follow_of_none hnone]
    rfl
  | succ left ih =>
    intro n earlier last now hn hleft hspent
    by_cases hstop : (last.hasCode && !last.compliant) = false
    · have hnone : budgets.next? earlier last = none :=
        next?_eq_none_of (fun hc => .inl (by simpa [hc] using hstop)) hspent
      rw [follow_of_none hnone, climbInvalid_of_stop hstop]
    · obtain ⟨hc, hv⟩ : last.hasCode = true ∧ last.compliant = false := by simpa using hstop
      obtain ⟨n, rfl⟩ : ∃ m, n = m + 1 := ⟨n - 1, by omega⟩
      have hcount := hleft hc
      have hsome : budgets.next? earlier last =
          some (violationSuffix last.violations (earlier.countP (·.hasCode))) :=
        next?_eq_some.2 (.inl ⟨hc, hv, by omega, rfl⟩)
      have hnext : (last :: earlier).countP (·.hasCode) = earlier.countP (·.hasCode) + 1 :=
        List.countP_cons_of_pos hc
      rw [follow_of_some hsome, ask]
      simp only [climbInvalid, hc, hv, Bool.not_false, Bool.and_self, if_true]
      cases attempt gateway plan
          (violationSuffix last.violations (earlier.countP (·.hasCode))) now with
      | mk result after =>
        cases result with
        | error failure => rfl
        | ok made =>
          show follow gateway plan budgets.next? n (last :: earlier) made after = _
          rw [ih n (last :: earlier) made after (by omega) (fun _ => by omega)
            (fun _ h0 => by omega), hnext]

/-- The first loop follows the rule as long as there was no program, and the second one goes on
from where it ends. -/
theorem follow_eq_climbEmpty : ∀ (left n : Nat) (earlier : List Attempt) (last : Attempt)
    (now : Progress σ), left + budgets.validation ≤ n → earlier.length + left = budgets.empty →
    earlier.countP (·.hasCode) = 0 →
    follow gateway plan budgets.next? n earlier last now =
      match climbEmpty gateway plan left last now with
      | (.error failure, after) => (.error failure, after)
      | (.ok second, after) => climbInvalid gateway plan budgets.validation 0 second after := by
  intro left
  induction left with
  | zero =>
    intro n earlier last now hn hlength hcount
    have h := follow_eq_climbInvalid budgets gateway plan
      budgets.validation n earlier last now (by omega) (fun _ => by omega) (fun _ _ => by omega)
    rw [h, hcount]
    rfl
  | succ left ih =>
    intro n earlier last now hn hlength hcount
    cases hc : last.hasCode with
    | true =>
      have h := follow_eq_climbInvalid budgets gateway plan
        budgets.validation n earlier last now (by omega) (fun _ => by omega)
        (fun hf => by rw [hc] at hf; cases hf)
      rw [h, hcount]
      simp only [climbEmpty, hc, if_true]
    | false =>
      obtain ⟨n, rfl⟩ : ∃ m, n = m + 1 := ⟨n - 1, by omega⟩
      have hsome : budgets.next? earlier last = some emptySuffix :=
        next?_eq_some.2 (.inr ⟨hc, hcount, by omega, rfl⟩)
      rw [follow_of_some hsome, ask]
      simp only [climbEmpty, hc, Bool.false_eq_true, if_false]
      cases attempt gateway plan emptySuffix now with
      | mk result after =>
        cases result with
        | error failure => rfl
        | ok made =>
          apply ih n (last :: earlier) made after (by omega)
          · rw [List.length_cons]
            omega
          · rw [List.countP_cons_of_neg (by simp [hc]), hcount]

/-- The whole climb: the first attempt, then what the rule asks for. -/
theorem climb_eq_ask (gateway : Gateway σ) (plan : Plan) (now : Progress σ) :
    climb gateway plan budgets now =
      ask gateway plan budgets.next? (budgets.empty + budgets.validation) [] [] now := by
  unfold climb ask
  cases attempt gateway plan [] now with
  | mk result after =>
    cases result with
    | error failure => rfl
    | ok first =>
      exact (follow_eq_climbEmpty budgets budgets.empty _ [] first after (Nat.le_refl _)
        (Nat.zero_add _) rfl).symm

end

/-! ## What the attempts keep -/

section
variable {σ : Type} {gateway : Gateway σ} {plan : Plan}
  {next? : List Attempt → Attempt → Option Text} {budgets : Budgets}
  {A : List Attempt → Attempt → Progress σ → Prop} {F : Failure → Progress σ → Prop}

theorem ask_history {n : Nat} {earlier : List Attempt} {suffix : Text} {now : Progress σ}
    (hattempt : Ends (A earlier) F (attempt gateway plan suffix now))
    (hfollow : ∀ last after, A earlier last after →
      Ends (fun last after => ∃ earlier, A earlier last after) F
        (follow gateway plan next? n earlier last after)) :
    Ends (fun last after => ∃ earlier, A earlier last after) F
      (ask gateway plan next? n earlier suffix now) := by
  unfold ask
  cases ha : attempt gateway plan suffix now with
  | mk result after =>
    rw [ha] at hattempt
    cases result with
    | ok made => exact hfollow made after hattempt
    | error failure => exact hattempt

theorem follow_history
    (hstep : ∀ earlier last now suffix, A earlier last now → next? earlier last = some suffix →
      Ends (A (last :: earlier)) F (attempt gateway plan suffix now)) :
    ∀ n earlier last now, A earlier last now →
      Ends (fun last after => ∃ earlier, A earlier last after) F
        (follow gateway plan next? n earlier last now) := by
  intro n
  induction n with
  | zero => exact fun earlier last now h => ⟨earlier, h⟩
  | succ n ih =>
    intro earlier last now h
    cases hs : next? earlier last with
    | none =>
      rw [follow_of_none hs]
      exact ⟨earlier, h⟩
    | some suffix =>
      rw [follow_of_some hs]
      exact ask_history (hstep earlier last now suffix h hs) (ih (last :: earlier))

/-- What the first attempt establishes, and every attempt that the rule asks for keeps, holds at the
end of a climb, of all the attempts made. -/
theorem climb_history {now : Progress σ} (hfirst : Ends (A []) F (attempt gateway plan [] now))
    (hstep : ∀ earlier last now suffix, A earlier last now →
      budgets.next? earlier last = some suffix →
      Ends (A (last :: earlier)) F (attempt gateway plan suffix now)) :
    Ends (fun last after => ∃ earlier, A earlier last after) F
      (climb gateway plan budgets now) := by
  rw [climb_eq_ask]
  exact ask_history hfirst (follow_history hstep _ [])

end

end BlockSafe
