import BlockSafe.Proofs.Generation.Trace
import BlockSafe.Proofs.Reply.CanonicalSet
import BlockSafe.Proofs.Reply.Limits
import BlockSafe.Proofs.Reply.Notes
import BlockSafe.Proofs.Schema.Results

/-!
# What every generation guarantees

Whatever a provider replies, an outcome is a block-safe program in canonical form with proper notes
(`Outcome.Guaranteed`).  A generation without an outcome ends on a cancelled token, with the failure
of its last call, or on a reply that goes beyond the limits (`generate_guarantee`).  A program comes
from the last reply only if its verdict is compliant; otherwise the stub of the target takes its
place, and the stubs are checked once and for all.
-/

namespace BlockSafe

/-! ## Attempts -/

/-- A compliant attempt holds a program with a compliant verdict. -/
theorem validate_of_compliant {target : Target} {reply : Reply}
    (h : (Attempt.ofReply target reply).compliant = true) :
    (validate reply.code target).compliant = true := by
  unfold Attempt.compliant Attempt.ofReply at h
  simp only [Option.any_eq_true] at h
  obtain ⟨verdict, hv, hc⟩ := h
  split at hv
  · cases hv
    exact hc
  · cases hv

/-! ## Outcomes -/

/-- What an outcome for a target guarantees to whoever asked for it. -/
structure Outcome.Guaranteed (target : Target) (outcome : Outcome) : Prop where
  /-- The program is block-safe. -/
  compliant : (validate outcome.code target).compliant = true
  program : Text.isBlank outcome.code = false
  /-- The program is in canonical form. -/
  settled : canonical outcome.code = outcome.code
  noted : outcome.feedback ≠ []
  proper : ProperNotes outcome.feedback
  /-- The outcome passes its own checks. -/
  accepted : Outcome.ofFields outcome.toFields = .ok outcome

theorem outcomeOf_guaranteed {target : Target} {code : Text} (notes : List Text)
    (hv : (validate code target).compliant = true) (hp : Text.isBlank code = false)
    (hc : Canonical code) : (outcomeOf code notes).Guaranteed target := by
  have hne : distinctNotes (notes.map .str) defaultNote ≠ [] :=
    distinctNotes_ne_nil _ (by decide +kernel)
  refine ⟨hv, hp, hc.canonical_eq, hne, ?_, ?_⟩
  · exact proper_distinctNotes _ (by decide +kernel)
  · apply Outcome.ofFields_toFields ?_ hne
    intro he
    rw [show code = [] from he] at hp
    cases hp

/-- The stub of a target is a block-safe program in canonical form. -/
theorem sound_stub (target : Target) :
    (validate target.profile.stub target).compliant = true ∧
      Text.isBlank target.profile.stub = false ∧
      canonical target.profile.stub = target.profile.stub := by
  cases target <;> decide +kernel

theorem stub_guaranteed (target : Target) (notes : List Text) :
    (outcomeOf target.profile.stub notes).Guaranteed target := by
  obtain ⟨hcompliant, hprogram, hsettled⟩ := sound_stub target
  refine outcomeOf_guaranteed notes hcompliant hprogram ?_
  rw [← hsettled]
  exact canonical_canonical _

theorem settle_guaranteed (target : Target) {reply : Reply} (hcanonical : Canonical reply.code)
    (notes : List Text) :
    (settle target (Attempt.ofReply target reply) notes).Guaranteed target := by
  unfold settle
  split
  · exact stub_guaranteed target _
  · next hcode =>
    split
    · exact stub_guaranteed target _
    · next hcomp =>
      apply outcomeOf_guaranteed _ _ _ hcanonical
      · exact validate_of_compliant (by simpa using hcomp)
      · have hp : Text.isBlank (Attempt.ofReply target reply).reply.code = false := by
          simpa [Attempt.hasCode, Attempt.isProgram] using hcode
        exact hp

/-! ## Generations -/

/-- How a generation can fail: on a cancelled token, with the failure of its last call, or on the
text of that call, which goes beyond the limits. -/
def FailedBy {σ : Type} (limits : Limits) (gateway : Gateway σ) (failure : Failure)
    (after : Progress σ) : Prop :=
  (after.cancelled = true ∧ failure = .cancellation) ∨
    ∃ call before brought, after.calls.getLast? = some call ∧
      gateway.call call false before = ⟨brought, after.cancelled, after.state⟩ ∧
      (brought = .error failure ∨
        ∃ raw excess, brought = .ok raw ∧ BeyondLimits limits raw ∧
          Reply.ofText limits raw = .error excess ∧ failure = excess.failure)

theorem attempt_ends {σ : Type} (gateway : Gateway σ) (plan : Plan) (suffix : Text)
    (now : Progress σ) :
    Ends
      (fun last _ => ∃ raw reply, Reply.ofText plan.limits raw = .ok reply ∧
        last = Attempt.ofReply plan.target reply)
      (FailedBy plan.limits gateway) (attempt gateway plan suffix now) := by
  cases h : attempt gateway plan suffix now with
  | mk result after =>
    rcases attempt_cases h with ⟨hc, rfl, rfl⟩ | ⟨-, hcalls, brought, hg, hread⟩
    · exact .inl ⟨hc, rfl⟩
    · rcases hread with ⟨failure, hread, rfl, -⟩ | ⟨reply, hread, rfl, -⟩
      · refine .inr ⟨_, now.state, brought, by rw [hcalls, List.getLast?_concat], hg, ?_⟩
        refine (ofResult_eq_error.1 hread).imp_right ?_
        rintro ⟨raw, excess, hraw, herror, hfailure⟩
        exact ⟨raw, excess, hraw, ofText_error_iff.1 ⟨excess, herror⟩, herror, hfailure⟩
      · obtain ⟨raw, -, hraw⟩ := ofResult_eq_ok.1 hread
        exact ⟨raw, reply, hraw, rfl⟩

theorem generate_ends {σ : Type} (generator : Generator) (gateway : Gateway σ) (request : Request)
    (cancelled : Bool) (state : σ) :
    Ends (fun outcome _ => outcome.Guaranteed request.target) (FailedBy generator.limits gateway)
      (generator.generate gateway request cancelled state) := by
  have hends := attempt_ends gateway (generator.plan request)
  have hclimb := climb_rule (fun suffix last now _ => hends suffix now) generator.budgets
    (hends [] ⟨state, cancelled, [], []⟩)
  unfold Generator.generate
  cases hc : climb gateway (generator.plan request) generator.budgets
      ⟨state, cancelled, [], []⟩ with
  | mk result after =>
    rw [hc] at hclimb
    cases result with
    | error failure => exact hclimb
    | ok last =>
      obtain ⟨raw, reply, hraw, rfl⟩ := hclimb
      exact settle_guaranteed request.target (canonical_code hraw) after.notes

/-- A reply of more opening brackets than there is room for. -/
def bracketScript : List ScriptedReply := [.text (List.replicate 1200 '[')]

end BlockSafe
