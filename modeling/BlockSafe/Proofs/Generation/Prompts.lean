import BlockSafe.Proofs.Generation.ClosedForm
import BlockSafe.Proofs.Generation.Trace

/-!
# What every call carries

All calls of a generation carry the same provider, model, time limit and user prompt; the system
prompt is that of the target, and what follows it is fixed by the replies before the call
(`Prompted`): nothing at first, the request for a program while no reply held one, and after that
the violations of the very last reply.  How often violations were sent before is read off the calls
themselves (`validationRetries`), so that the plain wording comes once and first.

    every call of a run is Prompted by the calls and replies before it          (generate_prompts)
-/

namespace BlockSafe

/-! ## Wordings -/

/-- The wordings of a suffix that names violations. -/
inductive Wording where
  | plain
  | strict
deriving DecidableEq, Repr

/-- How a suffix in this wording opens. -/
def Wording.opening : Wording → Text
  | plain => "Previous code used: "
  | strict => "STRICT MODE: "

/-- The wording of the retry number `retry`, counted from zero. -/
def Wording.ofRetry (retry : Nat) : Wording := if retry = 0 then plain else strict

/-- Whether the system prompt of a call is `base` with a suffix in this wording. -/
def Call.words (base : Text) (wording : Wording) (call : Call) : Bool :=
  (base ++ '\n' :: wording.opening).isPrefixOf call.system

/-- Whether a call names violations, in either wording. -/
def Call.namesViolations (base : Text) (call : Call) : Bool :=
  call.words base .plain || call.words base .strict

/-- How many of the calls name violations. -/
def validationRetries (base : Text) (calls : List Call) : Nat :=
  calls.countP (·.namesViolations base)

theorem namesViolations_iff {base : Text} {call : Call} :
    call.namesViolations base = true ↔ ∃ wording, call.words base wording = true := by
  unfold Call.namesViolations
  rw [Bool.or_eq_true]
  constructor
  · rintro (h | h)
    · exact ⟨_, h⟩
    · exact ⟨_, h⟩
  · rintro ⟨wording, h⟩
    cases wording with
    | plain => exact .inl h
    | strict => exact .inr h

theorem words_eq_true {base suffix : Text} {wording : Wording} {call : Call}
    (h : call.system = base ++ '\n' :: suffix) :
    call.words base wording = true ↔ wording.opening <+: suffix := by
  unfold Call.words
  rw [h, List.isPrefixOf_iff_prefix, List.prefix_append_right_inj, List.cons_prefix_cons]
  simp

theorem words_base {base : Text} {call : Call} (h : call.system = base) (wording : Wording) :
    call.words base wording = false := by
  apply Bool.eq_false_iff.2
  intro hw
  have hlength := (List.isPrefixOf_iff_prefix.1 hw).length_le
  rw [h, List.length_append, List.length_cons] at hlength
  omega

theorem namesViolations_base {base : Text} {call : Call} (h : call.system = base) :
    call.namesViolations base = false := by
  unfold Call.namesViolations
  rw [words_base h, words_base h]
  rfl

theorem not_opening_emptySuffix (wording : Wording) : ¬ wording.opening <+: emptySuffix := by
  cases wording <;> decide +kernel

/-- The first letter tells the wordings apart. -/
theorem opening_inj {w w' : Wording} {s t : Text} (h : w.opening ++ s = w'.opening ++ t) :
    w = w' := by
  have hhead (w : Wording) (s : Text) : (w.opening ++ s).head? =
      some (match w with | .plain => 'P' | .strict => 'S') := by
    cases w <;> rfl
  have h1 := congrArg List.head? h
  rw [hhead, hhead] at h1
  cases w with
  | plain => cases w' with
    | plain => rfl
    | strict => exact absurd h1 (by decide)
  | strict => cases w' with
    | plain => exact absurd h1 (by decide)
    | strict => rfl

theorem opening_starts (violations : List Text) (retry : Nat) :
    (Wording.ofRetry retry).opening <+: violationSuffix violations retry := by
  unfold violationSuffix Wording.ofRetry
  by_cases hr : retry = 0
  · rw [if_pos hr, if_pos (by omega)]
    simp only [List.append_assoc]
    exact List.prefix_append _ _
  · rw [if_neg hr, if_neg (by omega)]
    simp only [List.append_assoc]
    have hopening : Wording.strict.opening <+:
        "STRICT MODE: Output a smaller program that fully decompiles to Blocks. ".toList := by
      decide +kernel
    exact hopening.trans (List.prefix_append _ _)

theorem opening_violationSuffix (violations : List Text) (retry : Nat) (wording : Wording) :
    wording.opening <+: violationSuffix violations retry ↔ wording = .ofRetry retry := by
  constructor
  · rintro ⟨s, hs⟩
    obtain ⟨t, ht⟩ := opening_starts violations retry
    exact opening_inj (hs.trans ht.symm)
  · rintro rfl
    exact opening_starts violations retry

/-! ## The law of a call -/

section
variable (generator : Generator) (request : Request)

/-- What a call carries that comes after the calls `sent`, from which `replies` were read. -/
structure Prompted (sent : List Call) (replies : List Reply) (call : Call) : Prop where
  provider : call.provider = request.provider.or generator.provider
  model : call.model = request.model.or generator.model
  timeout : call.timeout = generator.timeout
  user : call.user = userPrompt request generator.codeLimit
  /-- The first call has no suffix. -/
  first : replies = [] → call.system = systemPrompt request.target
  /-- As long as there was no program, a program is asked for. -/
  empty : replies ≠ [] → (∀ reply ∈ replies, reply.kind request.target = .blank) →
    call.system = systemPrompt request.target ++ '\n' :: emptySuffix
  /-- After that the violations of the last reply are named, and there are some. -/
  violations : ∀ last, replies.getLast? = some last →
    (∃ reply ∈ replies, reply.kind request.target ≠ .blank) →
    let named := (validate last.code request.target).violations
    named ≠ [] ∧ call.system = systemPrompt request.target ++
      '\n' :: violationSuffix named (validationRetries (systemPrompt request.target) sent)
  /-- Violations are named plainly the first time, and strictly from then on. -/
  worded : ∀ wording, call.words (systemPrompt request.target) wording = true →
    wording = .ofRetry (validationRetries (systemPrompt request.target) sent)

end

variable {generator : Generator} {request : Request} {sent : List Call} {replies : List Reply}

theorem system_call (plan : Plan) {suffix : Text} (h : suffix ≠ []) :
    (plan.call suffix).system = plan.system ++ '\n' :: suffix := by
  show plan.system ++ (if suffix.isEmpty then [] else '\n' :: suffix) = _
  rw [if_neg (by simpa using h)]

theorem emptySuffix_ne_nil : emptySuffix ≠ [] := by
  decide +kernel

theorem violationSuffix_ne_nil (violations : List Text) (retry : Nat) :
    violationSuffix violations retry ≠ [] := by
  intro h
  have hstarts := opening_starts violations retry
  rw [h, List.prefix_nil] at hstarts
  revert hstarts
  cases Wording.ofRetry retry <;> decide

theorem prompted_first (generator : Generator) (request : Request) :
    Prompted generator request [] [] ((generator.plan request).call []) := by
  have hsystem : ((generator.plan request).call []).system = systemPrompt request.target :=
    List.append_nil _
  refine ⟨rfl, rfl, rfl, rfl, fun _ => hsystem, fun h => absurd rfl h, ?_, ?_⟩
  · intro last hlast
    cases hlast
  · intro wording hw
    rw [words_base hsystem] at hw
    cases hw

theorem prompted_empty (hne : replies ≠ [])
    (hblank : ∀ reply ∈ replies, reply.kind request.target = .blank) :
    Prompted generator request sent replies ((generator.plan request).call emptySuffix) := by
  have hsystem := system_call (generator.plan request) emptySuffix_ne_nil
  refine ⟨rfl, rfl, rfl, rfl, fun h => absurd h hne, fun _ _ => hsystem, ?_, ?_⟩
  · rintro last - ⟨reply, hmem, hkind⟩
    exact absurd (hblank reply hmem) hkind
  · intro wording hw
    exact absurd ((words_eq_true hsystem).1 hw) (not_opening_emptySuffix wording)

theorem prompted_violations {last : Reply} (hlast : replies.getLast? = some last)
    (hkind : last.kind request.target = .invalid) :
    Prompted generator request sent replies ((generator.plan request).call
      (violationSuffix (Attempt.ofReply request.target last).violations
        (validationRetries (systemPrompt request.target) sent))) := by
  have hmem : last ∈ replies := List.mem_of_getLast? hlast
  obtain ⟨hinvalid, hnamed⟩ := named_of_invalid hkind
  rw [hnamed]
  have hsystem := system_call (generator.plan request)
    (violationSuffix_ne_nil (validate last.code request.target).violations
      (validationRetries (systemPrompt request.target) sent))
  refine ⟨rfl, rfl, rfl, rfl, ?_, ?_, ?_, ?_⟩
  · rintro rfl
    cases hmem
  · intro _ hblank
    rw [hblank last hmem] at hkind
    cases hkind
  · intro last' hlast' _
    rw [hlast] at hlast'
    cases hlast'
    refine ⟨?_, hsystem⟩
    intro hnil
    rw [(compliant_iff _ _).2 hnil] at hinvalid
    cases hinvalid
  · intro wording hw
    exact (opening_violationSuffix _ _ _).1 ((words_eq_true hsystem).1 hw)

/-! ## Every call of a run -/

section
variable {σ : Type} {gateway : Gateway σ} {state : σ} {now : Progress σ}
  {earlier : List Attempt} {last : Attempt} {suffix : Text}

/-- A call that comes after the calls `sent` is prompted by them and by the replies read from the
texts that answered them. -/
def PromptedBy (generator : Generator) (request : Request) (gateway : Gateway σ) (state : σ)
    (sent : List Call) (call : Call) : Prop :=
  ∃ (texts : List Text) (replies : List Reply), gateway.results state sent = texts.map .ok ∧
    texts.map (Reply.ofText generator.limits) = replies.map .ok ∧
    Prompted generator request sent replies call

/-- What the rule asks for is what the law says, if the attempts with a program before the last one
were answered by a validation retry each. -/
theorem prompted_next {budgets : Budgets}
    (h : Standing gateway (generator.plan request) state (last :: earlier) now)
    (hretries : validationRetries (systemPrompt request.target) now.calls =
      earlier.countP (·.hasCode))
    (hnext : budgets.next? earlier last = some suffix) :
    PromptedBy generator request gateway state now.calls
      ((generator.plan request).call suffix) := by
  obtain ⟨texts, replies, htexts, hreplies, hmade⟩ := h.replies
  refine ⟨texts, replies, htexts, hreplies, ?_⟩
  rcases List.eq_nil_or_concat replies with rfl | ⟨before, reply, hsplit⟩
  · cases hmade
  rw [List.concat_eq_append] at hsplit
  have hgetLast : replies.getLast? = some reply := by rw [hsplit, List.getLast?_concat]
  have hlast : last = Attempt.ofReply request.target reply := by
    rw [hsplit, List.map_append, List.reverse_append] at hmade
    exact (List.cons.inj hmade).1
  rcases next?_eq_some.1 hnext with ⟨hc, hv, -, rfl⟩ | ⟨hc, h0, -, rfl⟩
  · rw [hlast] at hc hv ⊢
    rw [← hretries]
    exact prompted_violations hgetLast (rejected_iff.1 ⟨hc, hv⟩)
  · apply prompted_empty
    · rintro rfl
      cases hgetLast
    · intro reply hreply
      have hmem : Attempt.ofReply request.target reply ∈ last :: earlier := by
        rw [hmade]
        exact List.mem_reverse.2 (List.mem_map_of_mem hreply)
      apply hasCode_eq_false_iff.1
      rcases List.mem_cons.1 hmem with hreply | hreply
      · rw [hreply, hc]
      · exact Bool.eq_false_iff.2 (List.countP_eq_zero.1 h0 _ hreply)

/-- A call after a program names violations, one after a blank reply does not. -/
theorem namesViolations_next {budgets : Budgets}
    (hnext : budgets.next? earlier last = some suffix) :
    ((generator.plan request).call suffix).namesViolations (systemPrompt request.target) =
      last.hasCode := by
  rcases next?_eq_some.1 hnext with ⟨hc, -, -, rfl⟩ | ⟨hc, -, -, rfl⟩
  · have hsystem := system_call (generator.plan request)
      (violationSuffix_ne_nil last.violations (earlier.countP (·.hasCode)))
    rw [hc]
    exact namesViolations_iff.2 ⟨_, (words_eq_true hsystem).2 (opening_starts _ _)⟩
  · have hsystem := system_call (generator.plan request) emptySuffix_ne_nil
    rw [hc]
    apply Bool.eq_false_iff.2
    intro h
    obtain ⟨wording, hw⟩ := namesViolations_iff.1 h
    exact not_opening_emptySuffix wording ((words_eq_true hsystem).1 hw)

/-- Every call of a climb is prompted by the calls and replies before it. -/
theorem climb_prompted (generator : Generator) (request : Request) (gateway : Gateway σ)
    (state : σ) (cancelled : Bool) :
    EachCall (PromptedBy generator request gateway state)
      (climb gateway (generator.plan request) generator.budgets
        ⟨state, cancelled, [], []⟩).2.calls := by
  -- The calls that name violations are counted along: they are the retries of the rule.
  refine climb_each (J := fun earlier calls =>
    validationRetries (systemPrompt request.target) calls = earlier.countP (·.hasCode)) ?_ ?_
  · refine ⟨⟨[], [], rfl, rfl, prompted_first generator request⟩, ?_⟩
    unfold validationRetries
    rw [List.countP_singleton, namesViolations_base (List.append_nil _)]
    rfl
  · intro earlier last now suffix h hretries hnext
    refine ⟨prompted_next h hretries hnext, ?_⟩
    unfold validationRetries at hretries ⊢
    rw [List.countP_append, hretries, List.countP_singleton, namesViolations_next hnext,
      List.countP_cons]

end

/-- **What every call carries.**  In every generation each call carries what the calls before it and
the replies to them say, and if the last attempt holds a program that is not block-safe, its
violations are there to be named in the outcome. -/
theorem generate_prompts {σ : Type} (generator : Generator) (gateway : Gateway σ)
    (request : Request) (cancelled : Bool) (state : σ) :
    (∀ sent call,
      sent ++ [call] <+: (generator.generate gateway request cancelled state).2.calls →
        ∃ (texts : List Text) (replies : List Reply),
          gateway.results state sent = texts.map .ok ∧
          texts.map (Reply.ofText generator.limits) = replies.map .ok ∧
          Prompted generator request sent replies call) ∧
    ∀ last after, climb gateway (generator.plan request) generator.budgets
        ⟨state, cancelled, [], []⟩ = (.ok last, after) →
      last.hasCode = true → last.compliant = false → commaJoin last.violations ≠ [] := by
  refine ⟨?_, ?_⟩
  · rw [generate_progress]
    exact climb_prompted generator request gateway state cancelled
  · intro last after hclimb hc hv
    have hstanding := climb_standing gateway (generator.plan request) state generator.budgets
      cancelled
    rw [hclimb] at hstanding
    obtain ⟨earlier, h⟩ := hstanding
    obtain ⟨-, reply, -, -, rfl⟩ := h.last_result
    obtain ⟨hinvalid, hnamed⟩ := named_of_invalid (rejected_iff.1 ⟨hc, hv⟩)
    rw [hnamed]
    exact commaJoin_violations hinvalid

end BlockSafe
