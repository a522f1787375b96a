import BlockSafe.Proofs.Generation.Policy

/-!
# Traces

What a gateway answered during a generation can be read off the calls alone: `Gateway.answers` asks
it again, with an uncancelled token every time.  That this gives the answers of the run is part of
what every attempt keeps (`Answered`), and with it that no call was made after an answer that came
back with a cancelled token.  As long as nothing failed, the attempts are those of the replies read
from the answered texts (`Standing`).  So a generation fails on the token or, and then it always
does, on what its last call brought (`generate_error_iff`).
-/

namespace BlockSafe

variable {σ : Type}

/-! ## Answers -/

namespace Gateway

variable (gateway : Gateway σ)

/-- The state of a gateway after calls made one after the other with an uncancelled token. -/
def stateAfter (state : σ) (calls : List Call) : σ :=
  calls.foldl (fun state call => (gateway.call call false state).state) state

/-- The answers to these calls. -/
def answers : σ → List Call → List (Answer σ)
  | _, [] => []
  | state, call :: calls =>
    let answer := gateway.call call false state
    answer :: answers answer.state calls

/-- The results of these calls. -/
def results (state : σ) (calls : List Call) : List (Except Failure Text) :=
  (gateway.answers state calls).map (·.result)

theorem stateAfter_concat (state : σ) (calls : List Call) (call : Call) :
    gateway.stateAfter state (calls ++ [call]) =
      (gateway.call call false (gateway.stateAfter state calls)).state := by
  unfold stateAfter
  rw [List.foldl_append]
  rfl

theorem answers_concat (state : σ) (calls : List Call) (call : Call) :
    gateway.answers state (calls ++ [call]) =
      gateway.answers state calls ++
        [gateway.call call false (gateway.stateAfter state calls)] := by
  induction calls generalizing state with
  | nil => rfl
  | cons first calls ih =>
    rw [List.cons_append, answers, ih]
    rfl

theorem results_concat (state : σ) (calls : List Call) (call : Call) :
    gateway.results state (calls ++ [call]) = gateway.results state calls ++
      [(gateway.call call false (gateway.stateAfter state calls)).result] := by
  unfold results
  rw [answers_concat, List.map_append]
  rfl

end Gateway

/-! ## Calls in order -/

/-- What holds of every call of a list, given the calls before it. -/
def EachCall (P : List Call → Call → Prop) (calls : List Call) : Prop :=
  ∀ sent call, sent ++ [call] <+: calls → P sent call

theorem eachCall_nil (P : List Call → Call → Prop) : EachCall P [] := by
  intro sent call h
  exact absurd (List.prefix_nil.1 h) (by simp)

theorem EachCall.concat {P : List Call → Call → Prop} {calls : List Call} {call : Call}
    (h : EachCall P calls) (hP : P calls call) : EachCall P (calls ++ [call]) := by
  intro sent next hbefore
  rcases List.prefix_concat_iff.1 hbefore with heq | hbefore
  · obtain ⟨rfl, hnext⟩ := List.append_inj' heq rfl
    cases hnext
    exact hP
  · exact h sent next hbefore

/-! ## What a generation has been answered -/

/-- A call is in time if no answer before it came back with a cancelled token. -/
def InTime (gateway : Gateway σ) (start : σ) (sent : List Call) (_ : Call) : Prop :=
  ∀ answer ∈ gateway.answers start sent, answer.cancelled = false

/-- Where a generation stands that found its gateway in the state `start`: its calls account for
the state of the gateway and for the token, and all of them were in time. -/
structure Answered (gateway : Gateway σ) (start : σ) (now : Progress σ) : Prop where
  state : now.state = gateway.stateAfter start now.calls
  uncancelled : now.cancelled = false →
    ∀ answer ∈ gateway.answers start now.calls, answer.cancelled = false
  inTime : EachCall (InTime gateway start) now.calls

/-- Where a generation stands whose calls were all answered by texts within the limits; the attempts
made of them come latest first. -/
structure Standing (gateway : Gateway σ) (plan : Plan) (start : σ) (made : List Attempt)
    (now : Progress σ) : Prop extends Answered gateway start now where
  replies : ∃ (texts : List Text) (replies : List Reply),
    gateway.results start now.calls = texts.map .ok ∧
      texts.map (Reply.ofText plan.limits) = replies.map .ok ∧
      made = (replies.map (Attempt.ofReply plan.target)).reverse

variable {gateway : Gateway σ} {plan : Plan} {start : σ} {now after : Progress σ}
  {made : List Attempt}

theorem standing_start (gateway : Gateway σ) (plan : Plan) (start : σ) (cancelled : Bool) :
    Standing gateway plan start [] ⟨start, cancelled, [], []⟩ where
  state := rfl
  uncancelled _ _ h := absurd h List.not_mem_nil
  inTime := eachCall_nil _
  replies := ⟨[], [], rfl, rfl, rfl⟩

theorem Answered.call {call : Call} {result : Except Failure Text} (h : Answered gateway start now)
    (hopen : now.cancelled = false) (hcalls : after.calls = now.calls ++ [call])
    (hg : gateway.call call false now.state = ⟨result, after.cancelled, after.state⟩) :
    Answered gateway start after ∧
      gateway.results start after.calls = gateway.results start now.calls ++ [result] := by
  have hopen := h.uncancelled hopen
  rw [h.state] at hg
  refine ⟨⟨?_, ?_, ?_⟩, ?_⟩
  · rw [hcalls, gateway.stateAfter_concat, hg]
  · intro hafter answer hmem
    rw [hcalls, gateway.answers_concat, hg] at hmem
    rcases List.mem_append.1 hmem with hmem | hmem
    · exact hopen answer hmem
    · rw [List.mem_singleton.1 hmem]
      exact hafter
  · rw [hcalls]
    exact h.inTime.concat hopen
  · rw [hcalls, gateway.results_concat, hg]

/-- The last of these calls fails so, or reading the text that it brought does. -/
def LastFails (gateway : Gateway σ) (limits : Limits) (start : σ) (calls : List Call)
    (failure : Failure) : Prop :=
  ∃ sent call, calls = sent ++ [call] ∧ Reply.ofResult limits
    (gateway.call call false (gateway.stateAfter start sent)).result = .error failure

/-- How a climb fails: on its token, after texts within the limits, or on its last call. -/
def FailsOn (gateway : Gateway σ) (plan : Plan) (start : σ) (failure : Failure)
    (after : Progress σ) : Prop :=
  (failure = .cancellation ∧ ∃ made, Standing gateway plan start made after) ∨
    LastFails gateway plan.limits start after.calls failure

/-- One attempt adds one call at most, and none to a cancelled token. -/
theorem attempt_standing (h : Standing gateway plan start made now) (suffix : Text) :
    Ends
      (fun next after => Standing gateway plan start (next :: made) after ∧
        after.calls = now.calls ++ [plan.call suffix])
      (fun failure after =>
        (Answered gateway start after ∧ FailsOn gateway plan start failure after) ∧
        (after.calls = now.calls ∨ after.calls = now.calls ++ [plan.call suffix]))
      (attempt gateway plan suffix now) := by
  cases ha : attempt gateway plan suffix now with
  | mk result after =>
    rcases attempt_cases ha with ⟨-, rfl, rfl⟩ | ⟨hopen, hcalls, brought, hg, hread⟩
    · exact ⟨⟨h.toAnswered, .inl ⟨rfl, made, h⟩⟩, .inl rfl⟩
    · obtain ⟨hafter, hresults⟩ := h.toAnswered.call hopen hcalls hg
      rcases hread with ⟨failure, hread, rfl, -⟩ | ⟨reply, hread, rfl, -⟩
      · rw [h.state] at hg
        exact ⟨⟨hafter, .inr ⟨now.calls, _, hcalls, by rw [hg, hread]⟩⟩, .inr hcalls⟩
      · obtain ⟨raw, rfl, hraw⟩ := ofResult_eq_ok.1 hread
        obtain ⟨texts, replies, htexts, hreplies, rfl⟩ := h.replies
        refine ⟨⟨hafter, texts ++ [raw], replies ++ [reply], ?_, ?_, ?_⟩, hcalls⟩
        · rw [hresults, htexts, List.map_append]
          rfl
        · rw [List.map_append, List.map_append, hreplies, List.map_singleton, hraw]
          rfl
        · rw [List.map_append, List.reverse_append]
          rfl

/-- Where a climb ends. -/
theorem climb_standing (gateway : Gateway σ) (plan : Plan) (start : σ) (budgets : Budgets)
    (cancelled : Bool) :
    Ends (fun last after => ∃ earlier, Standing gateway plan start (last :: earlier) after)
      (fun failure after => Answered gateway start after ∧ FailsOn gateway plan start failure after)
      (climb gateway plan budgets ⟨start, cancelled, [], []⟩) := by
  have hstep : ∀ made now suffix, Standing gateway plan start made now →
      Ends (fun next => Standing gateway plan start (next :: made))
        (fun failure after =>
          Answered gateway start after ∧ FailsOn gateway plan start failure after)
        (attempt gateway plan suffix now) :=
    fun made now suffix h => (attempt_standing h suffix).imp (fun _ _ h => h.1) fun _ _ h => h.1
  exact climb_history (A := fun earlier last => Standing gateway plan start (last :: earlier))
    (hstep [] _ [] (standing_start gateway plan start cancelled))
    (fun earlier last now suffix h _ => hstep (last :: earlier) now suffix h)

/-- What holds of the first call, and of every call that the rule asks for, holds of each call of a
climb.  `J` may keep account of the calls along the way, given the attempts that were answered by
another call. -/
theorem climb_each {P : List Call → Call → Prop} {J : List Attempt → List Call → Prop}
    {budgets : Budgets} {cancelled : Bool}
    (hfirst : P [] (plan.call []) ∧ J [] [plan.call []])
    (hnext : ∀ earlier last (now : Progress σ) suffix,
      Standing gateway plan start (last :: earlier) now → J earlier now.calls →
      budgets.next? earlier last = some suffix →
      P now.calls (plan.call suffix) ∧ J (last :: earlier) (now.calls ++ [plan.call suffix])) :
    EachCall P (climb gateway plan budgets ⟨start, cancelled, [], []⟩).2.calls := by
  let A := fun earlier last (now : Progress σ) =>
    Standing gateway plan start (last :: earlier) now ∧ J earlier now.calls ∧
      EachCall P now.calls
  let F := fun (_ : Failure) (after : Progress σ) => EachCall P after.calls
  -- One attempt, whatever was made before it.
  have hattempt : ∀ made now suffix, Standing gateway plan start made now →
      EachCall P now.calls → P now.calls (plan.call suffix) →
      J made (now.calls ++ [plan.call suffix]) →
      Ends (A made) F (attempt gateway plan suffix now) := by
    intro made now suffix h heach hP hJ
    refine (attempt_standing h suffix).imp ?_ ?_
    · rintro next after ⟨hafter, hcalls⟩
      refine ⟨hafter, ?_⟩
      rw [hcalls]
      exact ⟨hJ, heach.concat hP⟩
    · rintro failure after ⟨-, hcalls⟩
      show EachCall P after.calls
      rcases hcalls with hcalls | hcalls
      · rwa [hcalls]
      · rw [hcalls]
        exact heach.concat hP
  have hclimb : Ends (fun last after => ∃ earlier, A earlier last after) F
      (climb gateway plan budgets ⟨start, cancelled, [], []⟩) := by
    refine climb_history ?_ ?_
    · exact hattempt [] _ [] (standing_start gateway plan start cancelled) (eachCall_nil P)
        hfirst.1 hfirst.2
    · rintro earlier last now suffix ⟨h, hJ, heach⟩ hs
      obtain ⟨hP, hJ⟩ := hnext earlier last now suffix h hJ hs
      exact hattempt (last :: earlier) now suffix h heach hP hJ
  exact ends_progress.1 (hclimb.imp (fun _ _ ⟨_, h⟩ => h.2.2) fun _ _ h => h)

/-- The last attempt is that of the last result. -/
theorem Standing.last_result {last : Attempt} {earlier : List Attempt}
    (h : Standing gateway plan start (last :: earlier) now) :
    ∃ raw reply, (gateway.results start now.calls).getLast? = some (.ok raw) ∧
      Reply.ofText plan.limits raw = .ok reply ∧ last = Attempt.ofReply plan.target reply := by
  obtain ⟨texts, replies, htexts, hreplies, hmade⟩ := h.replies
  rcases List.eq_nil_or_concat replies with rfl | ⟨replies, reply, rfl⟩
  · cases hmade
  rw [List.concat_eq_append] at hreplies hmade
  rcases List.eq_nil_or_concat texts with rfl | ⟨texts, raw, rfl⟩
  · exact absurd (congrArg List.length hreplies) (by simp)
  rw [List.concat_eq_append] at hreplies htexts
  rw [List.map_append, List.reverse_append] at hmade
  rw [List.map_append, List.map_append] at hreplies
  cases hmade
  refine ⟨raw, reply, ?_, (List.cons.inj (List.append_inj' hreplies rfl).2).1, rfl⟩
  rw [htexts, List.map_append]
  exact List.getLast?_concat

theorem Standing.not_lastFails (h : Standing gateway plan start made now) (failure : Failure) :
    ¬ LastFails gateway plan.limits start now.calls failure := by
  rintro ⟨sent, call, hcalls, hfailed⟩
  obtain ⟨texts, replies, htexts, hreplies, -⟩ := h.replies
  have hresult : (gateway.call call false (gateway.stateAfter start sent)).result ∈
      gateway.results start now.calls := by
    rw [hcalls, gateway.results_concat]
    exact List.mem_append_right _ (List.mem_singleton_self _)
  rw [htexts] at hresult
  obtain ⟨raw, hraw, hresult⟩ := List.mem_map.1 hresult
  have hread := List.mem_map_of_mem (f := Reply.ofText plan.limits) hraw
  rw [hreplies] at hread
  obtain ⟨reply, -, hread⟩ := List.mem_map.1 hread
  have hok := ofResult_eq_ok.2 ⟨raw, hresult.symm, hread.symm⟩
  exact nomatch hok.symm.trans hfailed

/-! ## Generations -/

/-- The outcome that a climb comes to. -/
def concluded (target : Target) : Step σ Attempt → Step σ Outcome
  | (.ok last, after) => (.ok (settle target last after.notes), after)
  | (.error failure, after) => (.error failure, after)

theorem concluded_progress (target : Target) (step : Step σ Attempt) :
    (concluded target step).2 = step.2 := by
  cases step with
  | mk result after =>
    cases result with
    | ok last => rfl
    | error failure => rfl

theorem concluded_error {target : Target} {step : Step σ Attempt} {failure : Failure}
    (h : step.1 = .error failure) : (concluded target step).1 = .error failure := by
  cases step with
  | mk result after =>
    cases h
    rfl

theorem generate_eq_concluded (generator : Generator) (gateway : Gateway σ) (request : Request)
    (cancelled : Bool) (state : σ) :
    generator.generate gateway request cancelled state =
      concluded request.target
        (climb gateway (generator.plan request) generator.budgets ⟨state, cancelled, [], []⟩) := by
  unfold Generator.generate
  cases climb gateway (generator.plan request) generator.budgets ⟨state, cancelled, [], []⟩ with
  | mk result after =>
    cases result with
    | ok last => rfl
    | error failure => rfl

/-- A generation ends where its climb ends. -/
theorem generate_progress (generator : Generator) (gateway : Gateway σ) (request : Request)
    (cancelled : Bool) (state : σ) :
    (generator.generate gateway request cancelled state).2 =
      (climb gateway (generator.plan request) generator.budgets ⟨state, cancelled, [], []⟩).2 := by
  rw [generate_eq_concluded, concluded_progress]

/-- The calls of a generation account for the state of its gateway and for its token, and all of
them were in time. -/
theorem generate_answered (generator : Generator) (gateway : Gateway σ) (request : Request)
    (cancelled : Bool) (state : σ) :
    Answered gateway state (generator.generate gateway request cancelled state).2 := by
  rw [generate_progress]
  exact ends_progress.1 ((climb_standing gateway (generator.plan request) state generator.budgets
    cancelled).imp (fun _ _ ⟨_, h⟩ => h.toAnswered) fun _ _ h => h.1)

/-- A generation fails with anything but the cancellation iff its last call does, or reading what
that brought. -/
theorem generate_error_iff (generator : Generator) (gateway : Gateway σ) (request : Request)
    (cancelled : Bool) (state : σ) {failure : Failure} (h : failure ≠ .cancellation) :
    (generator.generate gateway request cancelled state).1 = .error failure ↔
      LastFails gateway generator.limits state
        (generator.generate gateway request cancelled state).2.calls failure := by
  have hclimb := climb_standing gateway (generator.plan request) state generator.budgets cancelled
  rw [generate_eq_concluded]
  cases hc : climb gateway (generator.plan request) generator.budgets
      ⟨state, cancelled, [], []⟩ with
  | mk result after =>
    rw [hc] at hclimb
    cases result with
    | ok last =>
      obtain ⟨earlier, hstanding⟩ := hclimb
      exact iff_of_false nofun (hstanding.not_lastFails failure)
    | error e =>
      rcases hclimb.2 with ⟨rfl, made, hstanding⟩ | ⟨sent, call, hcalls, hfailed⟩
      · exact iff_of_false (fun he => h (Except.error.inj he).symm)
          (hstanding.not_lastFails failure)
      · constructor
        · intro he
          cases he
          exact ⟨sent, call, hcalls, hfailed⟩
        · rintro ⟨sent', call', hcalls', hfailed'⟩
          obtain ⟨rfl, hcall⟩ := List.append_inj' (hcalls.symm.trans hcalls') rfl
          cases hcall
          rw [concluded, Except.error.inj (hfailed.symm.trans hfailed')]

/-! ## A plain generation -/

/-- A generator with the standard budgets and a minute for each call. -/
def plainGenerator : Generator where
  limits := .standard
  budgets := .standard
  timeout := .int 60
  codeLimit := 0
  provider := none
  model := none

/-- A request with an instruction only. -/
def plainRequest : Request where
  target := .microbit
  instruction := "count"
  existingCode := []
  pageErrors := []
  dialog := none
  provider := none
  model := none

end BlockSafe
