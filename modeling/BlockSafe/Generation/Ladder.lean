import BlockSafe.Generation.Budgets
import BlockSafe.Generation.Gateway
import BlockSafe.Prompt.System
import BlockSafe.Prompt.User
import BlockSafe.Reply.Envelope
import BlockSafe.Schema.Results
import BlockSafe.Verdict

/-!
# The retry ladder

A provider is asked until it returns a block-safe program.  First it is asked again while its
replies hold no program (`climbEmpty`), then while its programs are not block-safe
(`climbInvalid`), each as often as the budgets allow; a reply without a program in the second
part ends the climb.  What is reached last decides the outcome (`settle`): the program if it is
block-safe, the stub of the target otherwise.

Only a failed call, a reply beyond the limits and a cancelled token end a generation without an
outcome.  The token is looked at before every call.
-/

namespace BlockSafe

/-! ## Attempts -/

/-- The reply in the result of a call.  There is none if the call failed or the text that it brought
goes beyond the limits. -/
def Reply.ofResult (limits : Limits) (result : Except Failure Text) : Except Failure Reply :=
  result.bind fun raw => (Reply.ofText limits raw).mapError Excess.failure

/-- What one call brought: a reply, and the verdict on its program if it has one. -/
structure Attempt where
  reply : Reply
  verdict : Option Verdict
deriving DecidableEq, Repr

namespace Attempt

/-- Whether a program has anything but white space. -/
def isProgram (code : Text) : Bool := !Text.isBlank code

/-- The attempt that a reply stands for. -/
def ofReply (target : Target) (reply : Reply) : Attempt :=
  ⟨reply, if isProgram reply.code then some (validate reply.code target) else none⟩

/-- Whether the reply holds a program. -/
def hasCode (attempt : Attempt) : Bool := isProgram attempt.reply.code

/-- Whether the reply holds a block-safe program. -/
def compliant (attempt : Attempt) : Bool := attempt.verdict.any (·.compliant)

/-- What is wrong with the program. -/
def violations (attempt : Attempt) : List Text :=
  (attempt.verdict.map (·.violations)).getD []

end Attempt

/-- What stays the same over the calls of one generation. -/
structure Plan where
  limits : Limits
  target : Target
  provider : Option Text
  model : Option Text
  system : Text
  user : Text
  timeout : Number

/-- The call with a suffix to the system prompt. -/
def Plan.call (plan : Plan) (suffix : Text) : Call :=
  ⟨plan.provider, plan.model, withSuffix plan.system suffix, plan.user, plan.timeout⟩

/-- Where a generation stands: the gateway, the token, the calls made so far and the notes
collected so far. -/
structure Progress (σ : Type) where
  state : σ
  cancelled : Bool
  calls : List Call
  notes : List Text

/-- A step of a generation: what it yields and where the generation stands after it. -/
abbrev Step (σ α : Type) := Except Failure α × Progress σ

/-- One attempt, unless the token is cancelled. -/
def attempt {σ : Type} (gateway : Gateway σ) (plan : Plan) (suffix : Text) (now : Progress σ) :
    Step σ Attempt :=
  match checkToken now.cancelled with
  | .error failure => (.error failure, now)
  | .ok () =>
    let call := plan.call suffix
    let answer := gateway.call call now.cancelled now.state
    let after : Progress σ := ⟨answer.state, answer.cancelled, now.calls ++ [call], now.notes⟩
    match Reply.ofResult plan.limits answer.result with
    | .error failure => (.error failure, after)
    | .ok reply =>
      (.ok (.ofReply plan.target reply), { after with notes := after.notes ++ reply.feedback })

/-! ## Climbing -/

/-- Asks again, at most `budget` times, while there is no program. -/
def climbEmpty {σ : Type} (gateway : Gateway σ) (plan : Plan) :
    Nat → Attempt → Progress σ → Step σ Attempt
  | 0, last, now => (.ok last, now)
  | budget + 1, last, now =>
    if last.hasCode then (.ok last, now)
    else match attempt gateway plan emptySuffix now with
      | (.ok next, after) => climbEmpty gateway plan budget next after
      | (.error failure, after) => (.error failure, after)

/-- Asks again, at most `budget` times, while there is a program that is not block-safe; `retry`
counts the retries so far. -/
def climbInvalid {σ : Type} (gateway : Gateway σ) (plan : Plan) :
    Nat → Nat → Attempt → Progress σ → Step σ Attempt
  | 0, _, last, now => (.ok last, now)
  | budget + 1, retry, last, now =>
    if last.hasCode && !last.compliant then
      match attempt gateway plan (violationSuffix last.violations retry) now with
      | (.ok next, after) => climbInvalid gateway plan budget (retry + 1) next after
      | (.error failure, after) => (.error failure, after)
    else (.ok last, now)

/-- The whole climb from the first attempt on. -/
def climb {σ : Type} (gateway : Gateway σ) (plan : Plan) (budgets : Budgets) (now : Progress σ) :
    Step σ Attempt :=
  match attempt gateway plan [] now with
  | (.error failure, after) => (.error failure, after)
  | (.ok first, afterFirst) =>
    match climbEmpty gateway plan budgets.empty first afterFirst with
    | (.error failure, after) => (.error failure, after)
    | (.ok second, afterSecond) =>
      climbInvalid gateway plan budgets.validation 0 second afterSecond

/-! ## Outcomes -/

/-- The note of an outcome without any other. -/
def defaultNote : Text := "Model completed generation without explicit feedback notes."

/-- The note on a stub after replies without a program. -/
def emptyNote : Text := "Model returned no code; provided fallback stub."

/-- The note on a stub after a program that is not block-safe. -/
def invalidNote (violations : List Text) : Text :=
  let listed := commaJoin violations
  "Validation fallback: ".toList
    ++ if listed.isEmpty then "unknown compatibility issue".toList else listed

/-- A program with the distinct notes, or the default one. -/
def outcomeOf (code : Text) (notes : List Text) : Outcome :=
  ⟨code, distinctNotes (notes.map .str) defaultNote⟩

/-- The outcome after the last attempt. -/
def settle (target : Target) (last : Attempt) (notes : List Text) : Outcome :=
  if !last.hasCode then outcomeOf target.profile.stub (notes ++ [emptyNote])
  else if !last.compliant then
    outcomeOf target.profile.stub (notes ++ [invalidNote last.violations])
  else outcomeOf last.reply.code notes

/-! ## Generators -/

/-- How requests are served. -/
structure Generator where
  /-- The limits within which replies are read. -/
  limits : Limits
  budgets : Budgets
  /-- Seconds for each call. -/
  timeout : Number
  /-- The most characters of the program in the editor that go into a prompt; zero for all. -/
  codeLimit : Int
  provider : Option Text
  model : Option Text

namespace Generator

/-- The fixed part of the calls for a request. -/
def plan (generator : Generator) (request : Request) : Plan where
  limits := generator.limits
  target := request.target
  provider := request.provider.or generator.provider
  model := request.model.or generator.model
  system := systemPrompt request.target
  user := userPrompt request generator.codeLimit
  timeout := generator.timeout

/-- Serves one request: the outcome or the failure, and where the generation stood then. -/
def generate {σ : Type} (generator : Generator) (gateway : Gateway σ) (request : Request)
    (cancelled : Bool) (state : σ) : Step σ Outcome :=
  match climb gateway (generator.plan request) generator.budgets ⟨state, cancelled, [], []⟩ with
  | (.error failure, after) => (.error failure, after)
  | (.ok last, after) => (.ok (settle request.target last after.notes), after)

end Generator

/-! ## Sessions -/

/-- Which token goes with each of several requests. -/
inductive TokenUse where
  /-- A new one with each. -/
  | fresh
  /-- The same one with all; it may be cancelled from the start. -/
  | shared (cancelled : Bool)
deriving DecidableEq, Repr

namespace TokenUse

/-- Whether the token of the next request is cancelled. -/
def cancelled : TokenUse → Bool
  | fresh => false
  | shared cancelled => cancelled

/-- The use after a request at whose end its token was or was not cancelled. -/
def after : TokenUse → Bool → TokenUse
  | fresh, _ => fresh
  | shared _, cancelled => shared cancelled

end TokenUse

/-- What came of one request of a session: the issues of a request that could not be read, or the
result and where its generation stood at the end. -/
inductive Served (σ : Type) where
  | refused (issues : List Issue)
  | done (result : Except Failure Outcome) (after : Progress σ)

/-- Serves requests one after the other on one gateway. -/
def serve {σ : Type} (generator : Generator) (gateway : Gateway σ) (tokens : TokenUse)
    (state : σ) : List (Checked Request) → List (Served σ)
  | [] => []
  | .error issues :: rest => .refused issues :: serve generator gateway tokens state rest
  | .ok request :: rest =>
    let (result, after) := generator.generate gateway request tokens.cancelled state
    .done result after
      :: serve generator gateway (tokens.after after.cancelled) after.state rest

end BlockSafe
