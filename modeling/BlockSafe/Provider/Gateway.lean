import BlockSafe.Generation.Ladder
import BlockSafe.Provider.Registry
import BlockSafe.Provider.Reply

/-!
# The gateway to chat models

A call goes to the models of the chosen provider in order of rank: a client is built for each and
invoked with the same messages.  The first text that is not blank is the answer; a client that
cannot be built, a reply that no text can be taken from, a failure that is no exception, or a
cancelled token ends the call.  If all models are tried, the last one decides: its failure, or an
empty answer if its text was blank.

How clients behave is given by a `Fleet`: for each model a queue of behaviours, one of which every
newly built client takes.  The fleet also keeps a log of the clients that were built and of the
messages that were sent.
-/

namespace BlockSafe

/-! ## Clients -/

/-- What a client fails with. -/
inductive ClientFailure where
  /-- An exception with its name, whether it is one of timeouts, and its message; to ask for the
  message may be a failure of its own. -/
  | exception (name : Text) (isTimeout : Bool) (message : Except Failure Text)
  /-- Something that is no exception. -/
  | exit (name message : Text)

/-- What becomes of a client.  Where it can be `cancelling`, the token may be cancelled too late for
anyone to notice. -/
inductive ClientBehaviour where
  | replies (reply : ModelReply) (cancelling : Bool := false)
  /-- Fails when it is invoked. -/
  | fails (failure : ClientFailure) (cancelling : Bool := false)
  /-- Does not answer before the time is up. -/
  | hangs
  /-- The token is cancelled while the client is waited for. -/
  | cancels
  /-- Cannot be built. -/
  | unbuildable (failure : ClientFailure) (cancelling : Bool := false)

/-- Who speaks in a message. -/
inductive Role where
  | system
  | human
deriving DecidableEq, Repr

/-- A message to a chat model. -/
structure Message where
  role : Role
  content : Text
deriving DecidableEq, Repr

/-- How clients behave, and what has been done with them. -/
structure Fleet where
  /-- The behaviours of the clients of a model that are still to be built. -/
  queues : List (Text × List ClientBehaviour)
  /-- The behaviour of a client whose model has no queue or an empty one. -/
  otherwise : ClientBehaviour
  /-- The clients that were built or could not be, in order. -/
  built : List ClientParams
  /-- The messages of every invocation, in order.  An invocation counts as soon as it is begun. -/
  sent : List (List Message)

namespace Fleet

/-- Takes the first behaviour of a model off its queue. -/
def takeFrom (model : Text) : List (Text × List ClientBehaviour) →
    Option ClientBehaviour × List (Text × List ClientBehaviour)
  | [] => (none, [])
  | (name, queue) :: rest =>
    if name = model then (queue.head?, (name, queue.tail) :: rest)
    else
      let (behaviour, after) := takeFrom model rest
      (behaviour, (name, queue) :: after)

/-- Builds a client. -/
def build (fleet : Fleet) (params : ClientParams) : ClientBehaviour × Fleet :=
  let (behaviour, queues) := takeFrom params.model fleet.queues
  (behaviour.getD fleet.otherwise,
    { fleet with queues := queues, built := fleet.built ++ [params] })

/-- Sends messages to a client. -/
def send (fleet : Fleet) (messages : List Message) : Fleet :=
  { fleet with sent := fleet.sent ++ [messages] }

end Fleet

/-! ## Invocations -/

/-- The failure of a call that took longer than `timeout` seconds. -/
def Failure.timedOut (timeout : Number) : Failure :=
  ⟨.timeout, "Generation timed out after ".toList ++ timeout.brief ++ ['s']⟩

/-- Whether a failure is named for a timeout. -/
def namesTimeout (name : Text) : Bool := Text.occursIn "Timeout" name

namespace ClientFailure

/-- Whether a failure counts as a timeout, by its kind or by its name. -/
def meansTimeout : ClientFailure → Bool
  | exception name isTimeout _ => isTimeout || namesTimeout name
  | exit _ _ => false

/-- The message of a failure where it is caught.  What is no exception is not caught, and to ask for
a message that is not there is a failure of its own. -/
def message : ClientFailure → Except Failure Text
  | exception _ _ message => message
  | exit name message => .error ⟨.exit name, message⟩

end ClientFailure

/-- Whether a number of seconds does not run out at once; the non-number never runs out. -/
def Number.leavesTime : Number → Bool
  | .int i => 0 < i
  | .real x => !(x ≤ 0)

/-- How an invocation ends. -/
inductive Invocation where
  | reply (reply : ModelReply)
  | failed (failure : Failure)
  | cancelled
  /-- A failure that nobody turns into one of the gateway. -/
  | escaped (failure : Failure)

/-- How an invocation ends that fails of itself. -/
def ClientFailure.invocation (timeout : Number) (failure : ClientFailure) : Invocation :=
  if failure.meansTimeout then .failed (.timedOut timeout)
  else match failure.message with
    | .ok message => .failed ⟨.transport, "Provider error: ".toList ++ message⟩
    | .error failure => .escaped failure

namespace ClientBehaviour

/-- What comes of a client that is given `timeout` seconds.  The token is looked at before the time,
and both before the client. -/
def invoke (timeout : Number) (cancelled : Bool) (behaviour : ClientBehaviour) : Invocation :=
  if cancelled then .cancelled
  else if !timeout.leavesTime then .failed (.timedOut timeout)
  else match behaviour with
    | replies reply _ => .reply reply
    | fails failure _ => failure.invocation timeout
    | cancels => .cancelled
    | hangs | unbuildable _ _ => .failed (.timedOut timeout)

/-- Whether the token is cancelled over a client that is given `timeout` seconds. -/
def cancelsToken (timeout : Number) : ClientBehaviour → Bool
  | replies _ cancelling | fails _ cancelling => timeout.leavesTime && cancelling
  | hangs => false
  | cancels => timeout.leavesTime
  | unbuildable _ cancelling => cancelling

end ClientBehaviour

/-! ## Candidates -/

/-- The messages of a pair of prompts. -/
def buildMessages (supportsSystemPrompt : Bool) (system user : Text) : List Message :=
  if supportsSystemPrompt then [⟨.system, system⟩, ⟨.human, user⟩]
  else [⟨.human, system ++ "\n\n".toList ++ user⟩]

/-- The failure of a client that cannot be built. -/
def Failure.unbuildable (provider model message : Text) : Failure :=
  ⟨.configuration, "Cannot build ".toList ++ provider ++ " model ".toList ++ model ++ ": ".toList
    ++ message⟩

/-- The failure of a call whose reply no text can be taken from. -/
def Failure.ofReply (error : ReplyError) : Failure :=
  ⟨match error with
    | .noParts _ => .content
    | .noFields _ => .metadata
    | .beyond excess => excess.failure.kind, error.message⟩

/-- What is the same for all candidates of one call. -/
structure Attemptable where
  limits : Limits
  settings : Settings
  selection : Selection
  vendor : Vendor
  messages : List Message
  timeout : Number

/-- What one candidate brought: an end of the call, or nothing but perhaps a failure. -/
inductive CandidateResult where
  | answer (text : Text)
  | stop (failure : Failure)
  | next (failure : Option Failure)

/-- What the end of an invocation means for the call. -/
def Invocation.result (call : Attemptable) : Invocation → CandidateResult
  | .cancelled => .stop .cancellation
  | .failed failure => .next (some failure)
  | .escaped failure => .stop failure
  | .reply message =>
    match call.vendor.replyText call.limits message with
    | .error e => .stop (.ofReply e)
    | .ok text => if Text.isBlank text then .next none else .answer text

/-- Tries one candidate; with what it brought comes whether the token is cancelled then. -/
def tryCandidate (call : Attemptable) (model : Text) (cancelled : Bool) (fleet : Fleet) :
    CandidateResult × Bool × Fleet :=
  match call.settings.clientParams call.selection.provider model call.selection.apiKey
      call.timeout with
  | .error e => (.stop (.unbuildable call.selection.provider model e.message), cancelled, fleet)
  | .ok params =>
    let (behaviour, after) := fleet.build params
    let token := cancelled || behaviour.cancelsToken call.timeout
    match behaviour with
    | .unbuildable cause _ =>
      match cause.message with
      | .ok message => (.stop (.unbuildable call.selection.provider model message), token, after)
      | .error failure => (.stop failure, token, after)
    | behaviour =>
      ((behaviour.invoke call.timeout cancelled).result call, token, after.send call.messages)

/-- Tries candidates in order; `last` is the failure of the one before. -/
def tryCandidates (call : Attemptable) (last : Option Failure) (cancelled : Bool) :
    List Text → Fleet → Answer Fleet
  | [], fleet =>
    match last with
    | some failure => ⟨.error failure, cancelled, fleet⟩
    | none => ⟨.ok [], cancelled, fleet⟩
  | model :: rest, fleet =>
    match tryCandidate call model cancelled fleet with
    | (.answer text, token, after) => ⟨.ok text, token, after⟩
    | (.stop failure, token, after) => ⟨.error failure, token, after⟩
    | (.next failure, token, after) => tryCandidates call failure token rest after

/-! ## The gateway -/

/-- The choice that a call makes, and the vendor and messages that go with it. -/
def prepare (limits : Limits) (settings : Settings) (env : Environment) (call : Call) :
    Except RegistryError Attemptable :=
  match settings.resolve env call.provider call.model with
  | .error e => .error e
  | .ok selection =>
    match Settings.getVendor selection.provider, settings.getConfig selection.provider with
    | .error e, _ => .error e
    | _, .error e => .error e
    | .ok vendor, .ok config =>
      .ok ⟨limits, settings, selection, vendor,
        buildMessages config.supportsSystemPrompt call.system call.user, call.timeout⟩

/-- The gateway to the chat models of the settings. -/
def chatGateway (limits : Limits) (settings : Settings) (env : Environment) :
    Gateway Fleet where
  call call cancelled fleet :=
    match checkToken cancelled, prepare limits settings env call with
    | .error failure, _ => ⟨.error failure, cancelled, fleet⟩
    | .ok (), .error e => ⟨.error ⟨.configuration, e.message⟩, cancelled, fleet⟩
    | .ok (), .ok ready =>
      tryCandidates ready none cancelled (ready.vendor.candidates ready.selection.model) fleet

/-- The generator of the settings. -/
def Settings.generator (settings : Settings) (limits : Limits) : Generator where
  limits := limits
  budgets := settings.generation.budgets
  timeout := .real settings.generation.requestTimeout
  codeLimit := settings.generation.codeLimit
  provider := some settings.generation.defaultProvider
  model := none

end BlockSafe
