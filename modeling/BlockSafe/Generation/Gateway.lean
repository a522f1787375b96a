import BlockSafe.Limits
import BlockSafe.Number.Basic

/-!
# Gateways

A gateway passes prompts to a provider.  It is a function of the call and of a state of its own,
and it may find that the caller has cancelled: the token that goes in uncancelled can come back
cancelled, whatever the answer.  `scripted` is the gateway that answers from a list.
-/

namespace BlockSafe

/-! ## Failures -/

/-- Why a call, and with it a generation, fails. -/
inductive FailureKind where
  /-- The provider could not be reached or refused. -/
  | transport
  /-- The provider took too long. -/
  | timeout
  /-- The provider or the model cannot be used. -/
  | configuration
  /-- The caller cancelled. -/
  | cancelled
  /-- The reply of the provider has content of an unknown kind. -/
  | content
  /-- The reply of the provider has metadata of an unknown kind. -/
  | metadata
  /-- Something is nested too deep. -/
  | depth
  /-- An integer has too many digits. -/
  | digits
  /-- Something else, known by a name only. -/
  | other (name : Text)
  /-- Something that is no exception, known by a name only. -/
  | exit (name : Text)
deriving DecidableEq, Repr

/-- A failure with the message that is shown for it. -/
structure Failure where
  kind : FailureKind
  message : Text
deriving DecidableEq, Repr

/-- The failure of whoever finds the token cancelled. -/
def Failure.cancellation : Failure := ⟨.cancelled, "Generation cancelled by caller"⟩

/-- The failure of whatever goes beyond a limit. -/
def Excess.failure (excess : Excess) : Failure :=
  ⟨match excess with
    | .digits => .digits
    | _ => .depth, excess.message⟩

/-- Fails if the token is cancelled. -/
def checkToken (cancelled : Bool) : Except Failure Unit :=
  if cancelled then .error .cancellation else .ok ()

/-! ## Calls -/

/-- One pair of prompts for a provider. -/
structure Call where
  provider : Option Text
  model : Option Text
  system : Text
  user : Text
  /-- Seconds. -/
  timeout : Number

/-- What comes back from a call: a text or a failure, whether the token is cancelled, and the
new state of the gateway. -/
structure Answer (σ : Type) where
  result : Except Failure Text
  cancelled : Bool
  state : σ

/-- A way to reach providers, with states in `σ`. -/
structure Gateway (σ : Type) where
  call : Call → Bool → σ → Answer σ

/-! ## Scripts -/

/-- One answer of a scripted gateway. -/
inductive ScriptedReply where
  | text (reply : Text)
  /-- Cancels the token, then replies. -/
  | cancel (reply : Text)
  | fail (failure : Failure)
deriving DecidableEq, Repr

/-- The failure of a script that is used up. -/
def Failure.exhausted : Failure := ⟨.transport, "script exhausted"⟩

/-- The gateway that answers every call by the next reply of a script. -/
def scripted : Gateway (List ScriptedReply) where
  call _ cancelled
    | [] => ⟨.error .exhausted, cancelled, []⟩
    | .text reply :: rest => ⟨.ok reply, cancelled, rest⟩
    | .cancel reply :: rest => ⟨.ok reply, true, rest⟩
    | .fail failure :: rest => ⟨.error failure, cancelled, rest⟩

end BlockSafe
