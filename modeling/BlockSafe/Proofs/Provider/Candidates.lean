import BlockSafe.Proofs.Provider.Registry
import Mathlib.Data.List.Basic

/-!
# Ranked candidates

A call tries the candidates of its model in order of rank, and what it answers is decided by the
last one that it tries: the first whose fate decides the call, or the last of all
(`ranked_candidates`).  What one candidate comes to is its `Fate`, a function of the token and of
the behaviour that its client takes from the fleet; every assignment of behaviours to candidates is
that of some fleet (`exists_behaviours`).

A failure is kept only until the next candidate, so the candidates before the last one leave no
trace in the answer (`Concludes`): what comes out is a matter of the last one alone.  A client that
cancels the token too late to be noticed is noticed by the next one (`Tried.token`).
-/

namespace BlockSafe

/-! ## Fates -/

/-- What the construction of a client comes to. -/
inductive Fate where
  /-- It cannot be built. -/
  | unbuildable (message : Text)
  /-- Its invocation fails or takes too long. -/
  | failed (failure : Failure)
  /-- The token is cancelled while it is waited for. -/
  | cancelled
  /-- It replies with a text, which may be blank. -/
  | said (text : Text)
  /-- No text can be taken from its reply. -/
  | unreadable (error : ReplyError)
  /-- It cannot be built or, where it was `invoked`, fails, and nobody turns the failure into one of
  the gateway. -/
  | escaped (failure : Failure) (invoked : Bool)

/-- What an invocation of a client comes to. -/
def Invocation.fate (ready : Attemptable) : Invocation → Fate
  | .reply message =>
    match ready.vendor.replyText ready.limits message with
    | .ok text => .said text
    | .error e => .unreadable e
  | .failed failure => .failed failure
  | .cancelled => .cancelled
  | .escaped failure => .escaped failure true

/-- What a client comes to. -/
def ClientBehaviour.fate (ready : Attemptable) (cancelled : Bool) : ClientBehaviour → Fate
  | .unbuildable cause _ =>
    match cause.message with
    | .ok message => .unbuildable message
    | .error failure => .escaped failure false
  | behaviour => (behaviour.invoke ready.timeout cancelled).fate ready

/-- Whether a client cancels the token too late for its own invocation. -/
def ClientBehaviour.late (timeout : Number) : ClientBehaviour → Bool
  | .cancels => false
  | behaviour => behaviour.cancelsToken timeout

namespace Fate

/-- Whether the call goes no further, whatever candidates are left. -/
def decisive : Fate → Bool
  | failed _ => false
  | said text => !Text.isBlank text
  | _ => true

/-- How many messages have been sent to the client: the prompts, unless it was not built. -/
def invocations : Fate → Nat
  | unbuildable _ | escaped _ false => 0
  | _ => 1

/-- The failure that is kept while the call goes on. -/
def failure? : Fate → Option Failure
  | failed failure => some failure
  | _ => none

/-- What the ladder of candidates makes of a fate. -/
def step (provider model : Text) : Fate → CandidateResult
  | unbuildable message => .stop (.unbuildable provider model message)
  | failed failure => .next (some failure)
  | cancelled => .stop .cancellation
  | said text => if Text.isBlank text then .next none else .answer text
  | unreadable error => .stop (.ofReply error)
  | escaped failure _ => .stop failure

/-- The call goes on behind a failure and behind a blank reply. -/
theorem passed_cases {fate : Fate} (h : fate.decisive = false) :
    (∃ failure, fate = .failed failure) ∨ ∃ text, fate = .said text ∧ Text.isBlank text = true := by
  cases fate with
  | failed failure => exact .inl ⟨failure, rfl⟩
  | said text => exact .inr ⟨text, rfl, by simpa [decisive] using h⟩
  | unbuildable message => cases h
  | cancelled => cases h
  | unreadable error => cases h
  | escaped failure invoked => cases h

end Fate

/-- What a call to `provider` answers whose last candidate was `model`.  A fate that does not decide
the call needs `isLast`: no candidate is left. -/
inductive Concludes (provider model : Text) (isLast : Prop) : Fate → Except Failure Text → Prop
  | text {text : Text} (hsaid : Text.isBlank text = false) :
      Concludes provider model isLast (.said text) (.ok text)
  | unbuildable (message : Text) :
      Concludes provider model isLast (.unbuildable message)
        (.error (.unbuildable provider model message))
  | cancelled : Concludes provider model isLast .cancelled (.error .cancellation)
  | unreadable (error : ReplyError) :
      Concludes provider model isLast (.unreadable error) (.error (.ofReply error))
  | escaped (failure : Failure) (invoked : Bool) :
      Concludes provider model isLast (.escaped failure invoked) (.error failure)
  | blank {text : Text} (hlast : isLast) (hblank : Text.isBlank text = true) :
      Concludes provider model isLast (.said text) (.ok [])
  | failed {failure : Failure} (hlast : isLast)
      (hkind : failure.kind = .timeout ∨ failure.kind = .transport) :
      Concludes provider model isLast (.failed failure) (.error failure)

theorem Concludes.imp {provider model : Text} {isLast isLast' : Prop} {fate : Fate}
    {result : Except Failure Text} (h : Concludes provider model isLast fate result)
    (himp : isLast → isLast') : Concludes provider model isLast' fate result := by
  cases h with
  | text hsaid => exact .text hsaid
  | unbuildable message => exact .unbuildable message
  | cancelled => exact .cancelled
  | unreadable error => exact .unreadable error
  | escaped failure invoked => exact .escaped failure invoked
  | blank hlast hblank => exact .blank (himp hlast) hblank
  | failed hlast hkind => exact .failed (himp hlast) hkind

/-! ## Fleets -/

namespace Fleet

/-- The behaviour that a client of this model takes. -/
def next (fleet : Fleet) (model : Text) : ClientBehaviour :=
  (takeFrom model fleet.queues).1.getD fleet.otherwise

/-- The fleet without the behaviour that a client of this model takes. -/
def drop (fleet : Fleet) (model : Text) : Fleet :=
  { fleet with queues := (takeFrom model fleet.queues).2 }

/-- The behaviours that clients of these models take, built one after the other. -/
def behaviours (fleet : Fleet) : List Text → List ClientBehaviour
  | [] => []
  | model :: rest => fleet.next model :: (fleet.drop model).behaviours rest

end Fleet

/-- The fates of candidates whose clients behave so, one after the other on one token. -/
def fatesOf (ready : Attemptable) : Bool → List (Text × ClientBehaviour) → List (Text × Fate)
  | _, [] => []
  | cancelled, (model, behaviour) :: rest =>
    (model, behaviour.fate ready cancelled) ::
      fatesOf ready (cancelled || behaviour.cancelsToken ready.timeout) rest

/-- The candidates with their fates. -/
def Fleet.fates (fleet : Fleet) (ready : Attemptable) (cancelled : Bool) (models : List Text) :
    List (Text × Fate) :=
  fatesOf ready cancelled (models.zip (fleet.behaviours models))

/-- Behaviours are taken off the queues; the log is not looked at. -/
theorem Fleet.behaviours_congr {fleet other : Fleet} (hqueues : fleet.queues = other.queues)
    (hotherwise : fleet.otherwise = other.otherwise) (models : List Text) :
    fleet.behaviours models = other.behaviours models := by
  induction models generalizing fleet other with
  | nil => rfl
  | cons model rest ih =>
    have hnext : fleet.next model = other.next model := by
      unfold next
      rw [hqueues, hotherwise]
    have hdrop : (fleet.drop model).queues = (other.drop model).queues := by
      unfold drop
      rw [hqueues]
    simp only [behaviours, hnext, ih hdrop hotherwise]

theorem Fleet.length_behaviours (fleet : Fleet) (models : List Text) :
    (fleet.behaviours models).length = models.length := by
  induction models generalizing fleet with
  | nil => rfl
  | cons model rest ih => exact congrArg Nat.succ (ih _)

/-! ## One candidate -/

/-- The fate that a client meets, and why. -/
inductive Meets (ready : Attemptable) (cancelled : Bool) : ClientBehaviour → Fate → Prop
  | unbuildable {cause : ClientFailure} {cancelling : Bool} {message : Text}
      (hmessage : cause.message = .ok message) :
      Meets ready cancelled (.unbuildable cause cancelling) (.unbuildable message)
  | lost {cause : ClientFailure} {cancelling : Bool} {failure : Failure}
      (hmessage : cause.message = .error failure) :
      Meets ready cancelled (.unbuildable cause cancelling) (.escaped failure false)
  | stopped {behaviour : ClientBehaviour}
      (hstop : cancelled = true ∨ behaviour = .cancels ∧ ready.timeout.leavesTime = true) :
      Meets ready cancelled behaviour .cancelled
  | timedOut (behaviour : ClientBehaviour) :
      Meets ready cancelled behaviour (.failed (.timedOut ready.timeout))
  | failed {cause : ClientFailure} {cancelling : Bool} {message : Text}
      (hmessage : cause.message = .ok message) :
      Meets ready cancelled (.fails cause cancelling)
        (.failed ⟨.transport, "Provider error: ".toList ++ message⟩)
  | escaped {cause : ClientFailure} {cancelling : Bool} {failure : Failure}
      (hmessage : cause.message = .error failure) :
      Meets ready cancelled (.fails cause cancelling) (.escaped failure true)
  | said {reply : ModelReply} {cancelling : Bool} {text : Text}
      (hread : ready.vendor.replyText ready.limits reply = .ok text) :
      Meets ready cancelled (.replies reply cancelling) (.said text)
  | unreadable {reply : ModelReply} {cancelling : Bool} {error : ReplyError}
      (hread : ready.vendor.replyText ready.limits reply = .error error) :
      Meets ready cancelled (.replies reply cancelling) (.unreadable error)

section
variable {ready : Attemptable} {cancelled : Bool} {behaviour : ClientBehaviour}

theorem meets_replies (reply : ModelReply) (cancelling : Bool) :
    Meets ready cancelled (.replies reply cancelling) ((Invocation.reply reply).fate ready) := by
  unfold Invocation.fate
  dsimp only
  cases hread : ready.vendor.replyText ready.limits reply with
  | ok text => exact .said hread
  | error e => exact .unreadable hread

theorem meets_fails (cause : ClientFailure) (cancelling : Bool) :
    Meets ready cancelled (.fails cause cancelling)
      ((cause.invocation ready.timeout).fate ready) := by
  unfold ClientFailure.invocation
  split
  · exact .timedOut _
  · cases hmessage : cause.message with
    | ok message => exact .failed hmessage
    | error failure => exact .escaped hmessage

theorem meets_fate (ready : Attemptable) (cancelled : Bool) (behaviour : ClientBehaviour) :
    Meets ready cancelled behaviour (behaviour.fate ready cancelled) := by
  unfold ClientBehaviour.fate
  split
  · next cause cancelling =>
    cases hmessage : cause.message with
    | ok message => exact .unbuildable hmessage
    | error failure => exact .lost hmessage
  · unfold ClientBehaviour.invoke
    split
    · next hcancelled => exact .stopped (.inl hcancelled)
    · split
      · exact .timedOut behaviour
      · next htime =>
        split
        · exact meets_replies _ _
        · exact meets_fails _ _
        · exact .stopped (.inr ⟨rfl, by simpa using htime⟩)
        · exact .timedOut _
        · exact .timedOut _

theorem fate_failed {failure : Failure} (h : behaviour.fate ready cancelled = .failed failure) :
    failure.kind = .timeout ∨ failure.kind = .transport := by
  have hmeets := meets_fate ready cancelled behaviour
  rw [h] at hmeets
  cases hmeets with
  | timedOut => exact .inl rfl
  | failed => exact .inr rfl

/-- On an uncancelled token only a client that cancels it while there is time is stopped by it. -/
theorem fate_eq_cancelled : behaviour.fate ready false = .cancelled ↔
    behaviour = .cancels ∧ ready.timeout.leavesTime = true := by
  constructor
  · intro h
    have hmeets := meets_fate ready false behaviour
    rw [h] at hmeets
    cases hmeets with
    | stopped hstop => exact hstop.resolve_left Bool.false_ne_true
  · rintro ⟨rfl, htime⟩
    unfold ClientBehaviour.fate ClientBehaviour.invoke
    rw [htime]
    rfl

/-- Behind a client the token is cancelled because the client was stopped by it, because it was
cancelled before, or because the client was late. -/
theorem token_iff : (cancelled || behaviour.cancelsToken ready.timeout) = true ↔
    behaviour.fate ready cancelled = .cancelled ∨ cancelled = true ∨
      behaviour.late ready.timeout = true := by
  cases cancelled with
  | true => simp
  | false =>
    rw [fate_eq_cancelled, Bool.false_or]
    cases behaviour <;> simp [ClientBehaviour.late, ClientBehaviour.cancelsToken]

end

/-- What is made of an invocation, by the fate that it is. -/
theorem step_invocation (ready : Attemptable) (model : Text) (invocation : Invocation) :
    invocation.result ready = (invocation.fate ready).step ready.selection.provider model := by
  cases invocation with
  | cancelled => rfl
  | failed failure => rfl
  | escaped failure => rfl
  | reply message =>
    unfold Invocation.result Invocation.fate
    cases hread : ready.vendor.replyText ready.limits message with
    | error e => simp only [Fate.step, hread]
    | ok text => simp only [Fate.step, hread]

theorem Invocation.fate_invocations (ready : Attemptable) (invocation : Invocation) :
    (invocation.fate ready).invocations = 1 := by
  cases invocation with
  | cancelled => rfl
  | failed failure => rfl
  | escaped failure => rfl
  | reply message =>
    unfold Invocation.fate
    cases hread : ready.vendor.replyText ready.limits message with
    | error e => simp only [Fate.invocations, hread]
    | ok text => simp only [Fate.invocations, hread]

/-- The fleet after a candidate. -/
def Fleet.afterTrying (fleet : Fleet) (ready : Attemptable) (config : ProviderConfig)
    (cancelled : Bool) (model : Text) : Fleet :=
  { fleet.drop model with
    built := fleet.built ++ [config.client ready.vendor ready.selection.apiKey ready.timeout model]
    sent := fleet.sent ++ List.replicate
      ((fleet.next model).fate ready cancelled).invocations ready.messages }

section
variable {ready : Attemptable} {config : ProviderConfig}
  (hconfig : ready.settings.provider? ready.selection.provider = some config)
  (hvendor : Vendor.ofProvider? ready.selection.provider = some ready.vendor)
include hconfig hvendor

/-- One candidate: its client takes its behaviour off the fleet, and is sent the messages unless it
cannot be built. -/
theorem tryCandidate_eq (model : Text) (cancelled : Bool) (fleet : Fleet) :
    tryCandidate ready model cancelled fleet =
      (((fleet.next model).fate ready cancelled).step ready.selection.provider model,
        cancelled || (fleet.next model).cancelsToken ready.timeout,
        fleet.afterTrying ready config cancelled model) := by
  have hparams := clientParams_eq hconfig hvendor model ready.selection.apiKey ready.timeout
  unfold tryCandidate Fleet.build Fleet.afterTrying Fleet.next Fleet.drop
  simp only [hparams]
  dsimp only [ProviderConfig.client]
  generalize Fleet.takeFrom model fleet.queues = drawn
  obtain ⟨taken, queues⟩ := drawn
  dsimp only
  cases taken.getD fleet.otherwise with
  | unbuildable cause cancelling =>
    simp only [ClientBehaviour.fate]
    cases cause.message with
    | error failure =>
      simp only [Fate.step, Fate.invocations, List.replicate_zero, List.append_nil]
    | ok message =>
      simp only [Fate.step, Fate.invocations, List.replicate_zero, List.append_nil]
  | replies | fails | hangs | cancels =>
    simp only [ClientBehaviour.fate, Invocation.fate_invocations, step_invocation ready model]
    rfl

end

/-! ## All candidates -/

/-- How a call went through the candidates `models` on `fleet` with its token: past the candidates
`earlier`, as far as `model` with its fate, and on to none of `untried`. -/
structure Tried (ready : Attemptable) (config : ProviderConfig) (models : List Text)
    (cancelled : Bool) (fleet : Fleet) (answer : Answer Fleet) (earlier : List (Text × Fate))
    (model : Text) (fate : Fate) (untried : List (Text × Fate)) : Prop where
  order : fleet.fates ready cancelled models = earlier ++ (model, fate) :: untried
  passed : ∀ tried ∈ earlier, tried.2.decisive = false
  /-- One client for each candidate that was reached. -/
  built : answer.state.built = fleet.built ++ (earlier.map (·.1) ++ [model]).map
    (config.client ready.vendor ready.selection.apiKey ready.timeout)
  /-- The same messages to each of them that could be built. -/
  sent : answer.state.sent =
    fleet.sent ++ List.replicate (earlier.length + fate.invocations) ready.messages
  /-- What comes out is a matter of the last candidate that was reached. -/
  result : Concludes ready.selection.provider model (untried = []) fate answer.result
  /-- The token is cancelled if the last candidate was stopped by it, or a client was late. -/
  token : answer.cancelled = true ↔ fate = .cancelled ∨ cancelled = true ∨
    ∃ behaviour ∈ (fleet.behaviours models).take (earlier.length + 1),
      behaviour.late ready.timeout = true

section
variable {ready : Attemptable} {config : ProviderConfig} {model : Text} {rest : List Text}
  {cancelled : Bool} {fleet : Fleet} {answer : Answer Fleet}

theorem behaviours_afterTrying (config : ProviderConfig) (models : List Text) :
    (fleet.afterTrying ready config cancelled model).behaviours models =
      (fleet.drop model).behaviours models := by
  apply Fleet.behaviours_congr
  · rfl
  · rfl

theorem fates_cons (config : ProviderConfig) :
    fleet.fates ready cancelled (model :: rest) =
      (model, (fleet.next model).fate ready cancelled) ::
        (fleet.afterTrying ready config cancelled model).fates ready
          (cancelled || (fleet.next model).cancelsToken ready.timeout) rest := by
  unfold Fleet.fates
  rw [behaviours_afterTrying]
  rfl

theorem fates_eq_nil (h : rest = []) : fleet.fates ready cancelled rest = [] := by
  subst h
  rfl

theorem fatesOf_names (cancelled : Bool) (pairs : List (Text × ClientBehaviour)) :
    (fatesOf ready cancelled pairs).map (·.1) = pairs.map (·.1) := by
  induction pairs generalizing cancelled with
  | nil => rfl
  | cons pair rest ih => exact congrArg (pair.1 :: ·) (ih _)

theorem Tried.models_eq {earlier untried : List (Text × Fate)} {fate : Fate} {models : List Text}
    (h : Tried ready config models cancelled fleet answer earlier model fate untried) :
    models = earlier.map (·.1) ++ model :: untried.map (·.1) := by
  have hnames := congrArg (List.map Prod.fst) h.order
  unfold Fleet.fates at hnames
  rw [fatesOf_names, List.map_fst_zip (by simp [Fleet.length_behaviours]), List.map_append,
    List.map_cons] at hnames
  exact hnames

/-- Clients are built for the first candidates, as far as the call goes. -/
theorem Tried.built_models {earlier untried : List (Text × Fate)} {fate : Fate}
    {models : List Text}
    (h : Tried ready config models cancelled fleet answer earlier model fate untried) :
    ∃ clients, answer.state.built = fleet.built ++ clients ∧
      models = clients.map (·.model) ++ untried.map (·.1) := by
  refine ⟨_, h.built, ?_⟩
  rw [h.models_eq, List.map_map]
  simp [Function.comp_def, ProviderConfig.client]

/-- A call that ends with its first candidate. -/
theorem Tried.here (hstate : answer.state = fleet.afterTrying ready config cancelled model)
    (htoken : answer.cancelled = (cancelled || (fleet.next model).cancelsToken ready.timeout))
    (hresult : Concludes ready.selection.provider model (rest = [])
      ((fleet.next model).fate ready cancelled) answer.result) :
    ∃ fate untried,
      Tried ready config (model :: rest) cancelled fleet answer [] model fate untried := by
  refine ⟨_, _, fates_cons config, ?_, ?_, ?_, hresult.imp fates_eq_nil, ?_⟩
  · intro tried htried
    cases htried
  · rw [hstate]
    rfl
  · rw [hstate, List.length_nil, Nat.zero_add]
    rfl
  · rw [htoken, token_iff]
    simp [Fleet.behaviours]

/-- A call that goes on after its first candidate. -/
theorem Tried.later {earlier untried : List (Text × Fate)} {last : Text} {fate : Fate}
    (hpassed : ((fleet.next model).fate ready cancelled).decisive = false)
    (h : Tried ready config rest (cancelled || (fleet.next model).cancelsToken ready.timeout)
      (fleet.afterTrying ready config cancelled model) answer earlier last fate untried) :
    Tried ready config (model :: rest) cancelled fleet answer
      ((model, (fleet.next model).fate ready cancelled) :: earlier) last fate untried := by
  have hinvoked : ((fleet.next model).fate ready cancelled).invocations = 1 := by
    rcases Fate.passed_cases hpassed with ⟨failure, hfate⟩ | ⟨text, hfate, -⟩
    · rw [hfate]
      rfl
    · rw [hfate]
      rfl
  have hopen : (fleet.next model).fate ready cancelled ≠ .cancelled := by
    intro hfate
    rw [hfate] at hpassed
    cases hpassed
  refine ⟨?_, ?_, ?_, ?_, h.result, ?_⟩
  · rw [fates_cons config, h.order]
    rfl
  · exact List.forall_mem_cons.2 ⟨hpassed, h.passed⟩
  · rw [h.built]
    simp [Fleet.afterTrying]
  · have hcount : ((fleet.next model).fate ready cancelled).invocations +
        (earlier.length + fate.invocations) = earlier.length + 1 + fate.invocations := by omega
    rw [h.sent, Fleet.afterTrying, List.append_assoc, List.replicate_append_replicate, hcount]
    rfl
  · rw [h.token, token_iff, or_iff_right hopen, behaviours_afterTrying]
    simp [Fleet.behaviours, or_assoc]

end

section
variable {ready : Attemptable} {config : ProviderConfig}
  (hconfig : ready.settings.provider? ready.selection.provider = some config)
  (hvendor : Vendor.ofProvider? ready.selection.provider = some ready.vendor)
include hconfig hvendor

/-- A candidate whose fate decides the call ends it. -/
theorem tried_decisive {model : Text} {cancelled : Bool} {fleet : Fleet}
    (h : ((fleet.next model).fate ready cancelled).decisive = true)
    (last : Option Failure) (rest : List Text) :
    ∃ fate untried, Tried ready config (model :: rest) cancelled fleet
      (tryCandidates ready last cancelled (model :: rest) fleet) [] model fate untried := by
  have hstep := tryCandidate_eq hconfig hvendor model cancelled fleet
  unfold tryCandidates
  cases hfate : (fleet.next model).fate ready cancelled with
  | unbuildable message =>
    rw [hfate] at hstep
    simp only [hstep, Fate.step]
    exact Tried.here rfl rfl (hfate ▸ .unbuildable message)
  | failed failure =>
    rw [hfate] at h
    cases h
  | cancelled =>
    rw [hfate] at hstep
    simp only [hstep, Fate.step]
    exact Tried.here rfl rfl (hfate ▸ .cancelled)
  | said text =>
    rw [hfate] at h hstep
    have htext : Text.isBlank text = false := by simpa [Fate.decisive] using h
    simp only [hstep, Fate.step, htext, Bool.false_eq_true, if_false]
    exact Tried.here rfl rfl (hfate ▸ .text htext)
  | unreadable error =>
    rw [hfate] at hstep
    simp only [hstep, Fate.step]
    exact Tried.here rfl rfl (hfate ▸ .unreadable error)
  | escaped failure invoked =>
    rw [hfate] at hstep
    simp only [hstep, Fate.step]
    exact Tried.here rfl rfl (hfate ▸ .escaped failure invoked)

/-- Any other candidate is passed; all that is kept of it is its failure. -/
theorem tryCandidates_passed {model : Text} {cancelled : Bool} {fleet : Fleet}
    (h : ((fleet.next model).fate ready cancelled).decisive = false)
    (last : Option Failure) (rest : List Text) :
    tryCandidates ready last cancelled (model :: rest) fleet =
      tryCandidates ready ((fleet.next model).fate ready cancelled).failure?
        (cancelled || (fleet.next model).cancelsToken ready.timeout) rest
        (fleet.afterTrying ready config cancelled model) := by
  have hstep := tryCandidate_eq hconfig hvendor model cancelled fleet
  rw [tryCandidates]
  rcases Fate.passed_cases h with ⟨failure, hfate⟩ | ⟨text, hfate, htext⟩
  · rw [hfate] at hstep ⊢
    simp only [hstep, Fate.step, Fate.failure?]
  · rw [hfate] at hstep ⊢
    simp only [hstep, Fate.step, htext, if_true, Fate.failure?]

/-- A last candidate that does not decide the call is what the call comes to. -/
theorem tried_last {model : Text} {cancelled : Bool} {fleet : Fleet}
    (h : ((fleet.next model).fate ready cancelled).decisive = false) (last : Option Failure) :
    ∃ fate untried, Tried ready config [model] cancelled fleet
      (tryCandidates ready last cancelled [model] fleet) [] model fate untried := by
  rw [tryCandidates_passed hconfig hvendor h]
  rcases Fate.passed_cases h with ⟨failure, hfate⟩ | ⟨text, hfate, htext⟩
  · rw [hfate]
    refine Tried.here rfl rfl ?_
    rw [hfate]
    exact .failed rfl (fate_failed hfate)
  · rw [hfate]
    refine Tried.here rfl rfl ?_
    rw [hfate]
    exact .blank rfl htext

/-- Every way through at least one candidate, by induction on the candidates.  The failure that is
kept from an earlier candidate does not matter, because the next one overwrites it. -/
theorem tryCandidates_tried (model : Text) (rest : List Text) (last : Option Failure)
    (cancelled : Bool) (fleet : Fleet) :
    ∃ earlier final fate untried, Tried ready config (model :: rest) cancelled fleet
      (tryCandidates ready last cancelled (model :: rest) fleet) earlier final fate untried := by
  induction rest generalizing model last cancelled fleet with
  | nil =>
    cases h : ((fleet.next model).fate ready cancelled).decisive with
    | true => exact ⟨[], model, tried_decisive hconfig hvendor h last []⟩
    | false => exact ⟨[], model, tried_last hconfig hvendor h last⟩
  | cons next rest ih =>
    cases h : ((fleet.next model).fate ready cancelled).decisive with
    | true => exact ⟨[], model, tried_decisive hconfig hvendor h last (next :: rest)⟩
    | false =>
      rw [tryCandidates_passed hconfig hvendor h]
      obtain ⟨earlier, final, fate, untried, htried⟩ := ih next _ _ _
      exact ⟨_, final, fate, untried, htried.later h⟩

end

/-! ## Fleets of every kind -/

namespace Fleet

/-- The behaviours that are waiting for the clients of a model. -/
def waiting (fleet : Fleet) (model : Text) : List ClientBehaviour :=
  (fleet.queues.lookup model).getD []

theorem next_eq (fleet : Fleet) (model : Text) :
    fleet.next model = (fleet.waiting model).head?.getD fleet.otherwise := by
  unfold next waiting
  induction fleet.queues with
  | nil => rfl
  | cons entry queues ih =>
    obtain ⟨name, queue⟩ := entry
    by_cases h : name = model
    · simp [takeFrom, h]
    · have hbeq : (model == name) = false := by simpa using Ne.symm h
      simp only [takeFrom, h, if_false, List.lookup_cons, hbeq]
      exact ih

theorem waiting_drop (fleet : Fleet) (model other : Text) :
    (fleet.drop model).waiting other =
      if other = model then (fleet.waiting model).tail else fleet.waiting other := by
  unfold drop waiting
  dsimp only
  induction fleet.queues with
  | nil => simp [takeFrom]
  | cons entry queues ih =>
    obtain ⟨name, queue⟩ := entry
    by_cases h : name = model
    · subst h
      by_cases ho : other = name
      · simp [takeFrom, ho]
      · have hbeq : (other == name) = false := by simpa using ho
        simp [takeFrom, ho, List.lookup_cons, hbeq]
    · have hbeq : (model == name) = false := by simpa using Ne.symm h
      simp only [takeFrom, h, if_false, List.lookup_cons, hbeq]
      by_cases ho : other = name
      · simp [ho, h]
      · have hbeq' : (other == name) = false := by simpa using ho
        simp only [hbeq']
        exact ih

/-- The behaviours in this list that are paired with the model. -/
def pairedWith (model : Text) (pairs : List (Text × ClientBehaviour)) : List ClientBehaviour :=
  (pairs.filter (·.1 = model)).map (·.2)

theorem behaviours_of_waiting (models : List Text) : ∀ (behaviours : List ClientBehaviour)
    (fleet : Fleet), behaviours.length = models.length →
    (∀ model, fleet.waiting model = pairedWith model (models.zip behaviours)) →
    fleet.behaviours models = behaviours := by
  induction models with
  | nil =>
    intro behaviours fleet hlength _
    exact (List.length_eq_zero_iff.1 hlength).symm
  | cons model rest ih =>
    intro behaviours fleet hlength hwaiting
    obtain _ | ⟨behaviour, behaviours⟩ := behaviours
    · cases hlength
    have hnext : fleet.next model = behaviour := by
      rw [next_eq, hwaiting]
      simp [pairedWith]
    have hdrop : ∀ other,
        (fleet.drop model).waiting other = pairedWith other (rest.zip behaviours) := by
      intro other
      rw [waiting_drop]
      split
      · next h =>
        subst h
        rw [hwaiting]
        simp [pairedWith]
      · next h =>
        have hother : ¬ model = other := Ne.symm h
        rw [hwaiting]
        simp [pairedWith, hother]
    rw [Fleet.behaviours, hnext, ih behaviours _ (Nat.succ.inj hlength) hdrop]

/-- Any assignment of behaviours to candidates is that of some fleet. -/
theorem exists_behaviours (models : List Text) (behaviours : List ClientBehaviour)
    (h : behaviours.length = models.length) :
    ∃ fleet : Fleet, fleet.behaviours models = behaviours := by
  refine ⟨⟨models.map fun model => (model, pairedWith model (models.zip behaviours)), .hangs, [],
    []⟩, behaviours_of_waiting models behaviours _ h ?_⟩
  intro model
  unfold waiting
  dsimp only
  by_cases hmem : model ∈ models
  · rw [List.lookup_graph _ hmem]
    rfl
  · have hnone : (models.map fun model => (model, pairedWith model (models.zip behaviours))).lookup
        model = none := by
      simp only [List.lookup_eq_none_iff, List.mem_map, bne_iff_ne]
      rintro _ ⟨other, hother, rfl⟩ rfl
      exact hmem hother
    have hunpaired : pairedWith model (models.zip behaviours) = [] := by
      unfold pairedWith
      simp only [List.map_eq_nil_iff, List.filter_eq_nil_iff, decide_eq_true_eq]
      rintro ⟨name, behaviour⟩ hpair rfl
      exact hmem (List.of_mem_zip hpair).1
    rw [hnone, hunpaired]
    rfl

end Fleet

/-! ## Calls -/

/-- **Ranked candidates.**  A call whose provider and model are accepted, and that is not cancelled
before, goes through the candidates of the model in order and ends with the first whose fate decides
it, or else with the last of all.  If there is no client for the provider, nothing is built. -/
theorem ranked_candidates (limits : Limits) (settings : Settings) (env : Environment) (call : Call)
    {selection : Selection}
    (hresolve : settings.resolve env call.provider call.model = .ok selection) :
    match Vendor.ofProvider? selection.provider with
    | none => ∀ fleet, (chatGateway limits settings env).call call false fleet =
        ⟨.error ⟨.configuration, (RegistryError.unsupported selection.provider).message⟩, false,
          fleet⟩
    | some vendor =>
      (∀ behaviours : List ClientBehaviour,
        behaviours.length = (vendor.candidates selection.model).length →
        ∃ fleet : Fleet, fleet.behaviours (vendor.candidates selection.model) = behaviours) ∧
      ∃ config, settings.provider? selection.provider = some config ∧
        ∀ fleet, ∃ earlier model fate untried,
          Tried ⟨limits, settings, selection, vendor,
              buildMessages config.supportsSystemPrompt call.system call.user, call.timeout⟩
            config (vendor.candidates selection.model) false fleet
            ((chatGateway limits settings env).call call false fleet) earlier model fate
            untried := by
  obtain ⟨-, config, hconfig, -, -⟩ := resolve_ok hresolve
  cases hvendor : Vendor.ofProvider? selection.provider with
  | none =>
    intro fleet
    simp [chatGateway, checkToken, prepare, hresolve, Settings.getVendor, hvendor]
  | some vendor =>
    refine ⟨Fleet.exists_behaviours _, config, hconfig, fun fleet => ?_⟩
    have hready : prepare limits settings env call = .ok ⟨limits, settings, selection, vendor,
        buildMessages config.supportsSystemPrompt call.system call.user, call.timeout⟩ :=
      prepare_eq_ok.2 ⟨hresolve, hvendor, config, hconfig, rfl⟩
    obtain ⟨model, rest, hcandidates⟩ :=
      List.exists_cons_of_ne_nil (candidates_ne_nil vendor selection.model)
    simp only [chatGateway, checkToken, Bool.false_eq_true, if_false, hready, hcandidates]
    exact tryCandidates_tried hconfig hvendor model rest none false fleet

/-- A ranked list of three on settings without an allow-list: every call goes through it. -/
theorem ranked_candidates_three :
    (Settings.ranked "a/one" []).resolve Environment.keyed "openrouter" "a/one, b/two,c" =
      .ok ⟨"openrouter", "a/one, b/two,c", "key"⟩ ∧
    ∃ config, (Settings.ranked "a/one" []).provider? "openrouter" = some config ∧
      ∀ fleet, ∃ earlier model fate untried,
        Tried ⟨.standard, Settings.ranked "a/one" [], ⟨"openrouter", "a/one, b/two,c", "key"⟩,
            .openrouter, buildMessages config.supportsSystemPrompt "system" "user", .int 60⟩
          config ["a/one", "b/two", "c"] false fleet
          ((chatGateway .standard (Settings.ranked "a/one" []) Environment.keyed).call
            ⟨some "openrouter", some "a/one, b/two,c", "system", "user", .int 60⟩ false fleet)
          earlier model fate untried := by
  have hresolve : (Settings.ranked "a/one" []).resolve Environment.keyed "openrouter"
      "a/one, b/two,c" = .ok ⟨"openrouter", "a/one, b/two,c", "key"⟩ := by decide
  exact ⟨hresolve, (ranked_candidates .standard (Settings.ranked "a/one" []) Environment.keyed
    ⟨some "openrouter", some "a/one, b/two,c", "system", "user", .int 60⟩ hresolve).2⟩

/-- The models that a call tries at most: none, if it names no provider or model that can be
used. -/
def Settings.candidateModels (settings : Settings) (env : Environment)
    (provider model : Option Text) : List Text :=
  match settings.resolve env provider model with
  | .error _ => []
  | .ok selection =>
    match Vendor.ofProvider? selection.provider with
    | none => []
    | some vendor => vendor.candidates selection.model

/-- A call that comes to its candidates, `models`. -/
structure Reaches (settings : Settings) (env : Environment) (call : Call) (ready : Attemptable)
    (config : ProviderConfig) (models : List Text) : Prop where
  resolved : settings.resolve env call.provider call.model = .ok ready.selection
  config : ready.settings.provider? ready.selection.provider = some config
  vendor : Vendor.ofProvider? ready.selection.provider = some ready.vendor
  models : models = ready.vendor.candidates ready.selection.model

theorem Reaches.tried {settings : Settings} {env : Environment} {call : Call}
    {ready : Attemptable} {config : ProviderConfig} {models : List Text}
    (h : Reaches settings env call ready config models) (cancelled : Bool) (fleet : Fleet) :
    ∃ earlier model fate untried, Tried ready config models cancelled fleet
      (tryCandidates ready none cancelled models fleet) earlier model fate untried := by
  obtain ⟨model, rest, hcandidates⟩ :=
    List.exists_cons_of_ne_nil (candidates_ne_nil ready.vendor ready.selection.model)
  rw [h.models, hcandidates]
  exact tryCandidates_tried h.config h.vendor model rest none cancelled fleet

theorem candidateModels_of_prepared {limits : Limits} {settings : Settings} {env : Environment}
    {call : Call} :
    (∀ e, prepare limits settings env call = .error e →
      settings.candidateModels env call.provider call.model = []) ∧
    ∀ ready, prepare limits settings env call = .ok ready → ready.limits = limits ∧ ∃ config,
      Reaches settings env call ready config
        (settings.candidateModels env call.provider call.model) := by
  constructor
  · intro e hready
    unfold Settings.candidateModels
    split
    · rfl
    · next selection hresolve =>
      obtain ⟨-, config, hconfig, -, -⟩ := resolve_ok hresolve
      split
      · rfl
      · next vendor hvendor =>
        have hok : prepare limits settings env call = .ok ⟨limits, settings, selection, vendor,
            buildMessages config.supportsSystemPrompt call.system call.user, call.timeout⟩ :=
          prepare_eq_ok.2 ⟨hresolve, hvendor, config, hconfig, rfl⟩
        rw [hok] at hready
        cases hready
  · intro ready hready
    obtain ⟨hresolve, hvendor, config, hconfig, hfields⟩ := prepare_eq_ok.1 hready
    have hsettings : ready.settings = settings := congrArg Attemptable.settings hfields
    refine ⟨congrArg Attemptable.limits hfields, config, hresolve, by rw [hsettings, hconfig],
      hvendor, ?_⟩
    simp only [Settings.candidateModels, hresolve, hvendor]

/-- A call fails before its candidates, on a cancelled token or on settings that leave it none, or
comes to them on an uncancelled one. -/
theorem chatGateway_cases (limits : Limits) (settings : Settings) (env : Environment) (call : Call)
    (cancelled : Bool) (fleet : Fleet) :
    (∃ failure : Failure, (cancelled = true ∧ failure = .cancellation ∨
        failure.kind = .configuration ∧
          settings.candidateModels env call.provider call.model = []) ∧
      (chatGateway limits settings env).call call cancelled fleet =
        ⟨.error failure, cancelled, fleet⟩) ∨
    ∃ ready config, ready.limits = limits ∧ Reaches settings env call ready config
        (settings.candidateModels env call.provider call.model) ∧
      (chatGateway limits settings env).call call cancelled fleet = tryCandidates ready none false
        (settings.candidateModels env call.provider call.model) fleet := by
  unfold chatGateway
  dsimp only
  cases cancelled with
  | true => exact .inl ⟨.cancellation, .inl ⟨rfl, rfl⟩, rfl⟩
  | false =>
    cases hready : prepare limits settings env call with
    | error e =>
      exact .inl ⟨⟨.configuration, e.message⟩,
        .inr ⟨rfl, candidateModels_of_prepared.1 e hready⟩, rfl⟩
    | ok ready =>
      obtain ⟨hlimits, config, hcall⟩ := candidateModels_of_prepared.2 ready hready
      refine .inr ⟨ready, config, hlimits, hcall, ?_⟩
      rw [hcall.models]
      rfl

end BlockSafe
