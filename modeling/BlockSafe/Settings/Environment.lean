import BlockSafe.Number.Numeral
import BlockSafe.Settings.Basic
import BlockSafe.Text.Basic

/-!
# The environment

Variables of the environment override settings: which providers are enabled, which one is the
default, the limits of a generation, and the model and allow-list of each provider.  Numbers are
clamped to their bounds, and what is no number is ignored.  The overrides fail only if no
provider is left.
-/

namespace BlockSafe

/-- The variables of the environment. -/
abbrev Environment := List (Text × Text)

namespace Environment

/-- The value of a variable, if it is set. -/
def get? (env : Environment) (name : Text) : Option Text := env.lookup name

/-- The value of a variable, if it is set and not empty. -/
def given? (env : Environment) (name : Text) : Option Text := (env.get? name).filter (!·.isEmpty)

/-- The name of a variable of this program. -/
def key (name : Text) : Text := "BLOCKSMITH_".toList ++ name

/-- The items of a variable that holds a list. -/
def items (env : Environment) (name : Text) : List Text :=
  Text.commaList ((env.get? name).getD [])

/-- The number in a variable, clamped; the fallback if there is none. -/
def number {α : Type} (env : Environment) (name : Text) (fallback : α) (read? : Text → Option α)
    (clamp : α → α) : α :=
  match (env.get? name).bind read? with
  | some value => clamp value
  | none => fallback

end Environment

/-! ## Clamping -/

/-- The nearest number of retries that is allowed, or of characters up to `high`. -/
def clampInteger (high : Nat) (value : Int) : Nat := min high value.toNat

/-- The nearest time that is allowed; the non-number becomes the shortest. -/
def clampTimeout (x : Float) : Float :=
  let low := GenerationSettings.minTimeout.toFloat
  let high := GenerationSettings.maxTimeout.toFloat
  if x > low then if x < high then x else high else low

/-- The most characters of a program that the environment can ask for. -/
def maxCodeLimit : Nat := 10000000

/-! ## Overrides -/

/-- The providers that there is a client for. -/
def supportedProviders : List Text := ["openai", "gemini", "openrouter"]

namespace Settings

/-- The providers that are asked for: in the environment, else in the settings, else all that
have settings. -/
def requestedProviders (settings : Settings) (env : Environment) : List Text :=
  let requested := (env.items (Environment.key "ENABLED_PROVIDERS")).map Text.lower
  if !requested.isEmpty then requested
  else if !settings.generation.enabledProviders.isEmpty then settings.generation.enabledProviders
  else settings.providers.map (·.1)

/-- The requested providers that are supported and have settings, each once. -/
def enabledWith (settings : Settings) (env : Environment) : List Text :=
  distinct ((settings.requestedProviders env).filter fun name =>
    supportedProviders.contains name && (settings.provider? name).isSome)

/-- The default provider among the enabled ones `first :: rest`. -/
def defaultWith (settings : Settings) (env : Environment) (first : Text) (rest : List Text) :
    Text :=
  let asked := (env.given? (Environment.key "PROVIDER")).getD
    settings.generation.defaultProvider
  let name := Text.lower (Text.trim asked)
  if (first :: rest).contains name then name else first

/-- The limits of a generation with the overrides of the environment. -/
def generationWith (settings : Settings) (env : Environment) (first : Text) (rest : List Text) :
    GenerationSettings :=
  let current := settings.generation
  let count (name : Text) (fallback high : Nat) : Nat :=
    env.number (Environment.key name) fallback
      (fun s => (looseInteger? s).map (clampInteger high)) id
  { defaultProvider := settings.defaultWith env first rest
    enabledProviders := first :: rest
    requestTimeout :=
      env.number (Environment.key "REQUEST_TIMEOUT") current.requestTimeout looseReal?
        clampTimeout
    budgets :=
      ⟨count "EMPTY_RETRIES" current.budgets.empty maxRetries,
       count "VALIDATION_RETRIES" current.budgets.validation maxRetries⟩
    codeLimit := count "MAX_CURRENT_CODE_CHARS" current.codeLimit maxCodeLimit }

/-- The settings of a provider with the overrides of the environment. -/
def providerWith (env : Environment) (name : Text) (config : ProviderConfig) : ProviderConfig :=
  let own := Environment.key (Text.upper name)
  let modelVariable := (config.modelEnv.filter (!·.isEmpty)).getD (own ++ "_MODEL".toList)
  let allowed := env.items (own ++ "_ALLOWED_MODELS".toList)
  { config with
    defaultModel :=
      ((env.given? modelVariable).or (env.given? (Environment.key "MODEL"))).getD
        config.defaultModel
    allowedModels := if allowed.isEmpty then config.allowedModels else allowed }

/-- The settings with the overrides of the environment, unless no provider is left. -/
def withEnvironment? (settings : Settings) (env : Environment) : Option Settings :=
  match settings.enabledWith env with
  | [] => none
  | first :: rest =>
    some
      { generation := settings.generationWith env first rest
        providers := settings.providers.map fun (name, config) =>
          (name, providerWith env name config) }

end Settings

end BlockSafe
