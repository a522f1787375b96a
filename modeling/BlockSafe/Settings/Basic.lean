import BlockSafe.Generation.Budgets
import BlockSafe.Request
import BlockSafe.Schema.Reading

/-!
# Settings

How generations are run and how each provider is reached.  Settings are read from structured
values; what is absent takes its default, and a provider must at least name its model.
-/

namespace BlockSafe

/-- How a provider is reached and sampled. -/
structure ProviderConfig where
  /-- The environment variable that holds the key. -/
  apiKeyEnv : Option Text
  /-- The environment variable that names another default model. -/
  modelEnv : Option Text
  defaultModel : Text
  baseUrl : Option Text
  maxTokens : Int
  temperature : Option Float
  /-- The models that may be used; any, if there is none. -/
  allowedModels : List Text
  supportsSystemPrompt : Bool

namespace ProviderConfig

/-- Reads the settings of a provider. -/
def ofFields (fields : Fields) : Checked ProviderConfig :=
  let optionalName (key : Text) := Read.optional fields key none (Read.nullable Read.text)
  Checked.pure ProviderConfig.mk
    |>.and (optionalName "api_key_env")
    |>.and (optionalName "model_env")
    |>.and (Read.required fields "default_model" Read.text)
    |>.and (optionalName "base_url")
    |>.and (Read.optional fields "max_tokens" 3072 Read.integer)
    |>.and (Read.optional fields "temperature" (some 0.1) (Read.nullable Read.real))
    |>.and (Read.optional fields "allowed_models" [] (Read.listOf Read.text))
    |>.and (Read.optional fields "supports_system_prompt" true Read.truth)

/-- The fields of the settings of a provider. -/
def toFields (config : ProviderConfig) : Fields :=
  [("api_key_env", Request.optionalText config.apiKeyEnv),
   ("model_env", Request.optionalText config.modelEnv),
   ("default_model", .str config.defaultModel),
   ("base_url", Request.optionalText config.baseUrl),
   ("max_tokens", .num (.int config.maxTokens)),
   ("temperature", match config.temperature with
     | some x => .num (.real x)
     | none => .null),
   ("allowed_models", .list (config.allowedModels.map .str)),
   ("supports_system_prompt", .bool config.supportsSystemPrompt)]

end ProviderConfig

/-- How generations are run. -/
structure GenerationSettings where
  defaultProvider : Text
  enabledProviders : List Text
  /-- Seconds. -/
  requestTimeout : Float
  budgets : Budgets
  /-- The most characters of the program in the editor that go into a prompt; zero for all. -/
  codeLimit : Nat

namespace GenerationSettings

/-- The shortest time in seconds that a provider may be given. -/
def minTimeout : Nat := 5

/-- The longest time in seconds that a provider may be given. -/
def maxTimeout : Nat := 180

/-- The time that a provider is given unless something else is said. -/
def standardTimeout : Float := 60

/-- What is used if nothing is said. -/
def standard : GenerationSettings := ⟨"openai", [], standardTimeout, Budgets.standard, 0⟩

/-- Reads how generations are run. -/
def ofFields (fields : Fields) : Checked GenerationSettings :=
  Checked.pure
      (fun provider enabled timeout empty validation limit =>
        GenerationSettings.mk provider enabled timeout ⟨empty, validation⟩ limit)
    |>.and (Read.optional fields "default_provider" standard.defaultProvider Read.text)
    |>.and (Read.optional fields "enabled_providers" [] (Read.listOf Read.text))
    |>.and (Read.optional fields "request_timeout" standardTimeout
        (Read.realWithin minTimeout maxTimeout))
    |>.and (Budgets.retries fields "empty_retries")
    |>.and (Budgets.retries fields "validation_retries")
    |>.and (Read.optional fields "max_current_code_chars" 0 (Read.integerWithin 0 none))

/-- The fields of the settings of generations. -/
def toFields (generation : GenerationSettings) : Fields :=
  ("default_provider".toList, .str generation.defaultProvider)
    :: ("enabled_providers".toList, .list (generation.enabledProviders.map .str))
    :: ("request_timeout".toList, .num (.real generation.requestTimeout))
    :: ("max_current_code_chars".toList, .num (.int generation.codeLimit))
    :: generation.budgets.toFields

end GenerationSettings

/-- All settings; providers keep the order in which they were given. -/
structure Settings where
  generation : GenerationSettings
  providers : List (Text × ProviderConfig)

namespace Settings

/-- The settings of a provider, if it has any. -/
def provider? (settings : Settings) (name : Text) : Option ProviderConfig :=
  settings.providers.lookup name

/-- Reads a table of providers. -/
def readProviders : Json → Checked (List (Text × ProviderConfig))
  | .object fields =>
    .all (fields.map fun (name, value) =>
      Checked.under name
        ((Read.object "ProviderConfig" ProviderConfig.ofFields value).map (name, ·)))
  | value => .fail .notMapping value

/-- Reads all settings at once. -/
def ofFields (fields : Fields) : Checked Settings :=
  Checked.pure Settings.mk
    |>.and (Read.optional fields "generation" GenerationSettings.standard
        (Read.object "GenerationSettings" GenerationSettings.ofFields))
    |>.and (Read.optional fields "providers" [] readProviders)

end Settings

end BlockSafe
