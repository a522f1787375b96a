import BlockSafe.Path
import BlockSafe.Settings.Environment

/-!
# Loading settings

Settings come from configuration data, if there is any, or from a built-in table; the environment
overrides both.  A configuration that is asked for by name must be there.
-/

namespace BlockSafe

/-! ## The built-in table -/

/-- The settings of a provider whose variables follow its name. -/
def builtinProvider (name model : Text) (baseUrl : Option Text) (systemPrompt : Bool) :
    Text × ProviderConfig :=
  let own := Environment.key (Text.upper name)
  (name,
    { apiKeyEnv := some (own ++ "_API_KEY".toList)
      modelEnv := some (own ++ "_MODEL".toList)
      defaultModel := model
      baseUrl := baseUrl
      maxTokens := 3072
      temperature := some 0.1
      allowedModels := []
      supportsSystemPrompt := systemPrompt })

/-- The settings without any configuration. -/
def builtinSettings : Settings :=
  { generation := GenerationSettings.standard
    providers :=
      [builtinProvider "openai" "gpt-4o-mini" none true,
       builtinProvider "gemini" "gemini-2.5-flash" none false,
       builtinProvider "openrouter" "openrouter/auto"
         (some "https://openrouter.ai/api/v1".toList) true] }

/-! ## Loading -/

/-- A part of the configuration that has to be an object. -/
inductive ConfigPart where
  | whole
  | generation
  | providers
  | provider
deriving DecidableEq, Repr

/-- What is shown for a part that is a value of another kind. -/
def ConfigPart.complaint (part : ConfigPart) (value : Json) : Text :=
  let lacks (name : Text) : Text :=
    '\'' :: value.kindWord ++ "' object has no attribute '".toList ++ name ++ ['\'']
  let unfit (model : Text) : Text :=
    "blocksmith.config.".toList ++ model ++ "() argument after ** must be a mapping, not ".toList
      ++ value.kindWord
  match part with
  | whole => lacks "get"
  | generation => unfit "GenerationSettings"
  | providers => lacks "items"
  | provider => unfit "ProviderConfig"

/-- Why settings cannot be loaded. -/
inductive LoadError where
  | missingFile (path : Text)
  /-- The file is there, but what it holds is no data. -/
  | unreadableFile (path : Text)
  /-- A part of the data is no object. -/
  | notObject (part : ConfigPart) (value : Json)
  /-- One of the models that the data describe does not hold. -/
  | invalid (model : Text) (issues : List Issue)
  | noProvider

/-- What is shown for settings that cannot be loaded. -/
def LoadError.message : LoadError → Text
  | missingFile path => "Provider config file not found: ".toList ++ Path.normal path
  | unreadableFile path => "Provider config file not readable: ".toList ++ Path.normal path
  | notObject part value => part.complaint value
  | invalid model issues => Issue.reportAll model issues
  | noProvider =>
    "No supported providers enabled. Configure BLOCKSMITH_ENABLED_PROVIDERS."

/-- Where configuration data come from. -/
inductive ConfigSource where
  /-- No configuration is there and none was asked for. -/
  | absent
  /-- A configuration was asked for and is not there. -/
  | missing (path : Text)
  /-- A configuration is there, but holds no data. -/
  | unreadable (path : Text)
  | data (value : Json)

namespace Settings

/-- The fields of a part of the configuration; a void part has none. -/
def fieldsOf (part : ConfigPart) : Json → Except LoadError Fields
  | .object fields => .ok fields
  | value => if value.isVoid then .ok [] else .error (.notObject part value)

/-- A field of the configuration, null if it is absent. -/
def entry (fields : Fields) (key : Text) : Json := (Fields.get? fields key).getD .null

/-- Reads the providers of the configuration up to the first that does not hold. -/
def readEach : Fields → Except LoadError (List (Text × ProviderConfig))
  | [] => .ok []
  | (name, .object fields) :: rest =>
    match ProviderConfig.ofFields fields with
    | .error issues => .error (.invalid "ProviderConfig" issues)
    | .ok config => (readEach rest).map ((name, config) :: ·)
  | (_, value) :: _ => .error (.notObject .provider value)

/-- Reads how generations are run. -/
def readGeneration (value : Json) : Except LoadError GenerationSettings :=
  match fieldsOf .generation value with
  | .error e => .error e
  | .ok fields => (GenerationSettings.ofFields fields).mapError (.invalid "GenerationSettings")

/-- Reads configuration data: first how generations are run, then each provider. -/
def ofData (data : Json) : Except LoadError Settings :=
  match fieldsOf .whole data with
  | .error e => .error e
  | .ok top =>
    match readGeneration (entry top "generation") with
    | .error e => .error e
    | .ok generation =>
      match fieldsOf .providers (entry top "providers") with
      | .error e => .error e
      | .ok providers => (readEach providers).map (Settings.mk generation)

/-- The settings before the environment has its say. -/
def ofSource : ConfigSource → Except LoadError Settings
  | .absent => .ok builtinSettings
  | .missing path => .error (.missingFile path)
  | .unreadable path => .error (.unreadableFile path)
  | .data value => ofData value

/-- Loads settings and applies the environment. -/
def load (source : ConfigSource) (env : Environment) : Except LoadError Settings :=
  match ofSource source with
  | .error e => .error e
  | .ok settings =>
    match settings.withEnvironment? env with
    | some overridden => .ok overridden
    | none => .error .noProvider

end Settings

end BlockSafe
