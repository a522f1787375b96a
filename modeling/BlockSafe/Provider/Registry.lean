import BlockSafe.Settings.Environment

/-!
# The registry of providers

Which provider and which model a call goes to.  A provider must be enabled and have settings, the
model must be on its allow-list if it has one, and a key must be set.  `ClientParams` is what a
client of a vendor is built with.
-/

namespace BlockSafe

/-! ## Errors -/

/-- Why a provider or a model cannot be used. -/
inductive RegistryError where
  | notEnabled (provider : Text)
  | notConfigured (provider : Text)
  | modelNotAllowed (model provider : Text)
  | missingKey (provider : Text)
  | unsupported (provider : Text)
  /-- A provider is listed as enabled and has no settings. -/
  | unlisted (provider : Text)
deriving DecidableEq, Repr

/-- What is shown for a provider or a model that cannot be used. -/
def RegistryError.message : RegistryError → Text
  | notEnabled provider =>
    "Provider '".toList ++ provider ++ "' is not enabled on this server.".toList
  | notConfigured provider =>
    "Provider '".toList ++ provider ++ "' not found in configuration".toList
  | modelNotAllowed model provider =>
    "Model '".toList ++ model ++ "' is not allowed for provider '".toList ++ provider ++ "'.".toList
  | missingKey provider =>
    "Missing API key for provider '".toList ++ provider
      ++ "'. Configure provider key env vars.".toList
  | unsupported provider => "Unsupported provider: ".toList ++ provider
  | unlisted provider => provider.quoted

/-! ## Vendors -/

/-- The vendors that there is a client for. -/
inductive Vendor where
  | openai
  | gemini
  /-- Speaks the protocol of OpenAI and takes a ranked list of models. -/
  | openrouter
deriving DecidableEq, Repr

namespace Vendor

/-- The vendor of a provider. -/
def ofProvider? (provider : Text) : Option Vendor :=
  if provider = "openai".toList then some openai
  else if provider = "gemini".toList then some gemini
  else if provider = "openrouter".toList then some openrouter
  else none

/-- The models to try for one call, in order. -/
def candidates (vendor : Vendor) (model : Text) : List Text :=
  match vendor with
  | openrouter => if (Text.commaList model).isEmpty then [model] else Text.commaList model
  | _ => [model]

end Vendor

/-- What a client is built with. -/
structure ClientParams where
  vendor : Vendor
  model : Text
  apiKey : Text
  maxTokens : Int
  timeout : Number
  temperature : Option Float
  baseUrl : Option Text

/-! ## Choices -/

/-- The provider, the model and the key of a call. -/
structure Selection where
  provider : Text
  model : Text
  apiKey : Text
deriving DecidableEq, Repr

namespace Settings

/-- The settings of a provider. -/
def getConfig (settings : Settings) (provider : Text) : Except RegistryError ProviderConfig :=
  match settings.provider? provider with
  | some config => .ok config
  | none => .error (.notConfigured provider)

/-- The vendor of a provider. -/
def getVendor (provider : Text) : Except RegistryError Vendor :=
  match Vendor.ofProvider? provider with
  | some vendor => .ok vendor
  | none => .error (.unsupported provider)

/-- A name, unless it is empty. -/
def named (name : Option Text) : Option Text := name.filter (!·.isEmpty)

/-- The key of a provider: its own variable, else the shared one. -/
def keyFor (env : Environment) (config : ProviderConfig) : Option Text :=
  ((named config.apiKeyEnv).bind env.given?).or (env.given? (Environment.key "API_KEY"))

/-- Chooses provider and model; an empty name stands for the default. -/
def resolve (settings : Settings) (env : Environment) (provider model : Option Text) :
    Except RegistryError Selection :=
  let name := Text.lower (Text.trim ((named provider).getD settings.generation.defaultProvider))
  if !settings.generation.enabledProviders.contains name then .error (.notEnabled name)
  else match settings.getConfig name with
    | .error e => .error e
    | .ok config =>
      let chosen := Text.trim ((named model).getD config.defaultModel)
      if !config.allowedModels.isEmpty && !chosen.isEmpty && !config.allowedModels.contains chosen
      then .error (.modelNotAllowed chosen name)
      else match keyFor env config with
        | some key => .ok ⟨name, chosen, key⟩
        | none => .error (.missingKey name)

/-- What the client of a provider is built with for one model. -/
def clientParams (settings : Settings) (provider model apiKey : Text) (timeout : Number) :
    Except RegistryError ClientParams :=
  match settings.getConfig provider with
  | .error e => .error e
  | .ok config =>
    match getVendor provider with
    | .error e => .error e
    | .ok vendor =>
      .ok
        { vendor := vendor
          model := model
          apiKey := apiKey
          maxTokens := config.maxTokens
          timeout := timeout
          temperature := config.temperature
          baseUrl := if vendor = .gemini then none else named config.baseUrl }

/-! ## The list of providers -/

/-- An enabled provider as it is listed. -/
structure Listing where
  name : Text
  defaultModel : Text
  allowedModels : List Text
  isDefault : Bool
deriving DecidableEq, Repr

/-- The enabled providers, each once. -/
def listProviders (settings : Settings) : Except RegistryError (List Listing) :=
  (distinct settings.generation.enabledProviders).mapM fun name =>
    match settings.provider? name with
    | some config =>
      .ok ⟨name, config.defaultModel, config.allowedModels,
        name == settings.generation.defaultProvider⟩
    | none => .error (.unlisted name)

end Settings

end BlockSafe
