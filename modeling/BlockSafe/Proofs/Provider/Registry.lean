import BlockSafe.Proofs.Text.Pieces
import BlockSafe.Provider.Gateway

/-!
# What the registry allows

A choice names an enabled provider that has settings and a key, and a model whose name has passed
the allow-list of that provider, if it has one (`resolve_ok`); a name is refused iff it is not blank
and not on the list (`notAllowed_iff`).  What a call needs beyond the choice, the client of a vendor
and the messages, cannot fail any more (`prepare_eq_ok`, `clientParams_eq`).

The list is asked about a name as a whole.  Only OpenRouter reads a name as several, and only if
there is a comma in it (`candidates_eq_self`).
-/

namespace BlockSafe

/-- The provider that a call goes to. -/
def Settings.chosenProvider (settings : Settings) (provider : Option Text) : Text :=
  Text.lower (Text.trim ((Settings.named provider).getD settings.generation.defaultProvider))

namespace ProviderConfig

/-- The model that is asked for, perhaps a ranked list; blank if no model is named. -/
def chosenModel (config : ProviderConfig) (model : Option Text) : Text :=
  Text.trim ((Settings.named model).getD config.defaultModel)

/-- Whether the allow-list lets a name pass. -/
def Allows (config : ProviderConfig) (chosen : Text) : Prop :=
  config.allowedModels = [] ∨ chosen = [] ∨ chosen ∈ config.allowedModels

instance (config : ProviderConfig) (chosen : Text) : Decidable (config.Allows chosen) :=
  inferInstanceAs (Decidable (_ ∨ _ ∨ _))

/-- What the client of a vendor is built with for one model. -/
def client (config : ProviderConfig) (vendor : Vendor) (apiKey : Text) (timeout : Number)
    (model : Text) : ClientParams where
  vendor := vendor
  model := model
  apiKey := apiKey
  maxTokens := config.maxTokens
  timeout := timeout
  temperature := config.temperature
  baseUrl := if vendor = .gemini then none else Settings.named config.baseUrl

end ProviderConfig

section
variable {settings : Settings} {env : Environment} {provider model : Option Text}
  {selection : Selection} {config : ProviderConfig} {vendor : Vendor}

/-! ## Choices -/

theorem getConfig_eq_ok {name : Text} :
    settings.getConfig name = .ok config ↔ settings.provider? name = some config := by
  unfold Settings.getConfig
  cases settings.provider? name with
  | none => simp
  | some found => simp

theorem getVendor_eq_ok {name : Text} :
    Settings.getVendor name = .ok vendor ↔ Vendor.ofProvider? name = some vendor := by
  unfold Settings.getVendor
  cases Vendor.ofProvider? name with
  | none => simp
  | some found => simp

/-- The choice of an enabled provider with settings: the allow-list comes before the key. -/
theorem resolve_eq
    (henabled : settings.chosenProvider provider ∈ settings.generation.enabledProviders)
    (hconfig : settings.provider? (settings.chosenProvider provider) = some config) :
    settings.resolve env provider model =
      if config.Allows (config.chosenModel model) then
        match Settings.keyFor env config with
        | some key => .ok ⟨settings.chosenProvider provider, config.chosenModel model, key⟩
        | none => .error (.missingKey (settings.chosenProvider provider))
      else .error
        (.modelNotAllowed (config.chosenModel model) (settings.chosenProvider provider)) := by
  have hrefused : ∀ chosen : Text, (!config.allowedModels.isEmpty && !chosen.isEmpty &&
      !config.allowedModels.contains chosen) = true ↔ ¬ config.Allows chosen := by
    intro chosen
    simp [ProviderConfig.Allows, and_assoc]
  have hget := getConfig_eq_ok.2 hconfig
  unfold Settings.chosenProvider at henabled hconfig hget ⊢
  unfold Settings.resolve
  simp only [List.contains_eq_mem, henabled, decide_true, Bool.not_true, Bool.false_eq_true,
    if_false, hget]
  by_cases hallows : config.Allows (config.chosenModel model)
  · have hpassed := mt (hrefused _).1 (not_not.2 hallows)
    rw [if_pos hallows]
    unfold ProviderConfig.chosenModel at hpassed ⊢
    refine (if_neg (by simpa using hpassed)).trans ?_
    cases Settings.keyFor env config with
    | none => rfl
    | some key => rfl
  · have hnot := (hrefused _).2 hallows
    rw [if_neg hallows]
    unfold ProviderConfig.chosenModel at hnot ⊢
    rw [if_pos (by simpa using hnot)]

/-- A choice is made only for an enabled provider that has settings. -/
theorem resolve_ok_provider (h : settings.resolve env provider model = .ok selection) :
    settings.chosenProvider provider ∈ settings.generation.enabledProviders ∧
      ∃ config, settings.provider? (settings.chosenProvider provider) = some config := by
  unfold Settings.resolve at h
  dsimp only at h
  split at h
  · cases h
  · next henabled =>
    split at h
    · cases h
    · next config hconfig =>
      exact ⟨by simpa [Settings.chosenProvider] using henabled, config, getConfig_eq_ok.1 hconfig⟩

/-- What a choice has passed. -/
theorem resolve_ok (h : settings.resolve env provider model = .ok selection) :
    selection.provider = settings.chosenProvider provider ∧
    ∃ config, settings.provider? selection.provider = some config ∧
      selection.model = config.chosenModel model ∧ config.Allows selection.model := by
  obtain ⟨henabled, config, hconfig⟩ := resolve_ok_provider h
  rw [resolve_eq henabled hconfig] at h
  split at h
  · next hallows =>
    split at h
    · cases h
      exact ⟨rfl, config, hconfig, rfl, hallows⟩
    · cases h
  · cases h

/-- The name of a model is refused iff the allow-list of its provider does not let it pass. -/
theorem notAllowed_iff
    (hconfig : settings.provider? (settings.chosenProvider provider) = some config) :
    (∃ refused of, settings.resolve env provider model = .error (.modelNotAllowed refused of)) ↔
      settings.chosenProvider provider ∈ settings.generation.enabledProviders ∧
        ¬ config.Allows (config.chosenModel model) := by
  by_cases henabled : settings.chosenProvider provider ∈ settings.generation.enabledProviders
  · rw [resolve_eq henabled hconfig]
    split
    · next hallows =>
      split <;> simp [hallows]
    · next hallows => simp [henabled, hallows]
  · unfold Settings.chosenProvider at henabled ⊢
    simp [Settings.resolve, henabled]

/-! ## What a call needs -/

/-- A call that can be made: the choice, the vendor, and the messages that every client gets. -/
theorem prepare_eq_ok {limits : Limits} {call : Call} {ready : Attemptable} :
    prepare limits settings env call = .ok ready ↔
      settings.resolve env call.provider call.model = .ok ready.selection ∧
      Vendor.ofProvider? ready.selection.provider = some ready.vendor ∧
      ∃ config, settings.provider? ready.selection.provider = some config ∧
        ready = ⟨limits, settings, ready.selection, ready.vendor,
          buildMessages config.supportsSystemPrompt call.system call.user, call.timeout⟩ := by
  unfold prepare
  constructor
  · intro h
    split at h
    · cases h
    · next selection hresolve =>
      split at h
      · cases h
      · cases h
      · next vendor config hvendor hconfig =>
        cases h
        exact ⟨hresolve, getVendor_eq_ok.1 hvendor, config, getConfig_eq_ok.1 hconfig, rfl⟩
  · rintro ⟨hresolve, hvendor, config, hconfig, hready⟩
    simp only [hresolve, getVendor_eq_ok.2 hvendor, getConfig_eq_ok.2 hconfig]
    exact congrArg Except.ok hready.symm

theorem clientParams_eq {name : Text} (hconfig : settings.provider? name = some config)
    (hvendor : Vendor.ofProvider? name = some vendor) (model apiKey : Text) (timeout : Number) :
    settings.clientParams name model apiKey timeout =
      .ok (config.client vendor apiKey timeout model) := by
  unfold Settings.clientParams
  simp only [getConfig_eq_ok.2 hconfig, getVendor_eq_ok.2 hvendor]
  rfl

end

/-! ## Candidates -/

theorem candidates_ne_nil (vendor : Vendor) (model : Text) : vendor.candidates model ≠ [] := by
  unfold Vendor.candidates
  split
  · split
    · exact List.cons_ne_nil _ _
    · next h => simpa using h
  · exact List.cons_ne_nil _ _

/-- A name is one candidate unless it is a ranked list. -/
theorem candidates_eq_self {vendor : Vendor} {model : Text} (htrim : Text.trim model = model)
    (hranked : vendor = .openrouter → ',' ∉ model) : vendor.candidates model = [model] := by
  unfold Vendor.candidates
  split
  · have hsplit : Text.split ',' model = [model] := by
      apply Text.splitWhen_eq_self
      intro c hc
      have hcomma : c ≠ ',' := fun h => hranked rfl (h ▸ hc)
      simpa using hcomma
    have hlist : Text.commaList model = if model.isEmpty then [] else [model] := by
      unfold Text.commaList
      rw [hsplit, List.map_singleton, htrim]
      cases model <;> rfl
    cases model with
    | nil => rfl
    | cons c model => rw [hlist]; rfl
  · rfl

/-! ## One provider -/

/-- Settings with one provider, which takes ranked lists, names this model and allows these. -/
def Settings.ranked (defaultModel : Text) (allowed : List Text) : Settings where
  generation := { GenerationSettings.standard with enabledProviders := ["openrouter"] }
  providers := [("openrouter", ⟨none, none, defaultModel, none, 3072, none, allowed, true⟩)]

/-- An environment with the key that all providers share. -/
def Environment.keyed : Environment := [("BLOCKSMITH_API_KEY", "key")]

end BlockSafe
