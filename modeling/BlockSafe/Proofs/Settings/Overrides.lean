import BlockSafe.Proofs.Settings.Loaded

/-!
# Overrides are idempotent

Overriding settings a second time with the same environment changes nothing
(`overrides_idempotent`).  Each value has its own chain from the environment to a value to fall
back to, and the first pass overwrites what the second one falls back to:

* a number is clamped where it is read, and is its own fallback afterwards (`number_again`);
* a provider keeps the name of its variables, so that the second pass reads the same ones
  (`providerWith_again`);
* the enabled providers are requested where the environment requests none, and pass the filter that
  they have passed (`enabledWith_again`);
* the default is one of them, and their names are in lower case without margins
  (`defaultWith_again`).
-/

namespace BlockSafe

/-! ## Single values -/

theorem Environment.number_again (env : Environment) {α : Type} (name : Text) (fallback : α)
    (read? : Text → Option α) (clamp : α → α) :
    env.number name (env.number name fallback read? clamp) read? clamp =
      env.number name fallback read? clamp := by
  unfold Environment.number
  split <;> rfl

theorem getD_again {α : Type} (given : Option α) (fallback : α) :
    given.getD (given.getD fallback) = given.getD fallback := by
  cases given <;> rfl

namespace Settings

theorem providerWith_again (env : Environment) (name : Text) (config : ProviderConfig) :
    providerWith env name (providerWith env name config) = providerWith env name config := by
  unfold providerWith
  dsimp only
  rw [getD_again]
  split <;> rfl

variable {settings : Settings} {env : Environment} {first : Text} {rest : List Text}

/-! ## Providers -/

/-- The settings with the overrides of the environment, if the providers `first :: rest` are
enabled. -/
def overridden (settings : Settings) (env : Environment) (first : Text) (rest : List Text) :
    Settings where
  generation := settings.generationWith env first rest
  providers := settings.providers.map fun (name, config) => (name, providerWith env name config)

theorem withEnvironment?_eq_some {result : Settings} :
    settings.withEnvironment? env = some result ↔
      ∃ first rest, settings.enabledWith env = first :: rest ∧
        result = settings.overridden env first rest := by
  unfold withEnvironment?
  cases settings.enabledWith env with
  | nil => simp
  | cons first rest => simp [overridden, eq_comm]

/-- Overrides neither add nor remove a provider. -/
theorem provider?_overridden (name : Text) :
    (settings.overridden env first rest).provider? name =
      (settings.provider? name).map (providerWith env name) := by
  unfold provider? overridden
  dsimp only
  induction settings.providers with
  | nil => rfl
  | cons entry providers ih =>
    obtain ⟨other, config⟩ := entry
    rw [List.map_cons, List.lookup_cons, List.lookup_cons]
    by_cases hname : name = other
    · subst hname
      simp
    · simp [beq_false_of_ne hname, ih]

/-- The second pass requests what the first one did, or what the first one enabled. -/
theorem requestedProviders_overridden (settings : Settings) (env : Environment) (first : Text)
    (rest : List Text) :
    (settings.overridden env first rest).requestedProviders env = settings.requestedProviders env ∨
      (settings.overridden env first rest).requestedProviders env = first :: rest := by
  unfold requestedProviders
  dsimp only
  split
  · exact .inl rfl
  · exact .inr rfl

theorem enabledWith_again (h : settings.enabledWith env = first :: rest) :
    (settings.overridden env first rest).enabledWith env = first :: rest := by
  have hpasses : ∀ name, (supportedProviders.contains name &&
      ((settings.overridden env first rest).provider? name).isSome) =
        (supportedProviders.contains name && (settings.provider? name).isSome) := by
    intro name
    rw [provider?_overridden, Option.isSome_map]
  unfold enabledWith
  simp only [hpasses]
  rcases requestedProviders_overridden settings env first rest with hasked | henabled
  · rw [hasked]
    exact h
  · have hkept : ∀ name ∈ first :: rest,
        (supportedProviders.contains name && (settings.provider? name).isSome) = true := by
      rw [← h]
      intro name hname
      obtain ⟨hsupported, hconfig⟩ := mem_enabledWith hname
      exact Bool.and_eq_true_iff.2 ⟨List.contains_iff_mem.2 hsupported, hconfig⟩
    have honce : (first :: rest).Nodup := h ▸ nodup_distinct _
    rw [henabled, List.filter_eq_self.2 hkept, distinct_eq_self honce]

theorem defaultWith_again (h : settings.enabledWith env = first :: rest) :
    (settings.overridden env first rest).defaultWith env first rest =
      settings.defaultWith env first rest := by
  cases hgiven : env.given? (Environment.key "PROVIDER") with
  | some asked =>
    unfold defaultWith
    rw [hgiven]
    rfl
  | none =>
    have hmem : settings.defaultWith env first rest ∈ first :: rest := defaultWith_mem
    have hsupported := (mem_enabledWith (h ▸ hmem)).1
    have hname := (supported_name _ hsupported).2
    have hasked : (env.given? (Environment.key "PROVIDER")).getD
        (settings.overridden env first rest).generation.defaultProvider =
          settings.defaultWith env first rest := by
      rw [hgiven]
      rfl
    rw [defaultWith, hasked, hname, if_pos (List.contains_iff_mem.2 hmem)]

/-- The second pass finds the limits of the first one, and keeps them. -/
theorem overridden_again (h : settings.enabledWith env = first :: rest) :
    (settings.overridden env first rest).overridden env first rest =
      settings.overridden env first rest := by
  have hgeneration : (settings.overridden env first rest).generationWith env first rest =
      settings.generationWith env first rest := by
    unfold generationWith
    rw [defaultWith_again h]
    simp only [overridden, generationWith, Environment.number_again]
  have hproviders : (settings.overridden env first rest).providers.map
      (fun (name, config) => (name, providerWith env name config)) =
        (settings.overridden env first rest).providers := by
    simp only [overridden, List.map_map, Function.comp_def, providerWith_again]
  rw [overridden, hgeneration, hproviders]
  rfl

/-- **Overrides are idempotent.**  Settings with the overrides of an environment can be overridden
again with the same environment, and that changes nothing: not the enabled providers, the default,
the limits, nor the model or the allow-list of any provider. -/
theorem overrides_idempotent {result : Settings}
    (h : settings.withEnvironment? env = some result) :
    result.withEnvironment? env = some result := by
  obtain ⟨first, rest, henabled, rfl⟩ := withEnvironment?_eq_some.1 h
  exact withEnvironment?_eq_some.2
    ⟨first, rest, enabledWith_again henabled, (overridden_again henabled).symm⟩

/-- A default that is not among the enabled providers, a list with repetitions, a limit out of
bounds and an allow-list. -/
theorem overrides_idempotent_builtin :
    let env : Environment := [("BLOCKSMITH_ENABLED_PROVIDERS", " Gemini, bogus ,gemini,OpenRouter"),
      ("BLOCKSMITH_EMPTY_RETRIES", " 9 "), ("BLOCKSMITH_OPENROUTER_ALLOWED_MODELS", "a , ,b")]
    ∃ result, builtinSettings.withEnvironment? env = some result ∧
      result.generation.enabledProviders = texts ["gemini", "openrouter"] ∧
      result.generation.defaultProvider = "gemini".toList ∧
      result.generation.budgets.empty = 5 ∧
      result.providers.map (·.2.allowedModels) = [[], [], texts ["a", "b"]] ∧
      result.withEnvironment? env = some result := by
  intro env
  have hresult : (builtinSettings.withEnvironment? env).map (fun result =>
      (result.generation.enabledProviders, result.generation.defaultProvider,
        result.generation.budgets.empty, result.providers.map (·.2.allowedModels))) =
      some (texts ["gemini", "openrouter"], "gemini".toList, 5,
        [[], [], texts ["a", "b"]]) := by
    decide +kernel
  obtain ⟨result, hover, hvalues⟩ := Option.map_eq_some_iff.1 hresult
  simp only [Prod.mk.injEq] at hvalues
  obtain ⟨henabled, hdefault, hempty, hallowed⟩ := hvalues
  exact ⟨result, hover, henabled, hdefault, hempty, hallowed, overrides_idempotent hover⟩

end Settings

end BlockSafe
