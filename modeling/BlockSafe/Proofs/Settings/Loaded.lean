import BlockSafe.Proofs.Number.Order
import BlockSafe.Proofs.Provider.Registry
import BlockSafe.Proofs.Schema.Budgets
import BlockSafe.Proofs.Text.Distinct
import BlockSafe.Settings.Load

/-!
# What holds of loaded settings

However settings come about, from data, from the built-in table or with the overrides of the
environment, some supported provider is enabled, the enabled ones have settings, the default is one
of them, and the limits of a generation are within their bounds (`load_sound`).

The limits are bounded where they are read (`bounded_ofFields`) and clamped where they are
overridden (`Bounded.generationWith`).  The registry relies on the rest: of what it does without
being told a provider, only the choice of a model can fail (`Sound.resolve`).
-/

namespace BlockSafe

/-! ## Readers -/

/-- What is read within bounds is within them. -/
theorem Read.realWithin_le {least most : Nat} {x : Float} {value : Json}
    (hleast : least.toFloat ≤ least.toFloat) (h : Read.realWithin least most value = .ok x) :
    least.toFloat ≤ x ∧ x ≤ most.toFloat := by
  unfold Read.realWithin at h
  cases hreal : Read.real value with
  | error issues => rw [hreal] at h; cases h
  | ok y =>
    rw [hreal] at h
    simp only [Except.bind] at h
    split at h
    · next hmost =>
      split at h
      · cases h
      · next hnot =>
        cases h
        exact ⟨Real.le_of_not_lt hleast hmost hnot, hmost⟩
    · cases h

theorem Read.realWithin_self {least most : Nat} {x : Float} (hleast : least.toFloat ≤ x)
    (hmost : x ≤ most.toFloat) : Read.realWithin least most (.num (.real x)) = .ok x := by
  unfold Read.realWithin Read.real
  simp only [Except.bind]
  rw [if_pos hmost, if_neg (Real.not_lt_of_le hleast)]

theorem Read.integerWithin_nat (n : Nat) : Read.integerWithin 0 none (.num (.int n)) = .ok n := by
  have hleast : ¬ (n : Int) < (0 : Nat) := by omega
  unfold Read.integerWithin Read.integer
  simp only [Except.bind, Option.filter_none, hleast, if_false, Int.toNat_natCast]

/-! ## Limits -/

namespace GenerationSettings

/-- The limits of a generation are within their bounds. -/
structure Bounded (generation : GenerationSettings) : Prop where
  timeout_least : minTimeout.toFloat ≤ generation.requestTimeout
  timeout_most : generation.requestTimeout ≤ maxTimeout.toFloat
  empty_most : generation.budgets.empty ≤ maxRetries
  validation_most : generation.budgets.validation ≤ maxRetries

theorem minTimeout_le_self : minTimeout.toFloat ≤ minTimeout.toFloat := by decide

theorem bounded_standard : standard.Bounded := by
  constructor <;> decide

theorem bounded_ofFields {fields : Fields} {generation : GenerationSettings}
    (h : ofFields fields = .ok generation) : generation.Bounded := by
  obtain ⟨hempty, hvalidation⟩ := retries_le h
  obtain ⟨htimeout, -, -⟩ := limits_read h
  rcases Read.optional_eq_ok htimeout with hstandard | ⟨value, hvalue⟩
  · refine ⟨?_, ?_, hempty, hvalidation⟩
    · rw [hstandard]
      exact bounded_standard.timeout_least
    · rw [hstandard]
      exact bounded_standard.timeout_most
  · obtain ⟨hleast, hmost⟩ := Read.realWithin_le minTimeout_le_self hvalue
    exact ⟨hleast, hmost, hempty, hvalidation⟩

/-- Bounded limits pass their own checks. -/
theorem Bounded.accepted {generation : GenerationSettings} (h : generation.Bounded) :
    ofFields generation.toFields = .ok generation := by
  have hprovider : Read.optional generation.toFields "default_provider" standard.defaultProvider
      Read.text = .ok generation.defaultProvider :=
    optional_of_get? (get?_first _ _ _) rfl
  have henabled : Read.optional generation.toFields "enabled_providers" []
      (Read.listOf Read.text) = .ok generation.enabledProviders :=
    optional_of_get? rfl (listOf_texts generation.enabledProviders)
  have htimeout : Read.optional generation.toFields "request_timeout" standardTimeout
      (Read.realWithin minTimeout maxTimeout) = .ok generation.requestTimeout :=
    optional_of_get? rfl (Read.realWithin_self h.timeout_least h.timeout_most)
  have hempty : Budgets.retries generation.toFields "empty_retries" =
      .ok generation.budgets.empty :=
    optional_of_get? rfl (Read.integerWithin_self h.empty_most)
  have hvalidation : Budgets.retries generation.toFields "validation_retries" =
      .ok generation.budgets.validation :=
    optional_of_get? rfl (Read.integerWithin_self h.validation_most)
  have hlimit : Read.optional generation.toFields "max_current_code_chars" 0
      (Read.integerWithin 0 none) = .ok generation.codeLimit :=
    optional_of_get? rfl (Read.integerWithin_nat generation.codeLimit)
  rw [ofFields, hprovider, henabled, htimeout, hempty, hvalidation, hlimit]
  rfl

theorem bounded_readGeneration {value : Json} {generation : GenerationSettings}
    (h : Settings.readGeneration value = .ok generation) : generation.Bounded := by
  unfold Settings.readGeneration at h
  split at h
  · cases h
  · next fields hfields =>
    cases hread : ofFields fields with
    | error issues => rw [hread] at h; cases h
    | ok read =>
      rw [hread] at h
      cases h
      exact bounded_ofFields hread

/-- Limits that come with data, or instead of data, are within their bounds. -/
theorem bounded_ofSource {source : ConfigSource} {settings : Settings}
    (h : Settings.ofSource source = .ok settings) : settings.generation.Bounded := by
  cases source with
  | absent =>
    cases h
    exact bounded_standard
  | missing path => cases h
  | unreadable path => cases h
  | data value =>
    rw [Settings.ofSource, Settings.ofData] at h
    split at h
    · cases h
    · split at h
      · cases h
      · next generation hgeneration =>
        split at h
        · cases h
        · next fields hfields =>
          cases hproviders : Settings.readEach fields with
          | error e => rw [hproviders] at h; cases h
          | ok providers =>
            rw [hproviders] at h
            cases h
            exact bounded_readGeneration hgeneration

end GenerationSettings

/-! ## Overrides -/

/-- What holds of the fallback and of every number that is accepted, holds of the number in a
variable. -/
theorem Environment.number_keeps {α : Type} {P : α → Prop} {env : Environment} {name : Text}
    {fallback : α} {read? : Text → Option α} {clamp : α → α} (hfallback : P fallback)
    (hread : ∀ s value, read? s = some value → P (clamp value)) :
    P (env.number name fallback read? clamp) := by
  unfold Environment.number
  split
  · next value hvalue =>
    obtain ⟨s, -, hs⟩ := Option.bind_eq_some_iff.1 hvalue
    exact hread s value hs
  · exact hfallback

theorem clampTimeout_within (x : Float) : GenerationSettings.minTimeout.toFloat ≤ clampTimeout x ∧
    clampTimeout x ≤ GenerationSettings.maxTimeout.toFloat := by
  unfold clampTimeout
  dsimp only
  split
  · next hlow =>
    split
    · next hhigh => exact ⟨Real.le_of_lt hlow, Real.le_of_lt hhigh⟩
    · decide
  · decide

section
variable {settings : Settings} {env : Environment} {first : Text} {rest : List Text}

/-- Overrides keep the limits within their bounds. -/
theorem GenerationSettings.Bounded.generationWith (h : settings.generation.Bounded) :
    (settings.generationWith env first rest).Bounded := by
  have hretries : ∀ {name : Text} {fallback : Nat}, fallback ≤ maxRetries →
      env.number name fallback
        (fun s => (looseInteger? s).map (clampInteger maxRetries)) id ≤ maxRetries := by
    intro name fallback hfallback
    refine Environment.number_keeps (P := (· ≤ maxRetries)) hfallback fun s value hs => ?_
    obtain ⟨i, -, rfl⟩ := Option.map_eq_some_iff.1 hs
    exact Nat.min_le_left _ _
  have htimeout : minTimeout.toFloat ≤ (settings.generationWith env first rest).requestTimeout ∧
      (settings.generationWith env first rest).requestTimeout ≤ maxTimeout.toFloat :=
    Environment.number_keeps (P := fun x => minTimeout.toFloat ≤ x ∧ x ≤ maxTimeout.toFloat)
      ⟨h.timeout_least, h.timeout_most⟩ fun s value _ => clampTimeout_within value
  exact ⟨htimeout.1, htimeout.2, hretries h.empty_most, hretries h.validation_most⟩

theorem defaultWith_mem : settings.defaultWith env first rest ∈ first :: rest := by
  unfold Settings.defaultWith
  dsimp only
  split
  · next h => exact List.contains_iff_mem.1 h
  · exact List.mem_cons_self

theorem mem_enabledWith {name : Text} (h : name ∈ settings.enabledWith env) :
    name ∈ supportedProviders ∧ (settings.provider? name).isSome = true := by
  have hfilter := (List.mem_filter.1 (mem_distinct.1 h)).2
  obtain ⟨hsupported, hconfig⟩ := Bool.and_eq_true_iff.1 hfilter
  exact ⟨List.contains_iff_mem.1 hsupported, hconfig⟩

end

/-! ## Settings -/

/-- What holds of settings that were loaded. -/
structure Settings.Sound (settings : Settings) : Prop where
  bounded : settings.generation.Bounded
  some_enabled : settings.generation.enabledProviders ≠ []
  enabled_once : settings.generation.enabledProviders.Nodup
  supported : ∀ name ∈ settings.generation.enabledProviders, name ∈ supportedProviders
  configured : ∀ name ∈ settings.generation.enabledProviders,
    (settings.provider? name).isSome = true
  default_enabled : settings.generation.defaultProvider ∈ settings.generation.enabledProviders

theorem sound_withEnvironment {settings overridden : Settings} {env : Environment}
    (hbounded : settings.generation.Bounded)
    (h : settings.withEnvironment? env = some overridden) : overridden.Sound := by
  unfold Settings.withEnvironment? at h
  split at h
  · cases h
  · next first rest henabled =>
    cases h
    have hmem : ∀ name ∈ first :: rest, name ∈ supportedProviders ∧
        (settings.provider? name).isSome = true := by
      rw [← henabled]
      exact fun name => mem_enabledWith
    refine ⟨hbounded.generationWith, List.cons_ne_nil _ _, ?_,
      fun name hname => (hmem name hname).1, fun name hname => ?_, defaultWith_mem⟩
    · rw [Settings.generationWith, ← henabled]
      exact nodup_distinct _
    · obtain ⟨entry, hentry, hkey⟩ := List.lookup_isSome_iff.1 (hmem name hname).2
      exact List.lookup_isSome_iff.2 ⟨_, List.mem_map_of_mem hentry, hkey⟩

theorem load_sound {source : ConfigSource} {env : Environment} {settings : Settings}
    (h : Settings.load source env = .ok settings) : settings.Sound := by
  unfold Settings.load at h
  split at h
  · cases h
  · next base hbase =>
    split at h
    · next overridden hover =>
      cases h
      exact sound_withEnvironment (GenerationSettings.bounded_ofSource hbase) hover
    · cases h

/-! ## The registry -/

/-- Every supported provider has a client and a name in lower case without margins. -/
theorem supported_name : ∀ name ∈ supportedProviders,
    (Vendor.ofProvider? name).isSome = true ∧ Text.lower (Text.trim name) = name := by
  decide

/-- A pass over a list in which no step fails. -/
theorem mapM_eq_ok {α β ε : Type} {f : α → Except ε β} {P : α → β → Prop} {items : List α}
    (h : ∀ a ∈ items, ∃ b, f a = .ok b ∧ P a b) :
    ∃ results, items.mapM f = .ok results ∧ List.Forall₂ P items results := by
  induction items with
  | nil => exact ⟨[], rfl, .nil⟩
  | cons a rest ih =>
    obtain ⟨⟨b, hb, hab⟩, hrest⟩ := List.forall_mem_cons.1 h
    obtain ⟨results, hresults, hall⟩ := ih hrest
    refine ⟨b :: results, ?_, .cons hab hall⟩
    rw [List.mapM_cons, hb, hresults]
    rfl

/-- The entry lists a provider, and is marked if that is the default. -/
def Lists (default name : Text) (listing : Settings.Listing) : Prop :=
  listing.name = name ∧ listing.isDefault = (name == default)

theorem lists_names {default : Text} {names : List Text} {listings : List Settings.Listing}
    (h : List.Forall₂ (Lists default) names listings) :
    listings.map (·.name) = names ∧
      (listings.filter (·.isDefault)).map (·.name) = names.filter (· == default) := by
  induction h with
  | nil => exact ⟨rfl, rfl⟩
  | cons hlists _ ih =>
    obtain ⟨rfl, hmark⟩ := hlists
    obtain ⟨hnames, hmarked⟩ := ih
    constructor
    · rw [List.map_cons, hnames]
    · rw [List.filter_cons, List.filter_cons, hmark, ← hmarked]
      split <;> rfl

namespace Settings.Sound

variable {settings : Settings} (h : settings.Sound)
include h

theorem getConfig {name : Text} (hname : name ∈ settings.generation.enabledProviders) :
    ∃ config, settings.getConfig name = .ok config := by
  obtain ⟨config, hconfig⟩ := Option.isSome_iff_exists.1 (h.configured name hname)
  exact ⟨config, getConfig_eq_ok.2 hconfig⟩

theorem getVendor {name : Text} (hname : name ∈ settings.generation.enabledProviders) :
    ∃ vendor, Settings.getVendor name = .ok vendor := by
  obtain ⟨vendor, hvendor⟩ :=
    Option.isSome_iff_exists.1 (supported_name name (h.supported name hname)).1
  exact ⟨vendor, getVendor_eq_ok.2 hvendor⟩

/-- Enabled providers can be listed, in order, and only the default is marked. -/
theorem listProviders : ∃ listings, settings.listProviders = .ok listings ∧
    listings.map (·.name) = settings.generation.enabledProviders ∧
    (listings.filter (·.isDefault)).map (·.name) = [settings.generation.defaultProvider] := by
  have hlist : ∃ listings, settings.listProviders = .ok listings ∧
      List.Forall₂ (Lists settings.generation.defaultProvider)
        settings.generation.enabledProviders listings := by
    unfold Settings.listProviders
    rw [distinct_eq_self h.enabled_once]
    apply mapM_eq_ok
    intro name hname
    obtain ⟨config, hconfig⟩ := Option.isSome_iff_exists.1 (h.configured name hname)
    rw [hconfig]
    exact ⟨_, rfl, rfl, rfl⟩
  obtain ⟨listings, hlistings, hlist⟩ := hlist
  obtain ⟨hnames, hmarked⟩ := lists_names hlist
  refine ⟨listings, hlistings, hnames, ?_⟩
  rw [hmarked, List.filter_beq, List.count_eq_one_of_mem h.enabled_once h.default_enabled]
  rfl

theorem chosenProvider {provider : Option Text} (hprovider : Settings.named provider = none) :
    settings.chosenProvider provider = settings.generation.defaultProvider := by
  unfold Settings.chosenProvider
  rw [hprovider, Option.getD_none]
  exact (supported_name _ (h.supported _ h.default_enabled)).2

/-- Without a provider to look for, only the model or the key can be at fault. -/
theorem resolve {env : Environment} {provider model : Option Text} {e : RegistryError}
    (hprovider : Settings.named provider = none)
    (hresolve : settings.resolve env provider model = .error e) :
    (∃ refused, e = .modelNotAllowed refused settings.generation.defaultProvider) ∨
      e = .missingKey settings.generation.defaultProvider := by
  have hchosen := h.chosenProvider hprovider
  obtain ⟨config, hconfig⟩ :=
    Option.isSome_iff_exists.1 (h.configured _ h.default_enabled)
  rw [resolve_eq (by rw [hchosen]; exact h.default_enabled) (by rw [hchosen]; exact hconfig),
    hchosen] at hresolve
  split at hresolve
  · split at hresolve
    · cases hresolve
    · exact .inr (Except.error.inj hresolve).symm
  · exact .inl ⟨_, (Except.error.inj hresolve).symm⟩

end Settings.Sound

/-- **Settings hold whatever they were loaded from.**  If settings are loaded at all, some supported
provider is enabled, each once and with settings, the default is one of them, and all limits are
within their bounds and pass their own checks.  So every enabled provider has its settings and a
client, the list of providers can be shown and marks the default and nothing else, and where no
provider is asked for, only the choice of the model or a missing key can be refused, then and in any
later environment. -/
theorem settings_hold {source : ConfigSource} {env : Environment} {settings : Settings}
    (h : Settings.load source env = .ok settings) :
    settings.Sound ∧
    GenerationSettings.ofFields settings.generation.toFields = .ok settings.generation ∧
    (∀ name ∈ settings.generation.enabledProviders,
      (∃ config, settings.getConfig name = .ok config) ∧
        ∃ vendor, Settings.getVendor name = .ok vendor) ∧
    (∃ listings, settings.listProviders = .ok listings ∧
      listings.map (·.name) = settings.generation.enabledProviders ∧
      (listings.filter (·.isDefault)).map (·.name) = [settings.generation.defaultProvider]) ∧
    ∀ later provider model e, Settings.named provider = none →
      settings.resolve later provider model = .error e →
        (∃ refused, e = .modelNotAllowed refused settings.generation.defaultProvider) ∨
          e = .missingKey settings.generation.defaultProvider := by
  have hsound := load_sound h
  refine ⟨hsound, hsound.bounded.accepted, ?_, hsound.listProviders, ?_⟩
  · exact fun name hname => ⟨hsound.getConfig hname, hsound.getVendor hname⟩
  · exact fun later provider model e hprovider => hsound.resolve hprovider

/-- The built-in table, with a time that is no number and a list with repetitions. -/
theorem settings_hold_builtin :
    let env : Environment := [("BLOCKSMITH_REQUEST_TIMEOUT", "nan"),
      ("BLOCKSMITH_ENABLED_PROVIDERS", "Gemini, gemini,  claude")]
    ∃ settings, Settings.load .absent env = .ok settings ∧
      settings.generation.enabledProviders = texts ["gemini"] ∧ settings.Sound := by
  intro env
  have henabled : (Settings.load .absent env).toOption.map (·.generation.enabledProviders) =
      some (texts ["gemini"]) := by
    decide +kernel
  cases hload : Settings.load .absent env with
  | error e =>
    rw [hload] at henabled
    cases henabled
  | ok settings =>
    rw [hload] at henabled
    exact ⟨settings, rfl, Option.some.inj henabled, (settings_hold hload).1⟩

end BlockSafe
