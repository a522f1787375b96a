import BlockSafe.Proofs.Provider.Candidates

/-!
# Allow-lists

The allow-list of a provider is asked about the name of a model as it was chosen, before a ranked
list is taken apart (`allow_list`).  So a call with an allow-list builds clients for listed models
only, unless the name was blank or the list has a whole ranked list as one entry; and a ranked list
of listed models is refused like any name that is not an entry (`listed_models_refused`).
-/

namespace BlockSafe

/-- Whether a call builds clients for such models only, whatever its fleet, its token and the
limits. -/
def BuildsOnly (settings : Settings) (env : Environment) (call : Call) (P : Text → Prop) : Prop :=
  ∀ limits cancelled fleet, ∃ clients,
    ((chatGateway limits settings env).call call cancelled fleet).state.built =
        fleet.built ++ clients ∧
      ∀ client ∈ clients, P client.model

/-! ## Clients that are built -/

/-- Chat models that all take too long. -/
def Fleet.slow : Fleet := ⟨[], .hangs, [], []⟩

theorem behaviours_slow (models : List Text) :
    ∀ behaviour ∈ Fleet.slow.behaviours models, behaviour = .hangs := by
  induction models with
  | nil => exact fun _ hmem => absurd hmem List.not_mem_nil
  | cons model rest ih => exact List.forall_mem_cons.2 ⟨rfl, ih⟩

theorem fate_hangs (ready : Attemptable) :
    ClientBehaviour.hangs.fate ready false = .failed (.timedOut ready.timeout) := by
  unfold ClientBehaviour.fate ClientBehaviour.invoke
  cases ready.timeout.leavesTime <;> rfl

theorem fatesOf_hangs {ready : Attemptable} {pairs : List (Text × ClientBehaviour)}
    (h : ∀ pair ∈ pairs, pair.2 = .hangs) :
    ∀ tried ∈ fatesOf ready false pairs, tried.2 = .failed (.timedOut ready.timeout) := by
  induction pairs with
  | nil => exact fun _ hmem => absurd hmem List.not_mem_nil
  | cons pair rest ih =>
    obtain ⟨hpair, hrest⟩ := List.forall_mem_cons.1 h
    obtain ⟨model, behaviour⟩ := pair
    cases hpair
    exact List.forall_mem_cons.2 ⟨fate_hangs ready, ih hrest⟩

theorem fates_slow {ready : Attemptable} {models : List Text} {model : Text} {fate : Fate}
    (h : (model, fate) ∈ Fleet.slow.fates ready false models) :
    fate = .failed (.timedOut ready.timeout) :=
  fatesOf_hangs (fun _ hmem => behaviours_slow models _ (List.of_mem_zip hmem).2) _ h

theorem Concludes.last_of_failed {provider model : Text} {isLast : Prop} {failure : Failure}
    {result : Except Failure Text}
    (h : Concludes provider model isLast (.failed failure) result) : isLast := by
  cases h with
  | failed hlast => exact hlast

section
variable {settings : Settings} {env : Environment} {call : Call} {ready : Attemptable}
  {config : ProviderConfig} {models : List Text}

/-- On slow models a call builds a client for each candidate. -/
theorem Reaches.built_slow (h : Reaches settings env call ready config models) :
    (tryCandidates ready none false models Fleet.slow).state.built.map (·.model) = models := by
  obtain ⟨earlier, model, fate, untried, htried⟩ := h.tried false Fleet.slow
  obtain rfl := fates_slow (htried.order ▸ List.mem_append_right earlier List.mem_cons_self)
  obtain ⟨clients, hclients, hmodels⟩ := htried.built_models
  rw [htried.result.last_of_failed, List.map_nil, List.append_nil] at hmodels
  rw [hclients, hmodels]
  rfl

/-- A call builds clients of some kind only iff all its candidates are of that kind. -/
theorem buildsOnly_iff {P : Text → Prop} :
    BuildsOnly settings env call P ↔
      ∀ model ∈ settings.candidateModels env call.provider call.model, P model := by
  constructor
  · intro h
    obtain ⟨clients, hclients, hP⟩ := h .standard false Fleet.slow
    rcases chatGateway_cases .standard settings env call false Fleet.slow with
      ⟨failure, hkind, hanswer⟩ | ⟨ready, config, -, hcall, hanswer⟩
    · rcases hkind with ⟨hcancelled, -⟩ | ⟨-, hnone⟩
      · cases hcancelled
      · rw [hnone]
        exact fun _ hmem => absurd hmem List.not_mem_nil
    · rw [hanswer] at hclients
      rw [← hcall.built_slow, hclients]
      exact List.forall_mem_map.2 hP
  · intro hP limits cancelled fleet
    rcases chatGateway_cases limits settings env call cancelled fleet with
      ⟨failure, hkind, hanswer⟩ | ⟨ready, config, -, hcall, hanswer⟩
    · refine ⟨[], ?_, fun _ hmem => absurd hmem List.not_mem_nil⟩
      rw [hanswer, List.append_nil]
    · obtain ⟨earlier, model, fate, untried, htried⟩ := hcall.tried false fleet
      obtain ⟨clients, hclients, hmodels⟩ := htried.built_models
      refine ⟨clients, by rw [hanswer, hclients], fun client hmem => hP _ ?_⟩
      rw [hmodels]
      exact List.mem_append_left _ (List.mem_map_of_mem hmem)

/-- Candidates of a call come of the name that was chosen. -/
theorem candidateModels_eq (hconfig : settings.provider?
      (settings.chosenProvider call.provider) = some config)
    (h : settings.candidateModels env call.provider call.model ≠ []) :
    ∃ vendor, Vendor.ofProvider? (settings.chosenProvider call.provider) = some vendor ∧
      config.Allows (config.chosenModel call.model) ∧
      settings.candidateModels env call.provider call.model =
        vendor.candidates (config.chosenModel call.model) := by
  unfold Settings.candidateModels at h ⊢
  split at h
  · exact absurd rfl h
  · next selection hresolve =>
    obtain ⟨hprovider, found, hfound, hmodel, hallows⟩ := resolve_ok hresolve
    rw [hprovider, hconfig] at hfound
    cases hfound
    split at h
    · exact absurd rfl h
    · next vendor hvendor =>
      refine ⟨vendor, hprovider ▸ hvendor, hmodel ▸ hallows, ?_⟩
      simp only [hmodel]

end

theorem ofProvider?_openrouter {name : Text}
    (h : Vendor.ofProvider? name = some .openrouter) : name = "openrouter".toList := by
  unfold Vendor.ofProvider? at h
  split at h
  · cases h
  · split at h
    · cases h
    · split at h
      · next hname => exact hname
      · cases h

/-! ## The list -/

/-- **Allow-lists.**  With a list, a call is refused for its model iff the name it chose is neither
blank nor an entry; so the candidates are that name itself, or the parts of a ranked list that is an
entry as a whole.  Clients are built for listed models only iff all candidates are listed. -/
theorem allow_list (settings : Settings) (env : Environment) (call : Call)
    {config : ProviderConfig}
    (hconfig : settings.provider? (settings.chosenProvider call.provider) = some config)
    (hlisted : config.allowedModels ≠ []) :
    let chosen := config.chosenModel call.model
    let candidates := settings.candidateModels env call.provider call.model
    ((∃ refused of, settings.resolve env call.provider call.model =
        .error (.modelNotAllowed refused of)) ↔
      settings.chosenProvider call.provider ∈ settings.generation.enabledProviders ∧
        chosen ≠ [] ∧ chosen ∉ config.allowedModels) ∧
    (candidates ≠ [] → chosen = [] ∨ chosen ∈ config.allowedModels) ∧
    (∀ model ∈ candidates, model = chosen ∨
      settings.chosenProvider call.provider = "openrouter".toList ∧ ',' ∈ chosen) ∧
    (BuildsOnly settings env call (· ∈ config.allowedModels) ↔
      ∀ model ∈ candidates, model ∈ config.allowedModels) := by
  intro chosen candidates
  refine ⟨?_, ?_, ?_, buildsOnly_iff⟩
  · rw [notAllowed_iff hconfig]
    unfold ProviderConfig.Allows
    simp only [hlisted, false_or, not_or]
    rfl
  · intro hne
    obtain ⟨vendor, -, hallows, -⟩ := candidateModels_eq hconfig hne
    exact hallows.resolve_left hlisted
  · intro model hmem
    obtain ⟨vendor, hvendor, -, hcandidates⟩ :=
      candidateModels_eq hconfig (List.ne_nil_of_mem hmem)
    by_cases hranked : vendor = .openrouter ∧ ',' ∈ chosen
    · exact .inr ⟨ofProvider?_openrouter (hvendor.trans (congrArg some hranked.1)), hranked.2⟩
    · left
      have htrim : Text.trim chosen = chosen := Text.trim_trim _
      have hmem : model ∈ vendor.candidates chosen := hcandidates ▸ hmem
      rw [candidates_eq_self htrim fun hvendor hcomma => hranked ⟨hvendor, hcomma⟩] at hmem
      exact List.mem_singleton.1 hmem

/-- A call to OpenRouter. -/
def rankedCall (model : Text) : Call := ⟨some "openrouter", some model, "system", "user", .int 60⟩

/-- One listed model on its own is let pass, and it is the only one that a client is built for. -/
theorem allow_list_single :
    let settings := Settings.ranked "a/one" ["a/one", "b/two"]
    (∃ config,
      settings.provider? (settings.chosenProvider (some "openrouter".toList)) = some config ∧
        config.allowedModels ≠ []) ∧
    (¬ ∃ refused of, settings.resolve Environment.keyed (rankedCall "b/two").provider
      (rankedCall "b/two").model = .error (.modelNotAllowed refused of)) ∧
    BuildsOnly settings Environment.keyed (rankedCall "b/two")
      (· ∈ texts ["a/one", "b/two"]) := by
  intro settings
  have h := allow_list settings Environment.keyed (rankedCall "b/two") rfl (List.cons_ne_nil _ _)
  refine ⟨⟨_, rfl, List.cons_ne_nil _ _⟩, h.1.not.2 (by decide), h.2.2.2.2 (by decide)⟩

/-- The list is not enforced model by model.  A ranked list of listed models is refused; where a
ranked list is an entry, clients are built for its parts, which are none; and a blank name is let
pass, and a client is built for it. -/
theorem listed_models_refused :
    ((∀ model ∈ Vendor.openrouter.candidates "a/one,b/two", model ∈ texts ["a/one", "b/two"]) ∧
      (Settings.ranked "a/one" ["a/one", "b/two"]).resolve Environment.keyed
        (rankedCall "a/one,b/two").provider (rankedCall "a/one,b/two").model =
          .error (.modelNotAllowed "a/one,b/two" "openrouter")) ∧
    ¬ BuildsOnly (Settings.ranked "a/one" ["a/one,b/two"]) Environment.keyed
      (rankedCall "a/one,b/two") (· ∈ texts ["a/one,b/two"]) ∧
    ¬ BuildsOnly (Settings.ranked "a/one" ["a/one"]) Environment.keyed (rankedCall " ")
      (· ∈ texts ["a/one"]) :=
  ⟨by decide, buildsOnly_iff.not.2 (by decide), buildsOnly_iff.not.2 (by decide)⟩

end BlockSafe
