import BlockSafe.Proofs.Schema.Results
import BlockSafe.Settings.Basic

/-!
# Budgets of settings

What is read as a number of retries is within the bounds of budgets, so the budgets of settings
that were read pass their own checks (`budgets_accepted`).
-/

namespace BlockSafe

theorem Checked.and_eq_ok {α β : Type} {f : Checked (α → β)} {a : Checked α} {b : β} :
    f.and a = .ok b ↔ ∃ g x, f = .ok g ∧ a = .ok x ∧ b = g x := by
  cases f with
  | ok g =>
    cases a with
    | ok x => simp [Checked.and, eq_comm]
    | error issues => simp [Checked.and]
  | error issues =>
    cases a with
    | ok x => simp [Checked.and]
    | error more => simp [Checked.and]

theorem Checked.of_under {α : Type} {step : Text} {checked : Checked α} {a : α}
    (h : checked.under step = .ok a) : checked = .ok a := by
  cases checked with
  | ok b => exact h
  | error issues => cases h

theorem Read.required_eq_ok {α : Type} {fields : Fields} {key : Text} {a : α}
    {read : Json → Checked α} (h : Read.required fields key read = .ok a) :
    ∃ value, read value = .ok a := by
  unfold Read.required at h
  split at h
  · next value hvalue => exact ⟨value, Checked.of_under h⟩
  · cases h

theorem Read.optional_eq_ok {α : Type} {fields : Fields} {key : Text} {default a : α}
    {read : Json → Checked α} (h : Read.optional fields key default read = .ok a) :
    a = default ∨ ∃ value, read value = .ok a := by
  unfold Read.optional at h
  split at h
  · next value hvalue => exact .inr ⟨value, Checked.of_under h⟩
  · exact .inl (Except.ok.inj h).symm

theorem Read.integerWithin_le {least most n : Nat} {value : Json}
    (h : Read.integerWithin least (some most) value = .ok n) : n ≤ most := by
  unfold Read.integerWithin at h
  cases hi : Read.integer value with
  | error issues => rw [hi] at h; cases h
  | ok i =>
    rw [hi] at h
    simp only [Except.bind, Option.filter_some] at h
    split at h
    · cases h
    · next hmost =>
      split at h
      · cases h
      · cases h
        have hle : ¬ (most : Int) < i := by simpa using hmost
        omega

theorem retries_le {fields : Fields} {key : Text} {n : Nat}
    (h : Budgets.retries fields key = .ok n) : n ≤ maxRetries := by
  rcases Read.optional_eq_ok h with rfl | ⟨value, hvalue⟩
  · decide
  · exact Read.integerWithin_le hvalue

theorem Read.integerWithin_self {n most : Nat} (h : n ≤ most) :
    Read.integerWithin 0 (some most) (.num (.int n)) = .ok n := by
  have hmost : (some most).filter (fun most : Nat => (most : Int) < (n : Int)) = none := by
    rw [Option.filter_some, if_neg (by simpa using h)]
  have hleast : ¬ (n : Int) < (0 : Nat) := by omega
  unfold Read.integerWithin Read.integer
  simp only [Except.bind, hmost, hleast, if_false, Int.toNat_natCast]

theorem Budgets.ofFields_toFields {budgets : Budgets} (hempty : budgets.empty ≤ maxRetries)
    (hvalidation : budgets.validation ≤ maxRetries) :
    Budgets.ofFields budgets.toFields = .ok budgets := by
  unfold Budgets.ofFields Budgets.retries Budgets.toFields
  rw [optional_of_get? (get?_first _ _ _) (Read.integerWithin_self hempty),
    optional_of_get? ((get?_later (by decide)).trans (get?_first _ _ _))
      (Read.integerWithin_self hvalidation)]
  rfl

/-- The fields that the limits of a generation were read from. -/
theorem GenerationSettings.limits_read {fields : Fields} {generation : GenerationSettings}
    (h : GenerationSettings.ofFields fields = .ok generation) :
    Read.optional fields "request_timeout" standardTimeout (Read.realWithin minTimeout maxTimeout) =
      .ok generation.requestTimeout ∧
    Budgets.retries fields "empty_retries" = .ok generation.budgets.empty ∧
    Budgets.retries fields "validation_retries" = .ok generation.budgets.validation := by
  obtain ⟨_, _, hlimit, -, rfl⟩ := Checked.and_eq_ok.1 h
  obtain ⟨_, _, hrest, hvalidation, rfl⟩ := Checked.and_eq_ok.1 hlimit
  obtain ⟨_, _, htimeouts, hempty, rfl⟩ := Checked.and_eq_ok.1 hrest
  obtain ⟨_, _, henabled, htimeout, rfl⟩ := Checked.and_eq_ok.1 htimeouts
  obtain ⟨_, _, hprovider, -, rfl⟩ := Checked.and_eq_ok.1 henabled
  obtain ⟨_, _, hnothing, -, rfl⟩ := Checked.and_eq_ok.1 hprovider
  cases hnothing
  exact ⟨htimeout, hempty, hvalidation⟩

theorem GenerationSettings.retries_le {fields : Fields} {generation : GenerationSettings}
    (h : GenerationSettings.ofFields fields = .ok generation) :
    generation.budgets.empty ≤ maxRetries ∧ generation.budgets.validation ≤ maxRetries := by
  obtain ⟨-, hempty, hvalidation⟩ := limits_read h
  exact ⟨BlockSafe.retries_le hempty, BlockSafe.retries_le hvalidation⟩

/-- The budgets of settings that were read pass their own checks. -/
theorem budgets_accepted {fields : Fields} {settings : Settings}
    (h : Settings.ofFields fields = .ok settings) :
    Budgets.ofFields settings.generation.budgets.toFields = .ok settings.generation.budgets := by
  obtain ⟨_, _, hproviders, -, rfl⟩ := Checked.and_eq_ok.1 h
  obtain ⟨_, generation, hnothing, hgeneration, rfl⟩ := Checked.and_eq_ok.1 hproviders
  cases hnothing
  rcases Read.optional_eq_ok hgeneration with rfl | ⟨value, hvalue⟩
  · exact Budgets.ofFields_toFields (Nat.le_of_ble_eq_true rfl) (Nat.le_of_ble_eq_true rfl)
  · cases value with
    | object fields =>
      obtain ⟨hempty, hvalidation⟩ := GenerationSettings.retries_le hvalue
      exact Budgets.ofFields_toFields hempty hvalidation
    | null => cases hvalue
    | bool b => cases hvalue
    | num n => cases hvalue
    | str s => cases hvalue
    | list items => cases hvalue

end BlockSafe
