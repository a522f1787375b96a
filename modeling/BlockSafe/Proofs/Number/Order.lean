import Mathlib.Order.Defs.LinearOrder

/-!
# The order of doubles

Any two doubles can be compared but for the non-number, which has no order with anything.  So a
bound that is checked by the opposite comparison holds of a double that has some bound
(`le_of_not_lt`), and a strict bound is a bound (`le_of_lt`).
-/

namespace BlockSafe.Real

open Float.Model

/-! ## Comparisons -/

theorem swap_compare_finite (e₁ e₂ : Int) (m₁ m₂ : Nat) :
    ((compare e₁ e₂).then (compare m₁ m₂)).swap = (compare e₂ e₁).then (compare m₂ m₁) := by
  rw [Ordering.swap_then, ← Std.OrientedOrd.eq_swap, ← Std.OrientedOrd.eq_swap]

/-- Comparing the other way round gives the opposite. -/
theorem compare_swap (a b : UnpackedFloat) : b.compare a = (a.compare b).map Ordering.swap := by
  cases a with
  | notANumber => cases b <;> rfl
  | infinity s =>
    cases b with
    | infinity t => cases s <;> cases t <;> rfl
    | _ => cases s <;> rfl
  | zero s =>
    cases b with
    | infinity t => cases t <;> rfl
    | finite t => cases t <;> rfl
    | _ => rfl
  | finite s m e =>
    cases b with
    | infinity t => cases s <;> cases t <;> rfl
    | finite t n f =>
      -- Of two numbers of one sign, the exponents and then the mantissas are compared.
      cases s with
      | negative =>
        cases t with
        | negative => exact congrArg (some ·.swap) (swap_compare_finite e f m n).symm
        | positive => rfl
      | positive =>
        cases t with
        | negative => rfl
        | positive => exact congrArg some (swap_compare_finite e f m n).symm
    | _ => cases s <;> rfl

/-- Two doubles that can be compared with something can be compared with each other. -/
theorem compare_ne_none {a b c d : UnpackedFloat} (ha : a.compare c ≠ none)
    (hb : b.compare d ≠ none) : a.compare b ≠ none := by
  cases a with
  | notANumber => exact absurd rfl ha
  | infinity s =>
    cases b with
    | notANumber => exact absurd rfl hb
    | _ => cases s <;> nofun
  | zero s =>
    cases b with
    | notANumber => exact absurd rfl hb
    | infinity t => cases t <;> nofun
    | zero t => nofun
    | finite t => cases t <;> nofun
  | finite s =>
    cases b with
    | notANumber => exact absurd rfl hb
    | infinity t => cases s <;> cases t <;> nofun
    | zero t => cases s <;> nofun
    | finite t => cases s <;> cases t <;> nofun

/-! ## Bounds -/

variable {x y a b : Float}

theorem lt_iff : x < y ↔ x.toModel.unpack.compare y.toModel.unpack = some .lt := by
  have hlt : x < y ↔ decide ((x.toModel.unpack.compare y.toModel.unpack == some .lt) = true) =
    true := Iff.rfl
  rw [hlt, decide_eq_true_iff, beq_iff_eq]

theorem le_iff : x ≤ y ↔ (x.toModel.unpack.compare y.toModel.unpack).any (·.isLE) = true := by
  have hle : x ≤ y ↔ decide ((x.toModel.unpack.compare y.toModel.unpack).any (·.isLE) = true) =
    true := Iff.rfl
  rw [hle, decide_eq_true_iff]

/-- A strict bound is a bound. -/
theorem le_of_lt (h : x < y) : x ≤ y := by
  rw [le_iff, lt_iff.1 h]
  rfl

theorem not_lt_of_le (h : a ≤ x) : ¬ x < a := by
  rw [le_iff] at h
  rw [lt_iff, compare_swap a.toModel.unpack]
  intro hlt
  obtain ⟨o, ho, hswap⟩ := Option.map_eq_some_iff.1 hlt
  obtain rfl : o = .gt := Ordering.swap_eq_lt.1 hswap
  rw [ho] at h
  cases h

/-- What is not below a bound is at least that bound, if each can be compared with something. -/
theorem le_of_not_lt (ha : a ≤ a) (hx : x ≤ b) (h : ¬ x < a) : a ≤ x := by
  have hcompared : ∀ {u v : Float}, u ≤ v → u.toModel.unpack.compare v.toModel.unpack ≠ none := by
    intro u v hle hnone
    rw [le_iff, hnone] at hle
    cases hle
  have hsome := compare_ne_none (hcompared ha) (hcompared hx)
  rw [lt_iff, compare_swap a.toModel.unpack] at h
  rw [le_iff]
  cases ho : a.toModel.unpack.compare x.toModel.unpack with
  | none => exact absurd ho hsome
  | some o =>
    rw [ho] at h
    cases o with
    | lt => rfl
    | eq => rfl
    | gt => exact absurd rfl h

end BlockSafe.Real
