import BlockSafe.Proofs.Rule.Constructs
import BlockSafe.Proofs.Verdict.HiddenLiterals
import BlockSafe.Proofs.Verdict.Reports

/-!
# Operators on bits

A bar or an ampersand is an operator on bits where it stands alone, and a logical operator where it
is doubled.  A lone sign that an equals sign follows is part of a compound assignment, which has a
rule of its own.  So the two rules together see a run of signs (`Run`) iff it has length one:

    LoneSign sign s  ↔  ∃ v, Run sign 1 v s ∧ v.head? ≠ some '='         (loneSign_iff_run)

An accepted program has only longer runs, and runs of length two with no equals sign behind them are
never reported (`bitwise_signs_reported`).
-/

namespace BlockSafe

open Pattern Text

/-! ## Runs -/

/-- The signs that are an operator on bits alone, and a logical operator doubled. -/
def logicalSigns : Text := ['|', '&']

/-- The sign stands in the text with neither another before it nor another or an equals sign behind
it. -/
def LoneSign (sign : Char) (s : Text) : Prop :=
  ∃ u v, s = u ++ sign :: v ∧ u.getLast? ≠ some sign ∧ v.head? ≠ some sign ∧ v.head? ≠ some '='

/-- A run of `n` signs, with no other before it or behind it, stands in the text in front of `v`. -/
def Run (sign : Char) (n : Nat) (v s : Text) : Prop :=
  0 < n ∧ ∃ u, s = u ++ (List.replicate n sign ++ v) ∧ u.getLast? ≠ some sign ∧
    v.head? ≠ some sign

variable {sign : Char} {n : Nat} {u v s code : Text} {target : Target}

theorem loneSign_iff_run : LoneSign sign s ↔ ∃ v, Run sign 1 v s ∧ v.head? ≠ some '=' := by
  constructor
  · rintro ⟨u, v, hs, hlast, hnext, hequals⟩
    exact ⟨v, ⟨Nat.one_pos, u, hs, hlast, hnext⟩, hequals⟩
  · rintro ⟨v, ⟨-, u, hs, hlast, hnext⟩, hequals⟩
    exact ⟨u, v, hs, hlast, hnext, hequals⟩

/-- A sign with no other behind it ends a run. -/
theorem exists_run (u : Text) (hnext : v.head? ≠ some sign) :
    ∃ n, Run sign n v (u ++ sign :: v) := by
  have hfront : u.rtakeWhile (· == sign) =
      List.replicate (u.rtakeWhile (· == sign)).length sign :=
    List.eq_replicate_of_mem fun c hc => by simpa using List.mem_rtakeWhile_imp hc
  refine ⟨(u.rtakeWhile (· == sign)).length + 1, Nat.succ_pos _, u.rdropWhile (· == sign), ?_, ?_,
    hnext⟩
  · rw [List.replicate_succ', ← hfront, List.append_assoc, ← List.append_assoc,
      List.rdropWhile_append_rtakeWhile]
    rfl
  · intro hlast
    obtain ⟨hne, hsign⟩ := List.mem_getLast?_eq_getLast hlast
    exact List.rdropWhile_last_not _ _ hne (beq_iff_eq.2 hsign.symm)

/-! ## Rules -/

theorem occurs_bitwise (s : Text) : bitwisePattern.occurs s = true ↔
    "<<".toList <:+: s ∨ ">>".toList <:+: s ∨ '^' ∈ s ∨ ∃ sign ∈ logicalSigns, LoneSign sign s := by
  have hbar : (loneSign '|').occurs s = true ↔ LoneSign '|' s := occurs_loneSign (by decide) s
  have hampersand : (loneSign '&').occurs s = true ↔ LoneSign '&' s :=
    occurs_loneSign (by decide) s
  have hcaret : "^".toList <:+: s ↔ '^' ∈ s := List.singleton_infix_iff '^' s
  simp only [bitwisePattern, occurs_anyOf, List.mem_cons, List.not_mem_nil, or_false,
    exists_eq_or_imp, exists_eq_left, occurs_lit, hbar, hampersand, hcaret, logicalSigns]

theorem occurs_compound (s : Text) :
    (anyOf (compoundOperators.map lit)).occurs s = true ↔ ∃ op ∈ compoundOperators, op <:+: s := by
  simp only [occurs_anyOf, List.mem_map, exists_exists_and_eq_and, occurs_lit]

/-- The rule on compound assignments. -/
def compoundRule : ConstructRule := ⟨anyOf (compoundOperators.map lit), .compoundAssignments⟩

theorem compoundRule_mem : compoundRule ∈ syntaxRules := by
  simp only [syntaxRules, compoundRule, List.mem_cons, true_or, or_true]

/-- Either sign is an operator of a compound assignment as well. -/
theorem compound_of_logical : ∀ sign ∈ logicalSigns, [sign, '='] ∈ compoundOperators := by
  decide

/-- Each compound assignment either has neither sign or is a single sign in front of an equals
sign. -/
theorem logical_of_compound : ∀ op ∈ compoundOperators,
    (∀ sign ∈ logicalSigns, sign ∉ op) ∨ op ∈ logicalSigns.map fun sign => [sign, '='] := by
  decide

/-! ## Reports -/

/-- A run of length one is refused by one of the two rules. -/
theorem refused_of_single (hsign : sign ∈ logicalSigns) (h : Run sign 1 v code) :
    (validate code target).compliant = false := by
  by_cases hequals : v.head? = some '='
  · obtain ⟨rest, rfl⟩ := List.head?_eq_some_iff.1 hequals
    obtain ⟨-, u, hcode, -⟩ := h
    have hinfix : [sign, '='] <:+: code := ⟨u, rest, by rw [hcode]; simp⟩
    exact refused_of_construct compoundRule_mem
      ((occurs_compound code).2 ⟨_, compound_of_logical sign hsign, hinfix⟩) target
  · have hlone : LoneSign sign code := loneSign_iff_run.2 ⟨v, h, hequals⟩
    have hoccurs := (occurs_bitwise code).2 (.inr (.inr (.inr ⟨sign, hsign, hlone⟩)))
    exact refused_of_report (bitwise_reported.2 hoccurs)

/-- Where the runs of a sign are doubled, none is lone and none belongs to an assignment. -/
theorem not_assigned (h : ∀ n v, Run sign n v code → n = 2 ∧ v.head? ≠ some '=')
    (hsign : sign ≠ '=') : ¬ LoneSign sign code ∧ ¬ [sign, '='] <:+: code := by
  constructor
  · intro hlone
    obtain ⟨v, hrun, -⟩ := loneSign_iff_run.1 hlone
    exact absurd (h 1 v hrun).1 (by decide)
  · rintro ⟨u, v, rfl⟩
    have hnext : ('=' :: v).head? ≠ some sign := fun h => hsign (Option.some.inj h).symm
    obtain ⟨n, hrun⟩ := exists_run u hnext
    rw [List.append_assoc] at h
    exact (h n _ hrun).2 rfl

/-- **Operators on bits.**  They are reported iff a shift, a caret or a lone sign stands in the
program.  An accepted program has no run of signs of length one.  Of a program with no runs but
doubled signs that no equals sign follows, none is reported: what the two rules report there are
other operators. -/
theorem bitwise_signs_reported (code : Text) (target : Target) :
    (target.profile.foreign.occurs code = false →
      (Violation.bitwiseOperators.tag ∈ (validate code target).violations ↔
        "<<".toList <:+: code ∨ ">>".toList <:+: code ∨ '^' ∈ code ∨
          ∃ sign ∈ logicalSigns, LoneSign sign code)) ∧
    ((validate code target).compliant = true →
      ∀ sign ∈ logicalSigns, ∀ n v, Run sign n v code → 2 ≤ n) ∧
    ((∀ sign ∈ logicalSigns, ∀ n v, Run sign n v code → n = 2 ∧ v.head? ≠ some '=') →
      (Violation.bitwiseOperators.tag ∈ (validate code target).violations →
        "<<".toList <:+: code ∨ ">>".toList <:+: code ∨ '^' ∈ code) ∧
      (Violation.compoundAssignments.tag ∈ (validate code target).violations →
        ∃ op ∈ compoundOperators, (∀ sign ∈ logicalSigns, sign ∉ op) ∧ op <:+: code)) := by
  have hbitwise : .bitwiseOperators ∈ Phase.bitwise.fixed := List.mem_singleton.2 rfl
  have hcompound : .compoundAssignments ∈ Phase.constructs.fixed :=
    List.mem_map_of_mem compoundRule_mem
  refine ⟨?exact, ?single, ?doubled⟩
  case exact =>
    intro hforeign
    rw [mem_violations_iff hforeign hbitwise, bitwise_reported, occurs_bitwise]
  case single =>
    intro hcompliant sign hsign n v hrun
    by_contra hlt
    obtain rfl : n = 1 := by
      have := hrun.1
      omega
    rw [refused_of_single hsign hrun] at hcompliant
    cases hcompliant
  case doubled =>
    intro hruns
    have hsigns : ∀ sign ∈ logicalSigns, ¬ LoneSign sign code ∧ ¬ [sign, '='] <:+: code := by
      intro sign hsign
      refine not_assigned (hruns sign hsign) ?_
      rintro rfl
      exact absurd hsign (by decide)
    constructor
    · intro h
      have hoccurs := bitwise_reported.1 (report_of_mem_violations hbitwise h)
      rcases (occurs_bitwise code).1 hoccurs with h | h | h | ⟨sign, hsign, hlone⟩
      · exact .inl h
      · exact .inr (.inl h)
      · exact .inr (.inr h)
      · exact absurd hlone (hsigns sign hsign).1
    · intro h
      have hoccurs := (construct_reported compoundRule_mem).1 (report_of_mem_violations hcompound h)
      obtain ⟨op, hop, hinfix⟩ := (occurs_compound code).1 hoccurs
      refine ⟨op, hop, (logical_of_compound op hop).resolve_right ?_, hinfix⟩
      intro hop
      obtain ⟨sign, hsign, rfl⟩ := List.mem_map.1 hop
      exact (hsigns sign hsign).2 hinfix

/-- Doubled signs are no operators on bits, a lone one is. -/
example : bitwisePattern.occurs "a || b && c" = false ∧ bitwisePattern.occurs "a | b" = true := by
  decide

end BlockSafe
