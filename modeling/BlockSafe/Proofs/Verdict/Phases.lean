import BlockSafe.Proofs.Rule.Sites
import BlockSafe.Proofs.Text.Distinct
import BlockSafe.Proofs.Text.Ends
import BlockSafe.Proofs.Verdict
import Mathlib.Data.List.Infix

/-!
# The phases of an inspection

An inspection that is not cut short runs nine phases, in a fixed order (`inspect_eq`).  The tags of
two of them are made from the program and known by their form, those of the others are fixed texts,
so a tag alone tells which phase reports it (`Phase.ofTag?_tag`).  Two phases never report the same
tag, and the verdict lists the phases one after the other, each reduced to its first occurrences
(`verdict_shape`).
-/

namespace BlockSafe

open Text

/-! ## Forms of tags -/

/-- Whether a tag reads `invalid enum member …`. -/
def isMemberTag (tag : Text) : Bool := (after? "invalid enum member " tag).isSome

/-- Whether a tag reads `… arity (expected …, got …)`. -/
def isArityTag (tag : Text) : Bool :=
  tag.tails.any fun rest => (after? " arity (expected " rest).any fun numbers =>
    numbers.tails.any fun rest => (after? ", got " rest).any fun got => got.getLast? == some ')'

theorem isMemberTag_iff {tag : Text} : isMemberTag tag = true ↔
    ∃ reference, tag = "invalid enum member ".toList ++ reference := by
  simp only [isMemberTag, Option.isSome_iff_exists, after?_eq_some]

theorem isArityTag_iff {tag : Text} : isArityTag tag = true ↔ ∃ call expected got,
    tag = call ++ (" arity (expected ".toList ++ (expected ++ (", got ".toList ++ (got ++ [')'])))) := by
  have closed : ∀ got : Text, got.getLast? = some ')' ↔ ∃ number, got = number ++ [')'] := by
    intro got
    rw [List.getLast?_eq_some_iff]
  simp only [isArityTag, List.any_eq_true, Option.any_eq_true, List.mem_tails, beq_iff_eq,
    after?_eq_some, closed]
  constructor
  · rintro ⟨rest, ⟨call, rfl⟩, numbers, rfl, rest, ⟨expected, rfl⟩, got, rfl, number, rfl⟩
    exact ⟨call, expected, number, rfl⟩
  · rintro ⟨call, expected, number, rfl⟩
    exact ⟨_, ⟨call, rfl⟩, _, rfl, _, ⟨expected, rfl⟩, _, rfl, number, rfl⟩

theorem tag_unknownMember (enumName member : Text) :
    (Violation.unknownMember enumName member).tag =
      "invalid enum member ".toList ++ (enumName ++ '.' :: member) := by
  rw [← List.append_assoc]
  rfl

theorem tag_arity (call : Text) (least most got : Nat) :
    (Violation.arity call least most got).tag =
      call ++ (" arity (expected ".toList ++ (Violation.expectedArguments least most ++
        (", got ".toList ++ (Text.ofNat got ++ [')'])))) := by
  simp only [← List.append_assoc]
  rfl

theorem isMemberTag_member (enumName member : Text) :
    isMemberTag (Violation.unknownMember enumName member).tag = true :=
  isMemberTag_iff.2 ⟨_, tag_unknownMember _ _⟩

theorem isArityTag_arity (call : Text) (least most got : Nat) :
    isArityTag (Violation.arity call least most got).tag = true :=
  isArityTag_iff.2 ⟨_, _, _, tag_arity _ _ _ _⟩

/-- No known call is named like the start of the other form: a name holds a point and no space. -/
theorem isMemberTag_arity {signature : Microbit.Signature} (h : signature ∈ Microbit.signatures)
    (least most got : Nat) :
    isMemberTag (Violation.arity signature.call least most got).tag = false := by
  obtain ⟨-, hparts, hpoint⟩ := names_signatures.1 signature h
  rw [Bool.eq_false_iff, Ne, isMemberTag_iff]
  rintro ⟨reference, htag⟩
  rcases List.prefix_or_prefix_of_prefix ⟨_, (tag_arity _ _ _ _).symm⟩ ⟨reference, htag.symm⟩
    with hstart | hstart
  · exact absurd (hstart.subset hpoint) (by decide)
  · have hspace : ' ' ∈ signature.call := hstart.subset (by decide)
    exact absurd (List.all_eq_true.1 hparts _ hspace) (by decide)

/-! ## Phases -/

/-- The phases of an inspection. -/
inductive Phase where
  /-- The constructs that are looked for in the program as it stands. -/
  | constructs
  /-- The literals that are looked for outside of strings. -/
  | literals
  | bitwise
  | forIn
  | forLoops
  | lines
  | members
  | calls
  | ascii
deriving DecidableEq

namespace Phase

/-- All phases, in the order of the report. -/
def all : List Phase :=
  [constructs, literals, bitwise, forIn, forLoops, lines, members, calls, ascii]

theorem mem_all (phase : Phase) : phase ∈ all := by cases phase <;> decide

/-- What a phase reports on a program, as often as it finds it. -/
def report (code : Text) (target : Target) : Phase → List Violation
  | constructs => occurringRules syntaxRules code
  | literals => occurringRules literalRules (blankStrings code)
  | bitwise => if bitwisePattern.occurs code then [.bitwiseOperators] else []
  | forIn => if forInPattern.occurs code then [.forIn] else []
  | forLoops => checkForLoops code
  | lines => checkLines code
  | members => if target = .microbit then checkMembers (blankNonCode code) else []
  | calls => if target = .microbit then checkCalls (blankNonCode code) else []
  | ascii => asciiPhase code

/-- The tags that a phase reports on a program. -/
def tags (phase : Phase) (code : Text) (target : Target) : List Text :=
  (phase.report code target).map Violation.tag

/-- The violations of a phase whose tags are fixed texts. -/
def fixed : Phase → List Violation
  | constructs => syntaxRules.map (·.violation)
  | literals => literalRules.map (·.violation)
  | bitwise => [.bitwiseOperators]
  | forIn => [.forIn]
  | forLoops => [.forShape, .forInitializer, .forCondition, .forIncrement]
  | lines => [.nestedRegistration, .nestedFunction, .defaultParameters, .missingInitializer]
  | members => []
  | calls => []
  | ascii => [.nonAscii]

/-- The phase that reports a tag. -/
def ofTag? (tag : Text) : Option Phase :=
  if isMemberTag tag then some members
  else if isArityTag tag then some calls
  else all.find? fun phase => (phase.fixed.map Violation.tag).contains tag

end Phase

/-- An inspection that is not cut short is its phases, one after the other. -/
theorem inspect_eq {code : Text} {target : Target}
    (h : target.profile.foreign.occurs code = false) :
    inspect code target = Phase.all.flatMap (Phase.report code target) := by
  have hmicrobit : (if target = .microbit then microbitPhases code else []) =
      Phase.members.report code target ++ Phase.calls.report code target := by
    unfold Phase.report microbitPhases
    split <;> rfl
  unfold inspect
  rw [h, if_neg Bool.false_ne_true, hmicrobit]
  simp only [commonPhases, Phase.all, List.flatMap_cons, List.flatMap_nil, List.append_nil,
    List.append_assoc]
  rfl

/-! ## What each phase reports -/

theorem mem_occurringRules {rules : List ConstructRule} {rule : ConstructRule} {s : Text}
    (hrule : rule ∈ rules) (h : rule.pattern.occurs s = true) :
    rule.violation ∈ occurringRules rules s :=
  List.mem_map_of_mem (List.mem_filter.2 ⟨hrule, h⟩)

theorem occurringRules_subset {rules : List ConstructRule} {s : Text} {v : Violation}
    (h : v ∈ occurringRules rules s) : v ∈ rules.map (·.violation) :=
  ((List.filter_sublist (l := rules)).map _).mem h

theorem checkForClauses_fixed {a b c : Text} {v : Violation} (h : v ∈ checkForClauses a b c) :
    v ∈ Phase.forLoops.fixed := by
  unfold checkForClauses at h
  split at h
  · rw [List.mem_singleton.1 h]
    decide
  · rcases List.mem_append.1 h with h | h
    · split at h
      · cases h
      · rw [List.mem_singleton.1 h]
        decide
    · split at h
      · cases h
      · rw [List.mem_singleton.1 h]
        decide

theorem checkForLoops_fixed {code : Text} {v : Violation} (h : v ∈ checkForLoops code) :
    v ∈ Phase.forLoops.fixed := by
  obtain ⟨header, -, h⟩ := List.mem_flatMap.1 h
  unfold checkForHeader at h
  split at h
  · cases h
  · split at h
    · exact checkForClauses_fixed h
    · rw [List.mem_singleton.1 h]
      decide

theorem checkLine_fixed {nested : Bool} {line : Text} {v : Violation}
    (h : v ∈ checkLine nested line) : v ∈ Phase.lines.fixed := by
  have hone : ∀ {p : Prop} [Decidable p] {w : Violation}, w ∈ Phase.lines.fixed →
      v ∈ (if p then [w] else []) → v ∈ Phase.lines.fixed := by
    intro p _ w hw h
    split at h
    · rwa [List.mem_singleton.1 h]
    · cases h
  unfold checkLine at h
  rcases List.mem_append.1 h with h | h
  · rcases List.mem_append.1 h with h | h
    · exact hone (by decide) h
    · split at h
      · rcases List.mem_append.1 h with h | h
        · exact hone (by decide) h
        · exact hone (by decide) h
      · cases h
  · exact hone (by decide) h

theorem checkLinesFrom_fixed {depth : Nat} {lines : List Text} {v : Violation}
    (h : v ∈ checkLinesFrom depth lines) : v ∈ Phase.lines.fixed := by
  induction lines generalizing depth with
  | nil => cases h
  | cons line rest ih =>
    rcases List.mem_append.1 h with h | h
    · exact checkLine_fixed h
    · exact ih h

theorem checkMembers_eq {s : Text} {v : Violation} (h : v ∈ checkMembers s) :
    ∃ enumName member, (enumName, member) ∈ enumReferences s ∧
      v = .unknownMember enumName member := by
  obtain ⟨⟨enumName, member⟩, hreference, h⟩ := List.mem_filterMap.1 h
  refine ⟨enumName, member, hreference, ?_⟩
  unfold checkReference at h
  simp only at h
  split at h
  · split at h
    · cases h
    · exact (Option.some.inj h).symm
  · cases h

theorem checkCalls_eq {s : Text} {v : Violation} (h : v ∈ checkCalls s) :
    ∃ signature ∈ Microbit.signatures, ∃ got,
      v = .arity signature.call signature.least signature.most got := by
  obtain ⟨signature, hmem, h⟩ := List.mem_flatMap.1 h
  obtain ⟨args, -, h⟩ := List.mem_filterMap.1 h
  refine ⟨signature, hmem, countArguments args, ?_⟩
  unfold Microbit.Signature.check at h
  split at h
  · exact (Option.some.inj h).symm
  · cases h

namespace Phase

theorem report_fixed {phase : Phase} {code : Text} {target : Target} {v : Violation}
    (hmembers : phase ≠ members) (hcalls : phase ≠ calls) (h : v ∈ phase.report code target) :
    v ∈ phase.fixed := by
  cases phase with
  | constructs => exact occurringRules_subset h
  | literals => exact occurringRules_subset h
  | bitwise =>
    simp only [report] at h
    split at h
    · exact h
    · cases h
  | forIn =>
    simp only [report] at h
    split at h
    · exact h
    · cases h
  | forLoops => exact checkForLoops_fixed h
  | lines => exact checkLinesFrom_fixed h
  | members => exact absurd rfl hmembers
  | calls => exact absurd rfl hcalls
  | ascii =>
    simp only [report, asciiPhase] at h
    split at h
    · cases h
    · exact h

/-- The fixed texts, decided in one pass over them: no phase has one twice, and each tells its
phase. -/
theorem fixed_told : ∀ phase ∈ all, (phase.fixed.map Violation.tag).Nodup ∧
    ∀ v ∈ phase.fixed, ofTag? v.tag = some phase := by
  decide +kernel

theorem ofTag?_fixed : ∀ phase ∈ all, ∀ v ∈ phase.fixed, ofTag? v.tag = some phase :=
  fun phase hphase => (fixed_told phase hphase).2

/-- A tag tells which phase reports it, whatever the program. -/
theorem ofTag?_tag {phase : Phase} {code : Text} {target : Target} {tag : Text}
    (h : tag ∈ phase.tags code target) : ofTag? tag = some phase := by
  obtain ⟨v, hv, rfl⟩ := List.mem_map.1 h
  by_cases hmembers : phase = members
  · subst hmembers
    simp only [report] at hv
    split at hv
    · obtain ⟨enumName, member, -, rfl⟩ := checkMembers_eq hv
      rw [ofTag?, if_pos (isMemberTag_member _ _)]
    · cases hv
  by_cases hcalls : phase = calls
  · subst hcalls
    simp only [report] at hv
    split at hv
    · obtain ⟨signature, hmem, got, rfl⟩ := checkCalls_eq hv
      rw [ofTag?, isMemberTag_arity hmem, if_neg Bool.false_ne_true,
        if_pos (isArityTag_arity _ _ _ _)]
    · cases hv
  exact ofTag?_fixed phase (mem_all phase) v (report_fixed hmembers hcalls hv)

theorem disjoint_tags {p q : Phase} (h : p ≠ q) (code : Text) (target : Target) :
    (p.tags code target).Disjoint (q.tags code target) := by
  intro tag hp hq
  have hphase := (ofTag?_tag hp).symm.trans (ofTag?_tag hq)
  exact h (Option.some.inj hphase)

end Phase

/-! ## The verdict -/

theorem validate_foreign {code : Text} {target : Target}
    (h : target.profile.foreign.occurs code = true) :
    validate code target = ⟨false, [target.profile.foreignViolation.tag]⟩ := by
  unfold validate inspect
  rw [if_pos h]
  rfl

theorem violations_eq {code : Text} {target : Target}
    (h : target.profile.foreign.occurs code = false) :
    (validate code target).violations =
      distinct (Phase.all.flatMap fun phase => phase.tags code target) := by
  unfold validate Verdict.ofTags
  rw [inspect_eq h, List.map_flatMap]
  rfl

/-- A program on which some phase reports something is refused. -/
theorem refused_of_report {phase : Phase} {code : Text} {target : Target} {v : Violation}
    (h : v ∈ phase.report code target) : (validate code target).compliant = false := by
  cases hforeign : target.profile.foreign.occurs code with
  | true => rw [validate_foreign hforeign]
  | false =>
    have hmem : v.tag ∈ (validate code target).violations := by
      rw [violations_eq hforeign, mem_distinct]
      exact List.mem_flatMap.2 ⟨phase, phase.mem_all, List.mem_map_of_mem h⟩
    rw [Bool.eq_false_iff, Ne, compliant_iff]
    exact List.ne_nil_of_mem hmem

/-- **What a verdict lists.**  A verdict is compliant iff it lists nothing, and no tag is listed
twice.  On a program with a foreign token it has one entry.  On any other it lists what some phase
reported, by first occurrence, which is phase by phase in their fixed order, whatever the program;
the constructs and the literals stand in the order of their tables. -/
theorem verdict_shape (code : Text) (target : Target) :
    let verdict := validate code target
    let reported := Phase.all.flatMap fun phase => phase.tags code target
    (verdict.compliant = true ↔ verdict.violations = []) ∧
    verdict.violations.Nodup ∧
    (target.profile.foreign.occurs code = true →
      verdict.violations = [target.profile.foreignViolation.tag]) ∧
    (target.profile.foreign.occurs code = false →
      (∀ tag, tag ∈ verdict.violations ↔ ∃ phase : Phase, tag ∈ phase.tags code target) ∧
      verdict.violations.Pairwise (fun a b => reported.idxOf a < reported.idxOf b) ∧
      verdict.violations = (Phase.all.flatMap fun phase => distinct (phase.tags code target)) ∧
      (Phase.constructs.tags code target).Sublist (syntaxRules.map (·.violation.tag)) ∧
      (Phase.literals.tags code target).Sublist (literalRules.map (·.violation.tag))) := by
  intro verdict reported
  have htable : ∀ (rules : List ConstructRule) (s : Text),
      ((occurringRules rules s).map Violation.tag).Sublist (rules.map (·.violation.tag)) := by
    intro rules s
    unfold occurringRules
    rw [List.map_map]
    exact List.filter_sublist.map _
  refine ⟨compliant_iff code target, nodup_distinct _, ?_, ?_⟩
  · intro hforeign
    exact congrArg Verdict.violations (validate_foreign hforeign)
  · intro hforeign
    have hlist : verdict.violations = distinct reported := violations_eq hforeign
    have hdisjoint : Phase.all.Pairwise fun p q =>
        (p.tags code target).Disjoint (q.tags code target) :=
      (by decide : Phase.all.Pairwise (· ≠ ·)).imp fun h => Phase.disjoint_tags h code target
    refine ⟨fun tag => ?_, ?_, ?_, htable _ _, htable _ _⟩
    · rw [hlist, mem_distinct, List.mem_flatMap]
      exact exists_congr fun phase => and_iff_right (Phase.mem_all phase)
    · rw [hlist]
      exact distinct_order reported
    · rw [hlist]
      exact distinct_flatMap hdisjoint

end BlockSafe
