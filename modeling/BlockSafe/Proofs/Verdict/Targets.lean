import BlockSafe.Proofs.Verdict.Phases

/-!
# The same program for several targets

Micro:bit and Maker refuse the same foreign tokens, and micro:bit has two phases of its own.  So on
every other program the verdict for Maker is the verdict for micro:bit without the tags of these two
phases, and it is the verdict for Arcade wherever that one is not cut short (`target_verdicts`).
-/

namespace BlockSafe

/-- Whether a tag is of the two forms that are reported for micro:bit alone. -/
def isMicrobitTag (tag : Text) : Bool := isMemberTag tag || isArityTag tag

namespace Phase

/-- A tag of another phase is of neither form. -/
theorem isMicrobitTag_eq_false {phase : Phase} {code : Text} {target : Target} {tag : Text}
    (hmembers : phase ≠ members) (hcalls : phase ≠ calls) (h : tag ∈ phase.tags code target) :
    isMicrobitTag tag = false := by
  have hphase := ofTag?_tag h
  unfold ofTag? at hphase
  unfold isMicrobitTag
  split at hphase
  · exact absurd (Option.some.inj hphase).symm hmembers
  · next hmember =>
    split at hphase
    · exact absurd (Option.some.inj hphase).symm hcalls
    · next harity => rw [Bool.eq_false_iff.2 hmember, Bool.eq_false_iff.2 harity, Bool.or_false]

/-- The tags of the two phases are all that micro:bit adds to a phase of Maker. -/
theorem filter_tags (phase : Phase) (code : Text) :
    (phase.tags code .microbit).filter (!isMicrobitTag ·) = phase.tags code .maker := by
  by_cases hmembers : phase = members
  · subst hmembers
    refine List.filter_eq_nil_iff.2 fun tag h => ?_
    obtain ⟨v, hv, rfl⟩ := List.mem_map.1 h
    obtain ⟨enumName, member, -, rfl⟩ := checkMembers_eq hv
    simp [isMicrobitTag, isMemberTag_member]
  by_cases hcalls : phase = calls
  · subst hcalls
    refine List.filter_eq_nil_iff.2 fun tag h => ?_
    obtain ⟨v, hv, rfl⟩ := List.mem_map.1 h
    obtain ⟨signature, -, got, rfl⟩ := checkCalls_eq hv
    simp [isMicrobitTag, isArityTag_arity]
  have hsame : phase.tags code .microbit = phase.tags code .maker := by
    cases phase with
    | members => exact absurd rfl hmembers
    | calls => exact absurd rfl hcalls
    | _ => rfl
  rw [hsame]
  refine List.filter_eq_self.2 fun tag h => ?_
  rw [isMicrobitTag_eq_false hmembers hcalls h]
  rfl

end Phase

/-- **Agreement of the targets.**  Micro:bit and Maker cut the same programs short, with the same
verdict.  On any other the verdict for Maker is the one for micro:bit without the tags on members
and calls, in the same order, so what is compliant for micro:bit is compliant for Maker.  Where
neither Maker nor Arcade cuts a program short, they agree. -/
theorem target_verdicts (code : Text) :
    Target.microbit.profile.foreign.occurs code = Target.maker.profile.foreign.occurs code ∧
    (Target.maker.profile.foreign.occurs code = true →
      validate code .microbit = ⟨false, [Violation.arcadeApis.tag]⟩ ∧
      validate code .maker = ⟨false, [Violation.arcadeApis.tag]⟩) ∧
    (Target.maker.profile.foreign.occurs code = false →
      (validate code .maker).violations =
        (validate code .microbit).violations.filter (!isMicrobitTag ·)) ∧
    ((validate code .microbit).compliant = true → (validate code .maker).compliant = true) ∧
    (Target.maker.profile.foreign.occurs code = false →
      Target.arcade.profile.foreign.occurs code = false →
      validate code .maker = validate code .arcade) := by
  have hfilter : Target.maker.profile.foreign.occurs code = false →
      (validate code .maker).violations =
        (validate code .microbit).violations.filter (!isMicrobitTag ·) := by
    intro hforeign
    have hmicrobit : Target.microbit.profile.foreign.occurs code = false := hforeign
    rw [violations_eq hforeign, violations_eq hmicrobit, ← distinct_filter, List.filter_flatMap]
    simp only [Phase.filter_tags]
  refine ⟨rfl, fun hforeign => ⟨?_, ?_⟩, hfilter, ?_, ?_⟩
  · exact @validate_foreign code .microbit hforeign
  · exact validate_foreign hforeign
  · intro hcompliant
    have hempty := (compliant_iff code .microbit).1 hcompliant
    have hforeign : Target.maker.profile.foreign.occurs code = false := by
      rw [Bool.eq_false_iff]
      intro h
      rw [@validate_foreign code .microbit h] at hempty
      cases hempty
    rw [compliant_iff, hfilter hforeign, hempty]
    rfl
  · intro hmaker harcade
    unfold validate inspect
    rw [hmaker, harcade]
    rfl

end BlockSafe
