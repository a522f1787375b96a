import BlockSafe.Proofs.Verdict.ForeignTokens

/-!
# Reports of single rules

A tag that is a fixed text belongs to one violation of one phase.  So a verdict lists it only if
that phase reports the violation (`report_of_mem_violations`), and an inspection that is not cut
short lists it then (`mem_violations_iff`).  For a construct this is so iff its pattern occurs
(`construct_reported`), and the same holds of the operators on bits (`bitwise_reported`).
-/

namespace BlockSafe

variable {code : Text} {target : Target} {phase : Phase} {v : Violation}

/-- Within a phase a fixed tag belongs to one violation. -/
theorem Phase.tag_inj {v w : Violation} (hv : v ∈ phase.fixed) (hw : w ∈ phase.fixed)
    (h : w.tag = v.tag) : w = v :=
  List.inj_on_of_nodup_map (Phase.fixed_told phase phase.mem_all).1 hw hv h

theorem report_of_mem_violations (hv : v ∈ phase.fixed)
    (h : v.tag ∈ (validate code target).violations) : v ∈ phase.report code target := by
  have hphase := Phase.ofTag?_fixed phase phase.mem_all v hv
  cases hforeign : target.profile.foreign.occurs code with
  | true =>
    rw [validate_foreign hforeign, List.mem_singleton] at h
    rw [h, ofTag?_foreign] at hphase
    cases hphase
  | false =>
    rw [violations_eq hforeign, mem_distinct] at h
    obtain ⟨other, -, htag⟩ := List.mem_flatMap.1 h
    obtain rfl : phase = other := Option.some.inj (hphase.symm.trans (Phase.ofTag?_tag htag))
    obtain ⟨w, hw, hequal⟩ := List.mem_map.1 htag
    have hmembers : phase ≠ .members := by
      rintro rfl
      cases hv
    have hcalls : phase ≠ .calls := by
      rintro rfl
      cases hv
    have hfixed := Phase.report_fixed hmembers hcalls hw
    rwa [Phase.tag_inj hv hfixed hequal] at hw

/-- An inspection that is not cut short lists a fixed tag iff the phase of its violation reports
it. -/
theorem mem_violations_iff (hforeign : target.profile.foreign.occurs code = false)
    (hv : v ∈ phase.fixed) :
    v.tag ∈ (validate code target).violations ↔ v ∈ phase.report code target := by
  refine ⟨report_of_mem_violations hv, fun hreport => ?_⟩
  rw [violations_eq hforeign, mem_distinct]
  exact List.mem_flatMap.2 ⟨phase, phase.mem_all, List.mem_map_of_mem hreport⟩

/-! ## Constructs -/

/-- Each construct has one row in its table. -/
theorem nodup_syntaxRules : (syntaxRules.map (·.violation)).Nodup := by
  decide

theorem mem_occurringRules_iff {rules : List ConstructRule} {rule : ConstructRule} {s : Text}
    (hnodup : (rules.map (·.violation)).Nodup) (hrule : rule ∈ rules) :
    rule.violation ∈ occurringRules rules s ↔ rule.pattern.occurs s = true := by
  refine ⟨fun h => ?_, mem_occurringRules hrule⟩
  obtain ⟨other, hother, hequal⟩ := List.mem_map.1 h
  obtain ⟨hmem, hoccurs⟩ := List.mem_filter.1 hother
  rwa [List.inj_on_of_nodup_map hnodup hmem hrule hequal] at hoccurs

theorem construct_reported {rule : ConstructRule} (hrule : rule ∈ syntaxRules) :
    rule.violation ∈ Phase.constructs.report code target ↔ rule.pattern.occurs code = true :=
  mem_occurringRules_iff nodup_syntaxRules hrule

theorem bitwise_reported : .bitwiseOperators ∈ Phase.bitwise.report code target ↔
    bitwisePattern.occurs code = true := by
  simp only [Phase.report]
  split
  · next h => exact iff_of_true (List.mem_singleton.2 rfl) h
  · next h => exact iff_of_false List.not_mem_nil h

end BlockSafe
