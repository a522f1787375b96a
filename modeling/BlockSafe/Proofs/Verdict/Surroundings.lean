import BlockSafe.Proofs.Text.Surroundings
import BlockSafe.Proofs.Verdict.Phases

/-!
# Verdicts on a part of a program

What is looked for in the program as it stands cannot be hidden by putting other lines around it.
Every pattern of these rules lasts (`lasting_syntaxRules`, `lasting_bitwise`, `lasting_forIn`), and
so do the foreign tokens (`lasting_foreign`).  So the tags of the raw phases stay in the verdict
(`surrounding_lines_keep`), unless foreign tokens around the part cut the inspection short.
-/

namespace BlockSafe

open Pattern

/-! ## Tables -/

theorem lasting_keyword (s : Text) : (chain [wordStart s, gap, one isIdentStart]).Lasting :=
  ⟨lasting_wordStart s, lasting_many1 _, trivial, lasting_nothing⟩

theorem lasting_spaced (s : Text) : (chain [wordStart s, one isSpace]).Lasting :=
  ⟨lasting_wordStart s, trivial, lasting_nothing⟩

/-- A name and an opening bracket. -/
theorem lasting_bracketed {p : Pattern} (h : p.Lasting) (bracket : Text) :
    (chain [p, spaces, lit bracket]).Lasting :=
  ⟨h, trivial, lasting_lit bracket, lasting_nothing⟩

/-- One of a table of texts, each looked for in the same way. -/
theorem lasting_table {pattern : Text → Pattern} (h : ∀ s, (pattern s).Lasting)
    (table : List Text) : (anyOf (table.map pattern)).Lasting := by
  apply lasting_anyOf
  intro p hp
  obtain ⟨s, -, rfl⟩ := List.mem_map.1 hp
  exact h s

theorem lasting_syntaxRules : ∀ rule ∈ syntaxRules, rule.pattern.Lasting := by
  simp only [syntaxRules, List.forall_mem_cons]
  refine ⟨lasting_lit _, ?classes, lasting_keyword _, ?promises, ?imports, ?interpolation,
    ?higherOrder, ?namespaces, ?types, ?generics, ?timers, lasting_lit _, ?lineComments,
    ?blockComments, lasting_bracketed (lasting_wordStart _) _, lasting_table lasting_lit _, ?none⟩
  case classes => exact ⟨lasting_wordStart _, lasting_many1 _, lasting_nothing⟩
  case promises => exact lasting_table lasting_word ["Promise", "async", "await"]
  case imports => exact lasting_anyOf (by simp [lasting_spaced])
  case interpolation => exact ⟨lasting_lit _, lasting_many1 _, lasting_lit _, lasting_nothing⟩
  case higherOrder =>
    exact ⟨lasting_lit _, trivial, lasting_bracketed (lasting_table lasting_lit _) _⟩
  case namespaces => exact lasting_table lasting_word ["namespace", "module"]
  case types => exact lasting_anyOf (by simp [lasting_word, lasting_keyword])
  case generics => exact ⟨lasting_lit _, lasting_many1 _, lasting_lit _, lasting_nothing⟩
  case timers => exact lasting_anyOf (by simp [lasting_bracketed, lasting_lit])
  case lineComments => exact lasting_bracketed (p := test Cursor.atLineStart) lasts_lineStart _
  case blockComments => exact ⟨lasting_lit _, trivial, lasting_lit _, lasting_nothing⟩
  case none => exact fun _ h => absurd h List.not_mem_nil

theorem lasting_loneSign (sign : Char) : (loneSign sign).Lasting :=
  ⟨⟨lasts_lineStart, trivial⟩, trivial, ⟨trivial, lasts_lineEnd⟩, lasting_nothing⟩

theorem lasting_bitwise : bitwisePattern.Lasting :=
  lasting_anyOf (by simp [lasting_lit, lasting_loneSign])

theorem lasting_forIn : forInPattern.Lasting :=
  ⟨lasting_wordStart _, trivial, lasting_lit _, trivial, lasting_word _, trivial, lasting_lit _,
    lasting_nothing⟩

theorem lasting_foreign (target : Target) : target.profile.foreign.Lasting := by
  have harcade : arcadeTokens.Lasting :=
    lasting_table lasting_litAnyCase ["sprites.", "controller.", "scene.", "game.onUpdate"]
  have hmicrobit : microbitTokens.Lasting := lasting_table lasting_litAnyCase ["led.", "radio."]
  cases target with
  | microbit => exact harcade
  | arcade => exact hmicrobit
  | maker => exact harcade

/-! ## Phases -/

/-- The phases that look at the program as it stands for constructs and characters. -/
def Phase.raw : List Phase := [.constructs, .bitwise, .forIn, .ascii]

theorem occurringRules_between {rules : List ConstructRule}
    (hrules : ∀ rule ∈ rules, rule.pattern.Lasting) {code : Text} {v : Violation}
    (h : v ∈ occurringRules rules code) (above below : Text) :
    v ∈ occurringRules rules (joinLines [above, code, below]) := by
  obtain ⟨rule, hrule, rfl⟩ := List.mem_map.1 h
  obtain ⟨hmem, hoccurs⟩ := List.mem_filter.1 hrule
  exact mem_occurringRules hmem ((hrules rule hmem).occurs hoccurs above below)

/-- What a raw phase reports on a part it reports on the whole. -/
theorem report_between {phase : Phase} (hraw : phase ∈ Phase.raw) {code : Text} {target : Target}
    {v : Violation} (h : v ∈ phase.report code target) (above below : Text) :
    v ∈ phase.report (joinLines [above, code, below]) target := by
  have hone : ∀ {p : Pattern} {w : Violation}, p.Lasting →
      v ∈ (if p.occurs code then [w] else []) →
      v ∈ (if p.occurs (joinLines [above, code, below]) then [w] else []) := by
    intro p w hp h
    split at h
    · next hoccurs => rwa [if_pos (hp.occurs hoccurs above below)]
    · cases h
  simp only [Phase.raw, List.mem_cons, List.not_mem_nil, or_false] at hraw
  rcases hraw with rfl | rfl | rfl | rfl
  · exact occurringRules_between lasting_syntaxRules h above below
  · exact hone lasting_bitwise h
  · exact hone lasting_forIn h
  · simp only [Phase.report, asciiPhase] at h ⊢
    split at h
    · cases h
    · next hascii =>
      rw [if_neg]
      · exact h
      · rw [joinLines_three]
        simp only [List.all_append, List.all_cons, Bool.and_eq_true]
        exact fun hall => hascii hall.2.2.1

/-- The tags of the rules that look at the program as it stands. -/
def rawTags : List Text :=
  syntaxRules.map (·.violation.tag)
    ++ texts ["bitwise operators", "for...in loops", "non-ASCII characters"]

theorem rawTags_eq : rawTags = (Phase.raw.flatMap Phase.fixed).map Violation.tag := by
  simp only [rawTags, Phase.raw, Phase.fixed, List.flatMap_cons, List.flatMap_nil, List.map_append,
    List.map_map]
  rfl

theorem ofTag?_rawTags {tag : Text} (h : tag ∈ rawTags) :
    ∃ phase ∈ Phase.raw, Phase.ofTag? tag = some phase := by
  rw [rawTags_eq] at h
  obtain ⟨v, hv, rfl⟩ := List.mem_map.1 h
  obtain ⟨phase, hphase, hv⟩ := List.mem_flatMap.1 hv
  exact ⟨phase, hphase, Phase.ofTag?_fixed phase (Phase.mem_all phase) v hv⟩

theorem foreign_not_rawTags (target : Target) : target.profile.foreignViolation.tag ∉ rawTags := by
  have hforeign : ∀ v ∈ [Violation.arcadeApis, .microbitApis], v.tag ∉ rawTags := by
    decide +kernel
  cases target with
  | microbit => exact hforeign _ (by decide)
  | arcade => exact hforeign _ (by decide)
  | maker => exact hforeign _ (by decide)

/-- **Other lines hide nothing that is looked for as it stands.**  A program that is cut short is so
with any lines above and below it.  Every raw tag in the verdict on a program is in the verdict on
it between other lines, or that one is cut short, and the program refused anyway. -/
theorem surrounding_lines_keep (code above below : Text) (target : Target) :
    let whole := joinLines [above, code, below]
    let short : Verdict := ⟨false, [target.profile.foreignViolation.tag]⟩
    (target.profile.foreign.occurs code = true →
      validate code target = short ∧ validate whole target = short) ∧
    ∀ tag ∈ rawTags, tag ∈ (validate code target).violations →
      tag ∈ (validate whole target).violations ∨
        target.profile.foreign.occurs whole = true ∧ validate whole target = short := by
  intro whole short
  refine ⟨fun hforeign => ⟨validate_foreign hforeign, validate_foreign ?_⟩, ?_⟩
  · exact (lasting_foreign target).occurs hforeign above below
  · intro tag hraw htag
    cases hwhole : target.profile.foreign.occurs whole with
    | true => exact .inr ⟨rfl, validate_foreign hwhole⟩
    | false =>
      left
      have hcode : target.profile.foreign.occurs code = false := by
        rw [Bool.eq_false_iff]
        intro h
        rw [validate_foreign h, List.mem_singleton] at htag
        exact foreign_not_rawTags target (htag ▸ hraw)
      rw [violations_eq hcode, mem_distinct] at htag
      rw [violations_eq hwhole, mem_distinct]
      obtain ⟨phase, hphase, htag⟩ := List.mem_flatMap.1 htag
      refine List.mem_flatMap.2 ⟨phase, hphase, ?_⟩
      obtain ⟨q, hq, hof⟩ := ofTag?_rawTags hraw
      obtain rfl : q = phase := Option.some.inj (hof.symm.trans (Phase.ofTag?_tag htag))
      obtain ⟨v, hv, rfl⟩ := List.mem_map.1 htag
      exact List.mem_map_of_mem (report_between hq hv above below)

end BlockSafe
