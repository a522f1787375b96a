import BlockSafe.Proofs.Verdict.HiddenLiterals
import BlockSafe.Proofs.Verdict.Reports

/-!
# Comments

The pass that knows comments stays out of them as long as none opens (`step_eq`), so somewhere in a
text it is in a comment iff one opens (`entersComment_iff`).  The rules on comments do not follow
that pass.  An accepted program has no comment of two kinds, line comments first on their line and
block comments that are closed, but it may have others: those behind code on a line, and those that
run to the end of the program (`comments_reported`, `comment_behind_code_passes`).
-/

namespace BlockSafe

open Pattern Text

/-! ## The pass -/

/-- A block comment opens behind `before`, in a text that starts in a region; `behind` follows its
marks. -/
def BlockComment (region : Region) (s before behind : Text) : Prop :=
  s = before ++ '/' :: '*' :: behind ∧ regionAfter codeMask region (some '/') before = .code

/-- A comment opens in a text that starts in a region. -/
def HasComment (region : Region) (s : Text) : Prop :=
  ∃ before behind, LineComment region s before behind ∨ BlockComment region s before behind

/-- Somewhere in a text that starts in a region, the pass is in a comment. -/
def EntersComment (region : Region) (s : Text) : Prop :=
  ∃ u t, s = u ++ t ∧ ¬ (regionAfter codeMask region t.head? u).Uncommented

section
variable {rules : MaskRules} {region : Region} {next : Option Char} {c : Char} {s t u : Text}

theorem regionAfter_append (u v : Text) : regionAfter rules region next (u ++ v) =
    regionAfter rules (regionAfter rules region (v.head?.or next) u) next v := by
  induction u generalizing region with
  | nil => rfl
  | cons c u ih =>
    rw [List.cons_append, regionAfter, regionAfter, List.head?_append, Option.or_assoc, ih]

/-- Behind the first mark of a comment the pass is in the comment. -/
theorem commented_opening (h : OpensComment region c next) :
    ¬ (region.step codeMask c next).2.Uncommented := by
  obtain ⟨rfl, rfl, rfl | rfl⟩ := h
  · exact id
  · exact id

theorem HasComment.cons (h : HasComment (region.step codeMask c s.head?).2 s) :
    HasComment region (c :: s) := by
  obtain ⟨before, behind, hline | ⟨rfl, hblock⟩⟩ := h
  · exact ⟨c :: before, behind, .inl hline.cons⟩
  · refine ⟨c :: before, behind, .inr ⟨rfl, ?_⟩⟩
    rw [List.head?_append] at hblock
    exact hblock

/-- A comment opens before the pass is in one. -/
theorem hasComment_of_commented (hregion : region.Uncommented)
    (h : ¬ (regionAfter codeMask region t.head? u).Uncommented) : HasComment region (u ++ t) := by
  induction u generalizing region with
  | nil => exact absurd hregion h
  | cons c u ih =>
    rw [regionAfter, ← List.head?_append] at h
    by_cases hopen : OpensComment region c (u ++ t).head?
    · obtain ⟨rfl, rfl, hnext | hnext⟩ := hopen
      · obtain ⟨behind, hbehind⟩ := List.head?_eq_some_iff.1 hnext
        exact ⟨[], behind, .inl ⟨congrArg ('/' :: ·) hbehind, rfl⟩⟩
      · obtain ⟨behind, hbehind⟩ := List.head?_eq_some_iff.1 hnext
        exact ⟨[], behind, .inr ⟨congrArg ('/' :: ·) hbehind, rfl⟩⟩
    · exact (ih (step_eq hregion hopen).2 h).cons

/-- The pass is in a comment somewhere iff a comment opens. -/
theorem entersComment_iff (hregion : region.Uncommented) :
    EntersComment region s ↔ HasComment region s := by
  constructor
  · rintro ⟨u, t, rfl, h⟩
    exact hasComment_of_commented hregion h
  · -- The first mark is enough for the pass to be in the comment.
    have hopens : ∀ before behind mark, mark = '/' ∨ mark = '*' →
        regionAfter codeMask region (some '/') before = .code →
        EntersComment region (before ++ '/' :: mark :: behind) := by
      intro before behind mark hmark hcode
      refine ⟨before ++ ['/'], mark :: behind, by simp, ?_⟩
      rw [regionAfter_append]
      show ¬ (regionAfter codeMask (regionAfter codeMask region (some '/') before) _ _).Uncommented
      rw [hcode]
      exact commented_opening ⟨rfl, rfl, hmark.imp (congrArg some) (congrArg some)⟩
    rintro ⟨before, behind, ⟨rfl, hcode⟩ | ⟨rfl, hcode⟩⟩
    · exact hopens before behind '/' (.inl rfl) hcode
    · exact hopens before behind '*' (.inr rfl) hcode

end

/-! ## Reports -/

/-- **Which comments are reported.**  A comment that the pass enters makes a program refused, unless
it is a line comment that shares its line with something before it or a block comment that is never
closed.  What is reported as a line comment are two slashes with nothing but white space before them
on their line, and as a block comment its two marks, both in strings as well. -/
theorem comments_reported (code : Text) (target : Target) :
    (EntersComment .code code ↔ HasComment .code code) ∧
    ((validate code target).compliant = true → ∀ before behind,
      (LineComment .code code before behind → TrailingComment code before behind) ∧
      (BlockComment .code code before behind → ¬ ['*', '/'] <:+: behind)) ∧
    (target.profile.foreign.occurs code = false →
      (Violation.lineComments.tag ∈ (validate code target).violations ↔
        ∃ before behind, code = before ++ '/' :: '/' :: behind ∧ Blank (lastLine before)) ∧
      (Violation.blockComments.tag ∈ (validate code target).violations ↔
        ∃ before behind, code = before ++ '/' :: '*' :: behind ∧ ['*', '/'] <:+: behind)) := by
  refine ⟨entersComment_iff trivial, fun hcompliant before behind => ⟨?_, ?_⟩,
    fun hforeign => ⟨?_, ?_⟩⟩
  · exact trailing_of_compliant hcompliant
  · exact fun h => unclosed_of_compliant hcompliant h.1
  · have hfixed : .lineComments ∈ Phase.constructs.fixed := List.mem_map_of_mem commentRules_mem.1
    rw [mem_violations_iff hforeign hfixed, ← occurs_lineComment]
    exact construct_reported commentRules_mem.1
  · have hfixed : .blockComments ∈ Phase.constructs.fixed := List.mem_map_of_mem commentRules_mem.2
    rw [mem_violations_iff hforeign hfixed, ← occurs_blockComment]
    exact construct_reported commentRules_mem.2

/-- A line comment behind code and a block comment that is never closed pass. -/
theorem comment_behind_code_passes :
    (EntersComment .code "let x = 1 // note" ∧
      (validate "let x = 1 // note" .maker).compliant = true) ∧
    (EntersComment .code "let x = 1 /* note" ∧
      (validate "let x = 1 /* note" .maker).compliant = true) := by
  have hline : EntersComment .code "let x = 1 // note" := ⟨"let x = 1 /", "/ note", rfl, id⟩
  have hblock : EntersComment .code "let x = 1 /* note" := ⟨"let x = 1 /", "* note", rfl, id⟩
  exact ⟨⟨hline, by decide +kernel⟩, hblock, by decide +kernel⟩

end BlockSafe
