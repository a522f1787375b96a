import BlockSafe.Proofs.Rule.Comments
import BlockSafe.Proofs.Text.Classes
import BlockSafe.Proofs.Text.Comments
import BlockSafe.Proofs.Verdict.Phases

/-!
# Literals behind comments

The literals are looked for in the program without the contents of its strings, which is blanked by
a pass that does not know comments.  A quote in a comment opens a string for that pass, so a comment
can hide a literal in the code behind it (`comment_hides_literals`).  A closed block comment and a
line comment on a line of its own are reported themselves, so only a comment behind code on its line
does: one with a quote before the literal, or one between the two words of a cast (`literal_found`).
-/

namespace BlockSafe

open Pattern Text

/-! ## Casts -/

theorem isIdentStart_of_isSpace {c : Char} (h : isSpace c = true) : isIdentStart c = false :=
  not_isIdentStart (isIdentPart_of_isSpace h)

/-- White space and then the start of a name. -/
theorem matchesAt_spaced (c : Cursor) : (chain [gap, one isIdentStart]).matchesAt c = true ↔
    c.rest.head?.any isSpace = true ∧
      (c.rest.dropWhile isSpace).head?.any isIdentStart = true := by
  have htail : ∀ d : Cursor, (seq (many isSpace) (chain [one isIdentStart])).matchesAt d =
      (d.rest.dropWhile isSpace).head?.any isIdentStart :=
    matchesAt_many_one fun _ => isIdentStart_of_isSpace
  have hassoc : (chain [gap, one isIdentStart]).matchesAt c = true ↔
      ∃ d ∈ (one isSpace).rests c, (seq (many isSpace) (chain [one isIdentStart])).matchesAt d := by
    refine matchesAt_seq.trans ⟨?_, ?_⟩
    · rintro ⟨e, he, hident⟩
      obtain ⟨d, hd, he⟩ := List.mem_flatMap.1 he
      exact ⟨d, hd, matchesAt_seq.2 ⟨e, he, hident⟩⟩
    · rintro ⟨d, hd, hmatch⟩
      obtain ⟨e, he, hident⟩ := matchesAt_seq.1 hmatch
      exact ⟨e, List.mem_flatMap.2 ⟨d, hd, he⟩, hident⟩
  rw [hassoc]
  simp only [mem_rests_one, htail]
  obtain ⟨before, s⟩ := c
  cases s with
  | nil => simp
  | cons x s =>
    constructor
    · rintro ⟨_, ⟨_, _, ⟨rfl, rfl⟩, hx, rfl⟩, hident⟩
      exact ⟨hx, by rwa [List.dropWhile_cons_of_pos hx]⟩
    · rintro ⟨hx, hident⟩
      have hspace : isSpace x = true := hx
      simp only [List.dropWhile_cons_of_pos hspace] at hident
      exact ⟨⟨some x, s⟩, ⟨x, s, rfl, hspace, rfl⟩, hident⟩

section
variable {m : Nat} {region : Region}

/-- Where a name follows the white space and no line comment stands in it, no comment opens. -/
theorem not_opensComment {c : Char} {s : Text} (hquiet : Quiet 0 m region (c :: s))
    (hspaces : ((view codeMask region (c :: s)).takeWhile isSpace).length ≤ m)
    (hname : ((view codeMask region (c :: s)).dropWhile isSpace).head?.any isIdentStart = true) :
    ¬ OpensComment region c s.head? := by
  intro hopen
  have hblank := (view_comment hopen).1
  obtain ⟨rfl, rfl, hnext | hnext⟩ := hopen
  · obtain ⟨v, rfl⟩ := List.head?_eq_some_iff.1 hnext
    obtain ⟨rest, hview⟩ := List.head?_eq_some_iff.1 hblank
    rw [hview, List.takeWhile_cons_of_pos (by decide), List.length_cons] at hspaces
    exact absurd (hquiet.apart [] v ⟨rfl, rfl⟩ (by rw [List.length_nil]; omega)) (Nat.not_lt_zero _)
  · obtain ⟨v, rfl⟩ := List.head?_eq_some_iff.1 hnext
    rw [List.dropWhile_eq_nil_iff.2 (view_opening (hquiet.unclosed [] v rfl))] at hname
    cases hname

theorem spaced_view {s : Text} (hregion : region.Uncommented) (hquiet : Quiet 0 m region s)
    (hspaces : ((view codeMask region s).takeWhile isSpace).length ≤ m)
    (hname : ((view codeMask region s).dropWhile isSpace).head?.any isIdentStart = true) :
    ((view stringMask region s).dropWhile isSpace).head?.any isIdentStart = true := by
  induction s generalizing region m with
  | nil => exact hname
  | cons c s ih =>
    obtain ⟨hstep, hnext⟩ := step_eq hregion (not_opensComment hquiet hspaces hname)
    rw [view_cons] at hspaces hname ⊢
    rw [← hstep]
    rw [List.dropWhile_cons] at hname ⊢
    split at hname
    · next hspace =>
      rw [List.takeWhile_cons_of_pos hspace, List.length_cons] at hspaces
      rw [if_pos hspace]
      exact ih hnext hquiet.tail (Nat.le_sub_of_add_le hspaces) hname
    · next hspace =>
      rw [if_neg hspace]
      exact hname

theorem spaced_abreast {c d : Cursor} (hcd : Abreast m c d)
    (hspaces : (c.rest.takeWhile isSpace).length ≤ m)
    (h : (chain [gap, one isIdentStart]).matchesAt c = true) :
    (chain [gap, one isIdentStart]).matchesAt d = true := by
  obtain ⟨before, hregion, hquiet⟩ := hcd
  rename_i region s
  rw [matchesAt_spaced] at h ⊢
  refine ⟨?_, spaced_view hregion hquiet hspaces h.2⟩
  cases s with
  | nil => exact h.1
  | cons c s =>
    have hstep := (step_eq hregion (not_opensComment hquiet hspaces h.2)).1
    rw [view_cons, ← hstep]
    exact h.1

end

/-! ## Literals in both views -/

theorem bold_literals : ∀ rule ∈ literalRules, rule.pattern.Bold := by
  simp only [literalRules, List.forall_mem_cons]
  refine ⟨?null, ?undefined, ?casts, fun _ h => absurd h List.not_mem_nil⟩
  case null => exact ((bold_lit (by decide)).seq _).after_wordEdge
  case undefined => exact ((bold_lit (by decide)).seq _).after_wordEdge
  case casts => exact Bold.seq ((bold_lit (by decide)).seq _).after_wordEdge _

/-- How far the white space between the two words of a cast reaches, in a text that starts with the
cast. -/
def castReach (t : Text) : Nat := 2 + ((t.drop 2).takeWhile isSpace).length

/-- How far a comment that opens behind the start of a literal can hide it; only casts have white
space in them. -/
def ConstructRule.reach (rule : ConstructRule) (t : Text) : Nat :=
  if rule.violation = .casts then castReach t else 0

/-- A literal is found at a place abreast of it, if that is so up to the end of its white space. -/
theorem literal_abreast {before : Option Char} {t : Text} : ∀ rule ∈ literalRules, ∀ d,
    Abreast (rule.reach t) ⟨before, t⟩ d → rule.pattern.matchesAt ⟨before, t⟩ = true →
      rule.pattern.matchesAt d = true := by
  simp only [literalRules, List.forall_mem_cons]
  refine ⟨?null, ?undefined, ?casts, fun _ h => absurd h List.not_mem_nil⟩
  case null => exact fun _ hcd => (carries_word (by decide)).matchesAt hcd
  case undefined => exact fun _ hcd => (carries_word (by decide)).matchesAt hcd
  case casts =>
    intro d hcd h
    obtain ⟨c', hc', hspaced⟩ := matchesAt_seq.1 h
    obtain ⟨d', hd', hcd'⟩ := carries_wordStart (by decide) hcd c' hc'
    refine matchesAt_seq.2 ⟨d', hd', spaced_abreast hcd' (Nat.le_of_eq ?_) hspaced⟩
    obtain rfl : t = ['a', 's'] ++ c'.rest := rest_of_mem_wordStart hc'
    exact (Nat.add_sub_cancel_left 2 _).symm

/-! ## Reports -/

theorem refused_of_construct {rule : ConstructRule} (hrule : rule ∈ syntaxRules) {code : Text}
    (h : rule.pattern.occurs code = true) (target : Target) :
    (validate code target).compliant = false := by
  have hreport : rule.violation ∈ Phase.constructs.report code target := mem_occurringRules hrule h
  exact refused_of_report hreport

theorem refused_of_literal {rule : ConstructRule} (hrule : rule ∈ literalRules) {code : Text}
    (h : rule.pattern.occurs (blankStrings code) = true) (target : Target) :
    (validate code target).compliant = false := by
  have hreport : rule.violation ∈ Phase.literals.report code target := mem_occurringRules hrule h
  exact refused_of_report hreport

/-- A line comment that shares its line with something before it. -/
def TrailingComment (code before behind : Text) : Prop :=
  LineComment .code code before behind ∧
    ∃ c ∈ before.rtakeWhile (· != '\n'), isSpace c = false

/-- A line comment on a line of its own is reported. -/
theorem trailing_of_compliant {code : Text} {target : Target}
    (hcompliant : (validate code target).compliant = true) {before behind : Text}
    (h : LineComment .code code before behind) : TrailingComment code before behind := by
  refine ⟨h, ?_⟩
  by_contra hblank
  have hspaces : Blank (lastLine before) := by
    intro c hc
    rw [← Bool.not_eq_false]
    exact fun hspace => hblank ⟨c, hc, hspace⟩
  have hoccurs := (occurs_lineComment code).2 ⟨before, behind, h.1, hspaces⟩
  rw [refused_of_construct commentRules_mem.1 hoccurs] at hcompliant
  cases hcompliant

/-- A closed block comment is reported. -/
theorem unclosed_of_compliant {code : Text} {target : Target}
    (hcompliant : (validate code target).compliant = true) {before behind : Text}
    (h : code = before ++ '/' :: '*' :: behind) : ¬ ['*', '/'] <:+: behind := by
  intro hclosed
  have hoccurs := (occurs_blockComment code).2 ⟨before, behind, h, hclosed⟩
  rw [refused_of_construct commentRules_mem.2 hoccurs] at hcompliant
  cases hcompliant

/-! ## Hidden and found -/

/-- **Literals outside of strings and comments.**  A program with such a literal is refused, unless
the literal stands behind a line comment that holds a quote and shares its line with code before it,
or is a cast and such a comment, with or without a quote, opens between its two words. -/
theorem literal_found {code u t : Text} {rule : ConstructRule} (hrule : rule ∈ literalRules)
    (hview : blankNonCode code = u ++ t) (hmatch : rule.pattern.matchesAt ⟨u.getLast?, t⟩ = true)
    (target : Target) :
    (validate code target).compliant = false ∨
      ∃ before behind, TrailingComment code before behind ∧
        (before.length < u.length ∧ (∃ c ∈ lineOf behind, c ∈ programQuotes) ∨
          rule.violation = .casts ∧ u.length ≤ before.length ∧
            before.length < u.length + castReach t) := by
  by_contra hnot
  simp only [not_or, not_exists, not_and, Bool.not_eq_false] at hnot
  obtain ⟨hcompliant, hhidden⟩ := hnot
  have hquiet : Quiet u.length (rule.reach t + u.length) .code code := by
    constructor
    · intro before behind hline hlt c hc hquote
      exact (hhidden before behind (trailing_of_compliant hcompliant hline)).1 hlt c hc hquote
    · intro before behind hline hlt
      by_contra hle
      unfold ConstructRule.reach at hlt
      split at hlt
      · next hcast =>
        exact (hhidden before behind (trailing_of_compliant hcompliant hline)).2 hcast
          (Nat.le_of_not_lt hle) (by rwa [Nat.add_comm])
      · next => exact hle (by rwa [Nat.zero_add] at hlt)
    · exact fun before behind => unclosed_of_compliant hcompliant
  have hfollows : Follows u.length (rule.reach t + u.length) ⟨none, view codeMask .code code⟩
      ⟨none, view stringMask .code code⟩ := .code none trivial hquiet
  have hfound : rule.pattern.occursFrom none (view stringMask .code code) = true := by
    refine hfollows.occurs (bold_literals rule hrule) (fun _ => literal_abreast rule hrule) hview ?_
    rwa [Option.or_none]
  rw [refused_of_literal hrule hfound] at hcompliant
  cases hcompliant

/-- A program without slashes has no comments. -/
theorem literal_found_null :
    let rule : ConstructRule := ⟨word "null", .nullLiteral⟩
    let code : Text := "let s = 'undefined'\nlet x = null"
    let u : Text := "let s = '         '\nlet x = "
    rule ∈ literalRules ∧ blankNonCode code = u ++ "null".toList ∧
      rule.pattern.matchesAt ⟨u.getLast?, "null"⟩ = true ∧
      (validate code .microbit).compliant = false := by
  intro rule code u
  have hrule : rule ∈ literalRules := by simp only [literalRules, List.mem_cons, true_or, rule]
  have hview : blankNonCode code = u ++ "null".toList := by decide +kernel
  have hmatch : rule.pattern.matchesAt ⟨u.getLast?, "null"⟩ = true := by decide +kernel
  refine ⟨hrule, hview, hmatch, (literal_found hrule hview hmatch .microbit).resolve_right ?_⟩
  rintro ⟨before, behind, ⟨⟨hcode, -⟩, -⟩, -⟩
  have hslash : '/' ∈ code := by
    rw [hcode]
    exact List.mem_append_right _ List.mem_cons_self
  exact absurd hslash (by decide +kernel)

/-- Comments hide a literal and a cast: the apostrophe of the first comment opens a string, and the
second comment stands between the words of the cast. -/
theorem comment_hides_literals :
    let first : Text := "let y = 1 // don't\nlet x = null"
    let second : Text := "let x = y as // text\nnumber"
    ((∃ rule ∈ literalRules, rule.pattern.occurs (blankNonCode first) = true) ∧
      (validate first .maker).compliant = true) ∧
    (∃ rule ∈ literalRules, rule.pattern.occurs (blankNonCode second) = true) ∧
      (validate second .maker).compliant = true := by
  decide +kernel

end BlockSafe
