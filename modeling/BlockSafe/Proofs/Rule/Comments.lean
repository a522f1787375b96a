import BlockSafe.Proofs.Text.Takes
import BlockSafe.Rule.Construct

/-!
# The rules on comments

Both rules read the program as it stands.  The one for line comments finds two slashes with nothing
but white space before them on their line (`occurs_lineComment`), the one for block comments finds
the marks that open a comment with the marks that close one somewhere behind
(`occurs_blockComment`).
-/

namespace BlockSafe

open Pattern Text

/-- Two slashes at the start of a line. -/
def lineCommentRule : ConstructRule :=
  ⟨chain [test Cursor.atLineStart, spaces, lit "//"], .lineComments⟩

/-- The marks of a block comment. -/
def blockCommentRule : ConstructRule :=
  ⟨chain [lit "/*", many (fun _ => true), lit "*/"], .blockComments⟩

theorem commentRules_mem : lineCommentRule ∈ syntaxRules ∧ blockCommentRule ∈ syntaxRules := by
  simp only [syntaxRules, lineCommentRule, blockCommentRule, List.mem_cons, true_or, or_true,
    and_self]

/-- What stands on the last line of a text. -/
def lastLine (s : Text) : Text := s.rtakeWhile (· != '\n')

variable {before : Option Char} {m s t v : Text}

theorem takes_lineComment : lineCommentRule.pattern.Takes before m v ↔
    before.all (· == '\n') = true ∧ ∃ gap, Blank gap ∧ m = gap ++ "//".toList := by
  simp only [lineCommentRule, takes_chain_cons, takes_chain_nil, takes_test, takes_spaces,
    takes_lit, Cursor.atLineStart]
  constructor
  · rintro ⟨_, _, rfl, ⟨rfl, hstart⟩, gap, _, rfl, hgap, _, _, rfl, rfl, rfl⟩
    exact ⟨hstart, gap, hgap, by simp⟩
  · rintro ⟨hstart, gap, hgap, rfl⟩
    exact ⟨[], _, rfl, ⟨rfl, hstart⟩, gap, _, rfl, hgap, _, [], by simp, rfl, rfl⟩

/-- Behind the start of a line, the last line goes no further back than to it. -/
theorem lastLine_append (hs : s.getLast?.all (· == '\n') = true) :
    ∀ c ∈ lastLine (s ++ t), c ∈ t := by
  induction t using List.reverseRecOn with
  | nil =>
    have hnil : lastLine (s ++ []) = [] := by
      rw [List.append_nil, lastLine, List.rtakeWhile_eq_nil_iff]
      intro hne hlast
      rw [List.getLast?_eq_some_getLast hne, Option.all_some] at hs
      rw [bne, hs] at hlast
      cases hlast
    rw [hnil]
    exact fun c hc => hc
  | append_singleton t x ih =>
    intro c hc
    rw [← List.append_assoc, lastLine, List.rtakeWhile_concat] at hc
    split at hc
    · rcases List.mem_append.1 hc with hc | hc
      · exact List.mem_append_left _ (ih c hc)
      · exact List.mem_append_right _ hc
    · cases hc

/-- The last line starts at the start of a line. -/
theorem lastLine_start (s : Text) :
    (s.rdropWhile (· != '\n')).getLast?.all (· == '\n') = true := by
  rw [Option.all_eq_true]
  intro c hc
  obtain ⟨hne, rfl⟩ := List.mem_getLast?_eq_getLast hc
  simpa using List.rdropWhile_last_not _ _ hne

theorem occurs_lineComment (s : Text) : lineCommentRule.pattern.occurs s = true ↔
    ∃ before behind, s = before ++ '/' :: '/' :: behind ∧ Blank (lastLine before) := by
  simp only [occurs_iff_takes, takes_lineComment]
  constructor
  · rintro ⟨u, _, v, rfl, hstart, gap, hgap, rfl⟩
    exact ⟨u ++ gap, v, by simp, fun c hc => hgap c (lastLine_append hstart c hc)⟩
  · rintro ⟨before, behind, rfl, hblank⟩
    refine ⟨before.rdropWhile (· != '\n'), _, behind, ?_, lastLine_start before, lastLine before,
      hblank, rfl⟩
    rw [← List.append_assoc, ← List.append_assoc, lastLine, List.rdropWhile_append_rtakeWhile,
      List.append_assoc]
    rfl

theorem occurs_blockComment (s : Text) : blockCommentRule.pattern.occurs s = true ↔
    ∃ before behind, s = before ++ '/' :: '*' :: behind ∧ ['*', '/'] <:+: behind := by
  simp only [blockCommentRule, occurs_iff_takes, takes_chain_cons, takes_chain_nil, takes_lit,
    takes_many]
  constructor
  · rintro ⟨u, _, v, rfl, _, _, rfl, rfl, text, _, rfl, -, _, _, rfl, rfl, rfl⟩
    exact ⟨u, text ++ ("*/".toList ++ v), by simp, text, v, by simp⟩
  · rintro ⟨before, _, rfl, text, rest, rfl⟩
    refine ⟨before, "/*".toList ++ (text ++ "*/".toList), rest, by simp, _, _, rfl, rfl, text, _,
      rfl, fun _ _ => trivial, _, [], (List.append_nil _).symm, rfl, rfl⟩

end BlockSafe
