import BlockSafe.Proofs.Text.Classes
import BlockSafe.Proofs.Text.Patterns
import BlockSafe.Target.Profile

/-!
# Patterns in a longer text

Whether a pattern matches somewhere depends on the text it takes and on its neighbours.  Between
other lines a text has line feeds where it had its ends.  A test that holds at an end of a text and
still holds at a line feed `Lasts`, and a pattern lasts if all its tests do (`Pattern.Lasting`).
Such a pattern is found between other lines if it is found without them (`Lasting.occurs`).
-/

namespace BlockSafe

/-- The same position in a text and in that text between other lines. -/
inductive Within (below : Text) : Cursor → Cursor → Prop where
  | intro (before : Option Char) (rest : Text) :
    Within below ⟨before, rest⟩ ⟨some (before.getD '\n'), rest ++ '\n' :: below⟩

/-- A condition on positions that other lines do not undo. -/
def Lasts (condition : Cursor → Bool) : Prop :=
  ∀ ⦃below c d⦄, Within below c d → condition c = true → condition d = true

theorem lasts_wordEdge : Lasts Cursor.atWordEdge := by
  rintro below _ _ ⟨before, rest⟩ h
  have hbreak : isWord '\n' = false := by decide
  have hbefore : (some (before.getD '\n')).any isWord = before.any isWord := by
    cases before with
    | none => exact hbreak
    | some c => rfl
  have hrest : (rest ++ '\n' :: below).head?.any isWord = rest.head?.any isWord :=
    Text.any_head_append (w := '\n' :: below) hbreak rest
  unfold Cursor.atWordEdge at h ⊢
  rwa [hbefore, hrest]

theorem lasts_lineStart : Lasts Cursor.atLineStart := by
  rintro _ _ _ ⟨before, rest⟩ h
  unfold Cursor.atLineStart at h ⊢
  cases before with
  | none => rfl
  | some c => exact h

theorem lasts_lineEnd : Lasts Cursor.atLineEnd := by
  rintro _ _ _ ⟨before, rest⟩ h
  unfold Cursor.atLineEnd at h ⊢
  cases rest with
  | nil => rfl
  | cons c rest => exact h

namespace Pattern

/-- All conditions of the pattern last. -/
def Lasting : Pattern → Prop
  | one _ => True
  | many _ => True
  | test condition => Lasts condition
  | seq first second => first.Lasting ∧ second.Lasting
  | either left right => left.Lasting ∧ right.Lasting

/-! ## Matches -/

theorem runs_within {p : Char → Bool} {below : Text} (before : Option Char) (s : Text)
    {c' : Cursor} (h : c' ∈ runs p before s) :
    ∃ d' ∈ runs p (some (before.getD '\n')) (s ++ '\n' :: below), Within below c' d' := by
  induction s generalizing before with
  | nil =>
    rw [List.mem_singleton.1 h]
    exact ⟨_, mem_runs_self _ _ _, .intro before []⟩
  | cons x s ih =>
    rcases mem_runs_cons.1 h with rfl | ⟨hx, h⟩
    · exact ⟨_, mem_runs_self _ _ _, .intro before (x :: s)⟩
    · obtain ⟨d', hd', hwithin⟩ := ih (some x) h
      exact ⟨d', mem_runs_cons.2 (.inr ⟨hx, hd'⟩), hwithin⟩

/-- Between other lines a pattern that lasts takes what it takes without them. -/
theorem Lasting.carries {p : Pattern} (h : p.Lasting) (below : Text) :
    p.Carries (Within below) (Within below) := by
  induction p with
  | one p =>
    rintro _ _ ⟨before, s⟩ c' hc'
    obtain ⟨x, rest, rfl, hx, rfl⟩ := mem_rests_one.1 hc'
    exact ⟨_, mem_rests_one.2 ⟨x, rest ++ '\n' :: below, rfl, hx, rfl⟩, .intro (some x) rest⟩
  | many p =>
    rintro _ _ ⟨before, s⟩ c' hc'
    exact runs_within before s hc'
  | test condition =>
    intro c d hcd c' hc'
    obtain ⟨hc, rfl⟩ := mem_rests_test.1 hc'
    exact ⟨d, mem_rests_test.2 ⟨h hcd hc, rfl⟩, hcd⟩
  | seq first second ihfirst ihsecond => exact (ihfirst h.1).seq (ihsecond h.2)
  | either left right ihleft ihright => exact (ihleft h.1).either (ihright h.2)

theorem joinLines_three (above code below : Text) :
    joinLines [above, code, below] = above ++ '\n' :: (code ++ '\n' :: below) := by
  simp [joinLines, Text.join, List.intercalate, List.intersperse]

theorem Lasting.occurs {p : Pattern} (h : p.Lasting) {code : Text} (hcode : p.occurs code = true)
    (above below : Text) : p.occurs (joinLines [above, code, below]) = true := by
  obtain ⟨u, t, rfl, hmatch⟩ := occurs_iff.1 hcode
  have hlast : (above ++ '\n' :: u).getLast? = some (u.getLast?.getD '\n') := by
    rw [List.getLast?_append, List.getLast?_cons, Option.some_or]
  refine occurs_iff.2 ⟨above ++ '\n' :: u, t ++ '\n' :: below, ?_, ?_⟩
  · rw [joinLines_three]
    simp
  · rw [hlast]
    exact (h.carries below).matchesAt (.intro u.getLast? t) hmatch

/-! ## Patterns that last -/

theorem lasting_nothing : nothing.Lasting := fun _ _ _ _ _ => rfl

theorem lasting_chain {ps : List Pattern} (h : ∀ p ∈ ps, p.Lasting) : (chain ps).Lasting := by
  induction ps with
  | nil => exact lasting_nothing
  | cons p ps ih =>
    obtain ⟨hp, hps⟩ := List.forall_mem_cons.1 h
    exact ⟨hp, ih hps⟩

theorem lasting_anyOf {ps : List Pattern} (h : ∀ p ∈ ps, p.Lasting) : (anyOf ps).Lasting := by
  induction ps with
  | nil =>
    rintro _ _ _ _ hfalse
    cases hfalse
  | cons p ps ih =>
    obtain ⟨hp, hps⟩ := List.forall_mem_cons.1 h
    exact ⟨hp, ih hps⟩

theorem lasting_ones (ps : List (Char → Bool)) : (chain (ps.map one)).Lasting := by
  apply lasting_chain
  intro p hp
  obtain ⟨q, -, rfl⟩ := List.mem_map.1 hp
  trivial

theorem lasting_lit (s : Text) : (lit s).Lasting := by
  have hones := lasting_ones (s.map fun c d => d == c)
  rwa [List.map_map] at hones

theorem lasting_litAnyCase (s : Text) : (litAnyCase s).Lasting := by
  have hones := lasting_ones (s.map fun c d => foldLetter d == foldLetter c)
  rwa [List.map_map] at hones

theorem lasting_wordEdge : wordEdge.Lasting := lasts_wordEdge

theorem lasting_wordStart (s : Text) : (wordStart s).Lasting :=
  ⟨lasting_wordEdge, lasting_lit s, lasting_nothing⟩

theorem lasting_word (s : Text) : (word s).Lasting :=
  ⟨lasting_wordEdge, lasting_lit s, lasting_wordEdge, lasting_nothing⟩

theorem lasting_many1 (p : Char → Bool) : (many1 p).Lasting := ⟨trivial, trivial⟩

end Pattern

end BlockSafe
