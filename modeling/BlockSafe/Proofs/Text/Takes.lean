import BlockSafe.Proofs.Text.Classes
import BlockSafe.Proofs.Text.Patterns

/-!
# What a pattern takes

A match takes a text: `p.Takes before m v` says that `p` can take `m` where it stands between the
character `before` and the text `v`.  Each kind of pattern takes what its name says (`takes_one`,
`takes_many`, `takes_test`, `takes_seq`, `takes_either`), and every match is of this form
(`matchesAt_iff_takes`, `occurs_iff_takes`).  So the texts of a pattern can be read off it as a
grammar.
-/

namespace BlockSafe

namespace Pattern

variable {p q : Pattern} {before : Option Char} {m v : Text} {c d : Cursor}

/-- The pattern can take the text `m` that stands between `before` and `v`. -/
def Takes (p : Pattern) (before : Option Char) (m v : Text) : Prop :=
  (⟨m.getLast?.or before, v⟩ : Cursor) ∈ p.rests ⟨before, m ++ v⟩

/-! ## Matches -/

theorem getLast?_append_or (a b : Text) (before : Option Char) :
    (a ++ b).getLast?.or before = b.getLast?.or (a.getLast?.or before) := by
  rw [List.getLast?_append, Option.or_assoc]

theorem runs_taken {r : Char → Bool} {s : Text} (h : d ∈ runs r before s) :
    ∃ u, s = u ++ d.rest ∧ d.before = u.getLast?.or before ∧ ∀ x ∈ u, r x = true := by
  induction s generalizing before with
  | nil =>
    obtain rfl := List.mem_singleton.1 h
    exact ⟨[], rfl, rfl, fun _ hx => absurd hx List.not_mem_nil⟩
  | cons x s ih =>
    rcases mem_runs_cons.1 h with rfl | ⟨hx, h⟩
    · exact ⟨[], rfl, rfl, fun _ hx => absurd hx List.not_mem_nil⟩
    · obtain ⟨u, hs, hbefore, hu⟩ := ih h
      refine ⟨x :: u, ?_, ?_, List.forall_mem_cons.2 ⟨hx, hu⟩⟩
      · rw [List.cons_append, ← hs]
      · rw [hbefore, getLast?_cons_or]

/-- Whatever position a match reaches, it has taken the text up to there. -/
theorem rests_taken (h : d ∈ p.rests c) :
    ∃ m, c.rest = m ++ d.rest ∧ d.before = m.getLast?.or c.before := by
  induction p generalizing c d with
  | one r =>
    obtain ⟨x, rest, hrest, -, rfl⟩ := mem_rests_one.1 h
    exact ⟨[x], hrest, rfl⟩
  | many r =>
    obtain ⟨u, hrest, hbefore, -⟩ := runs_taken h
    exact ⟨u, hrest, hbefore⟩
  | test condition =>
    obtain ⟨-, rfl⟩ := mem_rests_test.1 h
    exact ⟨[], rfl, rfl⟩
  | seq first second ihfirst ihsecond =>
    obtain ⟨e, he, hd⟩ := List.mem_flatMap.1 h
    obtain ⟨m₁, hrest₁, hbefore₁⟩ := ihfirst he
    obtain ⟨m₂, hrest₂, hbefore₂⟩ := ihsecond hd
    refine ⟨m₁ ++ m₂, ?_, ?_⟩
    · rw [hrest₁, hrest₂, List.append_assoc]
    · rw [hbefore₂, hbefore₁, getLast?_append_or]
  | either left right ihleft ihright =>
    rcases List.mem_append.1 h with h | h
    · exact ihleft h
    · exact ihright h

theorem mem_rests_iff_takes : d ∈ p.rests c ↔
    ∃ m, c.rest = m ++ d.rest ∧ d.before = m.getLast?.or c.before ∧ p.Takes c.before m d.rest := by
  constructor
  · intro h
    obtain ⟨m, hrest, hbefore⟩ := rests_taken h
    refine ⟨m, hrest, hbefore, ?_⟩
    unfold Takes
    rw [← hrest, ← hbefore]
    exact h
  · rintro ⟨m, hrest, hbefore, h⟩
    unfold Takes at h
    rw [← hrest, ← hbefore] at h
    exact h

theorem matchesAt_iff_takes :
    p.matchesAt c = true ↔ ∃ m v, c.rest = m ++ v ∧ p.Takes c.before m v := by
  rw [matchesAt_iff]
  constructor
  · rintro ⟨d, hd⟩
    obtain ⟨m, hrest, -, h⟩ := mem_rests_iff_takes.1 hd
    exact ⟨m, d.rest, hrest, h⟩
  · rintro ⟨m, v, hrest, h⟩
    exact ⟨⟨m.getLast?.or c.before, v⟩, mem_rests_iff_takes.2 ⟨m, hrest, rfl, h⟩⟩

theorem occurs_iff_takes {s : Text} :
    p.occurs s = true ↔ ∃ u m v, s = u ++ (m ++ v) ∧ p.Takes u.getLast? m v := by
  rw [occurs_iff]
  simp only [matchesAt_iff_takes]
  constructor
  · rintro ⟨u, _, rfl, m, v, rfl, h⟩
    exact ⟨u, m, v, rfl, h⟩
  · rintro ⟨u, m, v, rfl, h⟩
    exact ⟨u, m ++ v, rfl, m, v, rfl, h⟩

/-! ## Kinds of patterns -/

theorem takes_one {r : Char → Bool} : (one r).Takes before m v ↔ ∃ x, m = [x] ∧ r x = true := by
  unfold Takes
  rw [mem_rests_one]
  constructor
  · rintro ⟨x, rest, hrest, hx, hd⟩
    obtain rfl : v = rest := congrArg Cursor.rest hd
    have hm : m ++ v = [x] ++ v := hrest
    exact ⟨x, List.append_cancel_right hm, hx⟩
  · rintro ⟨x, rfl, hx⟩
    exact ⟨x, v, rfl, hx, rfl⟩

theorem takes_many {r : Char → Bool} : (many r).Takes before m v ↔ ∀ x ∈ m, r x = true := by
  constructor
  · intro h
    obtain ⟨u, hs, -, hu⟩ := runs_taken h
    rwa [List.append_cancel_right hs]
  · exact fun h => mem_runs_append h before v

theorem takes_test {condition : Cursor → Bool} :
    (test condition).Takes before m v ↔ m = [] ∧ condition ⟨before, v⟩ = true := by
  unfold Takes
  rw [mem_rests_test]
  constructor
  · rintro ⟨hcondition, hd⟩
    have hm : v = m ++ v := congrArg Cursor.rest hd
    obtain rfl : m = [] := List.append_left_eq_self.1 hm.symm
    exact ⟨rfl, hcondition⟩
  · rintro ⟨rfl, hcondition⟩
    exact ⟨hcondition, rfl⟩

theorem takes_seq : (seq p q).Takes before m v ↔ ∃ m₁ m₂, m = m₁ ++ m₂ ∧
    p.Takes before m₁ (m₂ ++ v) ∧ q.Takes (m₁.getLast?.or before) m₂ v := by
  constructor
  · intro h
    obtain ⟨e, he, hd⟩ := List.mem_flatMap.1 h
    obtain ⟨m₁, hrest₁, hbefore₁, h₁⟩ := mem_rests_iff_takes.1 he
    obtain ⟨m₂, hrest₂, -, h₂⟩ := mem_rests_iff_takes.1 hd
    rw [hrest₂] at hrest₁ h₁
    rw [hbefore₁] at h₂
    refine ⟨m₁, m₂, ?_, h₁, h₂⟩
    exact List.append_cancel_right (hrest₁.trans (List.append_assoc _ _ _).symm)
  · rintro ⟨m₁, m₂, rfl, h₁, h₂⟩
    unfold Takes at h₁ h₂ ⊢
    rw [List.append_assoc, getLast?_append_or]
    exact List.mem_flatMap.2 ⟨_, h₁, h₂⟩

theorem takes_either :
    (either p q).Takes before m v ↔ p.Takes before m v ∨ q.Takes before m v :=
  List.mem_append

theorem takes_nothing : nothing.Takes before m v ↔ m = [] := by
  unfold nothing
  rw [takes_test, and_iff_left rfl]

theorem takes_chain_nil : (chain []).Takes before m v ↔ m = [] := takes_nothing

theorem takes_chain_cons {ps : List Pattern} : (chain (p :: ps)).Takes before m v ↔
    ∃ m₁ m₂, m = m₁ ++ m₂ ∧ p.Takes before m₁ (m₂ ++ v) ∧
      (chain ps).Takes (m₁.getLast?.or before) m₂ v :=
  takes_seq

theorem takes_anyOf {ps : List Pattern} :
    (anyOf ps).Takes before m v ↔ ∃ p ∈ ps, p.Takes before m v := by
  induction ps with
  | nil =>
    simp only [anyOf, List.foldr_nil, takes_test, Bool.false_eq_true, and_false, List.not_mem_nil,
      false_and, exists_false]
  | cons p ps ih =>
    simp only [List.mem_cons, or_and_right, exists_or, exists_eq_left, ← ih]
    exact takes_either

theorem takes_lit {s : Text} : (lit s).Takes before m v ↔ m = s := by
  induction s generalizing before m with
  | nil => exact takes_nothing
  | cons x s ih =>
    refine takes_seq.trans ?_
    simp only [takes_one]
    constructor
    · rintro ⟨_, _, rfl, ⟨y, rfl, hy⟩, hrest⟩
      rw [eq_of_beq hy, ih.1 hrest, List.singleton_append]
    · rintro rfl
      exact ⟨[x], s, rfl, ⟨x, rfl, beq_self_eq_true x⟩, ih.2 rfl⟩

theorem takes_litAnyCase {s : Text} :
    (litAnyCase s).Takes before m v ↔ m.map foldLetter = s.map foldLetter := by
  induction s generalizing before m with
  | nil => exact takes_nothing.trans List.map_eq_nil_iff.symm
  | cons x s ih =>
    refine takes_seq.trans ?_
    simp only [takes_one, List.map_cons]
    constructor
    · rintro ⟨_, _, rfl, ⟨y, rfl, hy⟩, hrest⟩
      rw [List.singleton_append, List.map_cons, eq_of_beq hy, ih.1 hrest]
    · intro h
      obtain ⟨y, rest, rfl, hy, hrest⟩ := List.map_eq_cons_iff.1 h
      exact ⟨[y], rest, rfl, ⟨y, rfl, beq_iff_eq.2 hy⟩, ih.2 hrest⟩

theorem takes_many1 {r : Char → Bool} :
    (many1 r).Takes before m v ↔ m ≠ [] ∧ ∀ x ∈ m, r x = true := by
  unfold many1
  simp only [takes_seq, takes_one, takes_many]
  constructor
  · rintro ⟨_, u, rfl, ⟨x, rfl, hx⟩, hu⟩
    exact ⟨List.cons_ne_nil x u, List.forall_mem_cons.2 ⟨hx, hu⟩⟩
  · rintro ⟨hne, h⟩
    obtain ⟨x, u, rfl⟩ := List.exists_cons_of_ne_nil hne
    obtain ⟨hx, hu⟩ := List.forall_mem_cons.1 h
    exact ⟨[x], u, rfl, ⟨x, rfl, hx⟩, hu⟩

theorem takes_spaces : spaces.Takes before m v ↔ Text.Blank m := takes_many

theorem takes_gap : gap.Takes before m v ↔ m ≠ [] ∧ Text.Blank m := takes_many1

theorem takes_ident : ident.Takes before m v ↔ IsIdent m := by
  unfold ident
  simp only [takes_seq, takes_one, takes_many]
  constructor
  · rintro ⟨_, rest, rfl, ⟨c, rfl, hc⟩, hrest⟩
    exact ⟨c, rest, rfl, hc, hrest⟩
  · rintro ⟨c, rest, rfl, hc, hrest⟩
    exact ⟨[c], rest, rfl, ⟨c, rfl, hc⟩, hrest⟩

/-! ## Occurrences -/

theorem occurs_lit {w s : Text} : (lit w).occurs s = true ↔ w <:+: s := by
  simp only [occurs_iff_takes, takes_lit]
  constructor
  · rintro ⟨u, _, v, rfl, rfl⟩
    exact ⟨u, v, List.append_assoc _ _ _⟩
  · rintro ⟨u, v, rfl⟩
    exact ⟨u, w, v, List.append_assoc _ _ _, rfl⟩

theorem occurs_anyOf {ps : List Pattern} {s : Text} :
    (anyOf ps).occurs s = true ↔ ∃ p ∈ ps, p.occurs s = true := by
  simp only [occurs_iff_takes, takes_anyOf]
  constructor
  · rintro ⟨u, m, v, hs, p, hp, h⟩
    exact ⟨p, hp, u, m, v, hs, h⟩
  · rintro ⟨p, hp, u, m, v, hs, h⟩
    exact ⟨u, m, v, hs, p, hp, h⟩

/-! ## Edges of words -/

/-- A word starts where a text that starts with a part of a word has no word before it. -/
theorem atWordEdge_start {x : Char} {t : Text} (hx : isWord x = true) (before : Option Char) :
    Cursor.atWordEdge ⟨before, x :: t⟩ = true ↔ before.any isWord = false := by
  simp [Cursor.atWordEdge, hx]

/-- A word ends where no word follows a text that ends with a part of a word. -/
theorem atWordEdge_end {x : Char} (hx : isWord x = true) (v : Text) :
    Cursor.atWordEdge ⟨some x, v⟩ = true ↔ v.head?.any isWord = false := by
  simp [Cursor.atWordEdge, hx]

/-- A pattern for a word finds the word on its own. -/
theorem occurs_word {w : Text} (hhead : w.head?.any isWord = true)
    (hlast : w.getLast?.any isWord = true) (s : Text) :
    (word w).occurs s = true ↔ Text.HasWord w s := by
  obtain ⟨x, hx, hword⟩ := (Option.any_eq_true _ _).1 hhead
  obtain ⟨y, hy, hyword⟩ := (Option.any_eq_true _ _).1 hlast
  obtain ⟨w', hw⟩ := List.head?_eq_some_iff.1 hx
  have htakes : ∀ before m v, (word w).Takes before m v ↔
      m = w ∧ before.any isWord = false ∧ v.head?.any isWord = false := by
    intro before m v
    simp only [word, wordEdge, takes_chain_cons, takes_chain_nil, takes_test, takes_lit]
    constructor
    · rintro ⟨_, _, rfl, ⟨rfl, hstart⟩, _, _, rfl, rfl, _, _, rfl, ⟨rfl, hend⟩, rfl⟩
      have hbefore : before.any isWord = false := by
        rw [hw] at hstart
        exact (atWordEdge_start hword before).1 hstart
      have hafter : v.head?.any isWord = false := by
        rw [hy] at hend
        exact (atWordEdge_end hyword v).1 hend
      exact ⟨by simp, hbefore, hafter⟩
    · rintro ⟨rfl, hbefore, hafter⟩
      refine ⟨[], m, rfl, ⟨rfl, ?_⟩, m, [], by simp, rfl, [], [], rfl, ⟨rfl, ?_⟩, rfl⟩
      · rw [hw]
        exact (atWordEdge_start hword before).2 hbefore
      · rw [hy]
        exact (atWordEdge_end hyword v).2 hafter
  simp only [occurs_iff_takes, htakes]
  constructor
  · rintro ⟨u, _, v, rfl, rfl, hu, hv⟩
    exact ⟨u, v, rfl, hu, hv⟩
  · rintro ⟨u, v, rfl, hu, hv⟩
    exact ⟨u, w, v, rfl, rfl, hu, hv⟩

end Pattern

end BlockSafe
