import BlockSafe.Proofs.Text.LineBreaks
import BlockSafe.Proofs.Text.Patterns

/-!
# Patterns across line breaks

A pattern that occurs in a text occurs in the text with a carriage return before every line feed,
and the other way round, if it is `Steady`: made of classes without breaks, of runs that take both
characters of a break or none, and of tests that do not tell a carriage return from a line feed.

Positions of the two texts are `Aligned` if they are the same.  A position inside a break has no
position of its own in the text without carriage returns; it is answered by the one behind the line
feed (`Near`), since what has got there has taken the carriage return as it would take a line feed.
Only a run goes on from there, and it goes on over the line feed.
-/

namespace BlockSafe

open Text

/-- The same position, on the left in the text with carriage returns. -/
inductive Aligned : Cursor → Cursor → Prop where
  | intro (before : Option Char) (rest : Text) : Aligned ⟨before, crlf rest⟩ ⟨before, rest⟩

/-- The same position, or one inside a break and the one behind it. -/
inductive Near : Cursor → Cursor → Prop where
  | aligned (before : Option Char) (rest : Text) : Near ⟨before, crlf rest⟩ ⟨before, rest⟩
  | inside (rest : Text) : Near ⟨some '\r', '\n' :: crlf rest⟩ ⟨some '\n', rest⟩

theorem Aligned.near {c d : Cursor} : Aligned c d → Near c d
  | .intro before rest => .aligned before rest

namespace Pattern

/-- A pattern that carries positions of the text with carriage returns to positions of the text
without them, and aligned positions back. -/
structure Steady (A B : Cursor → Cursor → Prop) (p : Pattern) : Prop where
  sound : p.Carries A B
  complete : p.Carries (flip Aligned) (flip Aligned)

section
variable {A B C : Cursor → Cursor → Prop} {p q : Pattern}

theorem Steady.seq (hp : p.Steady A B) (hq : q.Steady B C) : (seq p q).Steady A C :=
  ⟨hp.sound.seq hq.sound, hp.complete.seq hq.complete⟩

theorem Steady.either (hp : p.Steady A B) (hq : q.Steady A B) : (either p q).Steady A B :=
  ⟨hp.sound.either hq.sound, hp.complete.either hq.complete⟩

/-- What is steady near a break is so at aligned positions. -/
theorem Steady.aligned (h : p.Steady Near B) : p.Steady Aligned B :=
  ⟨h.sound.imp (fun _ _ => Aligned.near) fun _ _ h => h, h.complete⟩

theorem steady_nothing (A : Cursor → Cursor → Prop) : nothing.Steady A A :=
  ⟨carries_nothing A, carries_nothing _⟩

/-! ## Single characters -/

theorem steady_one {p : Char → Bool} (hp : Solid p) : (one p).Steady Near Aligned := by
  constructor
  · intro c d hcd c' hc'
    obtain ⟨x, rest, hrest, hx, rfl⟩ := mem_rests_one.1 hc'
    cases hcd with
    | aligned before s =>
      rcases crlf_eq_cons hrest with ⟨b, rfl, -, rfl⟩ | ⟨b, -, rfl, -⟩
      · exact ⟨⟨some x, b⟩, mem_rests_one.2 ⟨x, b, rfl, hx, rfl⟩, .intro _ _⟩
      · rw [hp.1] at hx
        cases hx
    | inside s =>
      cases hrest
      rw [hp.2] at hx
      cases hx
  · rintro _ _ ⟨before, s⟩ d' hd'
    obtain ⟨x, rest, rfl, hx, rfl⟩ := mem_rests_one.1 hd'
    have hx' : x ≠ '\n' := by
      rintro rfl
      rw [hp.2] at hx
      cases hx
    refine ⟨⟨some x, crlf rest⟩, ?_, .intro _ _⟩
    exact mem_rests_one.2 ⟨x, crlf rest, crlf_cons hx' rest, hx, rfl⟩

/-- A class that takes both characters of a break takes the first of them alone. -/
theorem carries_one_break {p : Char → Bool} (hp : p '\r' = p '\n') :
    (one p).Carries Aligned Near := by
  rintro _ _ ⟨before, s⟩ c' hc'
  obtain ⟨x, rest, hrest, hx, rfl⟩ := mem_rests_one.1 hc'
  rcases crlf_eq_cons hrest with ⟨b, rfl, -, rfl⟩ | ⟨b, rfl, rfl, rfl⟩
  · exact ⟨⟨some x, b⟩, mem_rests_one.2 ⟨x, b, rfl, hx, rfl⟩, .aligned _ _⟩
  · exact ⟨⟨some '\n', b⟩, mem_rests_one.2 ⟨'\n', b, rfl, hp ▸ hx, rfl⟩, .inside _⟩

/-! ## Runs -/

section
variable {r : Char → Bool} (hr : r '\r' = r '\n')
include hr

theorem runs_sound (before : Option Char) (s : Text) {c' : Cursor}
    (h : c' ∈ runs r before (crlf s)) : ∃ d' ∈ runs r before s, Near c' d' := by
  induction s using break_induction generalizing before with
  | nil => exact ⟨c', h, by rw [List.mem_singleton.1 h]; exact .aligned _ []⟩
  | line s ih =>
    rw [crlf_break, mem_runs_cons, mem_runs_cons] at h
    rcases h with rfl | ⟨htaken, rfl | ⟨-, h⟩⟩
    · exact ⟨⟨before, '\n' :: s⟩, mem_runs_self _ _ _, by
        rw [← crlf_break]; exact .aligned _ _⟩
    · exact ⟨⟨some '\n', s⟩, mem_runs_cons.2 (.inr ⟨hr ▸ htaken, mem_runs_self _ _ _⟩),
        .inside _⟩
    · obtain ⟨d', hd', hnear⟩ := ih (some '\n') h
      exact ⟨d', mem_runs_cons.2 (.inr ⟨hr ▸ htaken, hd'⟩), hnear⟩
  | char x s hx ih =>
    rw [crlf_cons hx, mem_runs_cons] at h
    rcases h with rfl | ⟨htaken, h⟩
    · exact ⟨⟨before, x :: s⟩, mem_runs_self _ _ _, by
        rw [← crlf_cons hx]; exact .aligned _ _⟩
    · obtain ⟨d', hd', hnear⟩ := ih (some x) h
      exact ⟨d', mem_runs_cons.2 (.inr ⟨htaken, hd'⟩), hnear⟩

theorem runs_complete (before : Option Char) (s : Text) {d' : Cursor}
    (h : d' ∈ runs r before s) : ∃ c' ∈ runs r before (crlf s), Aligned c' d' := by
  induction s using break_induction generalizing before with
  | nil => exact ⟨d', h, by rw [List.mem_singleton.1 h]; exact .intro _ []⟩
  | line s ih =>
    rcases mem_runs_cons.1 h with rfl | ⟨htaken, h⟩
    · exact ⟨⟨before, crlf ('\n' :: s)⟩, mem_runs_self _ _ _, .intro _ _⟩
    · obtain ⟨c', hc', haligned⟩ := ih (some '\n') h
      refine ⟨c', ?_, haligned⟩
      rw [crlf_break]
      exact mem_runs_cons.2 (.inr ⟨hr ▸ htaken, mem_runs_cons.2 (.inr ⟨htaken, hc'⟩)⟩)
  | char x s hx ih =>
    rcases mem_runs_cons.1 h with rfl | ⟨htaken, h⟩
    · exact ⟨⟨before, crlf (x :: s)⟩, mem_runs_self _ _ _, .intro _ _⟩
    · obtain ⟨c', hc', haligned⟩ := ih (some x) h
      refine ⟨c', ?_, haligned⟩
      rw [crlf_cons hx]
      exact mem_runs_cons.2 (.inr ⟨htaken, hc'⟩)

/-- A run goes on from inside a break. -/
theorem steady_many : (many r).Steady Near Near := by
  constructor
  · intro c d hcd c' hc'
    cases hcd with
    | aligned before s => exact runs_sound hr before s hc'
    | inside s =>
      rcases mem_runs_cons.1 hc' with rfl | ⟨-, hc'⟩
      · exact ⟨_, mem_runs_self _ _ _, .inside s⟩
      · exact runs_sound hr (some '\n') s hc'
  · rintro _ _ ⟨before, s⟩ d' hd'
    exact runs_complete hr before s hd'

/-- A run of at least one character, which ends where it can go no further inside a break. -/
theorem steady_many1 : (many1 r).Steady Aligned Near := by
  refine ⟨(carries_one_break hr).seq (steady_many hr).sound, ?_⟩
  rintro _ _ ⟨before, s⟩ d' hd'
  obtain ⟨e, he, hd'⟩ := List.mem_flatMap.1 hd'
  obtain ⟨x, rest, rfl, hx, rfl⟩ := mem_rests_one.1 he
  obtain ⟨c', hc', haligned⟩ := runs_complete hr (some x) rest hd'
  refine ⟨c', List.mem_flatMap.2 ?_, haligned⟩
  by_cases hbreak : x = '\n'
  · subst hbreak
    refine ⟨⟨some '\r', '\n' :: crlf rest⟩, ?_, mem_runs_cons.2 (.inr ⟨hx, hc'⟩)⟩
    exact mem_rests_one.2 ⟨'\r', _, crlf_break rest, hr ▸ hx, rfl⟩
  · exact ⟨⟨some x, crlf rest⟩, mem_rests_one.2 ⟨x, _, crlf_cons hbreak rest, hx, rfl⟩, hc'⟩

end

/-! ## Tests -/

theorem steady_test {condition : Cursor → Bool}
    (haligned : ∀ before s, condition ⟨before, crlf s⟩ = condition ⟨before, s⟩)
    (hinside : ∀ s, condition ⟨some '\r', '\n' :: s⟩ = false) :
    (test condition).Steady Near Aligned := by
  constructor
  · intro c d hcd c' hc'
    obtain ⟨hc, rfl⟩ := mem_rests_test.1 hc'
    cases hcd with
    | aligned before s =>
      exact ⟨⟨before, s⟩, mem_rests_test.2 ⟨haligned before s ▸ hc, rfl⟩, .intro _ _⟩
    | inside s =>
      rw [hinside] at hc
      cases hc
  · rintro _ _ ⟨before, s⟩ d' hd'
    obtain ⟨hd, rfl⟩ := mem_rests_test.1 hd'
    exact ⟨⟨before, crlf s⟩, mem_rests_test.2 ⟨(haligned before s).trans hd, rfl⟩, .intro _ _⟩

theorem atWordEdge_crlf (before : Option Char) (s : Text) :
    Cursor.atWordEdge ⟨before, crlf s⟩ = Cursor.atWordEdge ⟨before, s⟩ := by
  unfold Cursor.atWordEdge
  rw [any_head_crlf (by decide)]

theorem steady_wordEdge : wordEdge.Steady Near Aligned :=
  steady_test atWordEdge_crlf fun _ => rfl

theorem steady_lineStart : (test Cursor.atLineStart).Steady Near Aligned :=
  steady_test (fun _ _ => rfl) fun _ => rfl

/-! ## Fixed texts -/

theorem steady_ones {ps : List (Char → Bool)} (h : ∀ p ∈ ps, Solid p) :
    (chain (ps.map one)).Steady Aligned Aligned := by
  induction ps with
  | nil => exact steady_nothing Aligned
  | cons p ps ih =>
    obtain ⟨hp, hps⟩ := List.forall_mem_cons.1 h
    exact (steady_one hp).aligned.seq (ih hps)

theorem steady_ones_near {ps : List (Char → Bool)} (hne : ps ≠ []) (h : ∀ p ∈ ps, Solid p) :
    (chain (ps.map one)).Steady Near Aligned := by
  obtain ⟨p, ps, rfl⟩ := List.exists_cons_of_ne_nil hne
  obtain ⟨hp, hps⟩ := List.forall_mem_cons.1 h
  exact (steady_one hp).seq (steady_ones hps)

end

/-- A text without breaks that is looked for. -/
def Token (s : Text) : Prop := s ≠ [] ∧ ∀ c ∈ s, ¬ IsBreak c

-- The characters of the text are checked, not all characters.
instance (s : Text) : Decidable (Token s) :=
  @instDecidableAnd _ _ inferInstance (List.decidableBAll (¬ IsBreak ·) s)

theorem steady_lit {s : Text} (h : Token s) : (lit s).Steady Near Aligned := by
  rw [lit_eq_ones]
  apply steady_ones_near (by simpa using h.1)
  intro p hp
  obtain ⟨c, hc, rfl⟩ := List.mem_map.1 hp
  exact ⟨beq_false_of_ne fun heq => h.2 c hc (.inl heq.symm),
    beq_false_of_ne fun heq => h.2 c hc (.inr heq.symm)⟩

theorem steady_litAnyCase {s : Text} (h : Token (s.map foldLetter)) :
    (litAnyCase s).Steady Near Aligned := by
  have hones : litAnyCase s = chain ((s.map fun c d => foldLetter d == foldLetter c).map one) := by
    rw [List.map_map]
    rfl
  rw [hones]
  apply steady_ones_near (by simpa using h.1)
  intro p hp
  obtain ⟨c, hc, rfl⟩ := List.mem_map.1 hp
  have hfold := h.2 (foldLetter c) (List.mem_map_of_mem hc)
  exact ⟨beq_false_of_ne fun heq => hfold (.inl heq.symm),
    beq_false_of_ne fun heq => hfold (.inr heq.symm)⟩

theorem steady_wordStart {s : Text} (h : Token s) : (wordStart s).Steady Near Aligned :=
  steady_wordEdge.seq ((steady_lit h).aligned.seq (steady_nothing Aligned))

theorem steady_word {s : Text} (h : Token s) : (word s).Steady Near Aligned :=
  steady_wordEdge.seq ((steady_lit h).aligned.seq
    (steady_wordEdge.aligned.seq (steady_nothing Aligned)))

/-! ## Occurrences -/

/-- Whether the pattern occurs does not depend on how line breaks are written. -/
def Unbroken (p : Pattern) : Prop := ∀ s, p.occurs (crlf s) = p.occurs s

/-- Every position of the text with carriage returns is near one of the text without them. -/
theorem near_of_split {s u t : Text} (h : crlf s = u ++ t) :
    ∃ a b, s = a ++ b ∧ Near ⟨u.getLast?, t⟩ ⟨a.getLast?, b⟩ := by
  rcases crlf_eq_append h with ⟨a, b, rfl, rfl, rfl⟩ | ⟨a, b, rfl, rfl, rfl⟩
  · refine ⟨a, b, rfl, ?_⟩
    rw [getLast?_crlf]
    exact .aligned _ _
  · refine ⟨a ++ ['\n'], b, by simp, ?_⟩
    rw [List.getLast?_concat, List.getLast?_concat]
    exact .inside b

theorem Steady.unbroken {p : Pattern} {B : Cursor → Cursor → Prop} (h : p.Steady Near B) :
    p.Unbroken := by
  intro s
  rw [Bool.eq_iff_iff, occurs_iff, occurs_iff]
  constructor
  · rintro ⟨u, t, hs, hmatch⟩
    obtain ⟨a, b, rfl, hnear⟩ := near_of_split hs
    exact ⟨a, b, rfl, h.sound.matchesAt hnear hmatch⟩
  · rintro ⟨a, b, rfl, hmatch⟩
    refine ⟨crlf a, crlf b, crlf_append a b, ?_⟩
    rw [getLast?_crlf]
    have hflip : flip Aligned ⟨a.getLast?, b⟩ ⟨a.getLast?, crlf b⟩ := .intro _ _
    exact h.complete.matchesAt hflip hmatch

theorem Unbroken.either {p q : Pattern} (hp : p.Unbroken) (hq : q.Unbroken) :
    (either p q).Unbroken := by
  intro s
  rw [occurs_either, occurs_either, hp, hq]

theorem unbroken_anyOf {ps : List Pattern} (h : ∀ p ∈ ps, p.Unbroken) : (anyOf ps).Unbroken := by
  induction ps with
  | nil =>
    have hnone : ∀ s, (anyOf []).occurs s = false := by
      intro s
      rw [← Bool.not_eq_true, occurs_iff]
      rintro ⟨u, t, -, hmatch⟩
      cases hmatch
    intro s
    rw [hnone, hnone]
  | cons p ps ih =>
    obtain ⟨hp, hps⟩ := List.forall_mem_cons.1 h
    exact hp.either (ih hps)

theorem Unbroken.congr {p q : Pattern} (hp : p.Unbroken)
    (h : ∀ c, q.matchesAt c = p.matchesAt c) : q.Unbroken := by
  intro s
  rw [occurs_congr h, occurs_congr h, hp]

end Pattern

/-! ## Collecting -/

/-- A reader that finds corresponding things, by `f`, at corresponding positions, and nothing at a
break. -/
structure SteadyReader {α : Type} (read? : Cursor → Option (α × Text)) (f : α → α) : Prop where
  read : ∀ before s,
    read? ⟨before, crlf s⟩ = (read? ⟨before, s⟩).map fun x => (f x.1, crlf x.2)
  stop : ∀ before c s, IsBreak c → read? ⟨before, c :: s⟩ = none
  tail : ∀ before s a t, read? ⟨before, s⟩ = some (a, t) → t <:+ s ∧ t.length < s.length

theorem SteadyReader.findAllFrom_crlf {α : Type} {read? : Cursor → Option (α × Text)} {f : α → α}
    (h : SteadyReader read? f) (s : Text) (before : Option Char) :
    findAllFrom read? 0 before (crlf s) = (findAllFrom read? 0 before s).map f := by
  -- A find may end anywhere behind its start, so the induction is on the length.
  induction hn : s.length using Nat.strongRecOn generalizing s before with
  | ind n ih =>
    cases s with
    | nil => rfl
    | cons c s =>
      by_cases hc : c = '\n'
      · subst hc
        rw [crlf_break, findAllFrom_none (h.stop _ _ _ (.inl rfl)),
          findAllFrom_none (h.stop _ _ _ (.inr rfl)), findAllFrom_none (h.stop _ _ _ (.inr rfl))]
        exact ih s.length (by rw [← hn]; exact Nat.lt_succ_self _) s _ rfl
      · have hread := h.read before (c :: s)
        rw [crlf_cons hc] at hread ⊢
        cases hfound : read? ⟨before, c :: s⟩ with
        | none =>
          rw [hfound] at hread
          rw [findAllFrom_none hread, findAllFrom_none hfound]
          exact ih s.length (by rw [← hn]; exact Nat.lt_succ_self _) s _ rfl
        | some x =>
          obtain ⟨a, t⟩ := x
          obtain ⟨⟨u, hu⟩, hlt⟩ := h.tail before (c :: s) a t hfound
          obtain _ | ⟨d, u⟩ := u
          · rw [← hu] at hlt
            exact absurd hlt (Nat.lt_irrefl _)
          · rw [List.cons_append, List.cons.injEq] at hu
            obtain ⟨rfl, rfl⟩ := hu
            rw [hfound, crlf_append] at hread
            rw [findAllFrom_found hfound, crlf_append, findAllFrom_found hread, getLast?_crlf,
              List.map_cons, ih t.length (hn ▸ hlt) t _ rfl]

theorem SteadyReader.findAll_crlf {α : Type} {read? : Cursor → Option (α × Text)} {f : α → α}
    (h : SteadyReader read? f) (s : Text) :
    findAll read? (crlf s) = (findAll read? s).map f :=
  h.findAllFrom_crlf s none

end BlockSafe
