import BlockSafe.Text.Pattern

/-!
# Matches of patterns

A pattern occurs in a text iff a match starts where the text is split in two (`occurs_iff`).  Two
texts can be searched side by side: a pattern carries related positions to related positions
(`Carries`) if its parts do, and then it matches at the second of two related positions if it
matches at the first.

What `findAll` collects is looked for again where each find ends (`findAllFrom_found`), so a reader
that finds corresponding things in two texts collects corresponding lists.
-/

namespace BlockSafe

namespace Pattern

variable {p q : Pattern} {c d : Cursor}

/-- The last character, whatever stands before the text. -/
theorem getLast?_cons_or (x : Char) (u : Text) (before : Option Char) :
    (x :: u).getLast?.or before = u.getLast?.or (some x) := by
  rw [List.getLast?_cons]
  cases u.getLast? with
  | none => rfl
  | some y => rfl

/-! ## Single matches -/

theorem matchesAt_iff : p.matchesAt c = true ↔ ∃ d, d ∈ p.rests c := by
  unfold matchesAt
  rw [Bool.not_eq_true', List.isEmpty_eq_false_iff_exists_mem]

theorem matchesAt_seq :
    (seq p q).matchesAt c = true ↔ ∃ d ∈ p.rests c, q.matchesAt d = true := by
  simp only [matchesAt_iff, rests, List.mem_flatMap]
  exact ⟨fun ⟨e, d, hd, he⟩ => ⟨d, hd, e, he⟩, fun ⟨d, hd, e, he⟩ => ⟨e, d, hd, he⟩⟩

theorem matchesAt_either :
    (either p q).matchesAt c = (p.matchesAt c || q.matchesAt c) := by
  rw [Bool.eq_iff_iff, Bool.or_eq_true, matchesAt_iff, matchesAt_iff, matchesAt_iff]
  simp only [rests, List.mem_append, exists_or]

theorem mem_rests_one {p : Char → Bool} :
    d ∈ (one p).rests c ↔ ∃ x rest, c.rest = x :: rest ∧ p x = true ∧ d = ⟨some x, rest⟩ := by
  obtain ⟨before, rest⟩ := c
  cases rest with
  | nil => simp [rests]
  | cons x rest =>
    simp only [rests, List.cons.injEq]
    constructor
    · intro h
      split at h
      · next hx => exact ⟨x, rest, ⟨rfl, rfl⟩, hx, List.mem_singleton.1 h⟩
      · cases h
    · rintro ⟨_, _, ⟨rfl, rfl⟩, hx, rfl⟩
      rw [if_pos hx]
      exact List.mem_cons_self

theorem mem_rests_test {condition : Cursor → Bool} :
    d ∈ (test condition).rests c ↔ condition c = true ∧ d = c := by
  simp [rests]

theorem matchesAt_one {p : Char → Bool} : (one p).matchesAt c = c.rest.head?.any p := by
  obtain ⟨before, rest⟩ := c
  cases rest with
  | nil => rfl
  | cons x rest =>
    cases h : p x with
    | true => simp [matchesAt, rests, h]
    | false => simp [matchesAt, rests, h]

theorem matchesAt_test {condition : Cursor → Bool} :
    (test condition).matchesAt c = condition c := by
  cases h : condition c with
  | true => simp [matchesAt, rests, h]
  | false => simp [matchesAt, rests, h]

theorem matchesAt_nothing : nothing.matchesAt c = true := rfl

theorem matchesAt_last : (chain [p]).matchesAt c = p.matchesAt c := by
  rw [Bool.eq_iff_iff]
  exact matchesAt_seq.trans ⟨fun ⟨d, hd, _⟩ => matchesAt_iff.2 ⟨d, hd⟩,
    fun h => (matchesAt_iff.1 h).imp fun d hd => ⟨hd, matchesAt_nothing⟩⟩

/-- A fixed text is a class of one character after the other. -/
theorem lit_eq_ones (s : Text) : lit s = chain ((s.map fun c d => d == c).map one) := by
  rw [List.map_map]
  rfl

/-- A match of a fixed text takes just that text. -/
theorem rest_of_mem_lit {s : Text} (h : d ∈ (lit s).rests c) : c.rest = s ++ d.rest := by
  induction s generalizing c with
  | nil =>
    obtain ⟨-, rfl⟩ := mem_rests_test.1 h
    rfl
  | cons x s ih =>
    obtain ⟨e, he, hd⟩ := List.mem_flatMap.1 h
    obtain ⟨y, rest, hrest, hy, rfl⟩ := mem_rests_one.1 he
    have hrest' : rest = s ++ d.rest := ih hd
    rw [hrest, eq_of_beq hy, hrest', List.cons_append]

theorem rest_of_mem_wordStart {s : Text} (h : d ∈ (wordStart s).rests c) :
    c.rest = s ++ d.rest := by
  obtain ⟨e, he, hlit⟩ := List.mem_flatMap.1 h
  obtain ⟨-, rfl⟩ := mem_rests_test.1 he
  obtain ⟨f, hf, hnothing⟩ := List.mem_flatMap.1 hlit
  obtain ⟨-, rfl⟩ := mem_rests_test.1 hnothing
  exact rest_of_mem_lit hf

/-! ## Occurrences -/

theorem occursFrom_here {before : Option Char} {s : Text}
    (h : p.matchesAt ⟨before, s⟩ = true) : p.occursFrom before s = true := by
  cases s with
  | nil => exact h
  | cons c s => rw [occursFrom, h, Bool.true_or]

theorem occursFrom_later {before : Option Char} {x : Char} {s : Text}
    (h : p.occursFrom (some x) s = true) : p.occursFrom before (x :: s) = true := by
  rw [occursFrom, h, Bool.or_true]

theorem occursFrom_iff {before : Option Char} {s : Text} : p.occursFrom before s = true ↔
    ∃ u t, s = u ++ t ∧ p.matchesAt ⟨u.getLast?.or before, t⟩ = true := by
  induction s generalizing before with
  | nil =>
    simp only [occursFrom, List.nil_eq_append_iff]
    constructor
    · exact fun h => ⟨[], [], ⟨rfl, rfl⟩, h⟩
    · rintro ⟨_, _, ⟨rfl, rfl⟩, h⟩
      exact h
  | cons x s ih =>
    simp only [occursFrom, Bool.or_eq_true, ih]
    constructor
    · rintro (h | ⟨u, t, rfl, h⟩)
      · exact ⟨[], x :: s, rfl, h⟩
      · exact ⟨x :: u, t, rfl, by rwa [getLast?_cons_or]⟩
    · rintro ⟨u, t, hs, h⟩
      cases u with
      | nil =>
        rw [List.nil_append] at hs
        exact .inl (hs ▸ h)
      | cons y u =>
        rw [List.cons_append, List.cons.injEq] at hs
        obtain ⟨rfl, rfl⟩ := hs
        exact .inr ⟨u, t, rfl, by rwa [getLast?_cons_or] at h⟩

/-- A pattern occurs iff it matches behind some prefix. -/
theorem occurs_iff {s : Text} : p.occurs s = true ↔
    ∃ u t, s = u ++ t ∧ p.matchesAt ⟨u.getLast?, t⟩ = true := by
  unfold occurs
  rw [occursFrom_iff]
  simp only [Option.or_none]

theorem occursFrom_either (before : Option Char) (s : Text) :
    (either p q).occursFrom before s = (p.occursFrom before s || q.occursFrom before s) := by
  induction s generalizing before with
  | nil => exact matchesAt_either
  | cons x s ih =>
    simp only [occursFrom, matchesAt_either, ih]
    ac_rfl

theorem occurs_either (s : Text) : (either p q).occurs s = (p.occurs s || q.occurs s) :=
  occursFrom_either none s

/-- Where a pattern matches is all that matters for its occurrences. -/
theorem occurs_congr (h : ∀ c, p.matchesAt c = q.matchesAt c) (s : Text) :
    p.occurs s = q.occurs s := by
  rw [Bool.eq_iff_iff, occurs_iff, occurs_iff]
  simp only [h]

/-! ## Positions side by side -/

/-- From related positions, whatever position a match reaches on the first side is related to one
that a match reaches on the second. -/
def Carries (p : Pattern) (A B : Cursor → Cursor → Prop) : Prop :=
  ∀ ⦃c d⦄, A c d → ∀ c' ∈ p.rests c, ∃ d' ∈ p.rests d, B c' d'

section
variable {A A' B B' C : Cursor → Cursor → Prop}

theorem Carries.seq (hp : p.Carries A B) (hq : q.Carries B C) : (seq p q).Carries A C := by
  intro c d hcd e he
  obtain ⟨c', hc', he⟩ := List.mem_flatMap.1 he
  obtain ⟨d', hd', hcd'⟩ := hp hcd c' hc'
  obtain ⟨f, hf, hef⟩ := hq hcd' e he
  exact ⟨f, List.mem_flatMap.2 ⟨d', hd', hf⟩, hef⟩

theorem Carries.either (hp : p.Carries A B) (hq : q.Carries A B) : (either p q).Carries A B := by
  intro c d hcd c' hc'
  rcases List.mem_append.1 hc' with hc' | hc'
  · obtain ⟨d', hd', hcd'⟩ := hp hcd c' hc'
    exact ⟨d', List.mem_append_left _ hd', hcd'⟩
  · obtain ⟨d', hd', hcd'⟩ := hq hcd c' hc'
    exact ⟨d', List.mem_append_right _ hd', hcd'⟩

theorem Carries.imp (h : p.Carries A B) (hA : ∀ ⦃c d⦄, A' c d → A c d)
    (hB : ∀ ⦃c d⦄, B c d → B' c d) : p.Carries A' B' := by
  intro c d hcd c' hc'
  obtain ⟨d', hd', hcd'⟩ := h (hA hcd) c' hc'
  exact ⟨d', hd', hB hcd'⟩

theorem carries_nothing (A : Cursor → Cursor → Prop) : nothing.Carries A A := by
  intro c d hcd c' hc'
  obtain ⟨-, rfl⟩ := mem_rests_test.1 hc'
  exact ⟨d, mem_rests_test.2 ⟨rfl, rfl⟩, hcd⟩

theorem Carries.matchesAt (h : p.Carries A B) (hcd : A c d) (hc : p.matchesAt c = true) :
    p.matchesAt d = true := by
  obtain ⟨c', hc'⟩ := matchesAt_iff.1 hc
  obtain ⟨d', hd', -⟩ := h hcd c' hc'
  exact matchesAt_iff.2 ⟨d', hd'⟩

end

/-! ## Runs -/

theorem mem_runs_self (p : Char → Bool) (before : Option Char) (s : Text) :
    ⟨before, s⟩ ∈ runs p before s := by
  cases s with
  | nil => exact List.mem_cons_self
  | cons x s => exact List.mem_cons_self

theorem mem_runs_cons {p : Char → Bool} {before : Option Char} {x : Char} {s : Text} :
    d ∈ runs p before (x :: s) ↔ d = ⟨before, x :: s⟩ ∨ p x = true ∧ d ∈ runs p (some x) s := by
  rw [runs, List.mem_cons]
  split
  · next h => simp [h]
  · next h => simp [h]

/-- A run can take all characters of a text in its class. -/
theorem mem_runs_append {p : Char → Bool} {u : Text} (h : ∀ x ∈ u, p x = true)
    (before : Option Char) (t : Text) : ⟨u.getLast?.or before, t⟩ ∈ runs p before (u ++ t) := by
  induction u generalizing before with
  | nil => exact mem_runs_self p before t
  | cons x u ih =>
    obtain ⟨hx, hu⟩ := List.forall_mem_cons.1 h
    rw [getLast?_cons_or]
    exact mem_runs_cons.2 (.inr ⟨hx, ih hu (some x)⟩)

/-- Characters of a class and then one of another class, where the two have none in common. -/
theorem matchesAt_many_one {p q : Char → Bool} (hpq : ∀ x, p x = true → q x = false) (c : Cursor) :
    (seq (many p) (chain [one q])).matchesAt c = (c.rest.dropWhile p).head?.any q := by
  obtain ⟨before, s⟩ := c
  rw [Bool.eq_iff_iff, matchesAt_seq]
  simp only [matchesAt_last, matchesAt_one, rests]
  induction s generalizing before with
  | nil => simp [runs]
  | cons x s ih =>
    simp only [mem_runs_cons, or_and_right, exists_or, exists_eq_left, and_assoc,
      exists_and_left, ih]
    cases hx : p x with
    | true => simp [hx, hpq x hx]
    | false => simp [hx]

/-- For a match to follow, one character of a run does as well as all of it. -/
theorem matchesAt_many1 (p : Pattern) (q : Char → Bool) (c : Cursor) :
    (chain [p, one q]).matchesAt c = (chain [p, many1 q]).matchesAt c := by
  rw [Bool.eq_iff_iff]
  have hone : ∀ d : Cursor, (chain [one q]).matchesAt d = true ↔
      (chain [many1 q]).matchesAt d = true := by
    intro d
    rw [matchesAt_last, matchesAt_last, many1, matchesAt_seq, matchesAt_iff]
    refine exists_congr fun e => (and_iff_left ?_).symm
    exact matchesAt_iff.2 ⟨_, mem_runs_self q e.before e.rest⟩
  show (seq p (chain [one q])).matchesAt c = true ↔ (seq p (chain [many1 q])).matchesAt c = true
  simp only [matchesAt_seq, hone]

end Pattern

/-! ## Collecting -/

section
variable {α : Type} {read? : Cursor → Option (α × Text)}

theorem findAllFrom_skip (before : Option Char) (u t : Text) :
    findAllFrom read? u.length before (u ++ t) =
      findAllFrom read? 0 (u.getLast?.or before) t := by
  induction u generalizing before with
  | nil => rfl
  | cons x u ih =>
    rw [List.length_cons, List.cons_append, findAllFrom, ih, Pattern.getLast?_cons_or]

/-- Whatever is collected was found at some position. -/
theorem mem_findAllFrom {a : α} {skip : Nat} {before : Option Char} {s : Text}
    (h : a ∈ findAllFrom read? skip before s) : ∃ cursor tail, read? cursor = some (a, tail) := by
  fun_induction findAllFrom read? skip before s with
  | case1 => cases h
  | case2 skip before c rest ih => exact ih h
  | case3 before c rest found tail hread ih =>
    rcases List.mem_cons.1 h with rfl | h
    · exact ⟨_, tail, hread⟩
    · exact ih h
  | case4 before c rest hread ih => exact ih h

theorem findAllFrom_none {before : Option Char} {x : Char} {s : Text}
    (h : read? ⟨before, x :: s⟩ = none) :
    findAllFrom read? 0 before (x :: s) = findAllFrom read? 0 (some x) s := by
  rw [findAllFrom, h]

/-- After a find, the search goes on behind it. -/
theorem findAllFrom_found {before : Option Char} {x : Char} {u t : Text} {a : α}
    (h : read? ⟨before, x :: (u ++ t)⟩ = some (a, t)) :
    findAllFrom read? 0 before (x :: (u ++ t)) =
      a :: findAllFrom read? 0 (u.getLast?.or (some x)) t := by
  have hlength : (u ++ t).length - t.length = u.length := by
    rw [List.length_append, Nat.add_sub_cancel]
  rw [findAllFrom, h, ← findAllFrom_skip]
  simp only [hlength]

theorem findAllFrom_append {before : Option Char} {u t : Text} {a : α} (hu : u ≠ [])
    (h : read? ⟨before, u ++ t⟩ = some (a, t)) :
    findAllFrom read? 0 before (u ++ t) = a :: findAllFrom read? 0 (u.getLast?.or before) t := by
  cases u with
  | nil => exact absurd rfl hu
  | cons x u => rw [List.cons_append, findAllFrom_found h, Pattern.getLast?_cons_or]

/-- The search passes over a text in which nothing found starts. -/
theorem findAllFrom_pass {before : Option Char} {u t : Text}
    (h : ∀ p q, u = p ++ q → q ≠ [] → read? ⟨p.getLast?.or before, q ++ t⟩ = none) :
    findAllFrom read? 0 before (u ++ t) = findAllFrom read? 0 (u.getLast?.or before) t := by
  induction u generalizing before with
  | nil => rfl
  | cons x u ih =>
    have hstart : read? ⟨before, x :: (u ++ t)⟩ = none := h [] (x :: u) rfl (List.cons_ne_nil x u)
    rw [List.cons_append, findAllFrom_none hstart, Pattern.getLast?_cons_or]
    refine ih fun p q hu hq => ?_
    rw [← Pattern.getLast?_cons_or x p before]
    exact h (x :: p) q (by rw [hu]; rfl) hq

/-- What is found before a character that no find reaches is found there without the rest of the
text, and the search goes on behind that character. -/
theorem findAllFrom_across {x : Char} {t : Text}
    (hread : ∀ before u, read? ⟨before, u ++ x :: t⟩ =
      (read? ⟨before, u⟩).map fun found => (found.1, found.2 ++ x :: t))
    (htail : ∀ before u a tail, read? ⟨before, u⟩ = some (a, tail) →
      tail <:+ u ∧ tail.length < u.length) (before : Option Char) (u : Text) :
    findAllFrom read? 0 before (u ++ x :: t) =
      findAllFrom read? 0 before u ++ findAllFrom read? 0 (some x) t := by
  -- A find may end anywhere behind its start, so the induction is on the length.
  induction hlength : u.length using Nat.strongRecOn generalizing before u with
  | ind n ih =>
    subst hlength
    have hacross := hread before u
    cases hfound : read? ⟨before, u⟩ with
    | none =>
      rw [hfound] at hacross
      cases u with
      | nil => exact findAllFrom_none hacross
      | cons c u =>
        rw [List.cons_append] at hacross ⊢
        rw [findAllFrom_none hacross, findAllFrom_none hfound]
        exact ih u.length (Nat.lt_succ_self _) (some c) u rfl
    | some found =>
      obtain ⟨a, tail⟩ := found
      obtain ⟨⟨w, rfl⟩, hlt⟩ := htail before u a tail hfound
      have hw : w ≠ [] := by
        rintro rfl
        exact Nat.lt_irrefl _ hlt
      rw [hfound, List.append_assoc] at hacross
      rw [List.append_assoc, findAllFrom_append hw hacross, findAllFrom_append hw hfound,
        List.cons_append]
      exact congrArg (a :: ·) (ih tail.length hlt _ tail rfl)

end

end BlockSafe
