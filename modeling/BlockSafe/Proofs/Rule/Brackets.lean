import BlockSafe.Proofs.Rule.Sites

/-!
# Round brackets

`surplus` says how many more round brackets a text opens than it closes.  It grows by one at each
opening bracket, so the bracket that closes a given one is the first behind it that brings the
surplus below zero:

    bracketed? 1 s = some (args, v)  ↔  s = args ++ ')' :: v ∧ Paired args    (bracketed?_eq_some)
    bracketed? 1 s = none            ↔  Unclosing s                           (bracketed?_eq_none)

In a paired text every bracket is closed, so what follows an opening bracket in it closes that
bracket (`Paired.closes`).
-/

namespace BlockSafe

open Text

variable {s t args v : Text} {depth : Int}

/-- How many more round brackets open than close. -/
def surplus (s : Text) : Int := s.count '(' - s.count ')'

@[simp] theorem surplus_nil : surplus [] = 0 := rfl

@[simp] theorem surplus_append (s t : Text) : surplus (s ++ t) = surplus s + surplus t := by
  simp only [surplus, List.count_append]
  omega

@[simp] theorem surplus_open (s : Text) : surplus ('(' :: s) = surplus s + 1 := by
  simp [surplus]
  omega

@[simp] theorem surplus_close (s : Text) : surplus (')' :: s) = surplus s - 1 := by
  simp [surplus]
  omega

theorem surplus_other {c : Char} (hopen : c ≠ '(') (hclose : c ≠ ')') (s : Text) :
    surplus (c :: s) = surplus s := by
  simp [surplus, hopen, hclose]

theorem surplus_cons (c : Char) (s : Text) : surplus (c :: s) = surplus [c] + surplus s :=
  surplus_append [c] s

/-- Within the text no bracket is closed that was opened before it. -/
def Unclosing (s : Text) : Prop := ∀ p, p <+: s → 0 ≤ surplus p

/-- Every bracket of the text is opened and closed within it. -/
structure Paired (s : Text) : Prop where
  even : surplus s = 0
  unclosing : Unclosing s

/-! ## Depths -/

/-- Some of `depth` brackets stay open all through the text. -/
def StaysOpen (depth : Int) (s : Text) : Prop := ∀ p, p <+: s → 0 < depth + surplus p

theorem staysOpen_nil : StaysOpen depth [] ↔ 0 < depth := by
  simp [StaysOpen]

theorem staysOpen_cons {c : Char} :
    StaysOpen depth (c :: s) ↔ 0 < depth ∧ StaysOpen (depth + surplus [c]) s := by
  constructor
  · intro h
    refine ⟨by simpa using h [] List.nil_prefix, fun p hp => ?_⟩
    have hcons := h (c :: p) ((List.prefix_cons_inj c).2 hp)
    rw [surplus_cons] at hcons
    omega
  · rintro ⟨hdepth, h⟩ p hp
    cases p with
    | nil => simpa using hdepth
    | cons d q =>
      obtain ⟨rfl, hq⟩ := List.cons_prefix_cons.1 hp
      have hrest := h q hq
      rw [surplus_cons]
      omega

theorem StaysOpen.pos (h : StaysOpen depth s) : 0 < depth := by
  simpa using h [] List.nil_prefix

theorem StaysOpen.mono {depth' : Int} (h : StaysOpen depth s) (hle : depth ≤ depth') :
    StaysOpen depth' s := by
  intro p hp
  have hpos := h p hp
  omega

theorem staysOpen_append :
    StaysOpen depth (s ++ t) ↔ StaysOpen depth s ∧ StaysOpen (depth + surplus s) t := by
  induction s generalizing depth with
  | nil =>
    rw [List.nil_append, surplus_nil, Int.add_zero, staysOpen_nil]
    exact ⟨fun h => ⟨h.pos, h⟩, And.right⟩
  | cons c s ih =>
    rw [List.cons_append, staysOpen_cons, staysOpen_cons, ih, and_assoc, surplus_cons c s,
      Int.add_assoc]

theorem staysOpen_one : StaysOpen 1 s ↔ Unclosing s := by
  refine forall₂_congr fun p _ => ?_
  omega

theorem surplus_single (c : Char) :
    surplus [c] = if c = '(' then 1 else if c = ')' then -1 else 0 := by
  by_cases hopen : c = '('
  · subst hopen
    rfl
  · by_cases hclose : c = ')'
    · subst hclose
      rfl
    · rw [surplus_other hopen hclose, if_neg hopen, if_neg hclose]
      rfl

theorem bracketed?_cons (depth : Int) (c : Char) (s : Text) : bracketed? depth (c :: s) =
    if c = ')' ∧ depth = 1 then some ([], s)
    else (bracketed? (depth + surplus [c]) s).map fun x => (c :: x.1, x.2) := by
  rw [surplus_single]
  by_cases hopen : c = '('
  · subst hopen
    rw [bracketed?_open, if_neg (by simp), if_pos rfl]
  · by_cases hclose : c = ')'
    · subst hclose
      rw [bracketed?_close, if_neg hopen, if_pos rfl]
      simp only [true_and]
      rfl
    · rw [bracketed?_other hopen hclose, if_neg (by simp [hclose]), if_neg hopen, if_neg hclose,
        Int.add_zero]

/-- A bracket stays open behind every character but the one that closes the last of them. -/
theorem depth_pos {c : Char} (hdepth : 0 < depth) (hother : ¬(c = ')' ∧ depth = 1)) :
    0 < depth + surplus [c] := by
  rw [surplus_single]
  split
  · omega
  · split
    · next hclose =>
      have hne : depth ≠ 1 := fun hone => hother ⟨hclose, hone⟩
      omega
    · omega

/-- The bracket that closes the last of some open ones is the first that leaves none open. -/
theorem bracketed?_eq_some_of_pos (hdepth : 0 < depth) : bracketed? depth s = some (args, v) ↔
    s = args ++ ')' :: v ∧ depth + surplus args = 1 ∧ StaysOpen depth args := by
  induction s generalizing depth args with
  | nil => simp [bracketed?, closingAt?]
  | cons c s ih =>
    rw [bracketed?_cons]
    split
    · next hlast =>
      obtain ⟨rfl, rfl⟩ := hlast
      constructor
      · intro h
        cases h
        exact ⟨rfl, rfl, staysOpen_nil.2 hdepth⟩
      · rintro ⟨hs, -, hopen⟩
        cases args with
        | nil =>
          cases hs
          rfl
        | cons d a =>
          obtain ⟨rfl, -⟩ := List.cons.inj hs
          have hzero := hopen [')'] ⟨a, rfl⟩
          exact absurd hzero (by decide)
    · next hother =>
      have hpos := depth_pos hdepth hother
      simp only [Option.map_eq_some_iff, Prod.exists, Prod.mk.injEq]
      constructor
      · rintro ⟨a, _, h, rfl, rfl⟩
        obtain ⟨rfl, hone, hopen⟩ := (ih hpos).1 h
        refine ⟨rfl, ?_, staysOpen_cons.2 ⟨hdepth, hopen⟩⟩
        rw [surplus_cons]
        omega
      · rintro ⟨hs, hone, hopen⟩
        cases args with
        | nil =>
          obtain ⟨rfl, -⟩ := List.cons.inj hs
          exact absurd ⟨rfl, by simpa using hone⟩ hother
        | cons d a =>
          obtain ⟨rfl, hrest⟩ := List.cons.inj hs
          rw [surplus_cons] at hone
          refine ⟨a, v, (ih hpos).2 ⟨hrest, by omega, ?_⟩, rfl, rfl⟩
          exact (staysOpen_cons.1 hopen).2

theorem bracketed?_eq_none_of_pos (hdepth : 0 < depth) :
    bracketed? depth s = none ↔ StaysOpen depth s := by
  induction s generalizing depth with
  | nil => simpa [bracketed?, closingAt?, staysOpen_nil] using hdepth
  | cons c s ih =>
    rw [bracketed?_cons, staysOpen_cons, and_iff_right hdepth]
    split
    · next hlast =>
      obtain ⟨rfl, rfl⟩ := hlast
      simp only [reduceCtorEq, false_iff]
      intro hopen
      exact absurd (hopen [] List.nil_prefix) (by decide)
    · next hother =>
      rw [Option.map_eq_none_iff]
      exact ih (depth_pos hdepth hother)

/-! ## One bracket -/

/-- The text up to the bracket that closes one before it is paired, and that bracket follows. -/
theorem bracketed?_eq_some : bracketed? 1 s = some (args, v) ↔ s = args ++ ')' :: v ∧ Paired args := by
  rw [bracketed?_eq_some_of_pos (by decide), staysOpen_one]
  refine and_congr_right fun _ => ⟨fun h => ⟨by omega, h.2⟩, fun h => ⟨?_, h.unclosing⟩⟩
  rw [h.even]
  rfl

/-- A bracket before the text is not closed iff the text closes nothing that it does not open. -/
theorem bracketed?_eq_none : bracketed? 1 s = none ↔ Unclosing s := by
  rw [bracketed?_eq_none_of_pos (by decide), staysOpen_one]

theorem Unclosing.of_append (h : Unclosing (s ++ t)) : Unclosing s :=
  fun p hp => h p (hp.trans (List.prefix_append s t))

theorem paired_iff : Paired s ↔ surplus s = 0 ∧ StaysOpen 1 s := by
  rw [staysOpen_one]
  exact ⟨fun h => ⟨h.even, h.unclosing⟩, fun h => ⟨h.1, h.2⟩⟩

theorem paired_nil : Paired [] := paired_iff.2 ⟨rfl, staysOpen_nil.2 (by decide)⟩

theorem Paired.cons {c : Char} (hopen : c ≠ '(') (hclose : c ≠ ')') (h : Paired s) :
    Paired (c :: s) := by
  obtain ⟨heven, hstays⟩ := paired_iff.1 h
  have hnone : surplus [c] = 0 := surplus_other hopen hclose []
  refine paired_iff.2 ⟨by rw [surplus_other hopen hclose, heven], staysOpen_cons.2 ⟨by decide, ?_⟩⟩
  rwa [hnone]

theorem Paired.append (hs : Paired s) (ht : Paired t) : Paired (s ++ t) := by
  obtain ⟨hevens, hstayss⟩ := paired_iff.1 hs
  obtain ⟨hevent, hstayst⟩ := paired_iff.1 ht
  refine paired_iff.2 ⟨by rw [surplus_append, hevens, hevent]; rfl, staysOpen_append.2 ⟨hstayss, ?_⟩⟩
  rwa [hevens]

theorem Paired.enclose (h : Paired s) : Paired ('(' :: (s ++ [')'])) := by
  obtain ⟨heven, hstays⟩ := paired_iff.1 h
  have hinner : StaysOpen 2 (s ++ [')']) := by
    refine staysOpen_append.2 ⟨hstays.mono (by decide), staysOpen_cons.2 ⟨by rw [heven]; decide, ?_⟩⟩
    rw [heven]
    exact staysOpen_nil.2 (by decide)
  refine paired_iff.2 ⟨?_, staysOpen_cons.2 ⟨by decide, hinner⟩⟩
  rw [surplus_open, surplus_append, heven]
  rfl

/-- Behind a paired text a closing bracket closes one before it. -/
theorem Paired.not_unclosing (h : Paired s) (t : Text) : ¬ Unclosing (s ++ ')' :: t) := by
  intro hopen
  have hlast := hopen (s ++ [')']) ⟨t, by simp⟩
  rw [surplus_append, h.even] at hlast
  exact absurd hlast (by decide)

/-- A bracket that is opened in a paired text is closed behind it. -/
theorem Paired.closes {p r : Text} (h : Paired (p ++ '(' :: r)) (t : Text) :
    ¬ Unclosing (r ++ t) := by
  intro hopen
  have hfront := h.unclosing p (List.prefix_append p _)
  have hback := hopen r (List.prefix_append r t)
  have heven := h.even
  rw [surplus_append, surplus_open] at heven
  omega

end BlockSafe
