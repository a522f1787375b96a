import BlockSafe.Proofs.Text.Patterns
import BlockSafe.Text.Mask
import Mathlib.Data.List.Infix

/-!
# A program with and without its comments

Two passes blank a program: one knows strings only, the other comments as well.  As long as no
comment opens they are in the same region and leave the same (`step_eq`).  Behind a line comment
they are in the same region again, unless a quote stands in it; a block comment that is never closed
leaves nothing behind.  So a pattern that is found in the program without comments is found in the
program with them, if no line comment before that place holds a quote (`occursFrom_view`).

Places of the two views are `Abreast` if the passes are in the same region there.  What is taken
without white space stays abreast (`carries_ones`), because the marks of comments are blank in one
view, and in the other no part of a word.
-/

namespace BlockSafe

/-- The mask of strings alone. -/
def stringMask : MaskRules := ⟨programQuotes, false⟩

/-- The mask of strings and comments. -/
def codeMask : MaskRules := ⟨programQuotes, true⟩

/-- What is left of a text that starts in a region. -/
def view (rules : MaskRules) (region : Region) (s : Text) : Text :=
  (mark rules region s).map blankChar

theorem view_cons (rules : MaskRules) (region : Region) (c : Char) (s : Text) :
    view rules region (c :: s) = blankChar (c, (region.step rules c s.head?).1) ::
      view rules (region.step rules c s.head?).2 s := rfl

/-- What is masked is left as white space. -/
theorem isSpace_blankChar (c : Char) : isSpace (blankChar (c, true)) = true := by
  by_cases hr : c = '\r'
  · subst hr
    decide
  by_cases hn : c = '\n'
  · subst hn
    decide
  have hblank : blankChar (c, true) = ' ' := by simp [blankChar, hr, hn]
  rw [hblank]
  decide

/-! ## Comments -/

/-- Whether a comment opens with a character that is followed by `next`. -/
def OpensComment (region : Region) (c : Char) (next : Option Char) : Prop :=
  region = .code ∧ c = '/' ∧ (next = some '/' ∨ next = some '*')

/-- A line comment opens behind `before`, in a text that starts in a region; `behind` follows its
marks. -/
def LineComment (region : Region) (s before behind : Text) : Prop :=
  s = before ++ '/' :: '/' :: behind ∧ regionAfter codeMask region (some '/') before = .code

/-- The text of a line comment, up to the end of the line. -/
def lineOf (behind : Text) : Text := behind.takeWhile (· != '\n')

/-- The comments of a text that starts in a region do no harm to what is found from place `n` up to
place `m`: no line comment before it holds a quote, none opens within, and no block comment is
closed. -/
structure Quiet (n m : Nat) (region : Region) (s : Text) : Prop where
  silent : ∀ before behind, LineComment region s before behind → before.length < n →
    ∀ c ∈ lineOf behind, c ∉ programQuotes
  apart : ∀ before behind, LineComment region s before behind → before.length < m →
    before.length < n
  unclosed : ∀ before behind, s = before ++ '/' :: '*' :: behind → ¬ ['*', '/'] <:+: behind

theorem LineComment.cons {region : Region} {c : Char} {s before behind : Text}
    (h : LineComment (region.step codeMask c s.head?).2 s before behind) :
    LineComment region (c :: s) (c :: before) behind := by
  obtain ⟨rfl, hregion⟩ := h
  refine ⟨rfl, ?_⟩
  rw [regionAfter]
  have hhead : (before ++ '/' :: '/' :: behind).head? = before.head?.or (some '/') :=
    List.head?_append
  rwa [hhead] at hregion

theorem Quiet.tail {n m : Nat} {region : Region} {c : Char} {s : Text}
    (h : Quiet n m region (c :: s)) :
    Quiet (n - 1) (m - 1) (region.step codeMask c s.head?).2 s where
  silent before behind hline hlt :=
    h.silent (c :: before) behind hline.cons (by rw [List.length_cons]; omega)
  apart before behind hline hlt := by
    have hlt := h.apart (c :: before) behind hline.cons (by rw [List.length_cons]; omega)
    rw [List.length_cons] at hlt
    omega
  unclosed before behind hs := h.unclosed (c :: before) behind (by rw [hs, List.cons_append])

/-! ## Regions -/

/-- Not in a comment. -/
def Region.Uncommented : Region → Prop
  | code | string _ | escape _ => True
  | _ => False

section
variable {region : Region} {c : Char} {next : Option Char}

/-- Where no comment opens, the two passes do the same. -/
theorem step_eq (h : region.Uncommented) (hopen : ¬ OpensComment region c next) :
    region.step codeMask c next = region.step stringMask c next ∧
      (region.step codeMask c next).2.Uncommented := by
  cases region with
  | code =>
    have hline : ¬ (c = '/' ∧ next = some '/') := fun h => hopen ⟨rfl, h.1, .inl h.2⟩
    have hblock : ¬ (c = '/' ∧ next = some '*') := fun h => hopen ⟨rfl, h.1, .inr h.2⟩
    by_cases hquote : c ∈ programQuotes
    · simp [Region.step, codeMask, stringMask, hline, hblock, hquote, Region.Uncommented]
    · simp [Region.step, codeMask, stringMask, hline, hblock, hquote, Region.Uncommented]
  | string quote =>
    refine ⟨rfl, ?_⟩
    simp only [Region.step]
    split
    · trivial
    · split
      · trivial
      · trivial
  | escape quote => exact ⟨rfl, trivial⟩
  | lineComment => exact h.elim
  | blockOpening => exact h.elim
  | blockComment => exact h.elim
  | blockClosing => exact h.elim

/-- The first mark of a comment is masked. -/
theorem step_opening (h : OpensComment region c next) :
    c = '/' ∧ (region.step codeMask c next).1 = true := by
  obtain ⟨rfl, rfl, rfl | rfl⟩ := h
  · exact ⟨rfl, rfl⟩
  · exact ⟨rfl, rfl⟩

/-- The pass for strings goes over a character that is no quote. -/
theorem step_unquoted (hquote : c ∉ programQuotes) :
    Region.step stringMask .code c next = (false, .code) := by
  simp [Region.step, stringMask, hquote]

theorem view_unquoted (hquote : c ∉ programQuotes) (s : Text) :
    view stringMask .code (c :: s) = c :: view stringMask .code s := by
  rw [view_cons, step_unquoted hquote]
  rfl

theorem step_lineComment (hc : c ≠ '\n') (next : Option Char) :
    Region.step codeMask .lineComment c next = (true, .lineComment) := if_neg hc

/-- At the places of a line comment the view without comments shows white space. -/
theorem view_line {x : Char} {s t : Text} (h : view codeMask .lineComment s = x :: t) :
    isSpace x = true := by
  cases s with
  | nil => cases h
  | cons c s =>
    rw [view_cons, List.cons.injEq] at h
    by_cases hc : c = '\n'
    · subst hc
      rw [← h.1]
      rfl
    · rw [step_lineComment hc] at h
      rw [← h.1]
      exact isSpace_blankChar c

/-- Nothing is left of a block comment that is not closed. -/
theorem view_block {s : Text} (h : ¬ ['*', '/'] <:+: s) :
    ∀ x ∈ view codeMask .blockComment s, isSpace x = true := by
  induction s with
  | nil =>
    intro x hx
    cases hx
  | cons c s ih =>
    have hstep : Region.step codeMask .blockComment c s.head? = (true, .blockComment) := by
      apply if_neg
      rintro ⟨rfl, hnext⟩
      obtain ⟨rest, rfl⟩ := List.head?_eq_some_iff.1 hnext
      exact h ⟨[], rest, rfl⟩
    intro x hx
    rw [view_cons, hstep] at hx
    rcases List.mem_cons.1 hx with rfl | hx
    · exact isSpace_blankChar c
    · exact ih (fun hs => h (hs.trans (List.suffix_cons c s).isInfix)) x hx

theorem view_opening {s : Text} (h : ¬ ['*', '/'] <:+: s) :
    ∀ x ∈ view codeMask .code ('/' :: '*' :: s), isSpace x = true := by
  intro x hx
  have hview : view codeMask .code ('/' :: '*' :: s) =
      ' ' :: ' ' :: view codeMask .blockComment s := rfl
  rw [hview] at hx
  rcases List.mem_cons.1 hx with rfl | hx
  · decide
  rcases List.mem_cons.1 hx with rfl | hx
  · decide
  exact view_block h x hx

end

/-! ## Places abreast -/

/-- The same place in the view without comments, on the left, and in the view with them; neither is
in a comment, and no line comment opens on the next `m` places. -/
inductive Abreast (m : Nat) : Cursor → Cursor → Prop where
  | intro (before : Option Char) {region : Region} {s : Text} (h : region.Uncommented)
      (hquiet : Quiet 0 m region s) :
    Abreast m ⟨before, view codeMask region s⟩ ⟨before, view stringMask region s⟩

/-- The marks of a comment are blank in one view, and show in the other. -/
theorem view_comment {region : Region} {c : Char} {s : Text}
    (h : OpensComment region c s.head?) :
    (view codeMask region (c :: s)).head? = some ' ' ∧
      (view stringMask region (c :: s)).head? = some '/' := by
  obtain ⟨rfl, hmasked⟩ := step_opening h
  obtain ⟨rfl, -⟩ := h
  rw [view_cons, hmasked, view_unquoted (by decide)]
  exact ⟨rfl, rfl⟩

namespace Pattern

variable {m : Nat}

theorem carries_one {p : Char → Bool} (hp : p ' ' = false) :
    (one p).Carries (Abreast m) (Abreast (m - 1)) := by
  rintro _ _ ⟨before, hregion, hquiet⟩ c' hc'
  rename_i region s
  obtain ⟨x, t, hview, hx, rfl⟩ := mem_rests_one.1 hc'
  simp only at hview
  cases s with
  | nil => cases hview
  | cons c s =>
    have hopen : ¬ OpensComment region c s.head? := by
      intro hopen
      have hblank := (view_comment hopen).1
      rw [hview, List.head?_cons, Option.some.injEq] at hblank
      rw [hblank, hp] at hx
      cases hx
    obtain ⟨hstep, hnext⟩ := step_eq hregion hopen
    rw [view_cons, List.cons.injEq] at hview
    obtain ⟨rfl, rfl⟩ := hview
    refine ⟨_, mem_rests_one.2 ⟨_, _, ?_, hx, rfl⟩, .intro _ hnext hquiet.tail⟩
    simp only [view_cons, hstep]

theorem carries_wordEdge : wordEdge.Carries (Abreast m) (Abreast m) := by
  rintro _ _ ⟨before, hregion, hquiet⟩ c' hc'
  rename_i region s
  obtain ⟨hedge, rfl⟩ := mem_rests_test.1 hc'
  refine ⟨_, mem_rests_test.2 ⟨?_, rfl⟩, .intro before hregion hquiet⟩
  have hhead : (view stringMask region s).head?.any isWord =
      (view codeMask region s).head?.any isWord := by
    cases s with
    | nil => rfl
    | cons c s =>
      by_cases hopen : OpensComment region c s.head?
      · rw [(view_comment hopen).1, (view_comment hopen).2]
        decide
      · rw [view_cons, view_cons, (step_eq hregion hopen).1]
        rfl
  unfold Cursor.atWordEdge at hedge ⊢
  rw [hhead]
  exact hedge

theorem carries_ones {ps : List (Char → Bool)} (h : ∀ p ∈ ps, p ' ' = false) :
    (chain (ps.map one)).Carries (Abreast m) (Abreast (m - ps.length)) := by
  induction ps generalizing m with
  | nil => exact carries_nothing _
  | cons p ps ih =>
    obtain ⟨hp, hps⟩ := List.forall_mem_cons.1 h
    have hrest := (carries_one (m := m) hp).seq (ih hps)
    rwa [Nat.sub_sub, Nat.add_comm 1] at hrest

theorem carries_lit {s : Text} (h : ' ' ∉ s) :
    (lit s).Carries (Abreast m) (Abreast (m - s.length)) := by
  have hblank : ∀ p ∈ s.map (fun c d => d == c), p ' ' = false := by
    intro p hp
    obtain ⟨c, hc, rfl⟩ := List.mem_map.1 hp
    exact beq_false_of_ne fun heq => h (heq ▸ hc)
  have hcarries := carries_ones (m := m) hblank
  rwa [List.length_map, ← lit_eq_ones] at hcarries

theorem carries_wordStart {s : Text} (h : ' ' ∉ s) :
    (wordStart s).Carries (Abreast m) (Abreast (m - s.length)) :=
  carries_wordEdge.seq ((carries_lit h).seq (carries_nothing _))

theorem carries_word {s : Text} (h : ' ' ∉ s) :
    (word s).Carries (Abreast m) (Abreast (m - s.length)) :=
  carries_wordEdge.seq ((carries_lit h).seq (carries_wordEdge.seq (carries_nothing _)))

/-- A pattern that starts with a character other than white space. -/
def Bold (p : Pattern) : Prop :=
  ∀ c, p.matchesAt c = true → ∃ x t, c.rest = x :: t ∧ isSpace x = false

theorem Bold.seq {p : Pattern} (hp : p.Bold) (q : Pattern) : (seq p q).Bold := by
  intro c hc
  obtain ⟨d, hd, -⟩ := matchesAt_seq.1 hc
  exact hp c (matchesAt_iff.2 ⟨d, hd⟩)

theorem Bold.after_wordEdge {p : Pattern} (hp : p.Bold) : (Pattern.seq wordEdge p).Bold := by
  intro c hc
  obtain ⟨d, hd, hmatch⟩ := matchesAt_seq.1 hc
  obtain ⟨-, rfl⟩ := mem_rests_test.1 hd
  exact hp d hmatch

theorem bold_lit {c : Char} {s : Text} (h : isSpace c = false) : (lit (c :: s)).Bold := by
  have hone : (one (· == c)).Bold := by
    intro d hd
    obtain ⟨e, he⟩ := matchesAt_iff.1 hd
    obtain ⟨x, t, hrest, hx, -⟩ := mem_rests_one.1 he
    exact ⟨x, t, hrest, by rwa [eq_of_beq hx]⟩
  exact hone.seq _

end Pattern

/-! ## Places found in both views -/

/-- The same place in both views, as in `Abreast`, with `n` places to go to where it matters.  On
the way the passes may be in different regions. -/
inductive Follows (n m : Nat) : Cursor → Cursor → Prop where
  /-- Both passes are in the same region. -/
  | code (before : Option Char) {region : Region} {s : Text} (h : region.Uncommented)
      (hquiet : Quiet n m region s) :
    Follows n m ⟨before, view codeMask region s⟩ ⟨before, view stringMask region s⟩
  /-- One pass is in a line comment without quotes, the other goes over it as over code. -/
  | comment (before before' : Option Char) {s : Text} (hline : ∀ c ∈ lineOf s, c ∉ programQuotes)
      (hquiet : Quiet n m .lineComment s) :
    Follows n m ⟨before, view codeMask .lineComment s⟩ ⟨before', view stringMask .code s⟩

namespace Follows

variable {n m : Nat} {c d : Cursor} {x : Char} {t : Text}

theorem abreast (h : Follows 0 m c d) (hrest : c.rest = x :: t) (hx : isSpace x = false) :
    Abreast m c d := by
  cases h with
  | code before h hquiet => exact .intro before h hquiet
  | comment before before' hline hquiet =>
    rw [view_line hrest] at hx
    cases hx

/-- One place further in a line comment. -/
theorem step_comment {s : Text} (hline : ∀ c ∈ lineOf s, c ∉ programQuotes)
    (hquiet : Quiet (n + 1) (m + 1) .lineComment s)
    (hview : view codeMask .lineComment s = x :: t) :
    ∃ x' t', view stringMask .code s = x' :: t' ∧ Follows n m ⟨some x, t⟩ ⟨some x', t'⟩ := by
  cases s with
  | nil => cases hview
  | cons c s =>
    rw [view_cons, List.cons.injEq] at hview
    obtain ⟨rfl, rfl⟩ := hview
    by_cases hc : c = '\n'
    · subst hc
      exact ⟨_, _, rfl, .code _ trivial hquiet.tail⟩
    · have hlines : lineOf (c :: s) = c :: lineOf s :=
        List.takeWhile_cons_of_pos (by simpa using hc)
      rw [hlines, List.forall_mem_cons] at hline
      have hquiet := hquiet.tail
      rw [step_lineComment hc] at hquiet ⊢
      exact ⟨_, _, view_unquoted hline.1 s, .comment _ _ hline.2 hquiet⟩

/-- One place further where a comment opens: a line comment, since nothing would be left behind a
block comment. -/
theorem step_opening {s : Text} (hopen : s.head? = some '/' ∨ s.head? = some '*')
    (hquiet : Quiet (n + 1) (m + 1) .code ('/' :: s))
    (hview : view codeMask .code ('/' :: s) = x :: t) (htext : ∃ y ∈ t, isSpace y = false) :
    ∃ x' t', view stringMask .code ('/' :: s) = x' :: t' ∧
      Follows n m ⟨some x, t⟩ ⟨some x', t'⟩ := by
  rcases hopen with hnext | hnext
  · obtain ⟨v, rfl⟩ := List.head?_eq_some_iff.1 hnext
    have hline : ∀ c ∈ lineOf ('/' :: v), c ∉ programQuotes := by
      intro c hc
      rcases List.mem_cons.1 hc with rfl | hc
      · decide
      · exact hquiet.silent [] v ⟨rfl, rfl⟩ (Nat.succ_pos n) c hc
    obtain ⟨rfl, rfl⟩ := List.cons_eq_cons.1 hview
    exact ⟨_, _, rfl, .comment _ _ hline hquiet.tail⟩
  · obtain ⟨v, rfl⟩ := List.head?_eq_some_iff.1 hnext
    obtain ⟨y, hy, hspace⟩ := htext
    have hmem : y ∈ view codeMask .code ('/' :: '*' :: v) := by
      rw [hview]
      exact List.mem_cons_of_mem x hy
    rw [view_opening (hquiet.unclosed [] v rfl) y hmem] at hspace
    cases hspace

/-- One place further, where more than white space is to come. -/
theorem step (h : Follows (n + 1) (m + 1) c d) (hrest : c.rest = x :: t)
    (htext : ∃ y ∈ t, isSpace y = false) :
    ∃ x' t', d.rest = x' :: t' ∧ Follows n m ⟨some x, t⟩ ⟨some x', t'⟩ := by
  cases h with
  | comment before before' hline hquiet => exact step_comment hline hquiet hrest
  | code before h hquiet =>
    rename_i region s
    have hview : view codeMask region s = x :: t := hrest
    cases s with
    | nil => cases hview
    | cons c s =>
      by_cases hopen : OpensComment region c s.head?
      · obtain ⟨rfl, rfl, hnext⟩ := hopen
        exact step_opening hnext hquiet hview htext
      · obtain ⟨hstep, hnext⟩ := step_eq h hopen
        rw [view_cons, List.cons.injEq] at hview
        obtain ⟨rfl, rfl⟩ := hview
        refine ⟨_, _, view_cons _ _ _ _, ?_⟩
        rw [← hstep]
        exact .code _ hnext hquiet.tail

/-- **Places of one view in the other.**  What is found behind `u` in the view without comments is
found in the view with them, if a match there only depends on what is abreast of it. -/
theorem occurs {p : Pattern} (hbold : p.Bold)
    (hcarry : ∀ before d, Abreast m ⟨before, t⟩ d → p.matchesAt ⟨before, t⟩ = true →
      p.matchesAt d = true)
    {u : Text} (h : Follows u.length (m + u.length) c d) (hrest : c.rest = u ++ t)
    (hmatch : p.matchesAt ⟨u.getLast?.or c.before, t⟩ = true) :
    p.occursFrom d.before d.rest = true := by
  induction u generalizing c d with
  | nil =>
    obtain ⟨before, _⟩ := c
    subst hrest
    obtain ⟨x, t', ht, hx⟩ := hbold _ hmatch
    exact Pattern.occursFrom_here (hcarry before d (h.abreast ht hx) hmatch)
  | cons x u ih =>
    obtain ⟨y, t', ht, hy⟩ := hbold _ hmatch
    simp only at ht
    have hmem : y ∈ u ++ t := List.mem_append_right u (ht ▸ List.mem_cons_self)
    obtain ⟨x', s', hd, hnext⟩ := h.step hrest ⟨y, hmem, hy⟩
    rw [Pattern.getLast?_cons_or] at hmatch
    rw [hd]
    exact Pattern.occursFrom_later (ih hnext rfl hmatch)

end Follows

end BlockSafe
