import BlockSafe.Proofs.Text.LineBreaks
import BlockSafe.Proofs.Text.Pieces

/-!
# Lines

A text is one line (`lines_oneLine`), or a line, a break and the lines of another text
(`lines_break`); every text is of one of these forms (`line_induction`).  Where texts are put
together at a character that is no break, the lines on either side of it become one
(`lines_append_cons`).
-/

namespace BlockSafe.Text

/-- The text holds no break. -/
def OneLine (s : Text) : Prop := ∀ c ∈ s, ¬ IsBreak c

instance (s : Text) : Decidable (OneLine s) := inferInstanceAs (Decidable (∀ c ∈ s, _))

/-- A line break in front of `rest`.  A carriage return alone is one unless a line feed follows. -/
inductive LineBreak : Text → Text → Prop where
  | feed {rest : Text} : LineBreak ['\n'] rest
  | pair {rest : Text} : LineBreak ['\r', '\n'] rest
  | carriage {rest : Text} (h : rest.head? ≠ some '\n') : LineBreak ['\r'] rest

variable {line brk rest : Text} {c : Char}

theorem OneLine.parts {u m v : Text} (h : OneLine (u ++ (m ++ v))) : OneLine u ∧ OneLine m := by
  obtain ⟨hu, hmv⟩ := List.forall_mem_append.1 h
  exact ⟨hu, (List.forall_mem_append.1 hmv).1⟩

/-- A text without breaks does not start where a break does. -/
theorem OneLine.ne_breaks {m b : Text} (hm : OneLine m) (hne : m ≠ []) (hb : ∀ c ∈ b, IsBreak c)
    (hbne : b ≠ []) (x y : Text) : m ++ y ≠ b ++ x := by
  intro h
  obtain ⟨c, b, rfl⟩ := List.exists_cons_of_ne_nil hbne
  obtain ⟨d, m, rfl⟩ := List.exists_cons_of_ne_nil hne
  obtain rfl := (List.cons.inj h).1
  exact hm _ List.mem_cons_self (hb _ List.mem_cons_self)

theorem LineBreak.isBreak (h : LineBreak brk rest) : ∀ c ∈ brk, IsBreak c := by
  cases h with
  | feed => decide
  | pair => decide
  | carriage => decide

theorem LineBreak.ne_nil (h : LineBreak brk rest) : brk ≠ [] := by
  cases h <;> exact List.cons_ne_nil _ _

theorem LineBreak.of_prefix {u : Text} (h : LineBreak brk rest) (hu : u <+: rest) :
    LineBreak brk u := by
  cases h with
  | feed => exact .feed
  | pair => exact .pair
  | carriage hhead =>
    refine .carriage fun hfeed => hhead ?_
    obtain ⟨t, rfl⟩ := List.head?_eq_some_iff.1 hfeed
    obtain ⟨v, rfl⟩ := hu
    rfl

/-! ## Breaks as line feeds -/

theorem unifyBreaks_cons (hc : c ≠ '\r') (s : Text) : unifyBreaks (c :: s) = c :: unifyBreaks s :=
  unifyBreaks.eq_3 c s (fun _ h _ => hc h) fun h => hc h

theorem unifyBreaks_oneLine (h : OneLine line) (s : Text) :
    unifyBreaks (line ++ s) = line ++ unifyBreaks s := by
  induction line with
  | nil => rfl
  | cons c line ih =>
    obtain ⟨hc, hline⟩ := List.forall_mem_cons.1 h
    rw [List.cons_append, unifyBreaks_cons fun h => hc (.inl h), ih hline, List.cons_append]

theorem unifyBreaks_break (h : LineBreak brk rest) :
    unifyBreaks (brk ++ rest) = '\n' :: unifyBreaks rest := by
  cases h with
  | feed => exact unifyBreaks_cons (by decide) rest
  | pair => rfl
  | carriage hhead =>
    refine unifyBreaks.eq_2 rest fun s hs => hhead ?_
    rw [hs]
    rfl

/-! ## Lines one after the other -/

theorem OneLine.no_feed (h : OneLine line) : ∀ c ∈ line, (c == '\n') = false :=
  fun c hc => beq_false_of_ne fun heq => h c hc (.inr heq)

theorem lines_oneLine (h : OneLine line) : lines line = [line] := by
  have hunify := unifyBreaks_oneLine h []
  rw [List.append_nil] at hunify
  rw [lines, hunify, unifyBreaks, List.append_nil]
  exact splitWhen_eq_self h.no_feed

theorem lines_nil : lines [] = [[]] := lines_oneLine (List.forall_mem_nil _)

/-- A break ends a line. -/
theorem lines_break (hl : OneLine line) (hb : LineBreak brk rest) :
    lines (line ++ (brk ++ rest)) = line :: lines rest := by
  obtain ⟨y, ys, hrest, hboth⟩ := splitWhen_append_left hl.no_feed ('\n' :: unifyBreaks rest)
  rw [splitWhen, if_pos (beq_self_eq_true '\n')] at hrest
  obtain ⟨rfl, rfl⟩ := List.cons.inj hrest
  rw [lines, unifyBreaks_oneLine hl, unifyBreaks_break hb, split, hboth, List.append_nil]
  rfl

/-- Every text is a line, or a line, a break and another text. -/
theorem line_cases (s : Text) :
    OneLine s ∨ ∃ line brk rest, OneLine line ∧ LineBreak brk rest ∧ s = line ++ (brk ++ rest) := by
  induction s with
  | nil => exact .inl fun _ hc => absurd hc List.not_mem_nil
  | cons c s ih =>
    by_cases hfeed : c = '\n'
    · subst hfeed
      exact .inr ⟨[], ['\n'], s, by decide, .feed, rfl⟩
    by_cases hcarriage : c = '\r'
    · subst hcarriage
      by_cases hhead : s.head? = some '\n'
      · obtain ⟨rest, rfl⟩ := List.head?_eq_some_iff.1 hhead
        exact .inr ⟨[], ['\r', '\n'], rest, by decide, .pair, rfl⟩
      · exact .inr ⟨[], ['\r'], s, by decide, .carriage hhead, rfl⟩
    have hc : ¬ IsBreak c := fun h => h.elim hcarriage hfeed
    rcases ih with hs | ⟨line, brk, rest, hline, hbreak, rfl⟩
    · exact .inl (List.forall_mem_cons.2 ⟨hc, hs⟩)
    · exact .inr ⟨c :: line, brk, rest, List.forall_mem_cons.2 ⟨hc, hline⟩, hbreak, rfl⟩

/-- Induction over a text, line by line. -/
@[elab_as_elim]
theorem line_induction {motive : Text → Prop} (last : ∀ line, OneLine line → motive line)
    (line : ∀ line brk rest, OneLine line → LineBreak brk rest → motive rest →
      motive (line ++ (brk ++ rest))) (s : Text) : motive s := by
  induction hn : s.length using Nat.strongRecOn generalizing s with
  | ind n ih =>
    rcases line_cases s with hs | ⟨first, brk, rest, hfirst, hbreak, rfl⟩
    · exact last s hs
    · refine line first brk rest hfirst hbreak (ih rest.length ?_ rest rfl)
      have hbrk := List.length_pos_of_ne_nil hbreak.ne_nil
      rw [← hn, List.length_append, List.length_append]
      omega

theorem LineBreak.append_cons (h : LineBreak brk rest) (hc : c ≠ '\n') (t : Text) :
    LineBreak brk (rest ++ c :: t) := by
  cases h with
  | feed => exact .feed
  | pair => exact .pair
  | carriage hhead =>
    refine .carriage ?_
    cases rest with
    | nil => exact fun h => hc (Option.some.inj h)
    | cons d rest => exact hhead

/-- A break ends before a character that is no line feed. -/
theorem unifyBreaks_append_cons (hc : c ≠ '\n') (s t : Text) :
    unifyBreaks (s ++ c :: t) = unifyBreaks s ++ unifyBreaks (c :: t) := by
  induction s using line_induction with
  | last line hline =>
    have hself := unifyBreaks_oneLine hline []
    rw [List.append_nil, unifyBreaks, List.append_nil] at hself
    rw [unifyBreaks_oneLine hline, hself]
  | line line brk rest hline hbreak ih =>
    rw [List.append_assoc, List.append_assoc, unifyBreaks_oneLine hline,
      unifyBreaks_break (hbreak.append_cons hc t), unifyBreaks_oneLine hline,
      unifyBreaks_break hbreak, ih, List.append_assoc, List.cons_append]

/-- The lines on either side of a character that is no break become one. -/
theorem lines_append_cons (hc : ¬ IsBreak c) (s t : Text) : ∃ above left right below,
    lines s = above ++ [left] ∧ lines t = right :: below ∧
      lines (s ++ c :: t) = above ++ (left ++ c :: right) :: below := by
  have hfeed : c ≠ '\n' := fun h => hc (.inr h)
  have hcarriage : c ≠ '\r' := fun h => hc (.inl h)
  obtain ⟨above, left, y, ys, hs, hy, hboth⟩ :=
    splitWhen_append (· == '\n') (unifyBreaks s) ([c] ++ unifyBreaks t)
  obtain ⟨right, below, ht, hct⟩ :=
    splitWhen_append_left (p := (· == '\n')) (a := [c]) (by simpa using hfeed) (unifyBreaks t)
  rw [hy] at hct
  obtain ⟨rfl, rfl⟩ := List.cons.inj hct
  refine ⟨above, left, right, _, hs, ht, ?_⟩
  rw [lines, unifyBreaks_append_cons hfeed, unifyBreaks_cons hcarriage]
  exact hboth

end BlockSafe.Text
