import BlockSafe.Proofs.Text.Ends

/-!
# Line breaks of one or two characters

`Text.crlf` puts a carriage return before every line feed.  What the readers of replies do with a
text commutes with it: they skip breaks with other characters (`dropWhile_withBreaks`, `trim_crlf`),
stop at the line feed of a break (`dropWhile_line`), or look for a text without breaks
(`after?_withBreaks`, `cut?_withBreaks`).  At the start of a text the carriage return comes first,
at the end the line feed does, so these laws hold for any spelling `w` of a break.  A text with
carriage returns is split like the text without them, or inside a break (`crlf_eq_append`).  A class
that holds neither character of a break is `Solid`: what is taken by it holds no break.  Most of
these laws are inductions with a case of its own for line feeds (`break_induction`).

A text in which some line feeds have a carriage return before them and some have none is `Returned`;
writing every break as a line feed undoes that (`Returned.unifyBreaks_eq`).
-/

namespace BlockSafe.Text

/-- The text with `w` for every line feed. -/
def withBreaks (w s : Text) : Text := s.flatMap fun c => if c = '\n' then w else [c]

/-- The text with a carriage return before every line feed. -/
def crlf (s : Text) : Text := withBreaks ['\r', '\n'] s

/-- A character of a line break. -/
def IsBreak (c : Char) : Prop := c = '\r' ∨ c = '\n'

instance (c : Char) : Decidable (IsBreak c) := inferInstanceAs (Decidable (_ ∨ _))

/-- A way to write a line break. -/
structure BreakText (w : Text) : Prop where
  ne_nil : w ≠ []
  breaks : ∀ c ∈ w, IsBreak c

theorem breakText_crlf : BreakText ['\r', '\n'] := ⟨by simp, by simp [IsBreak]⟩

theorem BreakText.reverse {w : Text} (hw : BreakText w) : BreakText w.reverse :=
  ⟨by simpa using hw.ne_nil, fun c hc => hw.breaks c (List.mem_reverse.1 hc)⟩

/-! ## One character after the other -/

section
variable {w : Text} {c : Char}

@[simp] theorem withBreaks_nil (w : Text) : withBreaks w [] = [] := rfl

@[simp] theorem withBreaks_break (w s : Text) :
    withBreaks w ('\n' :: s) = w ++ withBreaks w s := by
  simp [withBreaks]

theorem withBreaks_cons (hc : c ≠ '\n') (w s : Text) :
    withBreaks w (c :: s) = c :: withBreaks w s := by
  simp [withBreaks, hc]

/-- Induction over a text, with a case of its own for line feeds. -/
@[elab_as_elim]
theorem break_induction {motive : Text → Prop} (nil : motive [])
    (line : ∀ s, motive s → motive ('\n' :: s))
    (char : ∀ c s, c ≠ '\n' → motive s → motive (c :: s)) (s : Text) : motive s := by
  induction s with
  | nil => exact nil
  | cons c s ih =>
    by_cases hc : c = '\n'
    · exact hc ▸ line s ih
    · exact char c s hc ih

@[simp] theorem withBreaks_append (w a b : Text) :
    withBreaks w (a ++ b) = withBreaks w a ++ withBreaks w b :=
  List.flatMap_append

theorem reverse_withBreaks (w s : Text) :
    (withBreaks w s).reverse = withBreaks w.reverse s.reverse := by
  induction s using break_induction with
  | nil => rfl
  | line s ih =>
    rw [List.reverse_cons, withBreaks_append, ← ih]
    simp
  | char c s hc ih =>
    rw [List.reverse_cons, withBreaks_append, ← ih, withBreaks_cons hc, withBreaks_cons hc,
      List.reverse_cons]
    rfl

theorem isEmpty_withBreaks (hw : BreakText w) (s : Text) :
    (withBreaks w s).isEmpty = s.isEmpty := by
  induction s using break_induction with
  | nil => rfl
  | line s _ => simp [hw.ne_nil]
  | char c s hc _ =>
    rw [withBreaks_cons hc]
    rfl

/-! ## Breaks among the characters that are skipped -/

section
variable {p : Char → Bool} (hw : ∀ c ∈ w, p c = true) (hp : p '\n' = true)
include hw hp

theorem dropWhile_withBreaks (s : Text) :
    (withBreaks w s).dropWhile p = withBreaks w (s.dropWhile p) := by
  induction s using break_induction with
  | nil => rfl
  | line s ih =>
    rw [withBreaks_break, List.dropWhile_append_of_pos hw, ih, List.dropWhile_cons_of_pos hp]
  | char c s hc ih =>
    rw [withBreaks_cons hc]
    by_cases hpc : p c = true
    · rw [List.dropWhile_cons_of_pos hpc, List.dropWhile_cons_of_pos hpc, ih]
    · rw [List.dropWhile_cons_of_neg hpc, List.dropWhile_cons_of_neg hpc, withBreaks_cons hc]

theorem takeWhile_withBreaks (s : Text) :
    (withBreaks w s).takeWhile p = withBreaks w (s.takeWhile p) := by
  induction s using break_induction with
  | nil => rfl
  | line s ih =>
    rw [withBreaks_break, List.takeWhile_append_of_pos hw, ih, List.takeWhile_cons_of_pos hp,
      withBreaks_break]
  | char c s hc ih =>
    rw [withBreaks_cons hc]
    by_cases hpc : p c = true
    · rw [List.takeWhile_cons_of_pos hpc, List.takeWhile_cons_of_pos hpc, ih, withBreaks_cons hc]
    · rw [List.takeWhile_cons_of_neg hpc, List.takeWhile_cons_of_neg hpc]
      rfl

theorem dropEndWhile_withBreaks (s : Text) :
    dropEndWhile p (withBreaks w s) = withBreaks w (dropEndWhile p s) := by
  have hrev : ∀ c ∈ w.reverse, p c = true := fun c hc => hw c (List.mem_reverse.1 hc)
  unfold dropEndWhile
  rw [reverse_withBreaks, dropWhile_withBreaks hrev hp, reverse_withBreaks, List.reverse_reverse]

theorem trimBoth_withBreaks (s : Text) :
    trimBoth p (withBreaks w s) = withBreaks w (trimBoth p s) := by
  unfold trimBoth
  rw [dropWhile_withBreaks hw hp, dropEndWhile_withBreaks hw hp]

/-- Characters that are kept or dropped one by one. -/
theorem filter_withBreaks (s : Text) :
    (withBreaks w s).filter p = withBreaks w (s.filter p) := by
  induction s using break_induction with
  | nil => rfl
  | line s ih =>
    rw [withBreaks_break, List.filter_append, List.filter_eq_self.2 hw, ih,
      List.filter_cons_of_pos hp, withBreaks_break]
  | char c s hc ih =>
    rw [withBreaks_cons hc]
    by_cases hpc : p c = true
    · rw [List.filter_cons_of_pos hpc, List.filter_cons_of_pos hpc, ih, withBreaks_cons hc]
    · rw [List.filter_cons_of_neg hpc, List.filter_cons_of_neg hpc, ih]

end

@[simp] theorem crlf_nil : crlf [] = [] := rfl

@[simp] theorem crlf_break (s : Text) : crlf ('\n' :: s) = '\r' :: '\n' :: crlf s :=
  withBreaks_break _ s

theorem crlf_cons (hc : c ≠ '\n') (s : Text) : crlf (c :: s) = c :: crlf s := withBreaks_cons hc _ s

@[simp] theorem crlf_append (a b : Text) : crlf (a ++ b) = crlf a ++ crlf b :=
  withBreaks_append _ a b

theorem trimStart_crlf (s : Text) : trimStart (crlf s) = crlf (trimStart s) :=
  dropWhile_withBreaks (forall_of_all (by decide)) (by decide) s

theorem trim_crlf (s : Text) : trim (crlf s) = crlf (trim s) :=
  trimBoth_withBreaks (forall_of_all (by decide)) (by decide) s

/-- What stops at a line feed drops the carriage return before it. -/
theorem dropWhile_line {p : Char → Bool} (hp : p '\n' = false) (hr : p '\r' = true) (s : Text) :
    (crlf s).dropWhile p =
      match s.dropWhile p with
      | [] => []
      | c :: body => c :: crlf body := by
  induction s using break_induction with
  | nil => rfl
  | line s _ => simp [hp, hr]
  | char c s hc ih =>
    rw [crlf_cons hc]
    by_cases hpc : p c = true
    · rw [List.dropWhile_cons_of_pos hpc, List.dropWhile_cons_of_pos hpc, ih]
    · rw [List.dropWhile_cons_of_neg hpc, List.dropWhile_cons_of_neg hpc]

/-! ## Texts without breaks -/

/-- A text does not start with a pattern that does not hold its first character. -/
theorem after?_cons_of_notMem {p : Text} (hne : p ≠ []) (hc : c ∉ p) (s : Text) :
    after? p (c :: s) = none := by
  cases p with
  | nil => exact absurd rfl hne
  | cons d p =>
    rw [after?, if_neg]
    rintro rfl
    exact hc List.mem_cons_self

theorem after?_withBreaks (hw : BreakText w) {p : Text} (hp : ∀ c ∈ p, ¬ IsBreak c) (s : Text) :
    after? p (withBreaks w s) = (after? p s).map (withBreaks w) := by
  induction p generalizing s with
  | nil => rfl
  | cons d p ih =>
    have hfree : ∀ c, IsBreak c → c ∉ d :: p := fun c hc hmem => hp c hmem hc
    cases s with
    | nil => rfl
    | cons c s =>
      by_cases hc : c = '\n'
      · subst hc
        obtain ⟨b, w', rfl⟩ := List.exists_cons_of_ne_nil hw.ne_nil
        rw [withBreaks_break, List.cons_append,
          after?_cons_of_notMem (by simp) (hfree b (hw.breaks b List.mem_cons_self)),
          after?_cons_of_notMem (by simp) (hfree '\n' (.inr rfl))]
        rfl
      · rw [withBreaks_cons hc, after?, after?]
        split
        · exact ih (fun c hc => hp c (List.mem_cons_of_mem d hc)) s
        · rfl

/-- Characters that the pattern does not hold stand before its first occurrence. -/
theorem cut?_append {p a : Text} (hne : p ≠ []) (ha : ∀ c ∈ a, c ∉ p) (s : Text) :
    cut? p (a ++ s) = (cut? p s).map fun x => (a ++ x.1, x.2) := by
  induction a with
  | nil => simp
  | cons c a ih =>
    rw [List.cons_append, cut?, after?_cons_of_notMem hne (ha c List.mem_cons_self),
      ih fun d hd => ha d (List.mem_cons_of_mem c hd), Option.map_map]
    rfl

theorem cut?_withBreaks (hw : BreakText w) {p : Text} (hne : p ≠ []) (hp : ∀ c ∈ p, ¬ IsBreak c)
    (s : Text) :
    cut? p (withBreaks w s) = (cut? p s).map fun x => (withBreaks w x.1, withBreaks w x.2) := by
  have hfree : ∀ c, IsBreak c → c ∉ p := fun c hc hmem => hp c hmem hc
  induction s using break_induction with
  | nil =>
    rw [withBreaks_nil, cut?]
    split <;> rfl
  | line s ih =>
    rw [withBreaks_break, cut?_append hne fun c hc => hfree c (hw.breaks c hc), ih, cut?,
      after?_cons_of_notMem hne (hfree '\n' (.inr rfl)), Option.map_map, Option.map_map]
    simp [Function.comp_def]
  | char c s hc ih =>
    have hafter := after?_withBreaks hw hp (c :: s)
    rw [withBreaks_cons hc] at hafter ⊢
    rw [cut?, cut?, hafter]
    cases after? p (c :: s) with
    | some tail => rfl
    | none =>
      rw [Option.map_none, ih, Option.map_map, Option.map_map]
      simp [Function.comp_def, withBreaks_cons hc]

end

/-! ## Classes without breaks -/

section
variable {p : Char → Bool}

/-- No character of a break is in the class. -/
def Solid (p : Char → Bool) : Prop := p '\r' = false ∧ p '\n' = false

instance (p : Char → Bool) : Decidable (Solid p) := inferInstanceAs (Decidable (_ ∧ _))

theorem Solid.not_isBreak (hp : Solid p) {c : Char} (h : p c = true) : ¬ IsBreak c := by
  rintro (rfl | rfl)
  · exact Bool.false_ne_true (hp.1.symm.trans h)
  · exact Bool.false_ne_true (hp.2.symm.trans h)

theorem takeWhile_solid (hp : Solid p) (s : Text) : (crlf s).takeWhile p = s.takeWhile p := by
  induction s using break_induction with
  | nil => rfl
  | line s _ => simp [hp.1, hp.2]
  | char c s hc ih => rw [crlf_cons hc, List.takeWhile_cons, List.takeWhile_cons, ih]

theorem dropWhile_solid (hp : Solid p) (s : Text) :
    (crlf s).dropWhile p = crlf (s.dropWhile p) := by
  induction s using break_induction with
  | nil => rfl
  | line s _ => simp [hp.1, hp.2]
  | char c s hc ih =>
    rw [crlf_cons hc]
    by_cases hpc : p c = true
    · rw [List.dropWhile_cons_of_pos hpc, List.dropWhile_cons_of_pos hpc, ih]
    · rw [List.dropWhile_cons_of_neg hpc, List.dropWhile_cons_of_neg hpc, crlf_cons hc]

/-- A test of all characters that the line feeds of a text pass only if carriage returns do. -/
theorem all_crlf (hp : p '\n' = true → p '\r' = true) (s : Text) : (crlf s).all p = s.all p := by
  induction s using break_induction with
  | nil => rfl
  | line s ih =>
    rw [crlf_break, List.all_cons, List.all_cons, List.all_cons, ih]
    cases hn : p '\n' with
    | true => rw [hp hn, Bool.true_and]
    | false => rw [Bool.false_and, Bool.and_false]
  | char c s hc ih => rw [crlf_cons hc, List.all_cons, List.all_cons, ih]

end

/-! ## Ends and splits -/

theorem getLast?_crlf (s : Text) : (crlf s).getLast? = s.getLast? := by
  rcases List.eq_nil_or_concat s with rfl | ⟨s, c, rfl⟩
  · rfl
  · rw [List.concat_eq_append, crlf_append, List.getLast?_concat]
    by_cases hc : c = '\n'
    · subst hc
      simp
    · rw [crlf_cons hc, crlf_nil, List.getLast?_concat]

theorem any_head_crlf {p : Char → Bool} (hp : p '\r' = p '\n') (s : Text) :
    (crlf s).head?.any p = s.head?.any p := by
  induction s using break_induction with
  | nil => rfl
  | line s _ => simpa using hp
  | char c s hc _ =>
    rw [crlf_cons hc]
    rfl

theorem head?_crlf_eq_some {x : Char} (hx : ¬ IsBreak x) {s : Text} :
    (crlf s).head? = some x ↔ s.head? = some x := by
  induction s using break_induction with
  | nil => rfl
  | line s _ =>
    have hr : '\r' ≠ x := fun h => hx (.inl h.symm)
    have hn : '\n' ≠ x := fun h => hx (.inr h.symm)
    simp [hr, hn]
  | char c s hc _ =>
    rw [crlf_cons hc]
    rfl

/-- What the text with carriage returns starts with. -/
theorem crlf_eq_cons {s t : Text} {c : Char} (h : crlf s = c :: t) :
    (∃ b, s = c :: b ∧ c ≠ '\n' ∧ t = crlf b) ∨
      ∃ b, s = '\n' :: b ∧ c = '\r' ∧ t = '\n' :: crlf b := by
  induction s using break_induction with
  | nil => cases h
  | line s _ =>
    rw [crlf_break, List.cons.injEq] at h
    exact .inr ⟨s, rfl, h.1.symm, h.2.symm⟩
  | char d s hd _ =>
    rw [crlf_cons hd, List.cons.injEq] at h
    obtain ⟨rfl, rfl⟩ := h
    exact .inl ⟨s, rfl, hd, rfl⟩

/-- Where the text with carriage returns is split, the text is split as well, or there is a line
feed that comes behind a split inside the break. -/
theorem crlf_eq_append {s u t : Text} (h : crlf s = u ++ t) :
    (∃ a b, s = a ++ b ∧ u = crlf a ∧ t = crlf b) ∨
      ∃ a b, s = a ++ '\n' :: b ∧ u = crlf a ++ ['\r'] ∧ t = '\n' :: crlf b := by
  induction s using break_induction generalizing u with
  | nil =>
    obtain ⟨rfl, rfl⟩ := List.append_eq_nil_iff.1 h.symm
    exact .inl ⟨[], [], rfl, rfl, rfl⟩
  | line s ih =>
    rw [crlf_break] at h
    rcases List.cons_eq_append_iff.1 h with ⟨rfl, rfl⟩ | ⟨v, rfl, hv⟩
    · exact .inl ⟨[], '\n' :: s, rfl, rfl, (crlf_break s).symm⟩
    rcases List.cons_eq_append_iff.1 hv with ⟨rfl, rfl⟩ | ⟨u, rfl, hu⟩
    · exact .inr ⟨[], s, rfl, rfl, rfl⟩
    rcases ih hu with ⟨a, b, rfl, rfl, rfl⟩ | ⟨a, b, rfl, rfl, rfl⟩
    · exact .inl ⟨'\n' :: a, b, rfl, by simp, rfl⟩
    · exact .inr ⟨'\n' :: a, b, rfl, by simp, rfl⟩
  | char c s hc ih =>
    rw [crlf_cons hc] at h
    rcases List.cons_eq_append_iff.1 h with ⟨rfl, rfl⟩ | ⟨u, rfl, hu⟩
    · exact .inl ⟨[], c :: s, rfl, rfl, (crlf_cons hc s).symm⟩
    rcases ih hu with ⟨a, b, rfl, rfl, rfl⟩ | ⟨a, b, rfl, rfl, rfl⟩
    · exact .inl ⟨c :: a, b, rfl, by rw [crlf_cons hc], rfl⟩
    · exact .inr ⟨c :: a, b, rfl, by rw [crlf_cons hc, List.cons_append], rfl⟩

/-- A character that is in no break splits both texts alike. -/
theorem crlf_eq_append_cons {s u t : Text} {c : Char} (hc : ¬ IsBreak c)
    (h : crlf s = u ++ c :: t) : ∃ a b, s = a ++ c :: b ∧ u = crlf a ∧ t = crlf b := by
  rcases crlf_eq_append h with ⟨a, b, rfl, rfl, hb⟩ | ⟨a, b, -, -, hb⟩
  · cases b with
    | nil => cases hb
    | cons d b =>
      by_cases hd : d = '\n'
      · subst hd
        rw [crlf_break] at hb
        exact absurd (.inl (List.cons.inj hb).1) hc
      · rw [crlf_cons hd, List.cons.injEq] at hb
        obtain ⟨rfl, rfl⟩ := hb
        exact ⟨a, b, rfl, rfl, rfl⟩
  · exact absurd (.inr (List.cons.inj hb).1) hc

theorem crlf_eq_self {s : Text} (h : '\n' ∉ s) : crlf s = s := by
  induction s with
  | nil => rfl
  | cons c s ih =>
    rw [List.mem_cons, not_or] at h
    rw [crlf_cons (Ne.symm h.1), ih h.2]

/-- A text without breaks is that of no other text. -/
theorem crlf_eq_iff {s t : Text} (h : ∀ c ∈ t, ¬ IsBreak c) : crlf s = t ↔ s = t := by
  have hfree : '\n' ∉ t := fun hmem => h _ hmem (.inr rfl)
  constructor
  · rintro rfl
    have hs : '\n' ∉ s := by
      intro hmem
      obtain ⟨a, b, rfl⟩ := List.append_of_mem hmem
      exact hfree (by simp)
    exact (crlf_eq_self hs).symm
  · rintro rfl
    exact crlf_eq_self hfree

theorem split_crlf {sep : Char} (hsep : ¬ IsBreak sep) (s : Text) :
    split sep (crlf s) = (split sep s).map crlf := by
  have hbreak : ∀ c, IsBreak c → (c == sep) = false :=
    fun c hc => beq_false_of_ne fun h => hsep (h ▸ hc)
  have hr := hbreak '\r' (.inl rfl)
  have hn := hbreak '\n' (.inr rfl)
  unfold split
  induction s using break_induction with
  | nil => rfl
  | line s ih =>
    simp only [crlf_break, splitWhen, hr, hn, Bool.false_eq_true, if_false, ih]
    cases splitWhen (· == sep) s with
    | nil => simp
    | cons piece pieces => simp
  | char c s hc ih =>
    rw [crlf_cons hc]
    simp only [splitWhen, ih]
    split
    · rfl
    · cases splitWhen (· == sep) s with
      | nil => simp [crlf_cons hc]
      | cons piece pieces => simp [crlf_cons hc]

/-! ## Breaks of both kinds -/

/-- The first text is the second with a carriage return before some of its line feeds; the second
has no carriage returns. -/
inductive Returned : Text → Text → Prop where
  | nil : Returned [] []
  | pair {s t : Text} (rest : Returned s t) : Returned ('\r' :: '\n' :: s) ('\n' :: t)
  | same {c : Char} {s t : Text} (hc : c ≠ '\r') (rest : Returned s t) :
      Returned (c :: s) (c :: t)

/-- Other characters than line feeds stand in the first text as they do in the second. -/
theorem Returned.of_cons {c : Char} {s t : Text} (h : Returned s (c :: t)) (hc : c ≠ '\n') :
    ∃ s', s = c :: s' ∧ Returned s' t := by
  cases h with
  | pair => exact absurd rfl hc
  | same _ rest => exact ⟨_, rfl, rest⟩

/-- Other characters than carriage returns stand in the second text as they do in the first. -/
theorem Returned.cons_of {c : Char} {s t : Text} (h : Returned (c :: s) t) (hc : c ≠ '\r') :
    ∃ t', t = c :: t' ∧ Returned s t' := by
  cases h with
  | pair => exact absurd rfl hc
  | same _ rest => exact ⟨_, rfl, rest⟩

theorem returned_crlf {s : Text} (h : '\r' ∉ s) : Returned (crlf s) s := by
  induction s with
  | nil => exact .nil
  | cons c s ih =>
    rw [List.mem_cons, not_or] at h
    by_cases hc : c = '\n'
    · subst hc
      exact .pair (ih h.2)
    · rw [crlf_cons hc]
      exact .same (Ne.symm h.1) (ih h.2)

theorem Returned.unifyBreaks_eq {s t : Text} (h : Returned s t) : unifyBreaks s = t := by
  induction h with
  | nil => rfl
  | pair _ ih => rw [unifyBreaks, ih]
  | @same c s t hc _ ih =>
    rw [unifyBreaks, ih]
    · exact fun _ h _ => hc h
    · exact hc

end BlockSafe.Text
