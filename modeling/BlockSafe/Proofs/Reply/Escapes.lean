import BlockSafe.Proofs.Reply.Edges

/-!
# Escaped white space

A provider that encodes a program twice spells its line feeds and tabs as escapes.  Any of them may
be spelled so, and each line feed with or without a carriage return; what is read is the same
program, as long as it holds no backslash of its own.

    Escaped s t → decodeEscapes t = s               (Escaped.decodeEscapes_eq)
    Escaped s t → canonical t = canonical s         (canonical_escaped)

Decoding runs over a text three times, once for each escape.  What the passes do together is read
off the head of the text: one equation for each escape, and one for any character that is not a
backslash.  The characters that are taken out before leave an escape in one piece.
-/

namespace BlockSafe

variable {s t : Text}

/-- `t` spells some line feeds and tabs of `s` as escapes. -/
inductive Escaped : Text → Text → Prop
  | nil : Escaped [] []
  | plain (c : Char) {s t : Text} : Escaped s t → Escaped (c :: s) (c :: t)
  | feed {s t : Text} : Escaped s t → Escaped ('\n' :: s) ('\\' :: 'n' :: t)
  | returnFeed {s t : Text} : Escaped s t → Escaped ('\n' :: s) ('\\' :: 'r' :: '\\' :: 'n' :: t)
  | tab {s t : Text} : Escaped s t → Escaped ('\t' :: s) ('\\' :: 't' :: t)

/-- None need be spelled so. -/
theorem Escaped.refl (s : Text) : Escaped s s := by
  induction s with
  | nil => exact .nil
  | cons c s ih => exact .plain c ih

/-! ## The three passes at the head of a text -/

theorem decodeEscapedBreaks_cons {c : Char} (h : c ≠ '\\') (t : Text) :
    decodeEscapedBreaks (c :: t) = c :: decodeEscapedBreaks t := by
  rw [decodeEscapedBreaks]
  exact fun _ hc _ => h hc

/-- A backslash and another letter than `r` start no escaped break. -/
theorem decodeEscapedBreaks_backslash {c : Char} (hr : c ≠ 'r') (hb : c ≠ '\\') (t : Text) :
    decodeEscapedBreaks ('\\' :: c :: t) = '\\' :: c :: decodeEscapedBreaks t := by
  rw [decodeEscapedBreaks, decodeEscapedBreaks_cons hb]
  rintro rest - hrest
  exact hr (List.cons.inj hrest).1

theorem decodeEscapes_cons {c : Char} (h : c ≠ '\\') (t : Text) :
    decodeEscapes (c :: t) = c :: decodeEscapes t := by
  unfold decodeEscapes
  rw [decodeEscapedBreaks_cons h, decodeEscape_cons fun hc => h hc.1,
    decodeEscape_cons fun hc => h hc.1]

theorem decodeEscapes_feed (t : Text) :
    decodeEscapes ('\\' :: 'n' :: t) = '\n' :: decodeEscapes t := by
  unfold decodeEscapes
  rw [decodeEscapedBreaks_backslash (by decide) (by decide), decodeEscape, if_pos ⟨rfl, rfl⟩,
    decodeEscape_cons (by simp)]

theorem decodeEscapes_returnFeed (t : Text) :
    decodeEscapes ('\\' :: 'r' :: '\\' :: 'n' :: t) = '\n' :: decodeEscapes t := by
  unfold decodeEscapes
  rw [decodeEscapedBreaks, decodeEscape_cons (by simp), decodeEscape_cons (by simp)]

theorem decodeEscapes_tab (t : Text) :
    decodeEscapes ('\\' :: 't' :: t) = '\t' :: decodeEscapes t := by
  unfold decodeEscapes
  rw [decodeEscapedBreaks_backslash (by decide) (by decide), decodeEscape_cons (by simp),
    decodeEscape_cons (c := 't') (by simp), decodeEscape, if_pos ⟨rfl, rfl⟩]

/-! ## What escaping leaves alone -/

namespace Escaped

/-- Every escape is read as what it stands for. -/
theorem decodeEscapes_eq (h : Escaped s t) (hs : '\\' ∉ s) : decodeEscapes t = s := by
  induction h with
  | nil => rfl
  | plain c _ ih =>
    rw [List.mem_cons, not_or] at hs
    rw [decodeEscapes_cons (Ne.symm hs.1), ih hs.2]
  | feed _ ih => rw [decodeEscapes_feed, ih fun h => hs (List.mem_cons_of_mem _ h)]
  | returnFeed _ ih => rw [decodeEscapes_returnFeed, ih fun h => hs (List.mem_cons_of_mem _ h)]
  | tab _ ih => rw [decodeEscapes_tab, ih fun h => hs (List.mem_cons_of_mem _ h)]

/-- No part of an escape is invisible, and neither is what it stands for. -/
theorem filter_visible (h : Escaped s t) :
    Escaped (s.filter (!isInvisible ·)) (t.filter (!isInvisible ·)) := by
  have keep : ∀ c ∈ ['\\', 'n', 'r', 't', '\n', '\t'], (!isInvisible c) = true := by decide
  induction h with
  | nil => exact .nil
  | plain c _ ih =>
    rw [List.filter_cons, List.filter_cons]
    split
    · exact ih.plain c
    · exact ih
  | feed _ ih =>
    simp only [List.filter_cons, keep _, List.mem_cons, true_or, or_true, if_true]
    exact ih.feed
  | returnFeed _ ih =>
    simp only [List.filter_cons, keep _, List.mem_cons, true_or, or_true, if_true]
    exact ih.returnFeed
  | tab _ ih =>
    simp only [List.filter_cons, keep _, List.mem_cons, true_or, or_true, if_true]
    exact ih.tab

/-- A start without a backslash is a start of what was escaped. -/
theorem prefix_of_prefix (h : Escaped s t) {p : Text} (hp : '\\' ∉ p) (hpt : p <+: t) :
    p <+: s := by
  induction h generalizing p with
  | nil => exact hpt
  | plain c _ ih =>
    rcases p with _ | ⟨d, p⟩
    · exact List.nil_prefix
    · obtain ⟨rfl, hrest⟩ := List.cons_prefix_cons.1 hpt
      exact List.cons_prefix_cons.2 ⟨rfl, ih (fun h => hp (List.mem_cons_of_mem _ h)) hrest⟩
  | feed | returnFeed | tab =>
    rcases p with _ | ⟨d, p⟩
    · exact List.nil_prefix
    · obtain ⟨rfl, -⟩ := List.cons_prefix_cons.1 hpt
      exact absurd List.mem_cons_self hp

end Escaped

/-! ## Main result -/

/-- **Escaped white space makes no difference**, next to real carriage returns, at the ends of the
text and around invisible characters. -/
theorem canonical_escaped (hplain : '\\' ∉ s) (hopen : ¬ fence <+: s.filter (!isInvisible ·))
    (h : Escaped s t) : canonical t = canonical s := by
  have hvisible := h.filter_visible
  have hplain' : '\\' ∉ s.filter (!isInvisible ·) := fun hmem =>
    hplain (List.mem_filter.1 hmem).1
  have hopen' : ¬ fence <+: t.filter (!isInvisible ·) := fun hfence =>
    hopen (hvisible.prefix_of_prefix (by decide) hfence)
  have hdecode := hvisible.decodeEscapes_eq hplain'
  have hself := (Escaped.refl (s.filter (!isInvisible ·))).decodeEscapes_eq hplain'
  rw [canonical_eq_polish, canonical_eq_polish, dropFence_unfenced hopen, dropFence_unfenced hopen']
  unfold polish
  rw [hdecode, hself]

/-- A line feed behind an invisible character and another behind a carriage return, a tab that is
left alone, and escapes at both ends. -/
theorem canonical_escaped_ends :
    '\\' ∉ "\n\u200Bx\n\r\n\ty\t\n".toList ∧
      ¬ fence <+: "\n\u200Bx\n\r\n\ty\t\n".toList.filter (!isInvisible ·) ∧
      Escaped "\n\u200Bx\n\r\n\ty\t\n".toList "\\n\u200Bx\\r\\n\r\\n\ty\\t\\r\\n".toList ∧
      canonical "\\n\u200Bx\\r\\n\r\\n\ty\\t\\r\\n".toList = "x\n\n\ty".toList := by
  have hplain : '\\' ∉ "\n\u200Bx\n\r\n\ty\t\n".toList := by decide +kernel
  have hopen : ¬ fence <+: "\n\u200Bx\n\r\n\ty\t\n".toList.filter (!isInvisible ·) := by
    decide +kernel
  have h : Escaped "\n\u200Bx\n\r\n\ty\t\n".toList "\\n\u200Bx\\r\\n\r\\n\ty\\t\\r\\n".toList :=
    .feed <| .plain _ <| .plain _ <| .returnFeed <| .plain _ <| .feed <| .plain _ <| .plain _ <|
      .tab <| .returnFeed .nil
  have hcanonical : canonical "\n\u200Bx\n\r\n\ty\t\n".toList = "x\n\n\ty".toList := by
    decide +kernel
  exact ⟨hplain, hopen, h, (canonical_escaped hplain hopen h).trans hcanonical⟩

end BlockSafe
