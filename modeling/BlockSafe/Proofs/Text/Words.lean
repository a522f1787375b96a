import BlockSafe.Proofs.Text.Pieces

/-!
# Words

To collapse the white space of a text is to put its words together with single spaces, and the words
of the result are those of the text (`words_join`), so that collapsing twice is collapsing once
(`collapse_collapse`).  The only white space of the result are spaces (`spaced_collapse`).

A start of a collapsed text is collapsed as well, but for a space behind its last word
(`collapse_take`), and there is none unless something was cut off (`IsClipped.length_of_last`).
-/

namespace BlockSafe.Text

/-- Characters without white space, and at least one. -/
def WholeWord (w : Text) : Prop := w ≠ [] ∧ ∀ c ∈ w, isSpace c = false

/-- A text whose only white space are spaces. -/
def Spaced (s : Text) : Prop := ∀ c ∈ s, isSpace c = true → c = ' '

instance (s : Text) : Decidable s.Spaced :=
  inferInstanceAs (Decidable (∀ c ∈ s, isSpace c = true → c = ' '))

variable {s t w : Text} {ws : List Text}

/-! ## Words put together -/

theorem wholeWord_of_mem_words : ∀ w ∈ words s, WholeWord w := by
  intro w hw
  obtain ⟨hpiece, hne⟩ := List.mem_filter.1 hw
  exact ⟨by simpa using hne, not_of_mem_splitWhen w hpiece⟩

theorem filter_words (h : ∀ w ∈ ws, WholeWord w) : ws.filter (!·.isEmpty) = ws :=
  List.filter_eq_self.2 fun w hw => by simpa using (h w hw).1

/-- Words that are put together with spaces come apart again. -/
theorem words_join (h : ∀ w ∈ ws, WholeWord w) : words (join [' '] ws) = ws := by
  cases ws with
  | nil => rfl
  | cons w ws =>
    unfold words
    rw [splitWhen_join (by decide) (List.cons_ne_nil _ _) fun w hw => (h w hw).2, filter_words h]

/-- A space at the end ends no further word. -/
theorem words_space (s : Text) : words (s ++ [' ']) = words s := by
  obtain ⟨xs, x, y, ys, hs, hspace, hboth⟩ := splitWhen_append isSpace s [' ']
  obtain ⟨rfl, rfl⟩ : [] = y ∧ [[]] = ys := List.cons.inj hspace
  unfold words
  rw [hboth, hs, List.append_nil, List.filter_append, List.filter_append]
  rfl

theorem collapse_join (h : ∀ w ∈ ws, WholeWord w) : collapse (join [' '] ws) = join [' '] ws := by
  rw [collapse, words_join h]

theorem collapse_collapse (s : Text) : collapse (collapse s) = collapse s :=
  collapse_join wholeWord_of_mem_words

theorem spaced_join (h : ∀ w ∈ ws, WholeWord w) : Spaced (join [' '] ws) := by
  intro c hc hspace
  rcases mem_join hc with rfl | ⟨w, hw, hmem⟩
  · rfl
  · rw [(h w hw).2 c hmem] at hspace
    cases hspace

theorem spaced_collapse (s : Text) : Spaced (collapse s) := spaced_join wholeWord_of_mem_words

theorem Spaced.append (hs : s.Spaced) (ht : t.Spaced) : Spaced (s ++ t) :=
  List.forall_mem_append.2 ⟨hs, ht⟩

theorem Spaced.notMem (h : s.Spaced) : '\n' ∉ s := by
  intro hmem
  have heq := h '\n' hmem (by decide)
  revert heq
  decide

/-! ## Starts of collapsed texts -/

/-- The text without a space at its end. -/
def withoutLastSpace (s : Text) : Text := if s.getLast? = some ' ' then s.dropLast else s

theorem withoutLastSpace_eq_self (h : s.getLast? ≠ some ' ') : withoutLastSpace s = s := if_neg h

theorem length_withoutLastSpace_le (s : Text) : (withoutLastSpace s).length ≤ s.length := by
  unfold withoutLastSpace
  split
  · rw [List.length_dropLast]
    exact Nat.sub_le _ _
  · exact Nat.le_refl _

theorem withoutLastSpace_eq_self_iff : withoutLastSpace s = s ↔ s.getLast? ≠ some ' ' := by
  refine ⟨fun h hlast => ?_, withoutLastSpace_eq_self⟩
  rw [withoutLastSpace, if_pos hlast] at h
  have hne : s ≠ [] := List.ne_nil_of_mem (List.mem_of_getLast? hlast)
  have hpos : 0 < s.length := List.length_pos_iff.2 hne
  have hlength := congrArg List.length h
  rw [List.length_dropLast] at hlength
  omega

theorem withoutLastSpace_append (s : Text) : withoutLastSpace (s ++ [' ']) = s := by
  rw [withoutLastSpace, if_pos List.getLast?_concat, List.dropLast_concat]

theorem WholeWord.last_ne (h : WholeWord w) : w.getLast? ≠ some ' ' := by
  intro hlast
  have hspace := h.2 ' ' (List.mem_of_getLast? hlast)
  revert hspace
  decide

theorem join_ne_nil (hw : WholeWord w) (ws : List Text) : join [' '] (w :: ws) ≠ [] := by
  cases ws with
  | nil =>
    rw [join_singleton]
    exact hw.1
  | cons next ws =>
    rw [join_cons_cons]
    exact List.append_ne_nil_of_left_ne_nil hw.1 _

theorem last_join (h : ∀ w ∈ ws, WholeWord w) : (join [' '] ws).getLast? ≠ some ' ' := by
  induction ws with
  | nil => simp [join]
  | cons w ws ih =>
    obtain ⟨hw, hws⟩ := List.forall_mem_cons.1 h
    cases ws with
    | nil =>
      rw [join_singleton]
      exact hw.last_ne
    | cons next ws =>
      have hlast := ih hws
      have hne := join_ne_nil (hws next List.mem_cons_self) ws
      rw [join_cons_cons, List.getLast?_append, List.getLast?_cons]
      cases hc : (join [' '] (next :: ws)).getLast? with
      | none => exact absurd (List.getLast?_eq_none_iff.1 hc) hne
      | some c =>
        rw [hc] at hlast
        exact hlast

/-- A start of a word is a word, if it is not empty. -/
theorem WholeWord.take (h : WholeWord w) (n : Nat) :
    ∃ vs, (∀ v ∈ vs, WholeWord v) ∧ w.take n = join [' '] vs := by
  by_cases hn : w.take n = []
  · exact ⟨[], fun _ hv => absurd hv List.not_mem_nil, hn⟩
  · refine ⟨[w.take n], ?_, (join_singleton _ _).symm⟩
    rw [List.forall_mem_singleton]
    exact ⟨hn, fun c hc => h.2 c (List.mem_of_mem_take hc)⟩

/-- A start of words put together ends with a word, or with the space behind one. -/
theorem take_join (h : ∀ w ∈ ws, WholeWord w) (n : Nat) : ∃ vs, (∀ v ∈ vs, WholeWord v) ∧
    ((join [' '] ws).take n = join [' '] vs ∨
      vs ≠ [] ∧ (join [' '] ws).take n = join [' '] vs ++ [' ']) := by
  induction ws generalizing n with
  | nil => exact ⟨[], h, .inl List.take_nil⟩
  | cons w ws ih =>
    obtain ⟨hw, hws⟩ := List.forall_mem_cons.1 h
    obtain ⟨us, hus, htake⟩ := hw.take n
    cases ws with
    | nil => exact ⟨us, hus, .inl (by rw [join_singleton, htake])⟩
    | cons next ws =>
      rw [join_cons_cons]
      rcases Nat.lt_or_ge w.length n with hlong | hshort
      · obtain ⟨k, rfl⟩ : ∃ k, n = w.length + (k + 1) := ⟨n - w.length - 1, by omega⟩
        rw [List.take_length_add_append, List.take_succ_cons]
        obtain ⟨vs, hvs, hrest⟩ := ih hws k
        have hall : ∀ v ∈ w :: vs, WholeWord v := List.forall_mem_cons.2 ⟨hw, hvs⟩
        refine ⟨w :: vs, hall, ?_⟩
        cases vs with
        | nil =>
          rcases hrest with hrest | ⟨hne, -⟩
          · exact .inr ⟨List.cons_ne_nil _ _, by rw [hrest, join_singleton]; rfl⟩
          · exact absurd rfl hne
        | cons v vs =>
          rw [join_cons_cons]
          rcases hrest with hrest | ⟨-, hrest⟩
          · exact .inl (by rw [hrest])
          · exact .inr ⟨List.cons_ne_nil _ _, by rw [hrest, List.append_assoc, List.cons_append]⟩
      · exact ⟨us, hus, .inl (by rw [List.take_append_of_le_length hshort, htake])⟩

/-- To collapse a start of a collapsed text drops the space at its end, if there is one. -/
theorem collapse_take (s : Text) (n : Nat) :
    collapse ((collapse s).take n) = withoutLastSpace ((collapse s).take n) := by
  have hwords : ∀ w ∈ words s, WholeWord w := wholeWord_of_mem_words
  obtain ⟨vs, hvs, htake⟩ := take_join hwords n
  rcases htake with htake | ⟨-, htake⟩
  · have hstart : (collapse s).take n = join [' '] vs := htake
    rw [hstart, collapse_join hvs, withoutLastSpace_eq_self (last_join hvs)]
  · have hstart : (collapse s).take n = join [' '] vs ++ [' '] := htake
    rw [hstart, withoutLastSpace_append, collapse, words_space, words_join hvs]

/-- The text is what the first characters of a collapsed text are, at most `limit` of them. -/
def IsClipped (limit : Nat) (s : Text) : Prop := ∃ t : Text, s = (collapse t).take limit

namespace IsClipped

variable {limit : Nat}

theorem collapse_eq (h : IsClipped limit s) : collapse s = withoutLastSpace s := by
  obtain ⟨t, rfl⟩ := h
  exact collapse_take t limit

theorem length_le (h : IsClipped limit s) : s.length ≤ limit := by
  obtain ⟨t, rfl⟩ := h
  exact List.length_take_le _ _

/-- Only a text that has been cut ends with a space. -/
theorem length_of_last (h : IsClipped limit s) (hlast : s.getLast? = some ' ') :
    s.length = limit := by
  obtain ⟨t, rfl⟩ := h
  rw [List.length_take]
  refine Nat.min_eq_left (Nat.le_of_not_lt fun hshort => ?_)
  rw [List.take_of_length_le (Nat.le_of_lt hshort)] at hlast
  exact last_join wholeWord_of_mem_words hlast

theorem last_withoutLastSpace (h : IsClipped limit s) :
    (withoutLastSpace s).getLast? ≠ some ' ' := by
  rw [← h.collapse_eq]
  exact last_join wholeWord_of_mem_words

theorem spaced (h : IsClipped limit s) : Spaced s := by
  obtain ⟨t, rfl⟩ := h
  exact fun c hc => spaced_collapse t c (List.mem_of_mem_take hc)

end IsClipped

end BlockSafe.Text
