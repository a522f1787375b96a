import BlockSafe.Proofs.Text.Ends
import BlockSafe.Reply.Notes

/-!
# What is kept of feedback notes

Whatever the values are that a provider sends as notes, the notes that are kept are trimmed, none
is blank, and no two differ in case only (`ProperNotes`).  `distinctNotes` keeps its promise with
any fallback that is a proper note itself (`proper_distinctNotes`), and with such a fallback it
never comes back empty (`distinctNotes_ne_nil`).

Nothing is lost on the way: the notes that are kept stand in the order in which they came, and for
each note that says something there is one that is the same but for case (`Gathered`).  Proper notes
are kept as they are.  So notes that come in several lists may be reduced list by list before they
are reduced together:

    distinctNotes (groups.flatMap distinctNotes) = distinctNotes groups.flatten
                                                                        (distinctNotes_flatMap)

The recursion carries what it has seen, in lower case.  A list is read on from what was seen before
it and in it (`freshNotes_append`), and what is seen at the end of an inner pass is seen in the
outer one too (`freshNotes_freshNotes`).
-/

namespace BlockSafe

/-- Trimmed notes that say something, no two of them the same but for case. -/
structure ProperNotes (notes : List Text) : Prop where
  trimmed : ∀ note ∈ notes, Text.trim note = note
  spoken : ∀ note ∈ notes, Text.isBlank note = false
  distinct : (notes.map Text.lower).Nodup

/-- Notes that were kept of others: in their order, and none of those that say something without
one that is the same but for case. -/
structure Gathered (notes kept : List Text) : Prop where
  sublist : kept.Sublist notes
  represented : ∀ note ∈ notes, note ≠ [] → ∃ same ∈ kept, Text.lower same = Text.lower note

/-- A trimmed text that is not empty says something. -/
theorem isBlank_of_trimmed {note : Text} (ht : Text.trim note = note) (hne : note ≠ []) :
    Text.isBlank note = false := by
  cases hb : Text.isBlank note with
  | false => rfl
  | true =>
    rw [Text.isBlank_iff_trim, ht] at hb
    exact absurd hb hne

theorem trim_noteText (value : Json) : Text.trim (noteText value) = noteText value := by
  cases value with
  | null => rfl
  | _ => exact Text.trim_trim _

/-! ## One pass -/

section
variable {seen seen' notes : List Text} {note : Text}

/-- The notes that are passed over. -/
theorem skipped_iff : (note.isEmpty || seen.contains (Text.lower note)) = true ↔
    note = [] ∨ Text.lower note ∈ seen := by
  rw [Bool.or_eq_true, List.isEmpty_iff, List.contains_iff_mem]

theorem freshNotes_skip (h : note = [] ∨ Text.lower note ∈ seen) (notes : List Text) :
    freshNotes seen (note :: notes) = freshNotes seen notes := by
  rw [freshNotes, if_pos (skipped_iff.2 h)]

theorem freshNotes_keep (h : ¬(note = [] ∨ Text.lower note ∈ seen)) (notes : List Text) :
    freshNotes seen (note :: notes) = note :: freshNotes (Text.lower note :: seen) notes := by
  rw [freshNotes, if_neg (skipped_iff.not.2 h)]

theorem mem_freshNotes (h : note ∈ freshNotes seen notes) :
    note ∈ notes ∧ note ≠ [] ∧ Text.lower note ∉ seen := by
  fun_induction freshNotes seen notes with
  | case1 => cases h
  | case2 seen first notes hskip ih =>
    obtain ⟨h1, h2⟩ := ih h
    exact ⟨List.mem_cons_of_mem first h1, h2⟩
  | case3 seen first notes hkeep ih =>
    rcases List.mem_cons.1 h with rfl | h
    · rw [skipped_iff, not_or] at hkeep
      exact ⟨List.mem_cons_self, hkeep⟩
    · obtain ⟨h1, h2, h3⟩ := ih h
      exact ⟨List.mem_cons_of_mem first h1, h2, fun hs => h3 (List.mem_cons_of_mem _ hs)⟩

theorem nodup_freshNotes (seen notes : List Text) :
    ((freshNotes seen notes).map Text.lower).Nodup := by
  fun_induction freshNotes seen notes with
  | case1 => exact List.nodup_nil
  | case2 seen first notes hskip ih => exact ih
  | case3 seen first notes hkeep ih =>
    rw [List.map_cons, List.nodup_cons]
    refine ⟨?_, ih⟩
    intro hmem
    obtain ⟨note, hn, he⟩ := List.mem_map.1 hmem
    exact (mem_freshNotes hn).2.2 (he ▸ List.mem_cons_self)

theorem freshNotes_sublist (seen notes : List Text) : (freshNotes seen notes).Sublist notes := by
  fun_induction freshNotes seen notes with
  | case1 => exact .slnil
  | case2 seen first notes hskip ih => exact ih.cons first
  | case3 seen first notes hkeep ih => exact ih.cons_cons first

/-- A note that says something is kept in some spelling, unless one was seen before. -/
theorem freshNotes_represented (h : note ∈ notes) (hne : note ≠ [])
    (hnew : Text.lower note ∉ seen) :
    ∃ same ∈ freshNotes seen notes, Text.lower same = Text.lower note := by
  fun_induction freshNotes seen notes with
  | case1 => cases h
  | case2 seen first notes hskip ih =>
    rcases List.mem_cons.1 h with rfl | h
    · rw [skipped_iff] at hskip
      exact absurd hskip (not_or.2 ⟨hne, hnew⟩)
    · exact ih h hnew
  | case3 seen first notes hkeep ih =>
    by_cases hsame : Text.lower note = Text.lower first
    · exact ⟨first, List.mem_cons_self, hsame.symm⟩
    · have hrest := (List.mem_cons.1 h).resolve_left fun he => hsame (congrArg Text.lower he)
      obtain ⟨same, hmem, he⟩ := ih hrest (fun hs => (List.mem_cons.1 hs).elim hsame hnew)
      exact ⟨same, List.mem_cons_of_mem first hmem, he⟩

/-- Notes of which none would be passed over are kept. -/
theorem freshNotes_eq_self (hne : ∀ note ∈ notes, note ≠ [])
    (hnodup : (notes.map Text.lower).Nodup) (hnew : ∀ note ∈ notes, Text.lower note ∉ seen) :
    freshNotes seen notes = notes := by
  induction notes generalizing seen with
  | nil => rfl
  | cons first notes ih =>
    obtain ⟨hfirst, hne⟩ := List.forall_mem_cons.1 hne
    obtain ⟨hfirstNew, hnew⟩ := List.forall_mem_cons.1 hnew
    obtain ⟨hapart, hnodup⟩ := List.nodup_cons.1 hnodup
    rw [freshNotes_keep (not_or.2 ⟨hfirst, hfirstNew⟩), ih hne hnodup]
    intro note hn hs
    rcases List.mem_cons.1 hs with he | hs
    · exact hapart (he ▸ List.mem_map_of_mem hn)
    · exact hnew note hn hs

/-! ## Several passes -/

/-- It does not matter in which order and how often something was seen. -/
theorem freshNotes_congr (h : ∀ key, key ∈ seen ↔ key ∈ seen') (notes : List Text) :
    freshNotes seen notes = freshNotes seen' notes := by
  induction notes generalizing seen seen' with
  | nil => rfl
  | cons first notes ih =>
    have hcons : ∀ key, key ∈ Text.lower first :: seen ↔ key ∈ Text.lower first :: seen' := by
      intro key
      rw [List.mem_cons, List.mem_cons, h]
    by_cases hskip : first = [] ∨ Text.lower first ∈ seen
    · rw [freshNotes_skip hskip, freshNotes_skip (hskip.imp_right (h _).1), ih h]
    · rw [freshNotes_keep hskip, freshNotes_keep fun hs => hskip (hs.imp_right (h _).2), ih hcons]

/-- Behind one list a pass goes on with all that it has kept of it. -/
theorem freshNotes_append (seen left right : List Text) :
    freshNotes seen (left ++ right) = freshNotes seen left ++
      freshNotes ((freshNotes seen left).map Text.lower ++ seen) right := by
  induction left generalizing seen with
  | nil => rfl
  | cons first left ih =>
    rw [List.cons_append]
    by_cases hskip : first = [] ∨ Text.lower first ∈ seen
    · rw [freshNotes_skip hskip, freshNotes_skip hskip, ih]
    · rw [freshNotes_keep hskip, freshNotes_keep hskip, ih, List.cons_append, List.map_cons]
      congr 2
      refine freshNotes_congr (fun key => ?_) right
      simp only [List.mem_append, List.cons_append, List.mem_cons]
      exact or_left_comm

/-- A pass over what another one has kept, if that one had seen nothing else. -/
theorem freshNotes_freshNotes (h : seen' ⊆ seen) (notes : List Text) :
    freshNotes seen (freshNotes seen' notes) = freshNotes seen notes := by
  induction notes generalizing seen seen' with
  | nil => rfl
  | cons first notes ih =>
    by_cases hinner : first = [] ∨ Text.lower first ∈ seen'
    · rw [freshNotes_skip hinner, freshNotes_skip (hinner.imp_right (h ·)), ih h]
    · rw [freshNotes_keep hinner]
      by_cases houter : first = [] ∨ Text.lower first ∈ seen
      · have hsub : Text.lower first :: seen' ⊆ seen :=
          List.cons_subset.2 ⟨houter.resolve_left fun he => hinner (.inl he), h⟩
        rw [freshNotes_skip houter, freshNotes_skip houter, ih hsub]
      · rw [freshNotes_keep houter, freshNotes_keep houter, ih (List.cons_subset_cons _ h)]

/-- Several lists may be reduced one by one before they are reduced together. -/
theorem freshNotes_flatMap (seen : List Text) (parts : List (List Text)) :
    freshNotes seen (parts.flatMap (freshNotes [])) = freshNotes seen parts.flatten := by
  induction parts generalizing seen with
  | nil => rfl
  | cons part parts ih =>
    rw [List.flatMap_cons, List.flatten_cons, freshNotes_append, freshNotes_append,
      freshNotes_freshNotes (List.nil_subset seen), ih]

end

/-! ## Values -/

theorem proper_freshNotes (items : List Json) :
    ProperNotes (freshNotes [] (items.map noteText)) := by
  have htrim : ∀ note ∈ freshNotes [] (items.map noteText), Text.trim note = note := by
    intro note hn
    obtain ⟨value, -, rfl⟩ := List.mem_map.1 (mem_freshNotes hn).1
    exact trim_noteText value
  exact ⟨htrim, fun note hn => isBlank_of_trimmed (htrim note hn) (mem_freshNotes hn).2.1,
    nodup_freshNotes _ _⟩

theorem properNotes_singleton {note : Text} (ht : Text.trim note = note) (hne : note ≠ []) :
    ProperNotes [note] := by
  refine ⟨?_, ?_, by simp⟩
  · exact List.forall_mem_singleton.2 ht
  · exact List.forall_mem_singleton.2 (isBlank_of_trimmed ht hne)

theorem proper_distinctNotes (items : List Json) {fallback : Text}
    (hf : Text.trim fallback = fallback) : ProperNotes (distinctNotes items fallback) := by
  unfold distinctNotes
  simp only []
  split
  · next h =>
    refine properNotes_singleton hf ?_
    rintro rfl
    simp at h
  · exact proper_freshNotes items

theorem distinctNotes_ne_nil (items : List Json) {fallback : Text} (hf : fallback ≠ []) :
    distinctNotes items fallback ≠ [] := by
  unfold distinctNotes
  simp only []
  split
  · simp
  · next h =>
    intro he
    rw [he] at h
    cases fallback with
    | nil => exact hf rfl
    | cons c rest => simp at h

/-- A fallback is used only where no value says anything. -/
theorem distinctNotes_eq {items : List Json} {fallback : Text}
    (h : fallback = [] ∨ ∃ item ∈ items, noteText item ≠ []) :
    distinctNotes items fallback = freshNotes [] (items.map noteText) := by
  unfold distinctNotes
  simp only []
  rw [if_neg]
  rcases h with rfl | ⟨item, hitem, hne⟩
  · simp
  · have hnew : Text.lower (noteText item) ∉ ([] : List Text) := List.not_mem_nil
    obtain ⟨same, hsame, -⟩ := freshNotes_represented (List.mem_map_of_mem hitem) hne hnew
    rw [List.isEmpty_eq_false_iff_exists_mem.2 ⟨same, hsame⟩, Bool.false_and]
    exact Bool.false_ne_true

/-- What is kept depends on the texts of the values, as far as they are fresh. -/
theorem distinctNotes_congr {items items' : List Json}
    (h : freshNotes [] (items.map noteText) = freshNotes [] (items'.map noteText))
    (fallback : Text) : distinctNotes items fallback = distinctNotes items' fallback := by
  unfold distinctNotes
  simp only [h]

theorem gathered_distinctNotes {items : List Json} {fallback : Text}
    (h : fallback = [] ∨ ∃ item ∈ items, noteText item ≠ []) :
    Gathered (items.map noteText) (distinctNotes items fallback) := by
  rw [distinctNotes_eq h]
  exact ⟨freshNotes_sublist _ _, fun note hn hne =>
    freshNotes_represented hn hne List.not_mem_nil⟩

/-- The texts of trimmed notes are these notes. -/
theorem map_noteText {notes : List Text} (h : ∀ note ∈ notes, Text.trim note = note) :
    (notes.map Json.str).map noteText = notes := by
  rw [List.map_map]
  conv_rhs => rw [← List.map_id notes]
  exact List.map_congr_left h

/-- Proper notes are kept as they are. -/
theorem ProperNotes.distinctNotes_eq_self {notes : List Text} {fallback : Text}
    (h : ProperNotes notes) (hf : fallback = [] ∨ notes ≠ []) :
    distinctNotes (notes.map .str) fallback = notes := by
  have hne : ∀ note ∈ notes, note ≠ [] := by
    rintro note hn rfl
    cases h.spoken [] hn
  have hself : freshNotes [] ((notes.map Json.str).map noteText) = notes := by
    rw [map_noteText h.trimmed]
    exact freshNotes_eq_self hne h.distinct fun _ _ => List.not_mem_nil
  have hheard : fallback = [] ∨ ∃ item ∈ notes.map Json.str, noteText item ≠ [] := by
    refine hf.imp_right fun hnotes => ?_
    obtain ⟨note, hn⟩ := List.exists_mem_of_ne_nil notes hnotes
    refine ⟨.str note, List.mem_map_of_mem hn, ?_⟩
    rw [show noteText (.str note) = note from h.trimmed note hn]
    exact hne note hn
  rw [distinctNotes_eq hheard, hself]

/-- **Reducing list by list loses nothing.** -/
theorem distinctNotes_flatMap (groups : List (List Json)) (fallback : Text) :
    distinctNotes ((groups.flatMap (distinctNotes ·)).map .str) fallback =
      distinctNotes groups.flatten fallback := by
  have htrimmed : ∀ note ∈ groups.flatMap (distinctNotes ·), Text.trim note = note := by
    intro note hn
    obtain ⟨group, -, hn⟩ := List.mem_flatMap.1 hn
    exact (proper_distinctNotes group rfl).trimmed note hn
  have hinner : groups.flatMap (distinctNotes ·) =
      (groups.map (·.map noteText)).flatMap (freshNotes []) := by
    rw [List.flatMap_map]
    exact List.flatMap_congr fun group _ => distinctNotes_eq (.inl rfl)
  apply distinctNotes_congr
  rw [map_noteText htrimmed, hinner, freshNotes_flatMap, List.map_flatten]

end BlockSafe
