import BlockSafe.Proofs.Reply.Canonical

/-!
# What stands at the edges

Peeling a text until nothing changes is one trim at both ends, by the class of the edge characters:

    peelEdges s = Text.trimBoth isEdge s                              (peelEdges_eq_trimBoth)

So edge characters behind a text make no difference to the steps that come after the fence
(`polish_append`): they hold no part of an escape, and all that they become is trimmed.  A closing
fence is nothing but edge characters, and need not be dropped at all (`polish_dropClosingFence`).
Backquotes behind a text do not matter to its canonical form, whether or not there is a fence around
it (`canonical_append_backquotes`).
-/

namespace BlockSafe

variable {s w : Text}

/-- Nothing but white space and backquotes. -/
def Edging (w : Text) : Prop := ∀ c ∈ w, isEdge c = true

theorem Edging.append {w' : Text} (hw : Edging w) (hw' : Edging w') : Edging (w ++ w') :=
  List.forall_mem_append.2 ⟨hw, hw'⟩

theorem edging_spaces (hw : Text.Blank w) : Edging w := fun c hc => by
  rw [isEdge, hw c hc, Bool.true_or]

theorem edging_backquotes (hw : ∀ c ∈ w, c = '\x60') : Edging w := fun c hc => by
  rw [hw c hc]
  rfl

/-! ## Peeling -/

/-- What one pass drops. -/
theorem peel_split (s : Text) : ∃ w w', s = w ++ (peel s ++ w') ∧ Edging w ∧ Edging w' := by
  obtain ⟨v, v', hs, hv, hv'⟩ := Text.trim_split s
  obtain ⟨u, u', ht, hu, hu'⟩ := Text.trimBoth_split (· == '\x60') (Text.trim s)
  have hpeel : Text.trim s = u ++ (peel s ++ u') := ht
  refine ⟨v ++ u, u' ++ v', ?_, (edging_spaces hv).append ?_, .append ?_ (edging_spaces hv')⟩
  · conv_lhs => rw [hs, hpeel]
    simp only [List.append_assoc]
  · exact edging_backquotes fun c hc => eq_of_beq (hu c hc)
  · exact edging_backquotes fun c hc => eq_of_beq (hu' c hc)

theorem peelEdges_split (s : Text) :
    ∃ w w', s = w ++ (peelEdges s ++ w') ∧ Edging w ∧ Edging w' := by
  fun_induction peelEdges s with
  | case1 s h ih =>
    obtain ⟨v, v', hs, hv, hv'⟩ := peel_split s
    obtain ⟨u, u', hpeel, hu, hu'⟩ := ih
    refine ⟨v ++ u, u' ++ v', ?_, hv.append hu, hu'.append hv'⟩
    conv_lhs => rw [hs, hpeel]
    simp only [List.append_assoc]
  | case2 s h => exact ⟨[], [], by simp, by simp [Edging], by simp [Edging]⟩

/-- **Peeling is one trim.**  What is left is the text without its longest prefix and its longest
suffix of edge characters. -/
theorem peelEdges_eq_trimBoth (s : Text) : peelEdges s = Text.trimBoth isEdge s := by
  obtain ⟨w, w', hs, hw, hw'⟩ := peelEdges_split s
  obtain ⟨hstart, hfinish⟩ := edges_peelEdges s
  calc peelEdges s
      = Text.trimBoth isEdge (peelEdges s) := (Text.trimBoth_eq_self hstart hfinish).symm
    _ = Text.trimBoth isEdge (w ++ (peelEdges s ++ w')) := (Text.trimBoth_enclosed hw hw').symm
    _ = Text.trimBoth isEdge s := by rw [← hs]

/-! ## The steps behind the fence -/

/-- What becomes of a text without its fence: escapes, line breaks, quotes and edges. -/
def polish (s : Text) : Text :=
  peelEdges ((Text.unifyBreaks (decodeEscapes s)).map plainChar)

theorem canonical_eq_polish (s : Text) :
    canonical s = polish (dropFence (s.filter (!isInvisible ·))) := rfl

section
variable {letter meaning : Char}

theorem decodeEscape_append (hb : '\\' ∉ w) (hl : letter ∉ w) (s : Text) :
    decodeEscape letter meaning (s ++ w) = decodeEscape letter meaning s ++ w := by
  have hw : decodeEscape letter meaning w = w :=
    decodeEscape_eq_self fun h => hb (h.subset List.mem_cons_self)
  fun_induction decodeEscape letter meaning s with
  | case1 => exact hw
  | case2 c =>
    rw [List.singleton_append, decodeEscape_cons, hw]
    rintro ⟨-, hhead⟩
    exact hl (List.mem_of_mem_head? hhead)
  | case3 c d rest hcd ih =>
    rw [List.cons_append, List.cons_append, decodeEscape, if_pos hcd, ih, List.cons_append]
  | case4 c d rest hcd ih =>
    rw [List.cons_append, List.cons_append, decodeEscape, if_neg hcd, ← List.cons_append, ih,
      List.cons_append]

end

theorem decodeEscapedBreaks_append (hb : '\\' ∉ w) (hr : 'r' ∉ w) (hn : 'n' ∉ w) (s : Text) :
    decodeEscapedBreaks (s ++ w) = decodeEscapedBreaks s ++ w := by
  fun_induction decodeEscapedBreaks s with
  | case1 rest ih =>
    simp only [List.cons_append]
    rw [decodeEscapedBreaks, ih]
  | case2 d rest hd ih =>
    simp only [List.cons_append]
    rw [decodeEscapedBreaks, ih]
    -- No escape starts here that ends behind the seam.
    rintro t rfl ht
    rcases rest with _ | ⟨a, _ | ⟨b, _ | ⟨c, rest⟩⟩⟩
    all_goals simp only [List.cons_append, List.nil_append, List.cons.injEq] at ht
    · exact hr (by simp [ht])
    · exact hb (by simp [ht.2])
    · exact hn (by simp [ht.2.2])
    · obtain ⟨rfl, rfl, rfl, -⟩ := ht
      exact hd rest rfl rfl
  | case3 => exact decodeEscapedBreaks_eq_self fun h => hb (h.subset List.mem_cons_self)

/-- Decoding leaves alone what holds no part of an escape. -/
theorem decodeEscapes_append (hw : ∀ c ∈ ['\\', 'r', 'n', 't'], c ∉ w) (s : Text) :
    decodeEscapes (s ++ w) = decodeEscapes s ++ w := by
  have hb : '\\' ∉ w := hw _ (by simp)
  have hn : 'n' ∉ w := hw _ (by simp)
  unfold decodeEscapes
  rw [decodeEscapedBreaks_append hb (hw _ (by simp)) hn, decodeEscape_append hb hn,
    decodeEscape_append hb (hw _ (by simp))]

/-- What is appended becomes something of its own, also where a break is cut in two. -/
theorem unifyBreaks_append_split (s w : Text) :
    ∃ w', Text.unifyBreaks (s ++ w) = Text.unifyBreaks s ++ w' ∧ ∀ c ∈ w', c = '\n' ∨ c ∈ w := by
  have hself : ∀ w c, c ∈ Text.unifyBreaks w → c = '\n' ∨ c ∈ w := fun w c hc =>
    (mem_unifyBreaks hc).2
  fun_induction Text.unifyBreaks s with
  | case1 rest ih =>
    obtain ⟨w', hw', hmem⟩ := ih
    refine ⟨w', ?_, hmem⟩
    simp only [List.cons_append]
    rw [Text.unifyBreaks, hw']
  | case2 rest hr ih =>
    by_cases hcut : ∃ t, rest = [] ∧ w = '\n' :: t
    · obtain ⟨t, rfl, rfl⟩ := hcut
      refine ⟨Text.unifyBreaks t, rfl, fun c hc => ?_⟩
      exact (hself t c hc).imp_right (List.mem_cons_of_mem _)
    · obtain ⟨w', hw', hmem⟩ := ih
      refine ⟨w', ?_, hmem⟩
      rw [List.cons_append, Text.unifyBreaks, hw', List.cons_append]
      intro t ht
      rcases rest with _ | ⟨a, rest⟩
      · exact hcut ⟨t, rfl, ht⟩
      · rw [List.cons_append, List.cons.injEq] at ht
        exact hr rest (by rw [ht.1])
  | case3 d rest h1 h2 ih =>
    obtain ⟨w', hw', hmem⟩ := ih
    refine ⟨w', ?_, hmem⟩
    rw [List.cons_append, Text.unifyBreaks, hw', List.cons_append]
    · exact fun _ h _ => h2 h
    · exact h2
  | case4 => exact ⟨Text.unifyBreaks w, rfl, hself w⟩

theorem isEdge_plainChar {c : Char} (h : isEdge c = true) : isEdge (plainChar c) = true := by
  unfold plainChar
  split
  · next hc => rcases hc with rfl | rfl <;> exact absurd h (by decide)
  · split
    · next hc => rcases hc with rfl | rfl <;> exact absurd h (by decide)
    · split
      · rfl
      · exact h

/-- Edge characters behind a text make no difference. -/
theorem polish_append (hw : Edging w) (s : Text) : polish (s ++ w) = polish s := by
  have hplain : ∀ c ∈ ['\\', 'r', 'n', 't'], c ∉ w := by
    intro c hc hmem
    have hedge := hw c hmem
    simp only [List.mem_cons, List.not_mem_nil, or_false] at hc
    rcases hc with rfl | rfl | rfl | rfl <;> exact absurd hedge (by decide)
  obtain ⟨w', hunify, hmem⟩ := unifyBreaks_append_split (decodeEscapes s) w
  have hw' : Edging (w'.map plainChar) := by
    intro c hc
    obtain ⟨d, hd, rfl⟩ := List.mem_map.1 hc
    rcases hmem d hd with rfl | hd
    · decide
    · exact isEdge_plainChar (hw d hd)
  unfold polish
  rw [decodeEscapes_append hplain, hunify, List.map_append, peelEdges_eq_trimBoth,
    peelEdges_eq_trimBoth]
  exact Text.trimBoth_enclosed (w := []) (by simp) hw'

/-- Of edge characters nothing is left. -/
theorem polish_edging (hw : Edging w) : polish w = [] := by
  have hnil : polish [] = [] := peelEdges_eq_self (s := []) (by simp) (by simp)
  have h := polish_append hw []
  rwa [List.nil_append, hnil] at h

/-! ## Fences -/

/-- What is dropped with a closing fence is nothing but edge characters. -/
theorem dropClosingFence_split (s : Text) : ∃ w, s = dropClosingFence s ++ w ∧ Edging w := by
  unfold dropClosingFence
  split
  · next body h =>
    rw [Text.after?_eq_some] at h
    refine ⟨fence ++ (s.reverse.takeWhile isSpace).reverse, ?_, .append ?_ (edging_spaces ?_)⟩
    · have hs : s.reverse = s.reverse.takeWhile isSpace ++ (fence ++ body) := by
        rw [← h, List.takeWhile_append_dropWhile]
      have hs' := congrArg List.reverse hs
      simpa [fence] using hs'
    · exact edging_backquotes (by decide)
    · exact fun c hc => List.mem_takeWhile_imp (List.mem_reverse.1 hc)
  · exact ⟨[], (List.append_nil s).symm, by simp [Edging]⟩

/-- A closing fence need not be dropped. -/
theorem polish_dropClosingFence (s : Text) : polish (dropClosingFence s) = polish s := by
  obtain ⟨w, hs, hw⟩ := dropClosingFence_split s
  conv_rhs => rw [hs, polish_append hw]

theorem isSome_afterFence : (Text.after? fence s).isSome = true ↔ fence <+: s := by
  rw [Option.isSome_iff_exists]
  exact exists_congr fun r => Text.after?_eq_some.trans eq_comm

/-- A text that does not start with a fence keeps what it ends with. -/
theorem dropFence_unfenced (hs : ¬ fence <+: s) : dropFence s = s :=
  if_neg (isSome_afterFence.not.2 hs)

/-- Of the fence around a text only the opening line matters. -/
theorem polish_dropFence (s : Text) :
    polish (dropFence s) = polish (if fence <+: s then dropOpeningFence s else s) := by
  unfold dropFence
  simp only [isSome_afterFence]
  split
  · exact polish_dropClosingFence _
  · rfl

/-- The opening line of a text does not reach into what is appended without a line feed. -/
theorem dropOpeningFence_append (hs : fence <+: s) (hw : '\n' ∉ w) :
    dropOpeningFence (s ++ w) = dropOpeningFence s ++ w := by
  obtain ⟨rest, rfl⟩ := hs
  have hafter : ∀ r, Text.after? fence (fence ++ r) = some r := fun r =>
    Text.after?_eq_some.2 rfl
  have hline : w.dropWhile (· != '\n') = [] :=
    List.dropWhile_eq_nil_iff.2 fun c hc => bne_iff_ne.2 fun h => hw (h ▸ hc)
  unfold dropOpeningFence
  rw [List.append_assoc, hafter, hafter]
  dsimp only
  rw [List.dropWhile_append, hline]
  cases rest.dropWhile (· != '\n') with
  | nil => simp
  | cons c body => rfl

/-- Backquotes behind a text make no difference to its canonical form. -/
theorem canonical_append_backquotes (hw : ∀ c ∈ w, c = '\x60') (s : Text) :
    canonical (s ++ w) = canonical s := by
  have hedging := edging_backquotes hw
  have hvisible : w.filter (!isInvisible ·) = w :=
    List.filter_eq_self.2 fun c hc => by
      rw [hw c hc]
      decide
  have hbreak : '\n' ∉ w := fun h => absurd (hw _ h) (by decide)
  rw [canonical_eq_polish, canonical_eq_polish, List.filter_append, hvisible]
  generalize s.filter (!isInvisible ·) = v
  rw [polish_dropFence, polish_dropFence]
  by_cases hv : fence <+: v
  · have hvw : fence <+: v ++ w := hv.trans (List.prefix_append v w)
    rw [if_pos hv, if_pos hvw, dropOpeningFence_append hv hbreak, polish_append hedging]
  · rw [if_neg hv]
    by_cases hvw : fence <+: v ++ w
    · -- The fence reaches over the seam, so that there is nothing but backquotes.
      have hvfence : v <+: fence :=
        (List.prefix_or_prefix_of_prefix hvw (List.prefix_append v w)).resolve_left hv
      have hquotes : Edging v :=
        edging_backquotes fun c hc => mem_fence.1 (hvfence.subset hc)
      have hopening : Edging (dropOpeningFence (v ++ w)) := fun c hc =>
        hquotes.append hedging c ((dropOpeningFence_isInfix _).subset hc)
      rw [if_pos hvw, polish_edging hopening, polish_edging hquotes]
    · rw [if_neg hvw, polish_append hedging]

end BlockSafe
