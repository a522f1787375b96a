import BlockSafe.Proofs.Text.Ends
import BlockSafe.Reply.Canonical

/-!
# The canonical form is canonical

`canonical` lands in the canonical set and leaves a text of that set alone:

    Canonical (canonical s)                  (canonical_canonical)
    Canonical s → canonical s = s            (Canonical.canonical_eq)

Every step is followed by what it does to the three properties of the set: which characters it can
bring in, that it joins no backslash to an `n` or a `t`, and which ends it leaves.  No step undoes
what an earlier one has done.
-/

namespace BlockSafe

/-! ## Two neighbours -/

theorem pair_infix_cons {a b c : Char} {s : Text} :
    [a, b] <:+: c :: s ↔ (c = a ∧ s.head? = some b) ∨ [a, b] <:+: s := by
  rw [List.infix_cons_iff, List.cons_prefix_cons]
  cases s with
  | nil => simp
  | cons d s => simp [List.cons_prefix_cons, eq_comm]

/-! ## Fences -/

theorem fence_eq_replicate : fence = List.replicate 3 '\x60' := rfl

theorem mem_fence {c : Char} : c ∈ fence ↔ c = '\x60' := by
  rw [fence_eq_replicate, List.mem_replicate]
  simp

theorem dropOpeningFence_isInfix (s : Text) : dropOpeningFence s <:+: s := by
  unfold dropOpeningFence
  split
  · exact List.infix_rfl
  · next rest h =>
    rw [Text.after?_eq_some] at h
    split
    · exact List.infix_rfl
    · next c body hb =>
      have h1 : body <:+ c :: body := List.suffix_cons c body
      have h2 : c :: body <:+ rest := hb ▸ List.dropWhile_suffix _
      have h3 : rest <:+ s := h ▸ List.suffix_append fence rest
      exact ((h1.trans h2).trans h3).isInfix

theorem dropClosingFence_isInfix (s : Text) : dropClosingFence s <:+: s := by
  unfold dropClosingFence
  split
  · next body h =>
    rw [Text.after?_eq_some] at h
    have h1 : body <:+ fence ++ body := List.suffix_append _ _
    have h2 : fence ++ body <:+ s.reverse := h ▸ List.dropWhile_suffix _
    rw [← List.reverse_infix, List.reverse_reverse]
    exact (h1.trans h2).isInfix
  · exact List.infix_rfl

theorem dropFence_isInfix (s : Text) : dropFence s <:+: s := by
  unfold dropFence
  split
  · exact (dropClosingFence_isInfix _).trans (dropOpeningFence_isInfix s)
  · exact List.infix_rfl

/-- A text that does not start with a backquote has no fence around it. -/
theorem dropFence_eq_self {s : Text} (h : s.head? ≠ some '\x60') : dropFence s = s := by
  unfold dropFence
  split
  · next hs =>
    obtain ⟨r, hr⟩ := Option.isSome_iff_exists.1 hs
    rw [Text.after?_eq_some] at hr
    exact absurd (by rw [hr]; rfl) h
  · rfl

/-! ## Escapes -/

section
variable {letter meaning : Char} {s : Text}

theorem head?_decodeEscape {x : Char} (hx : meaning ≠ x)
    (h : (decodeEscape letter meaning s).head? = some x) : s.head? = some x := by
  fun_cases decodeEscape letter meaning s with
  | case1 => exact h
  | case2 c => exact h
  | case3 c d rest hcd =>
    rw [decodeEscape, if_pos hcd] at h
    exact absurd (Option.some.inj h) hx
  | case4 c d rest hcd =>
    rw [decodeEscape, if_neg hcd] at h
    exact h

/-- Where no escape starts, the character stays. -/
theorem decodeEscape_cons {c : Char} (h : ¬(c = '\\' ∧ s.head? = some letter)) :
    decodeEscape letter meaning (c :: s) = c :: decodeEscape letter meaning s := by
  cases s with
  | nil => rfl
  | cons d s =>
    rw [decodeEscape, if_neg]
    rintro ⟨hc, hd⟩
    exact h ⟨hc, congrArg some hd⟩

/-- No escape of `letter` is left. -/
theorem decodeEscape_decoded (hm : meaning ≠ '\\') (hl : meaning ≠ letter) :
    ¬ ['\\', letter] <:+: decodeEscape letter meaning s := by
  fun_induction decodeEscape letter meaning s with
  | case1 => simp
  | case2 c => rw [pair_infix_cons]; simp
  | case3 c d rest hcd ih =>
    rw [pair_infix_cons]
    rintro (⟨h, -⟩ | h)
    · exact hm h
    · exact ih h
  | case4 c d rest hcd ih =>
    rw [pair_infix_cons]
    rintro (⟨h, hd⟩ | h)
    · exact hcd ⟨h, Option.some.inj (head?_decodeEscape hl hd)⟩
    · exact ih h

/-- An escape of another letter does not arise. -/
theorem decodeEscape_keeps {x : Char} (hm : meaning ≠ '\\') (hx : meaning ≠ x)
    (h : ¬ ['\\', x] <:+: s) : ¬ ['\\', x] <:+: decodeEscape letter meaning s := by
  fun_induction decodeEscape letter meaning s with
  | case1 => exact h
  | case2 c => exact h
  | case3 c d rest hcd ih =>
    rw [pair_infix_cons, pair_infix_cons] at h
    rw [pair_infix_cons]
    rintro (⟨h1, -⟩ | h1)
    · exact hm h1
    · exact ih (fun h2 => h (.inr (.inr h2))) h1
  | case4 c d rest hcd ih =>
    rw [pair_infix_cons] at h ⊢
    rintro (⟨h1, h2⟩ | h1)
    · exact h (.inl ⟨h1, head?_decodeEscape hx h2⟩)
    · exact ih (fun h2 => h (.inr h2)) h1

theorem mem_decodeEscape {c : Char} (h : c ∈ decodeEscape letter meaning s) :
    c = meaning ∨ c ∈ s := by
  fun_induction decodeEscape letter meaning s with
  | case1 => cases h
  | case2 d => exact .inr h
  | case3 d e rest hde ih =>
    rcases List.mem_cons.1 h with h | h
    · exact .inl h
    · exact (ih h).imp_right fun h => by simp [h]
  | case4 d e rest hde ih =>
    rcases List.mem_cons.1 h with h | h
    · exact .inr (by simp [h])
    · exact (ih h).imp_right (List.mem_cons_of_mem d)

theorem decodeEscape_eq_self (h : ¬ ['\\', letter] <:+: s) :
    decodeEscape letter meaning s = s := by
  fun_induction decodeEscape letter meaning s with
  | case1 => rfl
  | case2 c => rfl
  | case3 c d rest hcd ih =>
    rw [pair_infix_cons] at h
    exact absurd (.inl ⟨hcd.1, congrArg some hcd.2⟩) h
  | case4 c d rest hcd ih =>
    rw [pair_infix_cons] at h
    rw [ih (fun h2 => h (.inr h2))]

end

theorem mem_decodeEscapedBreaks {c : Char} {s : Text} (h : c ∈ decodeEscapedBreaks s) :
    c = '\n' ∨ c ∈ s := by
  fun_induction decodeEscapedBreaks s with
  | case1 rest ih =>
    rcases List.mem_cons.1 h with h | h
    · exact .inl h
    · exact (ih h).imp_right fun h => by simp [h]
  | case2 d rest hd ih =>
    rcases List.mem_cons.1 h with h | h
    · exact .inr (by simp [h])
    · exact (ih h).imp_right (List.mem_cons_of_mem d)
  | case3 => cases h

theorem decodeEscapedBreaks_eq_self {s : Text} (h : ¬ ['\\', 'n'] <:+: s) :
    decodeEscapedBreaks s = s := by
  fun_induction decodeEscapedBreaks s with
  | case1 rest ih => exact absurd ⟨['\\', 'r'], rest, rfl⟩ h
  | case2 d rest hd ih =>
    rw [pair_infix_cons] at h
    rw [ih (fun h2 => h (.inr h2))]
  | case3 => rfl

theorem mem_decodeEscapes {c : Char} {s : Text} (h : c ∈ decodeEscapes s) :
    c = '\t' ∨ c = '\n' ∨ c ∈ s := by
  unfold decodeEscapes at h
  rcases mem_decodeEscape h with h | h
  · exact .inl h
  · rcases mem_decodeEscape h with h | h
    · exact .inr (.inl h)
    · exact .inr (mem_decodeEscapedBreaks h)

/-- No escape of a line break or a tab is left. -/
theorem decodeEscapes_decoded (s : Text) :
    ∀ letter ∈ ['n', 't'], ¬ ['\\', letter] <:+: decodeEscapes s := by
  intro letter hl
  unfold decodeEscapes
  simp only [List.mem_cons, List.not_mem_nil, or_false] at hl
  rcases hl with rfl | rfl
  · exact decodeEscape_keeps (by decide) (by decide) (decodeEscape_decoded (by decide) (by decide))
  · exact decodeEscape_decoded (by decide) (by decide)

theorem decodeEscapes_eq_self {s : Text} (h : ∀ letter ∈ ['n', 't'], ¬ ['\\', letter] <:+: s) :
    decodeEscapes s = s := by
  unfold decodeEscapes
  rw [decodeEscapedBreaks_eq_self (h 'n' (by simp)), decodeEscape_eq_self (h 'n' (by simp)),
    decodeEscape_eq_self (h 't' (by simp))]

/-! ## Line breaks and quotes -/

theorem mem_unifyBreaks {c : Char} {s : Text} (h : c ∈ Text.unifyBreaks s) :
    c ≠ '\r' ∧ (c = '\n' ∨ c ∈ s) := by
  fun_induction Text.unifyBreaks s with
  | case1 rest ih =>
    rcases List.mem_cons.1 h with rfl | h
    · exact ⟨by decide, .inl rfl⟩
    · exact ⟨(ih h).1, (ih h).2.imp_right fun h => by simp [h]⟩
  | case2 rest hr ih =>
    rcases List.mem_cons.1 h with rfl | h
    · exact ⟨by decide, .inl rfl⟩
    · exact ⟨(ih h).1, (ih h).2.imp_right (List.mem_cons_of_mem _)⟩
  | case3 d rest h1 h2 ih =>
    rcases List.mem_cons.1 h with rfl | h
    · exact ⟨fun e => h2 e, .inr (by simp)⟩
    · exact ⟨(ih h).1, (ih h).2.imp_right (List.mem_cons_of_mem _)⟩
  | case4 => cases h

theorem head?_unifyBreaks {x : Char} {s : Text} (hx : '\n' ≠ x)
    (h : (Text.unifyBreaks s).head? = some x) : s.head? = some x := by
  fun_cases Text.unifyBreaks s with
  | case1 rest =>
    rw [Text.unifyBreaks] at h
    exact absurd (Option.some.inj h) hx
  | case2 rest hr =>
    rw [Text.unifyBreaks.eq_2 rest hr] at h
    exact absurd (Option.some.inj h) hx
  | case3 d rest h1 h2 =>
    rw [Text.unifyBreaks.eq_3 d rest h1 h2] at h
    exact h
  | case4 => exact h

theorem unifyBreaks_keeps {x : Char} {s : Text} (hx : '\n' ≠ x) (h : ¬ ['\\', x] <:+: s) :
    ¬ ['\\', x] <:+: Text.unifyBreaks s := by
  fun_induction Text.unifyBreaks s with
  | case1 rest ih =>
    rw [pair_infix_cons, pair_infix_cons] at h
    rw [pair_infix_cons]
    rintro (⟨h1, -⟩ | h1)
    · exact absurd h1 (by decide)
    · exact ih (fun h2 => h (.inr (.inr h2))) h1
  | case2 rest hr ih =>
    rw [pair_infix_cons] at h ⊢
    rintro (⟨h1, -⟩ | h1)
    · exact absurd h1 (by decide)
    · exact ih (fun h2 => h (.inr h2)) h1
  | case3 d rest h1 h2 ih =>
    rw [pair_infix_cons] at h ⊢
    rintro (⟨h3, h4⟩ | h3)
    · exact h (.inl ⟨h3, head?_unifyBreaks hx h4⟩)
    · exact ih (fun h4 => h (.inr h4)) h3
  | case4 => exact h

theorem unifyBreaks_eq_self {s : Text} (h : '\r' ∉ s) : Text.unifyBreaks s = s := by
  fun_induction Text.unifyBreaks s with
  | case1 rest ih => exact absurd List.mem_cons_self h
  | case2 rest hr ih => exact absurd List.mem_cons_self h
  | case3 d rest h1 h2 ih => rw [ih (fun h3 => h (List.mem_cons_of_mem d h3))]
  | case4 => rfl

/-- A quote, a space or the character itself: what stands for a character is plain. -/
theorem plainChar_cases (c : Char) :
    (plainChar c = c ∧ isIrregular c = (isInvisible c || c == '\r')) ∨
      plainChar c ∈ ['\'', '"', ' '] := by
  unfold plainChar
  split
  · exact .inr (by simp)
  · split
    · exact .inr (by simp)
    · split
      · exact .inr (by simp)
      · next h1 h2 h3 =>
        refine .inl ⟨rfl, ?_⟩
        unfold isIrregular plainChar
        rw [if_neg h1, if_neg h2, if_neg h3]
        simp

/-- Only that character itself becomes a character other than a straight quote or a space. -/
theorem eq_of_plainChar {c x : Char} (hx : x ∉ ['\'', '"', ' ']) (h : plainChar c = x) : c = x := by
  rcases plainChar_cases c with ⟨h1, -⟩ | h1
  · rw [← h1, h]
  · exact absurd (h ▸ h1) hx

theorem isIrregular_plainChar {c : Char} (hc : isInvisible c = false) (hr : c ≠ '\r') :
    isIrregular (plainChar c) = false := by
  rcases plainChar_cases c with ⟨h1, h2⟩ | h1
  · rw [h1, h2, hc]
    simpa using hr
  · simp only [List.mem_cons, List.not_mem_nil, or_false] at h1
    rcases h1 with h1 | h1 | h1 <;> rw [h1] <;> decide

theorem map_plainChar_keeps {x : Char} {s : Text} (hx : x ∉ ['\'', '"', ' '])
    (h : ¬ ['\\', x] <:+: s) : ¬ ['\\', x] <:+: s.map plainChar := by
  rw [List.infix_map_iff]
  rintro ⟨l, hl, he⟩
  obtain ⟨b, l', rfl, hb, hl'⟩ := List.map_eq_cons_iff.1 he.symm
  obtain ⟨y, l'', rfl, hy, hnil⟩ := List.map_eq_cons_iff.1 hl'
  rw [List.map_eq_nil_iff] at hnil
  rw [eq_of_plainChar (by decide) hb, eq_of_plainChar hx hy, hnil] at hl
  exact h hl

/-! ## Edges -/

theorem peel_isInfix (s : Text) : peel s <:+: s :=
  (Text.trimBoth_isInfix _ _).trans (Text.trimBoth_isInfix _ s)

theorem peelEdges_isInfix (s : Text) : peelEdges s <:+: s := by
  fun_induction peelEdges s with
  | case1 s h ih => exact ih.trans (peel_isInfix s)
  | case2 s h => exact List.infix_rfl

/-- Peeling shortens a text or leaves it as it is. -/
theorem peel_eq_self {s : Text} (h : ¬ (peel s).length < s.length) : peel s = s :=
  (peel_isInfix s).eq_of_length_le (Nat.le_of_not_lt h)

/-- A text that peeling does not shorten has neither white space nor a backquote at its ends. -/
theorem edges_of_peel {s : Text} (h : ¬ (peel s).length < s.length) :
    (∀ c ∈ s.head?, isEdge c = false) ∧ ∀ c ∈ s.getLast?, isEdge c = false := by
  have h1 : (peel s).length ≤ (Text.trim s).length := (Text.trimBoth_isInfix _ _).length_le
  have h2 : (Text.trim s).length ≤ s.length := (Text.trimBoth_isInfix _ s).length_le
  have ht : Text.trim s = s := by
    apply (Text.trimBoth_isInfix isSpace s).eq_of_length_le
    show s.length ≤ (Text.trim s).length
    omega
  have hp : Text.trimBoth (· == '\x60') s = s := by
    have he : peel s = s := peel_eq_self h
    unfold peel at he
    rwa [ht] at he
  constructor
  · intro c hc
    have hs := Text.head_trimBoth isSpace s
    have hb := Text.head_trimBoth (· == '\x60') s
    rw [show Text.trimBoth isSpace s = s from ht] at hs
    rw [hp] at hb
    simp [isEdge, hs c hc, hb c hc]
  · intro c hc
    have hs := Text.last_trimBoth isSpace s
    have hb := Text.last_trimBoth (· == '\x60') s
    rw [show Text.trimBoth isSpace s = s from ht] at hs
    rw [hp] at hb
    simp [isEdge, hs c hc, hb c hc]

theorem edges_peelEdges (s : Text) :
    (∀ c ∈ (peelEdges s).head?, isEdge c = false) ∧
      ∀ c ∈ (peelEdges s).getLast?, isEdge c = false := by
  fun_induction peelEdges s with
  | case1 s h ih => exact ih
  | case2 s h => exact edges_of_peel h

theorem peelEdges_eq_self {s : Text} (hs : ∀ c ∈ s.head?, isEdge c = false)
    (hf : ∀ c ∈ s.getLast?, isEdge c = false) : peelEdges s = s := by
  have ht : Text.trim s = s := by
    apply Text.trimBoth_eq_self
    · intro c hc
      exact (Bool.or_eq_false_iff.1 (hs c hc)).1
    · intro c hc
      exact (Bool.or_eq_false_iff.1 (hf c hc)).1
  have hp : peel s = s := by
    unfold peel
    rw [ht]
    apply Text.trimBoth_eq_self
    · intro c hc
      exact (Bool.or_eq_false_iff.1 (hs c hc)).2
    · intro c hc
      exact (Bool.or_eq_false_iff.1 (hf c hc)).2
  rw [peelEdges, hp, if_neg (Nat.lt_irrefl _)]

/-! ## The canonical set -/

theorem Canonical.of_infix_edges {s t : Text} (hr : ∀ c ∈ s, isIrregular c = false)
    (hu : ∀ letter ∈ ['n', 't'], ¬ ['\\', letter] <:+: s) (hi : t <:+: s)
    (he : (∀ c ∈ t.head?, isEdge c = false) ∧ ∀ c ∈ t.getLast?, isEdge c = false) :
    Canonical t where
  regular c hc := hr c (hi.subset hc)
  unescaped letter hl h := hu letter hl (h.trans hi)
  start := he.1
  finish := he.2

/-- The canonical form is in the canonical set. -/
theorem canonical_canonical (s : Text) : Canonical (canonical s) := by
  unfold canonical
  simp only []
  generalize hv : s.filter (!isInvisible ·) = visible
  have hvis : ∀ c ∈ dropFence visible, isInvisible c = false := by
    intro c hc
    have := (dropFence_isInfix visible).subset hc
    rw [← hv, List.mem_filter] at this
    simpa using this.2
  have hdec : ∀ c ∈ decodeEscapes (dropFence visible), isInvisible c = false := by
    intro c hc
    rcases mem_decodeEscapes hc with rfl | rfl | hc
    · decide
    · decide
    · exact hvis c hc
  refine Canonical.of_infix_edges ?_ ?_ (peelEdges_isInfix _) (edges_peelEdges _)
  · intro c hc
    obtain ⟨d, hd, rfl⟩ := List.mem_map.1 hc
    obtain ⟨hr, rfl | hd⟩ := mem_unifyBreaks hd
    · decide
    · exact isIrregular_plainChar (hdec d hd) hr
  · intro letter hl
    have hx : letter ∉ ['\'', '"', ' '] ∧ '\n' ≠ letter := by
      simp only [List.mem_cons, List.not_mem_nil, or_false] at hl
      rcases hl with rfl | rfl <;> decide
    exact map_plainChar_keeps hx.1 (unifyBreaks_keeps hx.2 (decodeEscapes_decoded _ letter hl))

/-- A canonical text is its own canonical form. -/
theorem Canonical.canonical_eq {s : Text} (h : Canonical s) : canonical s = s := by
  have hirr : ∀ c ∈ s, isInvisible c = false ∧ c ≠ '\r' ∧ plainChar c = c := by
    intro c hc
    have := h.regular c hc
    unfold isIrregular at this
    simp only [Bool.or_eq_false_iff, beq_eq_false_iff_ne, bne_eq_false_iff_eq] at this
    exact ⟨this.1.1, this.1.2, this.2⟩
  have hv : s.filter (!isInvisible ·) = s := by
    rw [List.filter_eq_self]
    intro c hc
    simp [(hirr c hc).1]
  have hf : dropFence s = s := by
    apply dropFence_eq_self
    intro hb
    exact absurd (h.start _ hb) (by decide)
  have hr : Text.unifyBreaks s = s := unifyBreaks_eq_self fun hc => (hirr _ hc).2.1 rfl
  have hp : s.map plainChar = s := by
    conv => rhs; rw [← List.map_id s]
    exact List.map_congr_left fun c hc => (hirr c hc).2.2
  unfold canonical
  simp only [hv, hf, decodeEscapes_eq_self h.unescaped, hr, hp]
  exact peelEdges_eq_self h.start h.finish

end BlockSafe
