import BlockSafe.Proofs.Reply.Canonical
import BlockSafe.Proofs.Reply.Limits

/-!
# The canonical set

Which texts are canonical, said character by character (`canonical_iff`): ten characters that stand
nowhere, two pairs that are never neighbours, and what stands at neither end.  The set is exactly
what `canonical` returns and exactly what it leaves alone, and every program that is read out of a
reply belongs to it:

    Canonical (canonical s)        canonical s = s ↔ Canonical s
    Canonical (programOf reply)
    Reply.ofText limits raw = .ok reply → Canonical reply.code                (canonical_set)
-/

namespace BlockSafe

/-! ## Characters -/

/-- The irregular characters: zero-width characters and the byte order mark, the carriage return,
curly quotes and the no-break space. -/
def irregularChars : Text :=
  ['\u200B', '\u200C', '\u200D', '\uFEFF', '\r', '\u2018', '\u2019', '\u201C', '\u201D', '\u00A0']

theorem isInvisible_iff {c : Char} :
    isInvisible c = true ↔ c ∈ ['\u200B', '\u200C', '\u200D', '\uFEFF'] := by
  have span : 0x200B ≤ c.toNat ∧ c.toNat ≤ 0x200D ↔ c = '\u200B' ∨ c = '\u200C' ∨ c = '\u200D' := by
    simp only [← Char.toNat_inj]
    show _ ↔ c.toNat = 0x200B ∨ c.toNat = 0x200C ∨ c.toNat = 0x200D
    omega
  simp only [isInvisible, Bool.or_eq_true, Bool.and_eq_true, decide_eq_true_iff, beq_iff_eq, span,
    List.mem_cons, List.not_mem_nil, or_false, or_assoc]

/-- Only curly quotes and the no-break space stand for another character. -/
theorem plainChar_ne_iff {c : Char} :
    plainChar c ≠ c ↔ c ∈ ['\u2018', '\u2019', '\u201C', '\u201D', '\u00A0'] := by
  simp only [List.mem_cons, List.not_mem_nil, or_false]
  constructor
  · intro h
    by_contra hc
    simp only [not_or] at hc
    obtain ⟨h1, h2, h3, h4, h5⟩ := hc
    simp [plainChar, h1, h2, h3, h4, h5] at h
  · rintro (rfl | rfl | rfl | rfl | rfl) <;> decide

theorem isIrregular_iff {c : Char} : isIrregular c = true ↔ c ∈ irregularChars := by
  simp only [isIrregular, Bool.or_eq_true, isInvisible_iff, beq_iff_eq, bne_iff_ne,
    plainChar_ne_iff, irregularChars, List.mem_cons, List.not_mem_nil, or_false, or_assoc]

theorem isEdge_eq_false {c : Char} : isEdge c = false ↔ isSpace c = false ∧ c ≠ '\x60' := by
  simp only [isEdge, Bool.or_eq_false_iff, beq_eq_false_iff_ne]

/-! ## Texts -/

theorem canonical_iff (s : Text) : Canonical s ↔
    (∀ c ∈ irregularChars, c ∉ s) ∧ ¬ ['\\', 'n'] <:+: s ∧ ¬ ['\\', 't'] <:+: s ∧
      (∀ c ∈ s.head?, isSpace c = false ∧ c ≠ '\x60') ∧
      ∀ c ∈ s.getLast?, isSpace c = false ∧ c ≠ '\x60' := by
  simp only [← isEdge_eq_false]
  constructor
  · intro h
    refine ⟨fun c hc hs => ?_, h.unescaped 'n' (by simp), h.unescaped 't' (by simp), h.start,
      h.finish⟩
    have hr := h.regular c hs
    rw [isIrregular_iff.2 hc] at hr
    cases hr
  · rintro ⟨regular, hn, ht, start, finish⟩
    refine ⟨fun c hs => ?_, fun letter hl => ?_, start, finish⟩
    · rw [Bool.eq_false_iff]
      exact fun hc => regular c (isIrregular_iff.1 hc) hs
    · simp only [List.mem_cons, List.not_mem_nil, or_false] at hl
      rcases hl with rfl | rfl
      · exact hn
      · exact ht

/-! ## Programs -/

theorem canonical_programOf (reply : Text) : Canonical (programOf reply) :=
  canonical_canonical _

/-- With or without an envelope, the program of a reply is canonical. -/
theorem canonical_code {limits : Limits} {raw : Text} {reply : Reply}
    (h : Reply.ofText limits raw = .ok reply) : Canonical reply.code := by
  rcases ofText_cases h with ⟨-, rfl⟩ | ⟨fields, code, -, rfl⟩
  · exact canonical_programOf raw
  · exact canonical_programOf code

/-! ## Main result -/

/-- The canonical texts are those that `canonical` returns and those that it leaves alone, and
every program is one of them. -/
theorem canonical_set :
    (∀ s, Canonical s ↔
      (∀ c ∈ irregularChars, c ∉ s) ∧ ¬ ['\\', 'n'] <:+: s ∧ ¬ ['\\', 't'] <:+: s ∧
        (∀ c ∈ s.head?, isSpace c = false ∧ c ≠ '\x60') ∧
        ∀ c ∈ s.getLast?, isSpace c = false ∧ c ≠ '\x60') ∧
    (∀ s, Canonical (canonical s)) ∧
    (∀ s, canonical s = s ↔ Canonical s) ∧
    (∀ s, canonical (canonical s) = canonical s) ∧
    (∀ reply, Canonical (programOf reply)) ∧
    ∀ limits raw reply, Reply.ofText limits raw = .ok reply → Canonical reply.code := by
  have fixed : ∀ s, canonical s = s → Canonical s := by
    intro s h
    rw [← h]
    exact canonical_canonical s
  refine ⟨canonical_iff, canonical_canonical, fun s => ⟨fixed s, Canonical.canonical_eq⟩, ?_,
    canonical_programOf, fun _ _ _ => canonical_code⟩
  exact fun s => (canonical_canonical s).canonical_eq

end BlockSafe
