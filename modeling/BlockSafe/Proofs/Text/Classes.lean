import BlockSafe.Proofs.Text.Ends
import BlockSafe.Text.Word

/-!
# Classes of characters

White space is no part of a word, and a part of an identifier is a part of a word, so white space
ends both.  At its ends a text shows the same to a word next to it with and without white space
(`any_getLast_blank`, `any_head_blank`), so it stands there after trimming iff it stood there before
(`stands_trim`).  Any other character that is no part of a word ends a word too, so a text without
it stands on one side of it (`stands_split`).
-/

namespace BlockSafe

/-- The ranges of white space from code point 128 on. -/
def spaceSpans : List (Nat × Nat) :=
  [(0x85, 0x85), (0xA0, 0xA0), (0x1680, 0x1680), (0x2000, 0x200A), (0x2028, 0x2029),
    (0x202F, 0x202F), (0x205F, 0x205F), (0x3000, 0x3000)]

/-- The code points of white space. -/
theorem isSpace_toNat {c : Char} (h : isSpace c = true) :
    c.toNat ≤ 32 ∨ ∃ r ∈ spaceSpans, r.1 ≤ c.toNat ∧ c.toNat ≤ r.2 := by
  simp only [isSpace, Bool.or_eq_true, Bool.and_eq_true, decide_eq_true_eq, beq_iff_eq] at h
  simp only [spaceSpans, List.mem_cons, List.not_mem_nil, or_false, exists_eq_or_imp,
    exists_eq_left]
  omega

/-- A code point in a range that no span meets is in no span. -/
theorem inSpans_eq_false {spans : List (Nat × Nat)} {low high n : Nat} (hlow : low ≤ n)
    (hhigh : n ≤ high) (h : spans.all (fun s => Nat.blt s.2 low || Nat.blt high s.1) = true) :
    inSpans spans n = false := by
  rw [inSpans, List.any_eq_false]
  intro s hs hin
  have hapart := List.all_eq_true.1 h s hs
  simp only [Bool.or_eq_true, Nat.blt_eq] at hapart
  simp only [Bool.and_eq_true, decide_eq_true_eq] at hin
  omega

/-- White space is no part of a word. -/
theorem isWord_of_isSpace {c : Char} (h : isSpace c = true) : isWord c = false := by
  have htable : ∀ r ∈ spaceSpans, 128 ≤ r.1 ∧
      wordSpans.all (fun s => Nat.blt s.2 r.1 || Nat.blt r.2 s.1) = true := by
    decide +kernel
  unfold isWord
  rcases isSpace_toNat h with hlow | hhigh
  · have hletter : c.isAlphanum = false ∧ (c == '_') = false := by
      constructor
      · rw [Bool.eq_false_iff]
        intro halnum
        unfold Char.isAlphanum Char.isAlpha Char.isUpper Char.isLower Char.isDigit at halnum
        simp only [Bool.or_eq_true, Bool.and_eq_true, decide_eq_true_eq,
          UInt32.le_iff_toNat_le] at halnum
        have hnat : c.val.toNat ≤ 32 := hlow
        rcases halnum with (⟨hge, -⟩ | ⟨hge, -⟩) | ⟨hge, -⟩
        · exact absurd (Nat.le_trans hge hnat) (by decide)
        · exact absurd (Nat.le_trans hge hnat) (by decide)
        · exact absurd (Nat.le_trans hge hnat) (by decide)
      · exact beq_false_of_ne fun heq => absurd (heq ▸ hlow) (by decide)
    rw [if_pos (Nat.lt_of_le_of_lt hlow (by decide)), hletter.1, hletter.2, Bool.false_or]
  · obtain ⟨r, hr, hstart, hend⟩ := hhigh
    obtain ⟨hge, hspan⟩ := htable r hr
    rw [if_neg (Nat.not_lt.2 (Nat.le_trans hge hstart)), inSpans_eq_false hstart hend hspan]

theorem not_isSpace {c : Char} (h : isWord c = true) : isSpace c = false := by
  rw [Bool.eq_false_iff]
  intro hspace
  rw [isWord_of_isSpace hspace] at h
  cases h

theorem isWord_of_isIdentPart {c : Char} (h : isIdentPart c = true) : isWord c = true := by
  have hascii : c.toNat < 128 := by
    unfold isIdentPart Char.isAlphanum Char.isAlpha Char.isUpper Char.isLower Char.isDigit at h
    simp only [Bool.or_eq_true, Bool.and_eq_true, decide_eq_true_eq, beq_iff_eq,
      UInt32.le_iff_toNat_le] at h
    rcases h with ((⟨-, hle⟩ | ⟨-, hle⟩) | ⟨-, hle⟩) | rfl
    · exact Nat.lt_of_le_of_lt hle (by decide)
    · exact Nat.lt_of_le_of_lt hle (by decide)
    · exact Nat.lt_of_le_of_lt hle (by decide)
    · decide
  rw [isWord, if_pos hascii]
  exact h

theorem not_isIdentPart {c : Char} (h : isWord c = false) : isIdentPart c = false := by
  rw [Bool.eq_false_iff]
  intro hpart
  have hword := isWord_of_isIdentPart hpart
  rw [h] at hword
  cases hword

theorem isIdentPart_of_isSpace {c : Char} (h : isSpace c = true) : isIdentPart c = false :=
  not_isIdentPart (isWord_of_isSpace h)

theorem isIdentPart_of_isIdentStart {c : Char} (h : isIdentStart c = true) :
    isIdentPart c = true := by
  unfold isIdentStart at h
  unfold isIdentPart Char.isAlphanum
  rcases Bool.or_eq_true_iff.1 h with hletter | hmark
  · rw [hletter]
    rfl
  · rw [hmark, Bool.or_true]

theorem not_isIdentStart {c : Char} (h : isIdentPart c = false) : isIdentStart c = false := by
  rw [Bool.eq_false_iff]
  intro hstart
  have hpart := isIdentPart_of_isIdentStart hstart
  rw [h] at hpart
  cases hpart

/-- An ASCII identifier. -/
def IsIdent (name : Text) : Prop :=
  ∃ c rest, name = c :: rest ∧ isIdentStart c = true ∧ ∀ d ∈ rest, isIdentPart d = true

theorem IsIdent.parts {name : Text} (h : IsIdent name) : ∀ c ∈ name, isIdentPart c = true := by
  obtain ⟨c, rest, rfl, hc, hrest⟩ := h
  exact List.forall_mem_cons.2 ⟨isIdentPart_of_isIdentStart hc, hrest⟩

namespace Text

/-! ## Edges of words -/

/-- What does not end in a word does not change what stands before a word behind it. -/
theorem any_getLast_append {w : Text} (hw : w.getLast?.any isWord = false) (u : Text) :
    (w ++ u).getLast?.any isWord = u.getLast?.any isWord := by
  rw [List.getLast?_append]
  cases u.getLast? with
  | some c => rfl
  | none => exact hw

/-- What does not start with a word does not change what stands behind a word in front of it. -/
theorem any_head_append {w : Text} (hw : w.head?.any isWord = false) (v : Text) :
    (v ++ w).head?.any isWord = v.head?.any isWord := by
  cases v with
  | cons c v => rfl
  | nil => exact hw

/-- White space in front of a text does not change what stands before a word behind it. -/
theorem any_getLast_blank {w : Text} (hw : Blank w) (u : Text) :
    (w ++ u).getLast?.any isWord = u.getLast?.any isWord := by
  apply any_getLast_append
  cases hlast : w.getLast? with
  | none => rfl
  | some c => exact isWord_of_isSpace (hw c (List.mem_of_getLast? hlast))

/-- White space behind a text does not change what stands behind a word in front of it. -/
theorem any_head_blank {w : Text} (hw : Blank w) (v : Text) :
    (v ++ w).head?.any isWord = v.head?.any isWord := by
  apply any_head_append
  cases w with
  | nil => rfl
  | cons c w => exact isWord_of_isSpace (hw c List.mem_cons_self)

/-- The text stands in another one where no word goes on before it and, if `closed`, none behind
it. -/
def Stands (closed : Bool) (m s : Text) : Prop :=
  ∃ u v, s = u ++ (m ++ v) ∧ u.getLast?.any isWord = false ∧
    (closed && v.head?.any isWord) = false

/-- The text occurs as a word of its own. -/
def HasWord (word s : Text) : Prop := Stands true word s

/-- What starts and ends with something other than white space stands in a text iff it stands in
the trimmed text. -/
theorem stands_trim {closed : Bool} {m : Text} (hne : m ≠ [])
    (hhead : ∀ c ∈ m.head?, isSpace c = false) (hlast : ∀ c ∈ m.getLast?, isSpace c = false)
    (s : Text) : Stands closed m (trim s) ↔ Stands closed m s := by
  constructor
  · rintro ⟨u, v, hs, hu, hv⟩
    obtain ⟨w, w', hsplit, hw, hw'⟩ := trim_split s
    refine ⟨w ++ u, v ++ w', ?_, ?_, ?_⟩
    · rw [hsplit, hs]
      simp only [List.append_assoc]
    · rw [any_getLast_blank hw, hu]
    · rw [any_head_blank hw', hv]
  · rintro ⟨u, v, rfl, hu, hv⟩
    refine ⟨u.dropWhile isSpace, dropEndWhile isSpace v, trimBoth_append hne hhead hlast u v,
      ?_, ?_⟩
    · have hfront : Blank (u.takeWhile isSpace) := fun c hc => List.mem_takeWhile_imp hc
      rw [← any_getLast_blank hfront, List.takeWhile_append_dropWhile, hu]
    · have hback : Blank (v.rtakeWhile isSpace) := fun c hc => List.mem_rtakeWhile_imp hc
      have hsplit : dropEndWhile isSpace v ++ v.rtakeWhile isSpace = v :=
        List.rdropWhile_append_rtakeWhile
      rw [← any_head_blank hback, hsplit, hv]

/-- What holds some characters, but not one that is no part of a word, stands on one side of that
character. -/
theorem stands_split {closed : Bool} {m : Text} {x : Char} (hne : m ≠ []) (hm : x ∉ m)
    (hx : isWord x = false) (s t : Text) :
    Stands closed m (s ++ x :: t) ↔ Stands closed m s ∨ Stands closed m t := by
  have hafter : ∀ v : Text, (v ++ x :: t).head?.any isWord = v.head?.any isWord :=
    any_head_append hx
  have hbefore : ∀ u : Text, (s ++ x :: u).getLast?.any isWord = u.getLast?.any isWord := by
    intro u
    rw [List.append_cons]
    exact any_getLast_append (by rwa [List.getLast?_concat]) u
  constructor
  · rintro ⟨u, v, hs, hu, hv⟩
    rcases List.append_eq_append_iff.1 hs with ⟨u', rfl, ht⟩ | ⟨w, rfl, hw⟩
    · -- The text starts behind the character, at which it cannot start.
      right
      cases u' with
      | nil =>
        obtain ⟨c, m, rfl⟩ := List.exists_cons_of_ne_nil hne
        exact absurd (List.cons.inj ht).1 (List.ne_of_not_mem_cons hm)
      | cons d u' =>
        obtain ⟨rfl, rfl⟩ := List.cons.inj ht
        exact ⟨u', v, rfl, (hbefore u').symm.trans hu, hv⟩
    · left
      rcases List.append_eq_append_iff.1 hw with ⟨v', rfl, rfl⟩ | ⟨m', rfl, hv'⟩
      · exact ⟨u, v', rfl, hu, by rwa [hafter] at hv⟩
      · cases m' with
        | nil => exact ⟨u, [], by simp, hu, by simp⟩
        | cons d m' =>
          obtain ⟨rfl, -⟩ := List.cons.inj hv'
          exact absurd (List.mem_append_right w List.mem_cons_self) hm
  · rintro (⟨u, v, rfl, hu, hv⟩ | ⟨u, v, rfl, hu, hv⟩)
    · exact ⟨u, v ++ x :: t, by simp, hu, by rw [hafter, hv]⟩
    · exact ⟨s ++ x :: u, v, by simp, (hbefore u).trans hu, hv⟩

end Text

end BlockSafe
