import BlockSafe.Proofs.Text.Classes
import BlockSafe.Text.Case

/-!
# Lower case

A text in lower case is its own lower-case form (`lower_lower`), and one without margins has none in
lower case either (`trim_lower`).

Both come from the table of the case mappings.  No run of the table maps what a run maps to, and no
run maps to white space (`lowerRuns_land`); the runs are compared by their ends, or by the parity of
their characters where one run lies within another.
-/

namespace BlockSafe

/-! ## The table -/

namespace CaseRun

/-- The first code point that the run maps to. -/
def low (r : CaseRun) : Nat := r.map r.first

/-- The last code point that the run maps to. -/
def high (r : CaseRun) : Nat := r.map r.last

/-- Whether `r'` maps nothing that `r` maps to: the two lie apart, or `r'` maps every second code
point, and others than those that `r` maps to. -/
def clearOf (r r' : CaseRun) : Bool :=
  Nat.blt r.high r'.first || Nat.blt r'.last r.low ||
    (r'.step == 2 && (r.step == 2 || r.first == r.last) && (r.low + r'.first) % 2 == 1)

/-- Whether the run maps to code points of characters, all of them small ASCII letters or none of
them ASCII, and to no white space. -/
def lands (r : CaseRun) : Bool :=
  decide (0 ≤ (r.first : Int) + r.shift)
    && (Nat.blt r.high 0xD800 || Nat.blt 0xDFFF r.low && Nat.blt r.high 0x110000)
    && (Nat.blt 127 r.low && (Nat.blt r.high 304 || Nat.blt 304 r.low)
      || Nat.blt 96 r.low && Nat.blt r.high 123)
    && spaceSpans.all (fun s => Nat.blt s.2 r.low || Nat.blt r.high s.1)

variable {r r' : CaseRun} {n : Nat}

theorem covers_iff : r.covers n = true ↔
    r.first ≤ n ∧ n ≤ r.last ∧ (n - r.first) % r.step = 0 := by
  simp only [covers, Bool.and_eq_true, decide_eq_true_eq, beq_iff_eq, and_assoc]

/-- The code points that a run maps to keep their distances. -/
theorem map_between (hr : 0 ≤ (r.first : Int) + r.shift) (hn : r.covers n = true) :
    r.map n = r.low + (n - r.first) ∧ r.map n ≤ r.high := by
  obtain ⟨hfirst, hlast, -⟩ := covers_iff.1 hn
  unfold low high map
  omega

theorem not_covers (hr : 0 ≤ (r.first : Int) + r.shift) (hclear : r.clearOf r' = true)
    (hn : r.covers n = true) : r'.covers (r.map n) = false := by
  rw [Bool.eq_false_iff]
  intro hcovers
  obtain ⟨hmap, hhigh⟩ := map_between hr hn
  obtain ⟨hfirst, hlast, hstep⟩ := covers_iff.1 hn
  obtain ⟨hfirst', hlast', hstep'⟩ := covers_iff.1 hcovers
  simp only [clearOf, Bool.or_eq_true, Bool.and_eq_true, Nat.blt_eq, beq_iff_eq] at hclear
  rcases hclear with (hbefore | hbehind) | ⟨⟨htwo', htwo | hone⟩, hparity⟩
  · omega
  · omega
  · rw [htwo] at hstep
    rw [htwo'] at hstep'
    omega
  · rw [htwo'] at hstep'
    omega

end CaseRun

theorem lowerRuns_land : lowerRuns.all (fun r => r.lands && lowerRuns.all r.clearOf) = true := by
  decide +kernel

/-! ## Characters -/

theorem toNat_ofNat {n : Nat} (h : n.isValidChar) : (Char.ofNat n).toNat = n := by
  unfold Char.ofNat
  rw [dif_pos h]
  rfl

/-- A character that is its own lower-case form, wherever it stands. -/
def IsLowered (c : Char) : Prop := c ≠ 'Σ' ∧ lowerChar c = [c]

instance (c : Char) : Decidable (IsLowered c) := inferInstanceAs (Decidable (_ ∧ _))

theorem isLowered_ascii : ∀ n < 128, IsLowered (Char.ofNat n).toLower ∧
    isSpace (Char.ofNat n).toLower = isSpace (Char.ofNat n) := by
  decide +kernel

theorem isLowered_small : ∀ n < 123, 96 < n → IsLowered (Char.ofNat n) := by
  decide +kernel

/-- A character that no run maps is its own lower-case form. -/
theorem isLowered_of_uncovered {c : Char} (hascii : ¬ c.toNat < 128) (hdotted : c ≠ '\u0130')
    (h : lowerRuns.find? (·.covers c.toNat) = none) : IsLowered c := by
  constructor
  · rintro rfl
    revert h
    decide +kernel
  · rw [lowerChar, if_neg hascii, if_neg hdotted, mapByRuns, h]

/-- What a run maps to is its own lower-case form, and no white space. -/
theorem isLowered_map {r : CaseRun} {n : Nat} (hr : r ∈ lowerRuns) (hn : r.covers n = true) :
    IsLowered (Char.ofNat (r.map n)) ∧ isSpace (Char.ofNat (r.map n)) = false := by
  obtain ⟨hland, hclear⟩ := Bool.and_eq_true_iff.1 (List.all_eq_true.1 lowerRuns_land r hr)
  simp only [CaseRun.lands, Bool.and_eq_true, Bool.or_eq_true, decide_eq_true_eq, Nat.blt_eq,
    List.all_eq_true] at hland
  obtain ⟨⟨⟨hshift, hvalid⟩, hrange⟩, hspaces⟩ := hland
  obtain ⟨hmap, hhigh⟩ := CaseRun.map_between hshift hn
  have hpoint : (Char.ofNat (r.map n)).toNat = r.map n := by
    refine toNat_ofNat ?_
    unfold Nat.isValidChar
    omega
  constructor
  · rcases hrange with ⟨hascii, hdotted⟩ | ⟨hletter, hletter'⟩
    · refine isLowered_of_uncovered ?_ ?_ ?_
      · omega
      · intro heq
        have hcode : r.map n = 304 := hpoint.symm.trans (congrArg Char.toNat heq)
        omega
      · rw [hpoint, List.find?_eq_none]
        intro r' hr'
        rw [CaseRun.not_covers hshift (List.all_eq_true.1 hclear r' hr') hn]
        exact Bool.false_ne_true
    · exact isLowered_small _ (by omega) (by omega)
  · rw [Bool.eq_false_iff]
    intro hspace
    rcases isSpace_toNat hspace with hlow | ⟨s, hs, hstart, hend⟩
    · omega
    · have hapart := hspaces s hs
      omega

/-- The lower-case form of a character consists of such characters, and has white space only if that
is white space. -/
theorem lowerChar_lowered (c : Char) : lowerChar c ≠ [] ∧
    ∀ d ∈ lowerChar c, IsLowered d ∧ (isSpace c = false → isSpace d = false) := by
  unfold lowerChar
  split
  · next hascii =>
    obtain ⟨hlowered, hspace⟩ := isLowered_ascii c.toNat hascii
    rw [Char.ofNat_toNat] at hlowered hspace
    refine ⟨List.cons_ne_nil _ _, List.forall_mem_singleton.2 ⟨hlowered, fun h => ?_⟩⟩
    rw [hspace, h]
  · next hascii =>
    split
    · refine ⟨List.cons_ne_nil _ _, ?_⟩
      have htwo : ∀ d ∈ ['i', '\u0307'], IsLowered d ∧ isSpace d = false := by decide +kernel
      exact fun d hd => ⟨(htwo d hd).1, fun _ => (htwo d hd).2⟩
    · next hdotted =>
      refine ⟨List.cons_ne_nil _ _, List.forall_mem_singleton.2 ?_⟩
      unfold mapByRuns
      split
      · next r hfind =>
        have hcovers : r.covers c.toNat = true :=
          List.find?_some (p := fun r : CaseRun => r.covers c.toNat) hfind
        obtain ⟨hlowered, hspace⟩ := isLowered_map (List.mem_of_find?_eq_some hfind) hcovers
        exact ⟨hlowered, fun _ => hspace⟩
      · next hnone => exact ⟨isLowered_of_uncovered hascii hdotted hnone, id⟩

/-! ## Texts -/

namespace Text

variable {s : Text}

/-- A text in lower case, one character at a time; both forms of the sigma are such characters. -/
theorem lowerAfter_cons (afterCased : Bool) (c : Char) (s : Text) : ∃ w : Text, w ≠ [] ∧
    (∀ d ∈ w, IsLowered d ∧ (isSpace c = false → isSpace d = false)) ∧
    lowerAfter afterCased (c :: s) =
      w ++ lowerAfter (if isCaseIgnorable c then afterCased else isCased c) s := by
  rw [lowerAfter]
  split
  · refine ⟨_, List.cons_ne_nil _ _, List.forall_mem_singleton.2 ?_, rfl⟩
    have hsigma : ∀ d ∈ ['ς', 'σ'], IsLowered d ∧ isSpace d = false := by decide +kernel
    split
    · exact ⟨(hsigma _ (by simp)).1, fun _ => (hsigma _ (by simp)).2⟩
    · exact ⟨(hsigma _ (by simp)).1, fun _ => (hsigma _ (by simp)).2⟩
  · obtain ⟨hne, hall⟩ := lowerChar_lowered c
    exact ⟨_, hne, hall, rfl⟩

theorem isLowered_of_mem_lowerAfter (afterCased : Bool) (s : Text) :
    ∀ d ∈ lowerAfter afterCased s, IsLowered d := by
  induction s generalizing afterCased with
  | nil => exact fun _ hd => absurd hd List.not_mem_nil
  | cons c s ih =>
    obtain ⟨w, -, hw, heq⟩ := lowerAfter_cons afterCased c s
    rw [heq]
    exact List.forall_mem_append.2 ⟨fun d hd => (hw d hd).1, ih _⟩

theorem lowerAfter_eq_self (h : ∀ c ∈ s, IsLowered c) (afterCased : Bool) :
    lowerAfter afterCased s = s := by
  induction s generalizing afterCased with
  | nil => rfl
  | cons c s ih =>
    obtain ⟨⟨hsigma, hlower⟩, hs⟩ := List.forall_mem_cons.1 h
    rw [lowerAfter, if_neg hsigma, hlower, ih hs, List.singleton_append]

/-- A text in lower case is its own lower-case form. -/
theorem lower_lower (s : Text) : lower (lower s) = lower s :=
  lowerAfter_eq_self (isLowered_of_mem_lowerAfter false s) false

theorem lowerAfter_ne_nil (afterCased : Bool) (c : Char) (s : Text) :
    lowerAfter afterCased (c :: s) ≠ [] := by
  obtain ⟨w, hne, -, heq⟩ := lowerAfter_cons afterCased c s
  rw [heq]
  exact List.append_ne_nil_of_left_ne_nil hne _

theorem head_lowerAfter (afterCased : Bool) (h : ∀ c ∈ s.head?, isSpace c = false) :
    ∀ d ∈ (lowerAfter afterCased s).head?, isSpace d = false := by
  cases s with
  | nil => exact fun _ hd => by cases hd
  | cons c s =>
    obtain ⟨w, hne, hw, heq⟩ := lowerAfter_cons afterCased c s
    obtain ⟨d, w, rfl⟩ := List.exists_cons_of_ne_nil hne
    rw [heq]
    rintro _ ⟨⟩
    exact (hw d List.mem_cons_self).2 (h c rfl)

theorem last_lowerAfter (afterCased : Bool) (h : ∀ c ∈ s.getLast?, isSpace c = false) :
    ∀ d ∈ (lowerAfter afterCased s).getLast?, isSpace d = false := by
  induction s generalizing afterCased with
  | nil => exact fun _ hd => by cases hd
  | cons c s ih =>
    obtain ⟨w, -, hw, heq⟩ := lowerAfter_cons afterCased c s
    rw [heq]
    cases s with
    | nil =>
      rw [lowerAfter, List.append_nil]
      exact fun d hd => (hw d (List.mem_of_getLast? hd)).2 (h c rfl)
    | cons next s =>
      rw [List.getLast?_append_of_ne_nil _ (lowerAfter_ne_nil _ next s)]
      exact ih _ h

/-- A text without margins has none in lower case. -/
theorem trim_lower (s : Text) : trim (lower (trim s)) = lower (trim s) :=
  trimBoth_eq_self (head_lowerAfter false (head_trimBoth isSpace s))
    (last_lowerAfter false (last_trimBoth isSpace s))

end Text

end BlockSafe
