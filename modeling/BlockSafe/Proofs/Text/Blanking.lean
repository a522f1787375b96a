import BlockSafe.Proofs.Text.Comments
import BlockSafe.Proofs.Text.LineBreaks
import BlockSafe.Proofs.Text.Scan

/-!
# Blanking

Blanking writes spaces over masked characters, line breaks apart, so that all else keeps its place
(`overwrites_blankMasked`).  What it leaves of a masked character is `Hollow`, and to a pass that
takes no hollow character for a quote a hollow character means nothing.  So a second pass over what
is left goes from string to string as the first one did, and leaves it alone:

    blankMasked ⟨quotes, comments'⟩ (blankMasked ⟨quotes, comments⟩ s) =
      blankMasked ⟨quotes, comments⟩ s                                   (blankMasked_blankMasked)

if it knows no comments, or the first one did as well: blanking makes no new marks of comments.
-/

namespace BlockSafe

open Text

/-! ## What is written -/

/-- What blanking leaves of a masked character: a space, or the line break it was. -/
def Hollow (c : Char) : Prop := c = ' ' ∨ IsBreak c

instance (c : Char) : Decidable (Hollow c) := inferInstanceAs (Decidable (_ ∨ _))

section
variable {c x : Char} {masked : Bool} {rules : MaskRules} {region : Region} {s : Text}

theorem blankChar_eq (c : Char) (masked : Bool) :
    blankChar (c, masked) = if masked = true ∧ ¬ IsBreak c then ' ' else c := by
  unfold blankChar
  refine if_congr ?_ rfl rfl
  simp only [Bool.and_eq_true, bne_iff_ne, IsBreak, not_or, and_assoc]

theorem hollow_blankChar (c : Char) : Hollow (blankChar (c, true)) := by
  rw [blankChar_eq]
  split
  · exact .inl rfl
  · next h => exact .inr (by simpa using h)

/-- A hollow character is left as it is. -/
theorem Hollow.blankChar_eq (h : Hollow c) (masked : Bool) : blankChar (c, masked) = c := by
  rw [BlockSafe.blankChar_eq]
  split
  · next hmasked => exact (h.resolve_right hmasked.2).symm
  · rfl

theorem eq_of_blankChar (h : blankChar (c, masked) = x) (hx : x ≠ ' ') : c = x := by
  rw [blankChar_eq] at h
  split at h
  · exact absurd h.symm hx
  · exact h

/-- Only a character that was there shows. -/
theorem head?_view (h : (view rules region s).head? = some x) (hx : x ≠ ' ') :
    s.head? = some x := by
  cases s with
  | nil => cases h
  | cons c s =>
    rw [view_cons, List.head?_cons, Option.some.injEq] at h
    rw [List.head?_cons, eq_of_blankChar h hx]

end

/-- `t` is `s` with spaces written over some of its characters, none of them in a line break. -/
def Overwrites (s t : Text) : Prop :=
  t.length = s.length ∧
    ∀ (i : Nat) (c : Char), s[i]? = some c → t[i]? = some c ∨ ¬ IsBreak c ∧ t[i]? = some ' '

theorem overwrites_blankMasked (rules : MaskRules) (s : Text) :
    Overwrites s (blankMasked rules s) := by
  refine ⟨by rw [blankMasked, List.length_map, length_mark], fun i c hc => ?_⟩
  have hmark : ((mark rules .code s)[i]?).map (·.1) = some c := by
    rw [← List.getElem?_map, map_fst_mark, hc]
  obtain ⟨⟨_, masked⟩, hm, rfl⟩ := Option.map_eq_some_iff.1 hmark
  rw [blankMasked, List.getElem?_map, hm, Option.map_some, blankChar_eq]
  split
  · next h => exact .inr ⟨h.2, rfl⟩
  · exact .inl rfl

/-- What is left at each index of the scan. -/
theorem blankMasked_eq_scan (rules : MaskRules) (s : Text) : blankMasked rules s =
    (scan rules s).map fun (_, c, masked) => if masked = true ∧ ¬ IsBreak c then ' ' else c := by
  have hscan : (scan rules s).map (fun (_, c, masked) => blankChar (c, masked)) =
      ((scan rules s).map (·.2)).map blankChar := by
    rw [List.map_map]
    rfl
  simp only [← blankChar_eq]
  rw [hscan, map_snd_scan, blankMasked]

/-! ## A second pass -/

/-- The region of a pass over what an earlier one has left, where that one was in `region`. -/
def Region.settled : Region → Region
  | string quote | escape quote => string quote
  | _ => code

section
variable {quotes : Text} {comments comments' : Bool} {region : Region} {c x : Char}
  {next next' : Option Char}

/-- A masked character leaves strings and comments open. -/
theorem settled_masked {rules : MaskRules} (h : (region.step rules c next).1 = true) :
    (region.step rules c next).2.settled = region.settled := by
  cases region with
  | code =>
    simp only [Region.step] at h ⊢
    split
    · rfl
    · next hline =>
      rw [if_neg hline] at h
      split
      · rfl
      · next hblock =>
        rw [if_neg hblock] at h
        split at h <;> cases h
  | string quote =>
    simp only [Region.step] at h ⊢
    split
    · rfl
    · next hescape =>
      rw [if_neg hescape] at h
      split
      · next hquote =>
        rw [if_pos hquote] at h
        cases h
      · rfl
  | escape quote => rfl
  | lineComment =>
    simp only [Region.step]
    split <;> rfl
  | blockOpening => rfl
  | blockComment =>
    simp only [Region.step]
    split <;> rfl
  | blockClosing => rfl

variable (hquotes : ∀ quote ∈ quotes, ¬ Hollow quote)
include hquotes

/-- A hollow character means nothing to the second pass. -/
theorem step_hollow (hregion : region.EndsIn (¬ Hollow ·)) (hx : Hollow x) (next : Option Char) :
    (region.settled.step ⟨quotes, comments⟩ x next).2 = region.settled := by
  have hslash : x ≠ '/' := fun h => absurd (h ▸ hx) (by decide)
  have hescape : x ≠ '\\' := fun h => absurd (h ▸ hx) (by decide)
  have hcode : (Region.code.step ⟨quotes, comments⟩ x next).2 = .code := by
    have hquote : x ∉ quotes := fun h => hquotes x h hx
    simp [Region.step, hslash, hquote]
  have hstring : ∀ quote, ¬ Hollow quote →
      ((Region.string quote).step ⟨quotes, comments⟩ x next).2 = .string quote := by
    intro quote hquote
    have hother : x ≠ quote := fun h => hquote (h ▸ hx)
    simp [Region.step, hescape, hother]
  cases region with
  | string quote => exact hstring quote hregion
  | escape quote => exact hstring quote hregion
  | _ => exact hcode

/-- A character that is not masked is read in the same way again. -/
theorem step_shown (hcomments : comments' = true → comments = true)
    (hnext : ∀ x ∈ ['/', '*'], next' = some x → next = some x)
    (h : (region.step ⟨quotes, comments⟩ c next).1 = false) :
    region.settled.step ⟨quotes, comments'⟩ c next' =
      (false, (region.step ⟨quotes, comments⟩ c next).2.settled) := by
  cases region with
  | code =>
    have hline : ¬ (comments = true ∧ c = '/' ∧ next = some '/') := fun hopen => by
      simp [Region.step, hopen] at h
    have hblock : ¬ (comments = true ∧ c = '/' ∧ next = some '*') := fun hopen => by
      simp [Region.step, hopen] at h
    have hline' : ¬ (comments' = true ∧ c = '/' ∧ next' = some '/') := fun hopen =>
      hline ⟨hcomments hopen.1, hopen.2.1, hnext '/' (by simp) hopen.2.2⟩
    have hblock' : ¬ (comments' = true ∧ c = '/' ∧ next' = some '*') := fun hopen =>
      hblock ⟨hcomments hopen.1, hopen.2.1, hnext '*' (by simp) hopen.2.2⟩
    simp only [Region.settled, Region.step, if_neg hline, if_neg hblock, if_neg hline',
      if_neg hblock']
    split <;> rfl
  | string quote =>
    simp only [Region.settled, Region.step] at h ⊢
    split at h
    · cases h
    · next hescape =>
      split at h
      · next hquote => rw [if_neg hescape, if_pos hquote]
      · cases h
  | lineComment =>
    simp only [Region.step] at h ⊢
    split at h
    · next hbreak =>
      subst hbreak
      have hquote : '\n' ∉ quotes := fun hmem => hquotes '\n' hmem (by decide)
      simp [Region.settled, hquote]
    · cases h
  | escape quote => cases h
  | blockOpening => cases h
  | blockComment =>
    simp only [Region.step] at h
    split at h <;> cases h
  | blockClosing => cases h

theorem view_settled (hcomments : comments' = true → comments = true)
    (hregion : region.EndsIn (¬ Hollow ·)) (s : Text) :
    view ⟨quotes, comments'⟩ region.settled (view ⟨quotes, comments⟩ region s) =
      view ⟨quotes, comments⟩ region s := by
  induction s generalizing region with
  | nil => rfl
  | cons c s ih =>
    have hafter : (region.step ⟨quotes, comments⟩ c s.head?).2.EndsIn (¬ Hollow ·) :=
      hregion.step hquotes c s.head?
    have hrest := ih hafter
    rw [view_cons]
    cases hmasked : (region.step ⟨quotes, comments⟩ c s.head?).1 with
    | true =>
      have hhollow := hollow_blankChar c
      rw [settled_masked hmasked] at hrest
      rw [view_cons, hhollow.blankChar_eq, step_hollow hquotes hregion hhollow, hrest]
    | false =>
      have hshown : blankChar (c, false) = c := rfl
      rw [hshown, view_cons, step_shown hquotes hcomments _ hmasked, hrest, hshown]
      intro x hx hhead
      refine head?_view hhead ?_
      rintro rfl
      exact absurd hx (by decide)

/-- **A second pass changes nothing.**  It may know comments only if the first one did. -/
theorem blankMasked_blankMasked (hcomments : comments' = true → comments = true) (s : Text) :
    blankMasked ⟨quotes, comments'⟩ (blankMasked ⟨quotes, comments⟩ s) =
      blankMasked ⟨quotes, comments⟩ s := by
  have hcode : Region.code.EndsIn (¬ Hollow ·) := trivial
  exact view_settled hquotes hcomments hcode s

end

/-! ## Programs -/

theorem not_hollow_programQuotes : ∀ quote ∈ programQuotes, ¬ Hollow quote := by decide

/-- **Every character is scanned once, and what is blanked stays in place.**  The scan yields the
indices of the text in order, each with its own character, and so does the pass that reads both
characters of a mark at once.  Of a program only masked characters change, to spaces, and no line
break does; a second pass over it finds nothing more to blank. -/
theorem blanking_aligned :
    (∀ rules s, (scan rules s).map (·.1) = List.range s.length ∧
      (scan rules s).map (·.2.1) = s ∧ sweep rules s .code 0 = scan rules s) ∧
    (∀ rules s, blankMasked rules s = (scan rules s).map fun (_, c, masked) =>
      if masked = true ∧ ¬ IsBreak c then ' ' else c) ∧
    ∀ code, Overwrites code (blankStrings code) ∧ Overwrites code (blankNonCode code) ∧
      blankStrings (blankStrings code) = blankStrings code ∧
      blankNonCode (blankNonCode code) = blankNonCode code ∧
      blankStrings (blankNonCode code) = blankNonCode code := by
  refine ⟨fun rules s => ⟨indices_scan rules s, chars_scan rules s, sweep_eq_scan rules s⟩,
    blankMasked_eq_scan, fun code => ⟨overwrites_blankMasked _ code, overwrites_blankMasked _ code,
      ?_, ?_, ?_⟩⟩
  · exact blankMasked_blankMasked not_hollow_programQuotes id code
  · exact blankMasked_blankMasked not_hollow_programQuotes id code
  · exact blankMasked_blankMasked not_hollow_programQuotes (fun _ => rfl) code

end BlockSafe
