import BlockSafe.Proofs.Text.Comments
import BlockSafe.Proofs.Text.Scan

/-!
# Programs without comments

The pass that knows strings only and the one that knows comments as well do the same until a comment
opens (`step_eq`), and there they differ at once: its first mark is masked by one and shown by the
other.  So they agree on a whole program, mask by mask or in what they leave, iff it is `CommentFree`
(`views_agree_iff`), which can be told from the scan for strings alone: no slash that it sees outside
of strings is followed by a slash or a star.
-/

namespace BlockSafe

/-- No slash outside of strings starts a mark of a comment. -/
def CommentFree (code : Text) : Prop :=
  ∀ i, (i, '/', false) ∈ scan stringMask code →
    code[i + 1]? ≠ some '/' ∧ code[i + 1]? ≠ some '*'

/-! ## One character after the other -/

/-- As `CommentFree`, in a text that starts in a region. -/
def FreeFrom (region : Region) (s : Text) : Prop :=
  ∀ i : Nat, (mark stringMask region s)[i]? = some ('/', false) →
    s[i + 1]? ≠ some '/' ∧ s[i + 1]? ≠ some '*'

theorem commentFree_iff (code : Text) : CommentFree code ↔ FreeFrom .code code :=
  forall_congr' fun _ => imp_congr_left mem_scan

section
variable {region : Region} {c : Char} {next : Option Char} {s : Text}

/-- A slash shows in code only. -/
theorem step_slash (hregion : region.Uncommented) (hends : region.EndsIn (· ≠ '/'))
    (next : Option Char) : (region.step stringMask '/' next).1 = false ↔ region = .code := by
  cases region with
  | code => exact iff_of_true rfl rfl
  | string quote =>
    have hquote : '/' ≠ quote := hends.symm
    simp [Region.step, hquote]
  | escape quote => simp [Region.step]
  | lineComment => exact hregion.elim
  | blockOpening => exact hregion.elim
  | blockComment => exact hregion.elim
  | blockClosing => exact hregion.elim

theorem freeFrom_cons (hregion : region.Uncommented) (hends : region.EndsIn (· ≠ '/')) :
    FreeFrom region (c :: s) ↔ ¬ OpensComment region c s.head? ∧
      FreeFrom (region.step stringMask c s.head?).2 s := by
  have hfirst : ¬ OpensComment region c s.head? ↔
      ((c, (region.step stringMask c s.head?).1) = ('/', false) →
        s.head? ≠ some '/' ∧ s.head? ≠ some '*') := by
    rw [← not_or, Prod.mk.injEq]
    constructor
    · rintro hopen ⟨rfl, hshown⟩ hnext
      exact hopen ⟨(step_slash hregion hends _).1 hshown, rfl, hnext⟩
    · rintro h ⟨hcode, rfl, hnext⟩
      exact h ⟨rfl, (step_slash hregion hends _).2 hcode⟩ hnext
  rw [hfirst]
  unfold FreeFrom
  simp only [mark_cons]
  constructor
  · intro h
    refine ⟨fun hc => ?_, fun i hi => ?_⟩
    · have hhead := h 0 (congrArg some hc)
      rwa [List.getElem?_cons_succ, ← List.head?_eq_getElem?] at hhead
    · have htail := h (i + 1) hi
      rwa [List.getElem?_cons_succ] at htail
  · rintro ⟨hhead, htail⟩ i hi
    rw [List.getElem?_cons_succ]
    cases i with
    | zero =>
      rw [← List.head?_eq_getElem?]
      exact hhead (Option.some.inj hi)
    | succ i => exact htail i hi

/-! ## Both passes -/

/-- Where no comment opens, both passes mask the same. -/
theorem FreeFrom.mark_eq (h : FreeFrom region s) (hregion : region.Uncommented)
    (hends : region.EndsIn (· ≠ '/')) : mark codeMask region s = mark stringMask region s := by
  induction s generalizing region with
  | nil => rfl
  | cons c s ih =>
    obtain ⟨hopen, hrest⟩ := (freeFrom_cons hregion hends).1 h
    obtain ⟨hstep, hnext⟩ := step_eq hregion hopen
    rw [← hstep] at hrest
    have hends' : (region.step codeMask c s.head?).2.EndsIn (· ≠ '/') :=
      hends.step (by decide) c s.head?
    rw [mark_cons, mark_cons, ← hstep, ih hrest hnext hends']

/-- Where both passes leave the same, no comment opens. -/
theorem freeFrom_of_view_eq (h : view codeMask region s = view stringMask region s)
    (hregion : region.Uncommented) (hends : region.EndsIn (· ≠ '/')) : FreeFrom region s := by
  induction s generalizing region with
  | nil =>
    intro i hi
    cases hi
  | cons c s ih =>
    have hopen : ¬ OpensComment region c s.head? := by
      intro hopen
      obtain ⟨hcode, hstring⟩ := view_comment hopen
      rw [h, hstring] at hcode
      exact absurd hcode (by decide)
    obtain ⟨hstep, hnext⟩ := step_eq hregion hopen
    have hends' : (region.step codeMask c s.head?).2.EndsIn (· ≠ '/') :=
      hends.step (by decide) c s.head?
    refine (freeFrom_cons hregion hends).2 ⟨hopen, ?_⟩
    rw [view_cons, view_cons, ← hstep] at h
    rw [← hstep]
    exact ih (List.cons.inj h).2 hnext hends'

end

/-- **The two views agree on a program without comments, and on no other.**  If no slash outside of
strings starts a mark of a comment, the scans yield the same masks at the same places and both views
are the same; either of these alone is enough to know that no comment opens. -/
theorem views_agree_iff (code : Text) :
    (CommentFree code ↔ scan codeMask code = scan stringMask code) ∧
      (CommentFree code ↔ blankNonCode code = blankStrings code) := by
  have hfree : CommentFree code → mark codeMask .code code = mark stringMask .code code :=
    fun h => ((commentFree_iff code).1 h).mark_eq trivial trivial
  have hview : blankNonCode code = blankStrings code → CommentFree code :=
    fun h => (commentFree_iff code).2 (freeFrom_of_view_eq h trivial trivial)
  have hblank : mark codeMask .code code = mark stringMask .code code →
      blankNonCode code = blankStrings code := congrArg (List.map blankChar)
  refine ⟨⟨fun h => ?_, fun h => hview (hblank ?_)⟩, fun h => hblank (hfree h), hview⟩
  · rw [scan, scan, hfree h]
  · rw [← map_snd_scan, ← map_snd_scan, h]

/-- Slashes within a string, behind its closing quote and at the end open no comment. -/
example : blankNonCode "let x = 'http://' / 2 /" = blankStrings "let x = 'http://' / 2 /" := by
  decide

end BlockSafe
