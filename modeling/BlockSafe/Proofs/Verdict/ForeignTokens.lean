import BlockSafe.Proofs.Text.Classes
import BlockSafe.Proofs.Text.Comments
import BlockSafe.Proofs.Text.Takes
import BlockSafe.Proofs.Verdict.Phases

/-!
# Foreign tokens

The tokens of another target cut an inspection short.  They are looked for in the program as it
stands, so they are found within longer words, in strings and in comments as well
(`word_end_refused`).  A program refers to another target only where a token is shown in the view
without strings and comments and no word goes on before it (`References`).  What is shown there as a
token is a token of the program (`view_split`), and the characters of a word are shown or masked
together (`masked_next`), so the references are the tokens that are shown and start a word
(`foreign_tokens_found`).
-/

namespace BlockSafe

open Pattern Text

variable {region : Region} {s t u u' m v v' : Text} {target : Target}

/-! ## Tokens -/

/-- The tokens that a program for the target may not have. -/
def Target.foreignTokens : Target → List Text
  | arcade => texts ["led.", "radio."]
  | microbit | maker => texts ["sprites.", "controller.", "scene.", "game.onUpdate"]

/-- The text is a foreign token in some mixture of cases. -/
def SpellsToken (target : Target) (m : Text) : Prop :=
  ∃ token ∈ target.foreignTokens, m.map foldLetter = token.map foldLetter

theorem foreign_eq (target : Target) :
    target.profile.foreign = anyOf (target.foreignTokens.map litAnyCase) := by
  cases target with
  | microbit => rfl
  | arcade => rfl
  | maker => rfl

theorem takes_foreign {before : Option Char} :
    target.profile.foreign.Takes before m v ↔ SpellsToken target m := by
  simp only [foreign_eq, takes_anyOf, List.mem_map, exists_exists_and_eq_and, takes_litAnyCase,
    SpellsToken]

theorem occurs_foreign (target : Target) (s : Text) : target.profile.foreign.occurs s = true ↔
    ∃ u m v, s = u ++ (m ++ v) ∧ SpellsToken target m := by
  simp only [occurs_iff_takes, takes_foreign]

theorem foldLetter_of_isSpace {c : Char} (h : isSpace c = true) : foldLetter c = c := by
  have hcapital : ¬(c.val ≥ 'A'.val ∧ c.val ≤ 'Z'.val) := by
    rintro ⟨hlow, hhigh⟩
    have hpart := isIdentPart_of_isSpace h
    have hupper : c.isUpper = true := decide_eq_true ⟨hlow, hhigh⟩
    unfold isIdentPart Char.isAlphanum Char.isAlpha at hpart
    rw [hupper] at hpart
    cases hpart
  have hi : ¬(c = '\u0130' ∨ c = '\u0131') :=
    not_or.2 ⟨ne_of_isSpace h (by decide), ne_of_isSpace h (by decide)⟩
  rw [foldLetter, if_neg hi, if_neg (ne_of_isSpace h (by decide)),
    if_neg (ne_of_isSpace h (by decide))]
  exact dif_neg hcapital

/-- A token holds neither white space nor quotes. -/
theorem SpellsToken.solid (h : SpellsToken target m) :
    m ≠ [] ∧ ∀ c ∈ m, isSpace c = false ∧ c ∉ programQuotes := by
  obtain ⟨token, htoken, hm⟩ := h
  have hletters : ∀ token ∈ target.foreignTokens, token ≠ [] ∧
      ∀ d ∈ token.map foldLetter, isSpace d = false ∧ d ∉ programQuotes.map foldLetter := by
    cases target <;> decide
  obtain ⟨hne, hall⟩ := hletters token htoken
  refine ⟨?_, fun c hc => ?_⟩
  · rintro rfl
    exact hne (List.map_eq_nil_iff.1 hm.symm)
  · have hmem : foldLetter c ∈ token.map foldLetter := hm ▸ List.mem_map_of_mem hc
    obtain ⟨hspace, hquote⟩ := hall _ hmem
    refine ⟨?_, fun hc => hquote (List.mem_map_of_mem hc)⟩
    rw [Bool.eq_false_iff]
    intro hblank
    rw [foldLetter_of_isSpace hblank, hblank] at hspace
    cases hspace

/-! ## What is shown -/

/-- A character is shown as it is or leaves white space. -/
theorem blankChar_cases (c : Char) (masked : Bool) :
    (masked = false ∧ blankChar (c, masked) = c) ∨
      (masked = true ∧ isSpace (blankChar (c, masked)) = true) := by
  cases masked with
  | false => exact .inl ⟨rfl, rfl⟩
  | true => exact .inr ⟨rfl, isSpace_blankChar c⟩

theorem not_masked {c : Char} {masked : Bool} (h : blankChar (c, masked) = c)
    (hc : isSpace c = false) : masked = false := by
  rcases blankChar_cases c masked with ⟨hmask, -⟩ | ⟨-, hspace⟩
  · exact hmask
  · rw [h, hc] at hspace
    cases hspace

theorem view_prefix {rules : MaskRules} (hm : ∀ c ∈ m, isSpace c = false)
    (h : view rules region s = m ++ v') : ∃ v, s = m ++ v := by
  induction m generalizing region s with
  | nil => exact ⟨s, rfl⟩
  | cons x m ih =>
    obtain ⟨hx, hm⟩ := List.forall_mem_cons.1 hm
    cases s with
    | nil => cases h
    | cons c s =>
      rw [view_cons] at h
      obtain ⟨hblank, hrest⟩ := List.cons.inj h
      obtain ⟨v, rfl⟩ := ih hm hrest
      rcases blankChar_cases c (region.step rules c (m ++ v).head?).1 with ⟨-, heq⟩ | ⟨-, hspace⟩
      · rw [heq] at hblank
        exact ⟨v, by rw [hblank]; rfl⟩
      · rw [hblank, hx] at hspace
        cases hspace

/-- What is shown without white space stands at the same place in the program. -/
theorem view_split {rules : MaskRules} (hm : ∀ c ∈ m, isSpace c = false)
    (h : view rules region s = u' ++ (m ++ v')) :
    ∃ u v, s = u ++ (m ++ v) ∧ u'.length = u.length := by
  induction u' generalizing region s with
  | nil =>
    obtain ⟨v, rfl⟩ := view_prefix hm h
    exact ⟨[], v, rfl, rfl⟩
  | cons x u' ih =>
    cases s with
    | nil => cases h
    | cons c s =>
      rw [view_cons] at h
      obtain ⟨u, v, rfl, hlength⟩ := ih (List.cons.inj h).2
      exact ⟨c :: u, v, rfl, congrArg (· + 1) hlength⟩

/-! ## Words -/

/-- What is known of the text behind a region: strings end with a quote, and only a slash closes a
block comment. -/
def Region.Sound : Region → Text → Prop
  | string quote, _ | escape quote, _ => quote ∈ programQuotes
  | blockClosing, s => s.head? = some '/'
  | _, _ => True

theorem Region.Sound.step {c : Char} (h : region.Sound (c :: s)) :
    (region.step codeMask c s.head?).2.Sound s := by
  cases region with
  | code =>
    simp only [Region.step]
    split
    · trivial
    · split
      · trivial
      · split
        · next hquote => exact hquote
        · trivial
  | string quote =>
    simp only [Region.step]
    split
    · exact h
    · split
      · trivial
      · exact h
  | escape quote => exact h
  | lineComment =>
    simp only [Region.step]
    split <;> trivial
  | blockOpening => trivial
  | blockComment =>
    simp only [Region.step]
    split
    · next hclose => exact hclose.2
    · trivial
  | blockClosing => trivial

/-- Within a string everything is masked but the quotes. -/
theorem string_masks {quote c : Char} (hquote : quote ∈ programQuotes) (hc : c ∉ programQuotes)
    (next : Option Char) : ((Region.string quote).step codeMask c next).1 = true := by
  simp only [Region.step]
  split
  · rfl
  · split
    · next heq => exact absurd (heq ▸ hquote) hc
    · rfl

theorem blockComment_masks (c : Char) (next : Option Char) :
    (Region.blockComment.step codeMask c next).1 = true := by
  simp only [Region.step]
  split <;> rfl

/-- The characters of a word are masked together. -/
theorem masked_next {c d : Char} (h : region.Sound (c :: d :: s)) (hc : isWord c = true)
    (hd : d ∉ programQuotes) (hbreak : d ≠ '\n')
    (hmask : (region.step codeMask c (some d)).1 = true) :
    ((region.step codeMask c (some d)).2.step codeMask d s.head?).1 = true := by
  have hother : ∀ x : Char, isWord x = false → c ≠ x := by
    rintro x hx rfl
    rw [hc] at hx
    cases hx
  cases region with
  | code =>
    have hslash := hother '/' (by decide)
    simp only [Region.step, hslash, false_and, and_false, if_false] at hmask
    split at hmask <;> cases hmask
  | string quote =>
    have hback := hother '\\' (by decide)
    simp only [Region.step, hback, if_false] at hmask ⊢
    split at hmask
    · cases hmask
    · next hend =>
      rw [if_neg hend]
      exact string_masks h hd s.head?
  | escape quote => exact string_masks h hd _
  | lineComment =>
    have hline := hother '\n' (by decide)
    simp [Region.step, hline, hbreak]
  | blockOpening => exact blockComment_masks d _
  | blockComment =>
    have hstar := hother '*' (by decide)
    simp only [Region.step, hstar, false_and, if_false]
    exact blockComment_masks d _
  | blockClosing => exact absurd (Option.some.inj h) (hother '/' (by decide))

/-- Where a token is shown, a word goes on before it in the view iff one does in the program. -/
theorem edge_view {d : Char} {t' : Text} (h : region.Sound (u ++ d :: t))
    (hspace : isSpace d = false) (hquote : d ∉ programQuotes)
    (hview : view codeMask region (u ++ d :: t) = u' ++ d :: t') (hlength : u'.length = u.length) :
    u'.getLast?.any isWord = u.getLast?.any isWord := by
  induction u generalizing region u' with
  | nil =>
    rw [List.length_eq_zero_iff.1 hlength]
  | cons c u ih =>
    obtain ⟨x, u', rfl⟩ := List.exists_cons_of_length_eq_add_one hlength
    rw [List.cons_append, view_cons] at hview
    obtain ⟨hx, hrest⟩ := List.cons.inj hview
    have hlength' : u'.length = u.length := Nat.succ.inj hlength
    cases u with
    | nil =>
      obtain rfl := List.length_eq_zero_iff.1 hlength'
      rw [List.nil_append, view_cons] at hrest
      have hshown := not_masked (List.cons.inj hrest).1 hspace
      have hbreak : d ≠ '\n' := by
        rintro rfl
        cases hspace
      show isWord x = isWord c
      rw [← hx]
      rcases blankChar_cases c (region.step codeMask c (some d)).1 with ⟨-, heq⟩ | ⟨hmask, hblank⟩
      · exact congrArg isWord heq
      · refine (isWord_of_isSpace hblank).trans (Eq.symm (Bool.eq_false_iff.2 fun hword => ?_))
        have hnext := masked_next h hword hquote hbreak hmask
        cases hnext.symm.trans hshown
    | cons c₂ u =>
      obtain ⟨x₂, u', rfl⟩ := List.exists_cons_of_length_eq_add_one hlength'
      rw [List.getLast?_cons_cons, List.getLast?_cons_cons]
      exact ih h.step hrest hlength'

/-! ## References -/

/-- The text refers to another target: it holds a foreign token, and no word goes on before it. -/
def References (target : Target) (s : Text) : Prop :=
  ∃ u m v, s = u ++ (m ++ v) ∧ u.getLast?.any isWord = false ∧ SpellsToken target m

/-- What stands behind `u` in the program is shown without strings and comments. -/
def Shows (code u m : Text) : Prop :=
  ∃ u' v', blankNonCode code = u' ++ (m ++ v') ∧ u'.length = u.length

theorem references_iff (target : Target) (s : Text) : References target s ↔
    (chain [test fun c => !c.before.any isWord, target.profile.foreign]).occurs s = true := by
  have htakes : ∀ (before : Option Char) (m v : Text),
      (chain [test fun c => !c.before.any isWord, target.profile.foreign]).Takes before m v ↔
        before.any isWord = false ∧ SpellsToken target m := by
    intro before m v
    simp only [takes_chain_cons, takes_chain_nil, takes_test, takes_foreign]
    constructor
    · rintro ⟨_, _, rfl, ⟨rfl, hedge⟩, m, _, rfl, htoken, rfl⟩
      rw [List.nil_append, List.append_nil]
      exact ⟨by simpa using hedge, htoken⟩
    · rintro ⟨hedge, htoken⟩
      exact ⟨[], m, rfl, ⟨rfl, by simpa using hedge⟩, m, [], (List.append_nil m).symm, htoken, rfl⟩
  simp only [occurs_iff_takes, htakes, References]

/-- The references of a program are the tokens that are shown and do not end a longer word. -/
theorem references_view (target : Target) (code : Text) : References target (blankNonCode code) ↔
    ∃ u m v, code = u ++ (m ++ v) ∧ SpellsToken target m ∧ u.getLast?.any isWord = false ∧
      Shows code u m := by
  have hsame : ∀ {u m v u' v' : Text}, code = u ++ (m ++ v) → SpellsToken target m →
      blankNonCode code = u' ++ (m ++ v') → u'.length = u.length →
      u'.getLast?.any isWord = u.getLast?.any isWord := by
    rintro u m v u' v' rfl htoken hview hlength
    obtain ⟨hne, hsolid⟩ := htoken.solid
    obtain ⟨d, m, rfl⟩ := List.exists_cons_of_ne_nil hne
    obtain ⟨hspace, hquote⟩ := hsolid d List.mem_cons_self
    have hsound : Region.code.Sound (u ++ (d :: m ++ v)) := trivial
    exact edge_view hsound hspace hquote hview hlength
  constructor
  · rintro ⟨u', m, v', hview, hedge, htoken⟩
    have hshown : view codeMask .code code = u' ++ (m ++ v') := hview
    obtain ⟨u, v, hcode, hlength⟩ := view_split (fun c hc => (htoken.solid.2 c hc).1) hshown
    refine ⟨u, m, v, hcode, htoken, ?_, u', v', hview, hlength⟩
    rw [← hsame hcode htoken hview hlength, hedge]
  · rintro ⟨u, m, v, hcode, htoken, hedge, u', v', hview, hlength⟩
    refine ⟨u', m, v', hview, ?_, htoken⟩
    rw [hsame hcode htoken hview hlength, hedge]

/-! ## Verdicts -/

/-- No phase reports a foreign token. -/
theorem ofTag?_foreign (target : Target) :
    Phase.ofTag? target.profile.foreignViolation.tag = none := by
  have hnone : ∀ v ∈ [Violation.arcadeApis, .microbitApis], Phase.ofTag? v.tag = none := by
    decide +kernel
  cases target with
  | microbit => exact hnone _ (by decide)
  | arcade => exact hnone _ (by decide)
  | maker => exact hnone _ (by decide)

theorem mem_violations_foreign {code : Text} :
    target.profile.foreignViolation.tag ∈ (validate code target).violations ↔
      target.profile.foreign.occurs code = true := by
  cases hforeign : target.profile.foreign.occurs code with
  | true =>
    rw [validate_foreign hforeign]
    exact iff_of_true (List.mem_singleton.2 rfl) rfl
  | false =>
    refine iff_of_false (fun hmem => ?_) Bool.false_ne_true
    rw [violations_eq hforeign, mem_distinct] at hmem
    obtain ⟨phase, -, htag⟩ := List.mem_flatMap.1 hmem
    have hphase := Phase.ofTag?_tag htag
    rw [ofTag?_foreign] at hphase
    cases hphase

/-- **What a program is refused for before it is inspected.**  The verdict is that of a foreign token
iff the program holds one, in any mixture of cases, wherever it stands.  The program refers to
another target iff one of its tokens is shown without strings and comments and does not end a
longer word. -/
theorem foreign_tokens_found (code : Text) (target : Target) :
    (target.profile.foreignViolation.tag ∈ (validate code target).violations ↔
      ∃ u m v, code = u ++ (m ++ v) ∧ SpellsToken target m) ∧
    (validate code target = ⟨false, [target.profile.foreignViolation.tag]⟩ ↔
      ∃ u m v, code = u ++ (m ++ v) ∧ SpellsToken target m) ∧
    (References target (blankNonCode code) ↔
      ∃ u m v, code = u ++ (m ++ v) ∧ SpellsToken target m ∧ u.getLast?.any isWord = false ∧
        Shows code u m) := by
  have hfound := occurs_foreign target code
  refine ⟨mem_violations_foreign.trans hfound, ?_, references_view target code⟩
  rw [← hfound]
  refine ⟨fun hverdict => mem_violations_foreign.1 ?_, validate_foreign⟩
  rw [hverdict]
  exact List.mem_singleton.2 rfl

/-- The end of a longer word, a string and a comment are taken for references to micro:bit. -/
theorem word_end_refused :
    (validate "let enabled = [1]\nenabled.push(2)" .arcade =
        ⟨false, [Violation.microbitApis.tag]⟩ ∧
      ¬ References .arcade (blankNonCode "let enabled = [1]\nenabled.push(2)")) ∧
    (validate "let s = \"led.\"" .arcade = ⟨false, [Violation.microbitApis.tag]⟩ ∧
      ¬ References .arcade (blankNonCode "let s = \"led.\"")) ∧
    (validate "let x = 0 // radio.on" .arcade = ⟨false, [Violation.microbitApis.tag]⟩ ∧
      ¬ References .arcade (blankNonCode "let x = 0 // radio.on")) := by
  simp only [references_iff]
  decide +kernel

end BlockSafe
