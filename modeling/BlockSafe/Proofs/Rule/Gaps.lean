import BlockSafe.Proofs.Rule.Arguments
import BlockSafe.Proofs.Rule.References
import BlockSafe.Rule.Construct

/-!
# White space before a quote

Where the contents of a string are blanked there is white space before its closing quote.  The
rules that read blanked programs look for words, names, brackets and commas, never for a quote, and
it does not matter to them how much white space stands before one:

    rule.pattern.occurs (t ++ (g ++ q :: v)) = rule.pattern.occurs (t ++ (g' ++ q :: v))
                                                                          (occurs_literal_gap)
    checkMembers (t ++ (g ++ q :: v)) = checkMembers t ++ checkMembers v    (checkMembers_gap)
    checkCalls (t ++ (g ++ q :: v)) = checkCalls (t ++ (g' ++ q :: v))        (checkCalls_gap)
-/

namespace BlockSafe

open Pattern Text

variable {q : Char} {g g' t v : Text}

/-! ## Literals -/

/-- The text starts and ends with a part of a word, and holds nothing but words and white space. -/
structure Worded (m : Text) : Prop where
  head : m.head?.any isWord = true
  last : m.getLast?.any isWord = true
  chars : ∀ c ∈ m, isWord c = true ∨ isSpace c = true

theorem Worded.nonempty {m : Text} (h : Worded m) : m ≠ [] := by
  rintro rfl
  cases h.head

/-- A text that starts and ends with words is found in front of the white space before a quote or
behind the quote. -/
theorem Worded.stands_gap {m : Text} (h : Worded m) (closed : Bool) (hq : Foreign q) (hg : Blank g)
    (t v : Text) :
    Stands closed m (t ++ (g ++ q :: v)) ↔ Stands closed m t ∨ Stands closed m v := by
  have hsolid : ∀ {o : Option Char}, o.any isWord = true → ∀ c ∈ o, isSpace c = false := by
    rintro _ hword c rfl
    exact not_isSpace hword
  have hnotMem : q ∉ m := by
    intro hmem
    rcases h.chars q hmem with hword | hspace
    · rw [hq.word] at hword
      cases hword
    · rw [hq.space] at hspace
      cases hspace
  have htrim : trim (t ++ g) = trim t := trim_around (fun _ hc => absurd hc List.not_mem_nil) hg
  have hfront : Stands closed m (t ++ g) ↔ Stands closed m t := by
    rw [← stands_trim h.nonempty (hsolid h.head) (hsolid h.last) (t ++ g), htrim,
      stands_trim h.nonempty (hsolid h.head) (hsolid h.last)]
  rw [← List.append_assoc, stands_split h.nonempty hnotMem hq.word, hfront]

/-- A cast, up to the first letter of its type. -/
def IsCast (m : Text) : Prop :=
  ∃ gap c, gap ≠ [] ∧ Blank gap ∧ isIdentStart c = true ∧ m = "as".toList ++ (gap ++ [c])

theorem IsCast.worded {m : Text} (h : IsCast m) : Worded m := by
  obtain ⟨gap, c, -, hgap, hc, rfl⟩ := h
  have hword : isWord c = true := isWord_of_isIdentPart (isIdentPart_of_isIdentStart hc)
  refine ⟨rfl, ?_, ?_⟩
  · rw [← List.append_assoc, List.getLast?_concat]
    exact hword
  · simp only [List.forall_mem_append, List.forall_mem_singleton]
    exact ⟨by decide, fun d hd => .inr (hgap d hd), .inl hword⟩

theorem takes_cast {before : Option Char} {m v : Text} :
    (chain [wordStart "as", gap, one isIdentStart]).Takes before m v ↔
      before.any isWord = false ∧ IsCast m := by
  have hedge : ∀ s : Text, Cursor.atWordEdge ⟨before, "as".toList ++ s⟩ = true ↔
      before.any isWord = false := fun s => atWordEdge_start (by decide) before
  simp only [wordStart, wordEdge, takes_chain_cons, takes_chain_nil, takes_test, takes_lit,
    takes_gap, takes_one]
  constructor
  · rintro ⟨_, _, rfl, ⟨_, _, rfl, ⟨rfl, hstart⟩, _, _, rfl, rfl, rfl⟩, gap, _, rfl, ⟨hne, hgap⟩,
      _, _, rfl, ⟨c, rfl, hc⟩, rfl⟩
    simp only [List.append_nil, List.nil_append] at hstart ⊢
    exact ⟨(hedge _).1 hstart, gap, c, hne, hgap, hc, rfl⟩
  · rintro ⟨hbefore, gap, c, hne, hgap, hc, rfl⟩
    refine ⟨_, _, rfl, ⟨[], _, rfl, ⟨rfl, ?_⟩, _, [], (List.append_nil _).symm, rfl, rfl⟩, gap, _,
      rfl, ⟨hne, hgap⟩, [c], [], rfl, ⟨c, rfl, hc⟩, rfl⟩
    exact (hedge _).2 hbefore

/-- What a literal rule looks for. -/
theorem occurs_literal : ∀ rule ∈ literalRules, ∃ (closed : Bool) (Literal : Text → Prop),
    (∀ m, Literal m → Worded m) ∧
      ∀ s, rule.pattern.occurs s = true ↔ ∃ m, Literal m ∧ Stands closed m s := by
  have hworded : ∀ w : Text, w.head?.any isWord = true → w.getLast?.any isWord = true →
      (∀ c ∈ w, isWord c = true ∨ isSpace c = true) → ∃ (closed : Bool) (Literal : Text → Prop),
        (∀ m, Literal m → Worded m) ∧
          ∀ s, (word w).occurs s = true ↔ ∃ m, Literal m ∧ Stands closed m s := by
    intro w hhead hlast hchars
    refine ⟨true, (· = w), ?_, fun s => ?_⟩
    · rintro m rfl
      exact ⟨hhead, hlast, hchars⟩
    · rw [occurs_word hhead hlast, exists_eq_left]
      rfl
  simp only [literalRules, List.forall_mem_cons]
  refine ⟨hworded "null" (by decide) (by decide) (by decide),
    hworded "undefined" (by decide) (by decide) (by decide), ?cast,
    fun _ h => absurd h List.not_mem_nil⟩
  case cast =>
    refine ⟨false, IsCast, fun m => IsCast.worded, fun s => ?_⟩
    simp only [occurs_iff_takes, takes_cast]
    constructor
    · rintro ⟨u, m, v, rfl, hu, hm⟩
      exact ⟨m, hm, u, v, rfl, hu, rfl⟩
    · rintro ⟨m, hm, u, v, rfl, hu, -⟩
      exact ⟨u, m, v, rfl, hu, hm⟩

theorem occurs_literal_gap {rule : ConstructRule} (hrule : rule ∈ literalRules)
    (hquote : q ∈ programQuotes) (hg : Blank g) (hg' : Blank g') (t v : Text) :
    rule.pattern.occurs (t ++ (g ++ q :: v)) = rule.pattern.occurs (t ++ (g' ++ q :: v)) := by
  obtain ⟨closed, Literal, hworded, hoccurs⟩ := occurs_literal rule hrule
  have hq := foreign_quote q hquote
  rw [Bool.eq_iff_iff, hoccurs, hoccurs]
  refine exists_congr fun m => and_congr_right fun hm => ?_
  rw [(hworded m hm).stands_gap closed hq hg, (hworded m hm).stands_gap closed hq hg']

/-! ## Members -/

theorem parts_of_isSpace {c : Char} (h : isSpace c = true) : Parts c := by
  refine ⟨isWord_of_isSpace h, ?_⟩
  rintro rfl
  exact absurd h (by decide)

theorem checkMembers_blank (hg : Blank g) : checkMembers g = [] := by
  induction g with
  | nil => rfl
  | cons c g ih =>
    obtain ⟨hc, hg⟩ := List.forall_mem_cons.1 hg
    exact (checkMembers_across (parts_of_isSpace hc) [] g).trans (ih hg)

/-- No reference reaches into white space before a quote. -/
theorem checkMembers_gap (hquote : q ∈ programQuotes) (hg : Blank g) (t v : Text) :
    checkMembers (t ++ (g ++ q :: v)) = checkMembers t ++ checkMembers v := by
  have hparts : Parts q := by
    have hquotes : ∀ q ∈ programQuotes, Parts q := by decide
    exact hquotes q hquote
  cases g with
  | nil => exact checkMembers_across hparts t v
  | cons c g =>
    obtain ⟨hc, hg⟩ := List.forall_mem_cons.1 hg
    rw [List.cons_append, checkMembers_across (parts_of_isSpace hc), checkMembers_across hparts,
      checkMembers_blank hg, List.nil_append]

/-! ## Brackets -/

section
variable (hg : Paired g) (t v : Text)
include hg

/-- Paired brackets leave open what is open before them. -/
theorem staysOpen_paired {depth : Int} : StaysOpen depth (g ++ v) ↔ StaysOpen depth v := by
  rw [staysOpen_append, hg.even, Int.add_zero]
  refine ⟨And.right, fun h => ⟨(staysOpen_one.2 hg.unclosing).mono ?_, h⟩⟩
  have hpos := h.pos
  omega

theorem unclosing_gap : Unclosing (t ++ (g ++ v)) ↔ Unclosing (t ++ v) := by
  rw [← staysOpen_one, staysOpen_append, staysOpen_paired hg, ← staysOpen_append, staysOpen_one]

theorem paired_gap : Paired (t ++ (g ++ v)) ↔ Paired (t ++ v) := by
  rw [paired_iff, paired_iff, staysOpen_one, staysOpen_one, unclosing_gap hg, surplus_append,
    surplus_append g, hg.even, Int.zero_add, surplus_append]

end

theorem paired_of_blank (hg : Blank g) : Paired g := by
  have hnested : Nested true g := nested_of_blank hg
  exact hnested.paired

/-- A bracket before `w` is closed nowhere, in `w` or behind the quote, whatever white space stands
before the quote. -/
theorem closing_gap (hq : Foreign q) (w v : Text) :
    (∀ g, Blank g → Unclosing (w ++ (g ++ q :: v))) ∨
      (∃ args rest, w = args ++ ')' :: rest ∧ Paired args) ∨
      ∃ y rest, v = y ++ ')' :: rest ∧ ∀ g, Blank g → Paired (w ++ (g ++ q :: y)) := by
  cases hclose : bracketed? 1 (w ++ q :: v) with
  | none =>
    refine .inl fun g hg => ?_
    rw [unclosing_gap (paired_of_blank hg)]
    exact bracketed?_eq_none.1 hclose
  | some x =>
    obtain ⟨args, rest⟩ := x
    obtain ⟨htext, hargs⟩ := bracketed?_eq_some.1 hclose
    have hbracket : ')' ∉ [q] := fun hmem => hq.ne (by decide) (List.mem_singleton.1 hmem).symm
    rcases append_eq_of_notMem_middle hbracket htext with ⟨y, rfl, -⟩ | ⟨y, rfl, rfl⟩
    · exact .inr (.inl ⟨args, y, rfl, hargs⟩)
    · refine .inr (.inr ⟨y, rest, rfl, fun g hg => ?_⟩)
      rw [paired_gap (paired_of_blank hg)]
      exact hargs

/-! ## Arguments -/

/-- One more character makes a piece blank in two lists, or in neither. -/
theorem map_isBlank_consPiece (c : Char) {pieces pieces' : List Text}
    (h : pieces.map isBlank = pieces'.map isBlank) :
    (consPiece c pieces).map isBlank = (consPiece c pieces').map isBlank := by
  cases pieces with
  | nil =>
    obtain rfl := List.map_eq_nil_iff.1 h.symm
    rfl
  | cons piece pieces =>
    cases pieces' with
    | nil => cases h
    | cons piece' pieces' =>
      obtain ⟨hpiece, hpieces⟩ := List.cons.inj h
      have hcons : isBlank (c :: piece) = isBlank (c :: piece') := congrArg (isSpace c && ·) hpiece
      exact congrArg₂ List.cons hcons hpieces

section
variable (hquote : q ∈ programQuotes)
include hquote

/-- The piece with the quote in it is not blank. -/
theorem map_isBlank_quote (hg : Blank g) (depth : Nat) (v : Text) :
    (argumentPieces depth (g ++ q :: v)).map isBlank =
      (argumentPieces depth (q :: v)).map isBlank := by
  have hplain : ∀ q ∈ programQuotes, isPlain false q = true := by decide
  have hsolid := (foreign_quote q hquote).space
  have hquoted := argumentPieces_append (nested_plain (s := [q]) (by simpa using hplain q hquote))
    depth (fun h => Bool.noConfusion h) v
  obtain ⟨piece, pieces, hpieces⟩ : ∃ piece pieces,
      argumentPieces depth (q :: v) = (q :: piece) :: pieces := by
    rw [List.singleton_append] at hquoted
    rw [hquoted]
    cases argumentPieces depth v with
    | nil => exact ⟨[], [], rfl⟩
    | cons piece pieces => exact ⟨piece, pieces, rfl⟩
  have hnested : Nested false g := nested_of_blank hg
  rw [argumentPieces_append hnested depth (fun h => Bool.noConfusion h), hpieces, foldr_consPiece]
  simp [isBlank, hsolid]

variable (hg : Blank g) (hg' : Blank g')
include hg hg'

theorem map_isBlank_gap (depth : Nat) (t v : Text) :
    (argumentPieces depth (t ++ (g ++ q :: v))).map isBlank =
      (argumentPieces depth (t ++ (g' ++ q :: v))).map isBlank := by
  induction t generalizing depth with
  | nil =>
    exact (map_isBlank_quote hquote hg depth v).trans (map_isBlank_quote hquote hg' depth v).symm
  | cons c t ih =>
    rw [List.cons_append, List.cons_append, argumentPieces, argumentPieces]
    split
    · exact map_isBlank_consPiece c (ih (depth + 1))
    · split
      · exact map_isBlank_consPiece c (ih (depth - 1))
      · split
        · rw [List.map_cons, List.map_cons, ih 0]
        · exact map_isBlank_consPiece c (ih depth)

theorem countArguments_gap (t v : Text) :
    countArguments (t ++ (g ++ q :: v)) = countArguments (t ++ (g' ++ q :: v)) := by
  have hcount : ∀ s, countArguments s = ((argumentPieces 0 s).map isBlank).countP (!·) := by
    intro s
    rw [List.countP_map]
    rfl
  rw [hcount, hcount, map_isBlank_gap hquote hg hg']

end

/-! ## Calls -/

theorem Foreign.not_namePart (hq : Foreign q) : isNamePart q = false := by
  rw [isNamePart, hq.word, Bool.false_or]
  exact beq_false_of_ne (hq.ne (by decide))

section
variable {call : Text} {before : Option Char} {w : Text} (hcall : CallName call)
include hcall

/-- A search for calls passes over what holds no part of a name. -/
theorem argumentsFrom_pass (hw : ∀ c ∈ w, isNamePart c = false) (before : Option Char) (v : Text) :
    argumentsFrom call before (w ++ v) = argumentsFrom call (w.getLast?.or before) v := by
  induction w generalizing before with
  | nil => rfl
  | cons c w ih =>
    obtain ⟨hc, hw⟩ := List.forall_mem_cons.1 hw
    have hnone : ∀ inner, ¬ Calls call before (c :: (w ++ v)) inner := by
      intro inner h
      obtain ⟨x, rest, htext, hx⟩ := Calls.head hcall h
      obtain ⟨rfl, -⟩ := List.cons.inj htext
      rw [hc] at hx
      cases hx
    rw [List.cons_append, argumentsFrom_none hcall hnone, ih hw, getLast?_cons_or]

/-- A call that starts before a quote has its bracket before the white space in front of the
quote. -/
theorem Calls.before_gap (hq : Foreign q) (hg : Blank g) {inner : Text}
    (h : Calls call before (t ++ (g ++ q :: v)) inner) :
    ∃ w, Calls call before t w ∧ inner = w ++ (g ++ q :: v) := by
  obtain ⟨hbefore, gap, hgap, htext⟩ := h
  have hname : q ∉ call := by
    intro hmem
    have hpart := hcall.2 q hmem
    rw [hq.not_namePart] at hpart
    cases hpart
  have hnotMem : q ∉ call ++ (gap ++ ['(']) := by
    simp only [List.mem_append, List.mem_singleton, not_or]
    exact ⟨hname, hq.notMem_blank hgap, hq.ne (by decide)⟩
  have hbracket : '(' ∉ g := fun hmem => absurd (hg _ hmem) (by decide)
  have hhead : (call ++ (gap ++ ['('])) ++ inner = (t ++ g) ++ q :: v := by
    rw [List.append_assoc t, htext]
    simp
  obtain ⟨u, hu, rfl⟩ := append_eq_of_notMem_left hnotMem hhead
  have hsplit : t ++ g = (call ++ gap) ++ '(' :: u := by
    rw [hu]
    simp
  obtain ⟨w, rfl, rfl⟩ := append_eq_of_notMem_right hbracket hsplit
  exact ⟨w, ⟨hbefore, gap, hgap, by simp⟩, by simp⟩

/-- No call starts in white space or with a quote. -/
theorem argumentsFrom_quote (hq : Foreign q) (hg : Blank g) (before : Option Char) (v : Text) :
    argumentsFrom call before (g ++ q :: v) = argumentsFrom call (some q) v := by
  have hparts : ∀ c ∈ g ++ [q], isNamePart c = false := by
    simp only [List.forall_mem_append, List.forall_mem_singleton]
    exact ⟨fun c hc => isNamePart_of_isSpace (hg c hc), hq.not_namePart⟩
  rw [List.append_cons, argumentsFrom_pass hcall hparts, List.getLast?_concat, Option.some_or]

/-- A call that starts before a quote and is closed behind it. -/
theorem argumentsFrom_around (hw : Calls call before t w) {y : Text}
    (hargs : Paired (w ++ (g ++ q :: y))) (v : Text) :
    argumentsFrom call before (t ++ (g ++ q :: (y ++ ')' :: v))) =
      (w ++ (g ++ q :: y)) :: argumentsFrom call (some ')') v := by
  rw [← argumentsFrom_closed hcall (hw.append (g ++ q :: y)) hargs]
  simp

/-- The same calls are counted with the same numbers of arguments, whatever white space stands
before a quote. -/
theorem map_countArguments_gap (hquote : q ∈ programQuotes) (hg : Blank g) (hg' : Blank g')
    (before : Option Char) (t v : Text) :
    (argumentsFrom call before (t ++ (g ++ q :: v))).map countArguments =
      (argumentsFrom call before (t ++ (g' ++ q :: v))).map countArguments := by
  have hq := foreign_quote q hquote
  -- Behind a closed call the search goes on with what is left of the text before the quote.
  induction hlength : t.length using Nat.strong_induction_on generalizing before t with
  | _ n ih =>
    subst hlength
    by_cases hstart : ∃ w, Calls call before t w
    · obtain ⟨w, hw⟩ := hstart
      rcases closing_gap hq w v with hopen | ⟨args, rest, rfl, hargs⟩ | ⟨y, rest, rfl, hargs⟩
      · rw [argumentsFrom_unclosed hcall (hw.append _) (hopen g hg),
          argumentsFrom_unclosed hcall (hw.append _) (hopen g' hg')]
      · -- The call is closed before the white space.
        obtain ⟨s, rfl, hs⟩ := Calls.split hw
        have hshorter : rest.length < (s ++ [')'] ++ rest).length := by
          simp only [List.length_append, List.length_singleton]
          omega
        rw [List.append_assoc (s ++ [')']), List.append_assoc (s ++ [')']),
          argumentsFrom_closed hcall hs hargs, argumentsFrom_closed hcall hs hargs, List.map_cons,
          List.map_cons, ih rest.length hshorter _ rest rfl]
      · rw [argumentsFrom_around hcall hw (hargs g hg),
          argumentsFrom_around hcall hw (hargs g' hg'), List.map_cons, List.map_cons,
          countArguments_gap hquote hg hg']
    · have hnone : ∀ {g : Text}, Blank g →
          ∀ inner, ¬ Calls call before (t ++ (g ++ q :: v)) inner :=
        fun hg inner h => hstart ((Calls.before_gap hcall hq hg h).imp fun _ hw => hw.1)
      cases t with
      | nil =>
        exact congrArg _ ((argumentsFrom_quote hcall hq hg before v).trans
          (argumentsFrom_quote hcall hq hg' before v).symm)
      | cons c t =>
        have hstep : ∀ {g : Text}, Blank g → argumentsFrom call before (c :: t ++ (g ++ q :: v)) =
            argumentsFrom call (some c) (t ++ (g ++ q :: v)) :=
          fun hg => argumentsFrom_none hcall (hnone hg)
        rw [hstep hg, hstep hg', ih t.length (Nat.lt_succ_self _) _ t rfl]

end

theorem checkCalls_gap (hquote : q ∈ programQuotes) (hg : Blank g) (hg' : Blank g') (t v : Text) :
    checkCalls (t ++ (g ++ q :: v)) = checkCalls (t ++ (g' ++ q :: v)) := by
  unfold checkCalls
  refine List.flatMap_congr fun signature hsignature => ?_
  have hcall := callName_signatures signature hsignature
  have hcounts : ∀ s, ((callArguments signature.call s).filterMap fun args =>
      signature.check (countArguments args)) =
        ((argumentsFrom signature.call none s).map countArguments).filterMap signature.check := by
    intro s
    rw [List.filterMap_map]
    rfl
  rw [hcounts, hcounts, map_countArguments_gap hcall hquote hg hg']

end BlockSafe
