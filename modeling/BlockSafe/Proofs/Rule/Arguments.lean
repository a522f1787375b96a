import BlockSafe.Proofs.Rule.CallSites

/-!
# Arguments

Two depths are kept over the arguments of a call: that of round brackets, to find where the call
ends, and that of all brackets, to find the commas between arguments.  On a text whose brackets of
each kind are properly nested (`Nested`) both see the same structure:

    Nested commas s → Paired s                                      (Nested.paired)
    (∀ piece ∈ pieces, Nested false piece) → pieces ≠ [] →
      argumentPieces 0 (join [','] pieces) = pieces                 (argumentPieces_join)

So a call is read with the arguments that it was written with, blank ones apart
(`arguments_counted`).
-/

namespace BlockSafe

open Pattern Text

variable {commas : Bool} {s t : Text} {pieces : List Text}

/-! ## Nested brackets -/

/-- The brackets of one kind. -/
inductive Pairs : Char → Char → Prop
  | round : Pairs '(' ')'
  | square : Pairs '[' ']'
  | curly : Pairs '{' '}'

/-- The brackets of each kind are properly nested, and commas stand outside brackets only if
`commas` says so. -/
inductive Nested : Bool → Text → Prop
  | nil {commas : Bool} : Nested commas []
  | char {commas : Bool} {c : Char} {s : Text} : opensBracket c = false → closesBracket c = false →
      (c = ',' → commas = true) → Nested commas s → Nested commas (c :: s)
  | group {commas : Bool} {o c : Char} {s t : Text} : Pairs o c → Nested true s → Nested commas t →
      Nested commas (o :: (s ++ c :: t))

theorem Pairs.opens {o c : Char} (h : Pairs o c) : opensBracket o = true := by
  cases h <;> rfl

theorem Pairs.closes {o c : Char} (h : Pairs o c) :
    opensBracket c = false ∧ closesBracket c = true := by
  cases h <;> exact ⟨rfl, rfl⟩

theorem Nested.append (hs : Nested commas s) (ht : Nested commas t) : Nested commas (s ++ t) := by
  induction hs with
  | nil => exact ht
  | char hopen hclose hcomma _ ih => exact .char hopen hclose hcomma (ih ht)
  | group hpair hs _ _ ih =>
    rw [List.cons_append, List.append_assoc, List.cons_append]
    exact .group hpair hs (ih ht)

theorem Nested.weaken (h : Nested commas s) : Nested true s := by
  induction h with
  | nil => exact .nil
  | char hopen hclose _ _ ih => exact .char hopen hclose (fun _ => rfl) ih
  | group hpair _ _ ihs iht => exact .group hpair ihs iht

/-- A character outside brackets: neither an opening nor a closing one, and a comma only if
`commas` says so. -/
def isPlain (commas : Bool) (c : Char) : Bool :=
  !opensBracket c && !closesBracket c && (commas || c != ',')

theorem nested_plain (h : ∀ c ∈ s, isPlain commas c = true) : Nested commas s := by
  induction s with
  | nil => exact .nil
  | cons c s ih =>
    obtain ⟨hc, hs⟩ := List.forall_mem_cons.1 h
    simp only [isPlain, Bool.and_eq_true, Bool.not_eq_true', Bool.or_eq_true, bne_iff_ne] at hc
    obtain ⟨⟨hopen, hclose⟩, hcomma⟩ := hc
    exact .char hopen hclose (fun heq => hcomma.resolve_right (not_not_intro heq)) (ih hs)

/-- White space holds neither brackets nor commas. -/
theorem isPlain_of_isSpace {c : Char} (h : isSpace c = true) : isPlain commas c = true := by
  simp only [isPlain, opensBracket, closesBracket, Bool.and_eq_true, Bool.not_eq_true',
    Bool.or_eq_false_iff, Bool.or_eq_true, beq_eq_false_iff_ne, bne_iff_ne]
  refine ⟨⟨⟨⟨?_, ?_⟩, ?_⟩, ⟨?_, ?_⟩, ?_⟩, .inr ?_⟩
  all_goals exact ne_of_isSpace h (by decide)

theorem nested_of_blank (h : Blank s) : Nested commas s :=
  nested_plain fun c hc => isPlain_of_isSpace (h c hc)

/-! ## Round brackets -/

theorem not_round {c : Char} (hopen : opensBracket c = false) (hclose : closesBracket c = false) :
    c ≠ '(' ∧ c ≠ ')' := by
  refine ⟨?_, ?_⟩
  · rintro rfl
    cases hopen
  · rintro rfl
    cases hclose

/-- What is properly nested is so in its round brackets. -/
theorem Nested.paired (h : Nested commas s) : Paired s := by
  induction h with
  | nil => exact paired_nil
  | char hopen hclose _ _ ih =>
    obtain ⟨hleft, hright⟩ := not_round hopen hclose
    exact ih.cons hleft hright
  | group hpair _ _ ihs iht =>
    cases hpair with
    | round =>
      rw [List.append_cons, ← List.cons_append]
      exact ihs.enclose.append iht
    | square => exact (ihs.append (iht.cons (by decide) (by decide))).cons (by decide) (by decide)
    | curly => exact (ihs.append (iht.cons (by decide) (by decide))).cons (by decide) (by decide)

/-! ## Pieces -/

theorem foldr_consPiece (s piece : Text) (pieces : List Text) :
    s.foldr consPiece (piece :: pieces) = (s ++ piece) :: pieces := by
  induction s with
  | nil => rfl
  | cons c s ih =>
    rw [List.foldr_cons, ih]
    rfl

/-- A nested text goes to the front of the first piece, and leaves the depth as it was. -/
theorem argumentPieces_append (h : Nested commas s) (depth : Nat) (hdepth : commas = true → depth ≠ 0)
    (t : Text) : argumentPieces depth (s ++ t) = s.foldr consPiece (argumentPieces depth t) := by
  induction h generalizing depth t with
  | nil => rfl
  | char hopen hclose hcomma _ ih =>
    have hinner := fun h : _ ∧ depth = 0 => hdepth (hcomma h.1) h.2
    rw [List.cons_append, argumentPieces, if_neg (by simp [hopen]), if_neg (by simp [hclose]),
      if_neg hinner, ih depth hdepth, List.foldr_cons]
  | group hpair _ _ ihs iht =>
    rw [List.cons_append, List.append_assoc, List.cons_append, argumentPieces, if_pos hpair.opens,
      ihs (depth + 1) (fun _ => Nat.succ_ne_zero depth), argumentPieces,
      if_neg (by simp [hpair.closes.1]), if_pos hpair.closes.2, Nat.add_sub_cancel,
      iht depth hdepth, List.foldr_cons, List.foldr_append, List.foldr_cons]

theorem argumentPieces_piece (h : Nested false s) (t : Text) :
    argumentPieces 0 (s ++ t) = s.foldr consPiece (argumentPieces 0 t) :=
  argumentPieces_append h 0 (fun h => Bool.noConfusion h) t

/-- The pieces between commas are the texts that were put together with commas. -/
theorem argumentPieces_join (h : ∀ piece ∈ pieces, Nested false piece) (hne : pieces ≠ []) :
    argumentPieces 0 (join [','] pieces) = pieces := by
  induction pieces with
  | nil => exact absurd rfl hne
  | cons piece pieces ih =>
    obtain ⟨hpiece, hpieces⟩ := List.forall_mem_cons.1 h
    cases pieces with
    | nil =>
      have hone := argumentPieces_piece hpiece []
      rw [List.append_nil, argumentPieces, foldr_consPiece, List.append_nil] at hone
      rw [join_singleton, hone]
    | cons next pieces =>
      rw [join_cons_cons, argumentPieces_piece hpiece, argumentPieces, if_neg (by decide),
        if_neg (by decide), if_pos ⟨rfl, rfl⟩, ih hpieces (List.cons_ne_nil _ _), foldr_consPiece,
        List.append_nil]

theorem nested_join (h : ∀ piece ∈ pieces, Nested false piece) :
    Nested true (join [','] pieces) := by
  induction pieces with
  | nil => exact .nil
  | cons piece pieces ih =>
    obtain ⟨hpiece, hpieces⟩ := List.forall_mem_cons.1 h
    cases pieces with
    | nil =>
      rw [join_singleton]
      exact hpiece.weaken
    | cons next pieces =>
      rw [join_cons_cons]
      exact hpiece.weaken.append (.char (by decide) (by decide) (fun _ => rfl) (ih hpieces))

theorem countArguments_join (h : ∀ piece ∈ pieces, Nested false piece) :
    countArguments (join [','] pieces) = (pieces.filter (!isBlank ·)).length := by
  cases pieces with
  | nil => rfl
  | cons piece pieces =>
    rw [countArguments, argumentPieces_join h (List.cons_ne_nil piece pieces),
      List.countP_eq_length_filter]

/-! ## Calls -/

theorem callArguments_call {call args : Text} (hcall : CallName call) (hargs : Paired args) :
    callArguments call (call ++ '(' :: (args ++ [')'])) = [args] := by
  have hopen : Calls call none (call ++ '(' :: args) args :=
    ⟨rfl, [], fun _ hc => absurd hc List.not_mem_nil, rfl⟩
  have hread := argumentsFrom_closed (v := []) hcall hopen hargs
  simp only [List.append_nil, List.append_assoc, List.cons_append] at hread
  exact hread

/-- Whether the violation is about the number of arguments of the block `call`. -/
def Violation.isArityOf (call : Text) : Violation → Bool
  | .arity name _ _ _ => name == call
  | _ => false

/-- What is reported of the calls of one block. -/
def Microbit.Signature.reports (signature : Microbit.Signature) (s : Text) : List Violation :=
  (callArguments signature.call s).filterMap fun args => signature.check (countArguments args)

theorem isArityOf_of_mem_reports {signature : Microbit.Signature} {violation : Violation}
    (h : violation ∈ signature.reports s) (call : Text) :
    violation.isArityOf call = (signature.call == call) := by
  obtain ⟨args, -, hcheck⟩ := List.mem_filterMap.1 h
  obtain ⟨-, rfl⟩ := check_eq_some.1 hcheck
  rfl

theorem filter_reports_other {call : Text} {signatures : List Microbit.Signature}
    (h : call ∉ signatures.map (·.call)) (s : Text) :
    (signatures.flatMap (·.reports s)).filter (Violation.isArityOf call) = [] := by
  refine List.filter_eq_nil_iff.2 fun violation hmem => ?_
  obtain ⟨other, hother, hreport⟩ := List.mem_flatMap.1 hmem
  rw [isArityOf_of_mem_reports hreport, beq_iff_eq]
  rintro rfl
  exact h (List.mem_map_of_mem hother)

/-- The calls of a block are reported by one entry of the table. -/
theorem filter_isArityOf {signature : Microbit.Signature} (h : signature ∈ Microbit.signatures)
    (s : Text) : (checkCalls s).filter (Violation.isArityOf signature.call) = signature.reports s := by
  obtain ⟨l, r, hsplit⟩ := List.append_of_mem h
  have hnodup := names_signatures.2
  rw [hsplit, List.map_append, List.map_cons, List.perm_middle.nodup_iff, List.nodup_cons,
    List.mem_append, not_or] at hnodup
  obtain ⟨⟨hl, hr⟩, -⟩ := hnodup
  have hkeep : (signature.reports s).filter (Violation.isArityOf signature.call) =
      signature.reports s := by
    refine List.filter_eq_self.2 fun violation hmem => ?_
    rw [isArityOf_of_mem_reports hmem, beq_self_eq_true]
  calc (checkCalls s).filter (Violation.isArityOf signature.call)
      = ((l ++ signature :: r).flatMap (·.reports s)).filter
          (Violation.isArityOf signature.call) := by
        rw [← hsplit]
        rfl
    _ = signature.reports s := by
        rw [List.flatMap_append, List.flatMap_cons, List.filter_append, List.filter_append, hkeep,
          filter_reports_other hl, filter_reports_other hr, List.nil_append, List.append_nil]

/-- A call is read with the arguments that it was written with, and reported once if its block does
not take that many.  Blank arguments do not count. -/
theorem arguments_counted
    (h : ∀ piece ∈ pieces, isBlank piece = false → Nested false piece) :
    let number := (pieces.filter (!isBlank ·)).length
    countArguments (join [','] pieces) = number ∧
      ∀ signature ∈ Microbit.signatures,
        (checkCalls (signature.call ++ '(' :: (join [','] pieces ++ [')']))).filter
            (Violation.isArityOf signature.call) =
          if number < signature.least ∨ signature.most < number then
            [.arity signature.call signature.least signature.most number]
          else [] := by
  intro number
  have hnested : ∀ piece ∈ pieces, Nested false piece := by
    intro piece hpiece
    cases hblank : isBlank piece with
    | false => exact h piece hpiece hblank
    | true => exact nested_of_blank (List.all_eq_true.1 hblank)
  have hcount : countArguments (join [','] pieces) = number := countArguments_join hnested
  refine ⟨hcount, fun signature hsignature => ?_⟩
  have hcall := callName_signatures signature hsignature
  rw [filter_isArityOf hsignature, Microbit.Signature.reports,
    callArguments_call hcall (nested_join hnested).paired, List.filterMap_cons, List.filterMap_nil,
    hcount, Microbit.Signature.check]
  by_cases hrange : number < signature.least ∨ signature.most < number
  · rw [if_pos hrange, if_pos hrange]
  · rw [if_neg hrange, if_neg hrange]

/-- Two commas of a handler and a blank argument do not count. -/
theorem arguments_counted_handler :
    (∀ piece ∈ texts ["Button.A", " ", "() => { f([1, 2], 3); }"],
        isBlank piece = false → Nested false piece) ∧
      countArguments (join [','] (texts ["Button.A", " ", "() => { f([1, 2], 3); }"])) = 2 ∧
      (checkCalls ("basic.pause".toList ++ '(' ::
          (join [','] (texts ["Button.A", " ", "() => { f([1, 2], 3); }"]) ++ [')']))).filter
        (Violation.isArityOf "basic.pause") = [.arity "basic.pause" 1 1 2] := by
  have hplain : ∀ {commas : Bool} (s : Text), s.all (isPlain commas) = true → Nested commas s :=
    fun s hs => nested_plain (List.all_eq_true.1 hs)
  have hcall : Nested true " f([1, 2], 3); " :=
    (hplain " f" (by decide)).append
      (.group .round (.group .square (hplain "1, 2" (by decide)) (hplain ", 3" (by decide)))
        (hplain "; " (by decide)))
  have hhandler : Nested false "() => { f([1, 2], 3); }" :=
    .group .round .nil ((hplain " => " (by decide)).append (.group .curly hcall .nil))
  have hnested : ∀ piece ∈ texts ["Button.A", " ", "() => { f([1, 2], 3); }"],
      isBlank piece = false → Nested false piece := by
    simp only [texts, List.map_cons, List.map_nil, List.forall_mem_cons]
    exact ⟨fun _ => hplain _ (by decide), fun _ => hplain _ (by decide), fun _ => hhandler,
      fun _ hnone => absurd hnone List.not_mem_nil⟩
  have hmem : (⟨"basic.pause", 1, 1⟩ : Microbit.Signature) ∈ Microbit.signatures :=
    List.mem_map.2 ⟨("basic.pause", 1, 1), by decide +kernel, rfl⟩
  obtain ⟨hcount, hreport⟩ := arguments_counted hnested
  exact ⟨hnested, hcount, hreport _ hmem⟩

end BlockSafe
