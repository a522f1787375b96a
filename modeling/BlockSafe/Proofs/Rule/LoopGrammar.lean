import BlockSafe.Proofs.Rule.Sites
import BlockSafe.Proofs.Text.Pieces
import BlockSafe.Proofs.Text.Takes

/-!
# The grammar of counting loops

A loop header passes iff it has the word `of` or is made of three clauses: one that sets a variable
to zero (`Initializes`), one that compares it with a bound (`Compares`) and one that adds one to it
(`Increments`).  Each reader of a clause accepts its part of this grammar and nothing else
(`loopVariable?_eq_some`, `isLoopCondition_iff`, `isLoopIncrement_iff`), and what is reported of a
header names the clauses that are not in it (`for_header_grammar`).
-/

namespace BlockSafe

open Pattern Text

/-! ## Clauses -/

/-- The clause sets the variable `name` to zero. -/
def Initializes (name clause : Text) : Prop :=
  IsIdent name ∧ ∃ gap left right, gap ≠ [] ∧ Blank gap ∧ Blank left ∧ Blank right ∧
    clause = "let".toList ++ (gap ++ (name ++ (left ++ "=".toList ++ (right ++ "0".toList))))

/-- The clause compares `name` with a bound on one line. -/
def Compares (name clause : Text) : Prop :=
  ∃ sign ∈ texts ["<", "<="], ∃ left right bound, Blank left ∧ Blank right ∧ bound ≠ [] ∧
    '\n' ∉ bound ∧ clause = name ++ (left ++ (sign ++ (right ++ bound)))

/-- The clause adds one to `name`. -/
def Increments (name clause : Text) : Prop :=
  clause = name ++ "++".toList ∨ clause = "++".toList ++ name

/-! ## Readers -/

/-- A text with white space in front starts with something outside a class without white space, if
the text does. -/
theorem head_blank_append {p : Char → Bool} (hp : ∀ c, isSpace c = true → p c = false) {w r : Text}
    (hw : Blank w) (hr : ∀ c ∈ r.head?, p c = false) : ∀ c ∈ (w ++ r).head?, p c = false := by
  cases w with
  | nil => exact hr
  | cons d w =>
    rintro c hc
    obtain rfl : d = c := Option.some.inj hc
    exact hp d (hw d List.mem_cons_self)

theorem afterGap?_eq_some {s r : Text} : afterGap? s = some r ↔
    ∃ w, w ≠ [] ∧ Blank w ∧ (∀ c ∈ r.head?, isSpace c = false) ∧ s = w ++ r := by
  constructor
  · intro h
    cases s with
    | nil => cases h
    | cons c s =>
      rw [afterGap?] at h
      split at h
      · next hc =>
        obtain ⟨w, hw, hr, rfl⟩ := trimStart_eq_iff.1 (Option.some.inj h)
        exact ⟨c :: w, List.cons_ne_nil c w, List.forall_mem_cons.2 ⟨hc, hw⟩, hr, rfl⟩
      · cases h
  · rintro ⟨w, hne, hw, hr, rfl⟩
    obtain ⟨c, w, rfl⟩ := List.exists_cons_of_ne_nil hne
    obtain ⟨hc, hw⟩ := List.forall_mem_cons.1 hw
    rw [List.cons_append, afterGap?, if_pos hc, trimStart_eq_iff.2 ⟨w, hw, hr, rfl⟩]

/-- An identifier is read to its end. -/
theorem identAt?_eq_some {s name r : Text} : identAt? s = some (name, r) ↔
    IsIdent name ∧ (∀ c ∈ r.head?, isIdentPart c = false) ∧ s = name ++ r := by
  constructor
  · intro h
    cases s with
    | nil => cases h
    | cons c s =>
      rw [identAt?] at h
      split at h
      · next hc =>
        obtain ⟨rfl, rfl⟩ := Prod.mk.inj (Option.some.inj h)
        have hstop := dropWhile_eq_iff.1 (rfl : s.dropWhile isIdentPart = s.dropWhile isIdentPart)
        obtain ⟨-, -, hrest, -⟩ := hstop
        refine ⟨⟨c, _, rfl, hc, fun d hd => List.mem_takeWhile_imp hd⟩, hrest, ?_⟩
        rw [List.cons_append, List.takeWhile_append_dropWhile]
      · cases h
  · rintro ⟨⟨c, name, rfl, hc, hname⟩, hr, rfl⟩
    have hdrop : (name ++ r).dropWhile isIdentPart = r := dropWhile_eq_iff.2 ⟨name, hname, hr, rfl⟩
    rw [List.cons_append, identAt?, if_pos hc, takeWhile_eq rfl hdrop, hdrop]

theorem head_isIdent {name : Text} (h : IsIdent name) (r : Text) :
    ∀ c ∈ (name ++ r).head?, isSpace c = false := by
  intro c hc
  have hpart := h.parts
  obtain ⟨d, rest, rfl, -, -⟩ := h
  obtain rfl : d = c := Option.some.inj hc
  rw [Bool.eq_false_iff]
  intro hspace
  have hnot := isIdentPart_of_isSpace hspace
  rw [hpart d List.mem_cons_self] at hnot
  cases hnot

/-- The variable of an initializer is read iff the clause sets it to zero. -/
theorem loopVariable?_eq_some {clause name : Text} :
    loopVariable? clause = some name ↔ Initializes name clause := by
  unfold loopVariable?
  simp only [Option.bind_eq_bind, Option.bind_eq_some_iff, after?_eq_some, afterGap?_eq_some,
    Prod.exists, identAt?_eq_some]
  constructor
  · rintro ⟨_, rfl, _, ⟨gap, hne, hgap, -, rfl⟩, ident, rest, ⟨hident, -, rfl⟩, zero, hzero, h⟩
    split at h
    · next hright =>
      obtain rfl := Option.some.inj h
      obtain ⟨left, hleft, -, rfl⟩ := trimStart_eq_iff.1 hzero
      obtain ⟨right, hrightBlank, -, rfl⟩ := trimStart_eq_iff.1 hright
      refine ⟨hident, gap, left, right, hne, hgap, hleft, hrightBlank, ?_⟩
      simp only [List.append_assoc]
      rfl
    · cases h
  · rintro ⟨hname, gap, left, right, hne, hgap, hleft, hright, rfl⟩
    have hzero : trimStart (right ++ "0".toList) = ['0'] :=
      trimStart_eq_iff.2 ⟨right, hright, by decide, rfl⟩
    have hsign : trimStart (left ++ "=".toList ++ (right ++ "0".toList)) =
        "=".toList ++ (right ++ "0".toList) :=
      trimStart_eq_iff.2 ⟨left, hleft, by simp; decide, List.append_assoc _ _ _⟩
    refine ⟨_, rfl, _, ⟨gap, hne, hgap, head_isIdent hname _, rfl⟩, name, _, ⟨hname, ?_, rfl⟩, _,
      hsign, ?_⟩
    · rw [List.append_assoc]
      exact head_blank_append (fun c => isIdentPart_of_isSpace) hleft (by simp; decide)
    · rw [if_pos hzero]

/-- A bound is what follows the white space, if the text does not end in white space. -/
theorem isLoopBound_iff {s : Text} (hlast : ∀ c ∈ s.getLast?, isSpace c = false) :
    isLoopBound s = true ↔
      ∃ right bound, Blank right ∧ bound ≠ [] ∧ '\n' ∉ bound ∧ s = right ++ bound := by
  have hbound : isLoopBound s = true ↔ trimStart s ≠ [] ∧ '\n' ∉ trimStart s := by
    simp [isLoopBound, List.forall_mem_ne']
  rw [hbound]
  obtain ⟨w, hw, -, hs⟩ := trimStart_eq_iff.1 (rfl : trimStart s = trimStart s)
  constructor
  · rintro ⟨hne, hline⟩
    exact ⟨w, trimStart s, hw, hne, hline, hs⟩
  · rintro ⟨right, bound, hright, hne, hline, rfl⟩
    -- The bound may start with white space, but ends with something else.
    have hdrop : trimStart (right ++ bound) = trimStart bound := List.dropWhile_append_of_pos hright
    rw [hdrop]
    constructor
    · intro hnil
      have hblank := List.dropWhile_eq_nil_iff.1 hnil
      have hsolid := hlast (bound.getLast hne) (by
        rw [Option.mem_def, List.getLast?_append_of_ne_nil _ hne,
          List.getLast?_eq_some_getLast hne])
      rw [hblank _ (List.getLast_mem hne)] at hsolid
      cases hsolid
    · exact fun hmem => hline ((List.dropWhile_suffix _).mem hmem)

/-- A condition is accepted iff a sign stands behind the variable and a bound behind that. -/
theorem isLoopCondition_split {name clause : Text} : isLoopCondition name clause = true ↔
    ∃ rest, clause = name ++ rest ∧
      ∃ sign ∈ texts ["<", "<="], ∃ s, trimStart rest = sign ++ s ∧ isLoopBound s = true := by
  unfold isLoopCondition
  cases hname : after? name clause with
  | none =>
    have hno : ∀ rest, clause ≠ name ++ rest := by
      intro rest hrest
      rw [after?_eq_some.2 hrest] at hname
      cases hname
    simp [hno]
  | some rest =>
    obtain rfl := after?_eq_some.1 hname
    simp [texts, Option.any_eq_true, after?_eq_some]

theorem head_sign {sign : Text} (h : sign ∈ texts ["<", "<="]) (s : Text) :
    ∀ c ∈ (sign ++ s).head?, isSpace c = false := by
  have hsolid : ∀ sign ∈ texts ["<", "<="], ∃ c t, sign = c :: t ∧ isSpace c = false := by
    simp [texts]
    decide
  obtain ⟨c, t, rfl, hc⟩ := hsolid sign h
  rintro d hd
  obtain rfl : c = d := Option.some.inj hd
  exact hc

/-- A condition is accepted iff it compares the variable with a bound, if the clause does not end in
white space. -/
theorem isLoopCondition_iff {name clause : Text}
    (hlast : ∀ c ∈ clause.getLast?, isSpace c = false) :
    isLoopCondition name clause = true ↔ Compares name clause := by
  rw [isLoopCondition_split]
  -- What follows a sign ends where the clause ends.
  have hends : ∀ {left sign s : Text}, clause = name ++ (left ++ (sign ++ s)) →
      ∀ c ∈ s.getLast?, isSpace c = false := by
    rintro left sign s rfl c hc
    exact hlast c (List.mem_getLast?_append_of_mem_getLast?
      (List.mem_getLast?_append_of_mem_getLast? (List.mem_getLast?_append_of_mem_getLast? hc)))
  constructor
  · rintro ⟨rest, hclause, sign, hsign, s, hs, hbound⟩
    obtain ⟨left, hleft, -, rfl⟩ := trimStart_eq_iff.1 hs
    obtain ⟨right, bound, hright, hne, hline, rfl⟩ := (isLoopBound_iff (hends hclause)).1 hbound
    exact ⟨sign, hsign, left, right, bound, hleft, hright, hne, hline, hclause⟩
  · rintro ⟨sign, hsign, left, right, bound, hleft, hright, hne, hline, hclause⟩
    exact ⟨_, hclause, sign, hsign, right ++ bound,
      trimStart_eq_iff.2 ⟨left, hleft, head_sign hsign _, rfl⟩,
      (isLoopBound_iff (hends hclause)).2 ⟨right, bound, hright, hne, hline, rfl⟩⟩

theorem isLoopIncrement_iff {name clause : Text} :
    isLoopIncrement name clause = true ↔ Increments name clause := by
  unfold isLoopIncrement Increments
  rw [Bool.or_eq_true, beq_iff_eq, beq_iff_eq]

/-! ## Headers -/

/-- A text without a closing bracket is the only loop header of the program it makes. -/
theorem forHeaders_single {h : Text} (hh : ')' ∉ h) :
    forHeaders ("for (".toList ++ (h ++ ")".toList)) = [h] := by
  have hstop : (h ++ [')']).dropWhile (· != ')') = [')'] := by
    refine dropWhile_eq_iff.2 ⟨h, fun c hc => ?_, by decide, rfl⟩
    rw [bne_iff_ne]
    rintro rfl
    exact hh hc
  have hread : forHeaderAt? ⟨none, 'f' :: ("or (".toList ++ (h ++ [')']) ++ [])⟩ =
      some (h, []) := by
    have hopen : trimStart (" (".toList ++ (h ++ [')'])) = ['('] ++ (h ++ [')']) := rfl
    have hfor : after? "for" ('f' :: ("or (".toList ++ (h ++ [')']))) =
        some (" (".toList ++ (h ++ [')'])) := rfl
    have hinner : after? ['('] (['('] ++ (h ++ [')'])) = some (h ++ [')']) := rfl
    rw [List.append_nil, forHeaderAt?_eq]
    dsimp only
    rw [hfor, Option.bind_some, hopen, hinner, Option.bind_some, hstop, takeWhile_eq rfl hstop]
    rfl
  have hfound := findAllFrom_found hread
  rw [List.append_nil] at hfound
  exact hfound

/-- The word that marks a loop over a list is looked for in the whole header. -/
theorem occurs_of (h : Text) :
    (word "of").occurs (trim h) = true ↔ HasWord "of" h := by
  rw [occurs_word (by decide) (by decide)]
  exact stands_trim (by decide) (by decide) (by decide) h

theorem checkForHeader_list {h : Text} (hof : HasWord "of" h) : checkForHeader h = [] := by
  rw [checkForHeader, if_pos ((occurs_of h).2 hof)]

section
variable {h : Text} (hof : ¬ HasWord "of" h)
include hof

theorem checkForHeader_shape (hthree : (split ';' h).length ≠ 3) :
    checkForHeader h = [.forShape] := by
  rw [checkForHeader, if_neg (mt (occurs_of h).1 hof), map_trim_split (by decide)]
  generalize split ';' h = clauses at hthree ⊢
  rcases clauses with _ | ⟨a, _ | ⟨b, _ | ⟨c, _ | ⟨d, rest⟩⟩⟩⟩
  · rfl
  · rfl
  · rfl
  · exact absurd rfl hthree
  · rfl

theorem checkForHeader_clauses {a b c : Text} (hsplit : split ';' h = [a, b, c]) :
    checkForHeader h = checkForClauses (trim a) (trim b) (trim c) := by
  rw [checkForHeader, if_neg (mt (occurs_of h).1 hof), map_trim_split (by decide), hsplit]
  rfl

end

section
variable {initializer condition increment name : Text}

theorem checkForClauses_initializer (h : ∀ name, ¬ Initializes name initializer) :
    checkForClauses initializer condition increment = [.forInitializer] := by
  unfold checkForClauses
  cases hname : loopVariable? initializer with
  | none => rfl
  | some name => exact absurd (loopVariable?_eq_some.1 hname) (h name)

/-- Behind an initializer, the violations name the other clauses that are wrong, in order. -/
theorem checkForClauses_named (hlast : ∀ c ∈ condition.getLast?, isSpace c = false)
    (h : Initializes name initializer) (increment : Text) :
    let found := checkForClauses initializer condition increment
    found.Sublist [.forCondition, .forIncrement] ∧
      (.forCondition ∈ found ↔ ¬ Compares name condition) ∧
      (.forIncrement ∈ found ↔ ¬ Increments name increment) := by
  have hclauses : checkForClauses initializer condition increment =
      (if isLoopCondition name condition then [] else [.forCondition]) ++
        if isLoopIncrement name increment then [] else [.forIncrement] := by
    rw [checkForClauses, loopVariable?_eq_some.2 h]
  simp only [hclauses, ← isLoopCondition_iff hlast, ← isLoopIncrement_iff]
  cases isLoopCondition name condition with
  | true =>
    cases isLoopIncrement name increment with
    | true => decide
    | false => decide
  | false =>
    cases isLoopIncrement name increment with
    | true => decide
    | false => decide

theorem checkForClauses_eq_nil (hlast : ∀ c ∈ condition.getLast?, isSpace c = false) :
    checkForClauses initializer condition increment = [] ↔
      ∃ name, Initializes name initializer ∧ Compares name condition ∧
        Increments name increment := by
  constructor
  · intro hnil
    by_cases h : ∃ name, Initializes name initializer
    · obtain ⟨name, hname⟩ := h
      obtain ⟨-, hcondition, hincrement⟩ := checkForClauses_named hlast hname increment
      rw [hnil] at hcondition hincrement
      exact ⟨name, hname, not_not.1 fun hno => List.not_mem_nil (hcondition.2 hno),
        not_not.1 fun hno => List.not_mem_nil (hincrement.2 hno)⟩
    · rw [checkForClauses_initializer fun name hname => h ⟨name, hname⟩] at hnil
      cases hnil
  · rintro ⟨name, hname, hcondition, hincrement⟩
    obtain ⟨hsub, hno, hno'⟩ := checkForClauses_named hlast hname increment
    refine List.eq_nil_iff_forall_not_mem.2 fun x hx => ?_
    rcases List.mem_pair.1 (hsub.mem hx) with rfl | rfl
    · exact hno.1 hx hcondition
    · exact hno'.1 hx hincrement

end

/-- **A loop header passes iff it is in the grammar.**  Nothing is reported of a header without
closing brackets iff it has the word `of`, or its three clauses set a variable to zero, compare it
with a bound and add one to it.  Otherwise its shape is reported if it does not have three clauses;
its first clause, if that sets no variable to zero; and else those of the other two clauses, in
order, that are not about that variable. -/
theorem for_header_grammar {h : Text} (hh : ')' ∉ h) :
    let found := checkForLoops ("for (".toList ++ (h ++ ")".toList))
    (found = [] ↔ HasWord "of" h ∨ ∃ name a b c, split ';' h = [a, b, c] ∧
      Initializes name (trim a) ∧ Compares name (trim b) ∧ Increments name (trim c)) ∧
    (¬ HasWord "of" h →
      ((split ';' h).length ≠ 3 → found = [.forShape]) ∧
      ∀ a b c, split ';' h = [a, b, c] →
        ((∀ name, ¬ Initializes name (trim a)) → found = [.forInitializer]) ∧
        ∀ name, Initializes name (trim a) →
          found.Sublist [.forCondition, .forIncrement] ∧
            (.forCondition ∈ found ↔ ¬ Compares name (trim b)) ∧
            (.forIncrement ∈ found ↔ ¬ Increments name (trim c))) := by
  have hfound : checkForLoops ("for (".toList ++ (h ++ ")".toList)) = checkForHeader h := by
    rw [checkForLoops, forHeaders_single hh, List.flatMap_singleton]
  have hlast : ∀ b, ∀ c ∈ (trim b).getLast?, isSpace c = false := last_trimBoth isSpace
  simp only [hfound]
  refine ⟨?iff, fun hof => ⟨checkForHeader_shape hof, fun a b c hsplit => ?_⟩⟩
  case iff =>
    by_cases hof : HasWord "of" h
    · simp only [checkForHeader_list hof, hof, true_or]
    · simp only [hof, false_or]
      by_cases hthree : (split ';' h).length = 3
      · obtain ⟨a, b, c, hsplit⟩ := List.length_eq_three.1 hthree
        rw [checkForHeader_clauses hof hsplit, checkForClauses_eq_nil (hlast b)]
        constructor
        · rintro ⟨name, hclauses⟩
          exact ⟨name, a, b, c, hsplit, hclauses⟩
        · rintro ⟨name, a', b', c', hsplit', hclauses⟩
          rw [hsplit] at hsplit'
          cases hsplit'
          exact ⟨name, hclauses⟩
      · rw [checkForHeader_shape hof hthree]
        simp only [List.cons_ne_nil, false_iff]
        rintro ⟨name, a, b, c, hsplit, -⟩
        exact hthree (congrArg List.length hsplit)
  rw [checkForHeader_clauses hof hsplit]
  exact ⟨checkForClauses_initializer, fun name hname => checkForClauses_named (hlast b) hname _⟩

/-- Both allowed variations at once. -/
theorem for_header_grammar_counting :
    let h : Text := "let i = 0; i <= 9; ++i"
    ')' ∉ h ∧ checkForLoops ("for (".toList ++ (h ++ ")".toList)) = [] :=
  ⟨by decide, (for_header_grammar (by decide)).1.2 <| .inr
    ⟨"i", "let i = 0", " i <= 9", " ++i", by decide,
      ⟨⟨'i', [], rfl, by decide, by decide⟩, " ", " ", " ", by decide, by decide, by decide,
        by decide, by decide⟩,
      ⟨"<=", by decide, " ", " ", "9", by decide, by decide, by decide, by decide, by decide⟩,
      .inr (by decide)⟩⟩

end BlockSafe
