import BlockSafe.Proofs.Rule.Brackets
import BlockSafe.Proofs.Rule.LoopGrammar

/-!
# Where loop headers are found

`Heads header v s` says that a loop header starts the text `s` and that `v` follows it.  Headers are
found from left to right, each one up to the first closing bracket:

    Headless u s → Heads header v s → forHeaders (u ++ s) = header :: forHeaders v
    Headless code []                → forHeaders code = []

No word needs to start where a header does, and a closing bracket within a header ends it.  So a
canonical loop passes unless its limit holds a closing bracket, which cuts the header in two clauses
(`loop_headers_reported`).
-/

namespace BlockSafe

open Pattern Text

/-! ## Headers -/

section
variable {u s header v : Text}

/-- A loop header starts the text `s`, and `v` follows it. -/
def Heads (header v s : Text) : Prop :=
  ')' ∉ header ∧ ∃ gap, Blank gap ∧ s = "for".toList ++ (gap ++ '(' :: (header ++ ')' :: v))

theorem forHeaderAt?_eq_some {before : Option Char} :
    forHeaderAt? ⟨before, s⟩ = some (header, v) ↔ Heads header v s := by
  simp only [forHeaderAt?_eq, Option.bind_eq_some_iff, Option.map_eq_some_iff, after?_eq_some,
    Prod.mk.injEq]
  constructor
  · rintro ⟨rest, rfl, inner, hopen, tail, hclose, rfl, rfl⟩
    obtain ⟨gap, hgap, -, rfl⟩ := trimStart_eq_iff.1 hopen
    have hinner : inner.takeWhile (· != ')') ++ [')'] ++ tail = inner := by
      rw [List.append_assoc, ← hclose, List.takeWhile_append_dropWhile]
    refine ⟨fun hmem => ?_, gap, hgap, ?_⟩
    · cases List.mem_takeWhile_imp hmem
    · rw [List.append_cons (inner.takeWhile _), hinner]
      rfl
  · rintro ⟨hfree, gap, hgap, rfl⟩
    have hclose : (header ++ ')' :: v).dropWhile (· != ')') = ')' :: v := by
      refine dropWhile_eq_iff.2 ⟨header, fun c hc => ?_, by simp, rfl⟩
      rw [bne_iff_ne]
      rintro rfl
      exact hfree hc
    refine ⟨_, rfl, header ++ ')' :: v, ?_, v, hclose, takeWhile_eq rfl hclose, rfl⟩
    exact trimStart_eq_iff.2 ⟨gap, hgap, by simp; decide, rfl⟩

/-- No loop header starts in `u`, where `s` follows. -/
def Headless (u s : Text) : Prop :=
  ∀ p q, u = p ++ q → q ≠ [] → ∀ header v, ¬ Heads header v (q ++ s)

theorem findAllFrom_forHeader (before : Option Char) (s : Text) :
    findAllFrom forHeaderAt? 0 before s = forHeaders s := by
  cases s with
  | nil => rfl
  | cons c s => rfl

theorem forHeaders_headless (hu : Headless u s) : forHeaders (u ++ s) = forHeaders s := by
  rw [← findAllFrom_forHeader none, findAllFrom_pass, findAllFrom_forHeader]
  intro p q hsplit hq
  rw [Option.eq_none_iff_forall_ne_some]
  exact fun (header, v) hread => hu p q hsplit hq header v (forHeaderAt?_eq_some.1 hread)

theorem forHeaders_heads (h : Heads header v s) : forHeaders s = header :: forHeaders v := by
  have hread : forHeaderAt? ⟨none, s⟩ = some (header, v) := forHeaderAt?_eq_some.2 h
  obtain ⟨-, gap, -, rfl⟩ := h
  have hsplit : "for".toList ++ (gap ++ '(' :: (header ++ ')' :: v)) =
      ("for".toList ++ (gap ++ '(' :: (header ++ [')']))) ++ v := by
    simp
  rw [hsplit] at hread ⊢
  have hne : "for".toList ++ (gap ++ '(' :: (header ++ [')'])) ≠ [] := by simp
  rw [← findAllFrom_forHeader none, findAllFrom_append hne hread, findAllFrom_forHeader]

theorem checkForLoops_headless (hu : Headless u s) :
    checkForLoops (u ++ s) = checkForLoops s := by
  rw [checkForLoops, forHeaders_headless hu, checkForLoops]

theorem checkForLoops_heads (h : Heads header v s) :
    checkForLoops s = checkForHeader header ++ checkForLoops v := by
  rw [checkForLoops, forHeaders_heads h, List.flatMap_cons, checkForLoops]

end

/-! ## Canonical loops -/

/-- A loop that counts up from zero to a limit. -/
structure CountingLoop where
  name : Text
  sign : Text
  bound : Text
  increment : Text
  isIdent : IsIdent name
  compares : sign ∈ texts ["<", "<="]
  oneClause : ';' ∉ bound
  oneLine : '\n' ∉ bound
  increments : Increments name increment

namespace CountingLoop

variable (loop : CountingLoop)

/-- The first clause. -/
def initializer : Text := "let ".toList ++ (loop.name ++ " = 0".toList)

theorem initializer_eq : loop.initializer = "let ".toList ++ (loop.name ++ " = 0".toList) := rfl

/-- The second clause, with the limit `bound`. -/
def condition (bound : Text) : Text :=
  ' ' :: (loop.name ++ ' ' :: (loop.sign ++ ' ' :: bound))

/-- What follows the limit in the header. -/
def rest : Text := ';' :: ' ' :: loop.increment

/-- The header. -/
def header : Text := loop.initializer ++ ';' :: (loop.condition loop.bound ++ loop.rest)

/-- The loop, without its body. -/
def text : Text := "for (".toList ++ (loop.header ++ ")".toList)

theorem text_eq : loop.text = "for (".toList ++ (loop.header ++ ")".toList) := rfl

/-! ### Characters -/

theorem notMem_name {c : Char} (hc : isIdentPart c = false) : c ∉ loop.name := by
  intro hmem
  rw [loop.isIdent.parts c hmem] at hc
  cases hc

theorem mem_increment {c : Char} (hc : c ∈ loop.increment) : c ∈ loop.name ∨ c = '+' := by
  rcases loop.increments with h | h
  · rw [h] at hc
    simpa using hc
  · rw [h] at hc
    simpa [or_comm] using hc

theorem sign_cases : loop.sign = "<".toList ∨ loop.sign = "<=".toList := by
  have h := loop.compares
  simpa [texts] using h

/-- What ends a clause or a header stands in no clause, except in the limit. -/
theorem notMem_clauses {c : Char} (hc : c = ';' ∨ c = ')') : c ∉ loop.initializer ∧
    c ∉ ' ' :: loop.increment ∧ ∀ bound, c ∉ bound → c ∉ loop.condition bound := by
  have hpart : isIdentPart c = false ∧ c ∉ "let =0<+".toList := by
    rcases hc with rfl | rfl
    · decide
    · decide
  have hname := loop.notMem_name hpart.1
  have hmarks := hpart.2
  simp only [String.reduceToList, List.mem_cons, List.not_mem_nil, or_false, not_or] at hmarks
  obtain ⟨hl, he, ht, hspace, hequal, hzero, hless, hplus⟩ := hmarks
  refine ⟨?_, ?_, fun bound hbound => ?_⟩
  · simp [initializer_eq, hname, hl, he, ht, hspace, hequal, hzero]
  · rw [List.mem_cons, not_or]
    exact ⟨hspace, fun hmem => (loop.mem_increment hmem).elim hname hplus⟩
  · have hsign : c ∉ loop.sign := by
      rcases loop.sign_cases with h | h
      · simp [h, hless]
      · simp [h, hless, hequal]
    simp [condition, hname, hspace, hsign, hbound]

/-! ### Clauses -/

theorem initializes : Initializes loop.name (trim loop.initializer) := by
  have htrim : trim loop.initializer = loop.initializer := by
    refine trimBoth_eq_self (by simp [initializer_eq]; decide) ?_
    rw [initializer_eq, ← List.append_assoc, List.getLast?_append_of_ne_nil _ (by decide)]
    decide
  rw [htrim]
  refine ⟨loop.isIdent, " ", " ", " ", by decide, by decide, by decide, by decide, ?_⟩
  simp [initializer_eq]

theorem trim_increment : trim (' ' :: loop.increment) = loop.increment := by
  have hsolid : ∀ c ∈ loop.increment, isSpace c = false := by
    intro c hc
    rw [Bool.eq_false_iff]
    intro hspace
    rcases loop.mem_increment hc with hname | rfl
    · exact loop.notMem_name (isIdentPart_of_isSpace hspace) hname
    · cases hspace
  have haround : trim ([' '] ++ (loop.increment ++ [])) = trim loop.increment :=
    trim_around (by decide) (by decide)
  rw [List.append_nil] at haround
  have htrim : trim loop.increment = loop.increment :=
    trimBoth_eq_self (fun c hc => hsolid c (List.mem_of_mem_head? hc))
      fun c hc => hsolid c (List.mem_of_getLast? hc)
  exact haround.trans htrim

/-- Nothing is left of a blank limit. -/
theorem trim_condition (bound : Text) : trim (loop.condition bound) =
    loop.name ++ ' ' :: (loop.sign ++ dropEndWhile isSpace (' ' :: bound)) := by
  have hends : ∀ c ∈ (loop.name ++ ' ' :: loop.sign).getLast?, isSpace c = false := by
    rw [List.append_cons]
    rcases loop.sign_cases with h | h
    · rw [h, List.getLast?_append_of_ne_nil _ (by decide)]
      decide
    · rw [h, List.getLast?_append_of_ne_nil _ (by decide)]
      decide
  have htrim : trim ([' '] ++ (loop.name ++ ' ' :: loop.sign ++ ' ' :: bound)) = [] ++
      (loop.name ++ ' ' :: loop.sign ++ dropEndWhile isSpace (' ' :: bound)) :=
    trimBoth_append (by simp) (head_isIdent loop.isIdent _) hends [' '] (' ' :: bound)
  simpa [condition] using htrim

/-- The limit is missed only if it is blank and no sign of two characters stands before it. -/
theorem isLoopCondition_condition {bound : Text} (hline : '\n' ∉ bound) :
    isLoopCondition loop.name (trim (loop.condition bound)) = true ↔
      ¬ (Blank bound ∧ loop.sign = "<") := by
  by_cases hblank : Blank bound
  · have hnil : dropEndWhile isSpace (' ' :: bound) = [] :=
      List.rdropWhile_eq_nil_iff.2 (List.forall_mem_cons.2 ⟨by decide, hblank⟩)
    rw [trim_condition, hnil, List.append_nil, isLoopCondition, after?_eq_some.2 rfl]
    rcases loop.sign_cases with h | h
    · rw [h]
      simp only [hblank]
      decide
    · rw [h]
      simp only [hblank]
      decide
  · have hne : dropEndWhile isSpace (' ' :: bound) ≠ [] := fun hnil =>
      hblank (List.forall_mem_cons.1 (List.rdropWhile_eq_nil_iff.1 hnil)).2
    have hfree : '\n' ∉ dropEndWhile isSpace (' ' :: bound) := fun hmem => by
      rcases List.mem_cons.1 ((dropEndWhile_isPrefix isSpace _).mem hmem) with h | h
      · cases h
      · exact hline h
    have hlast : ∀ c ∈ (trim (loop.condition bound)).getLast?, isSpace c = false :=
      last_trimBoth isSpace _
    rw [isLoopCondition_iff hlast, trim_condition]
    refine iff_of_true ?_ fun h => hblank h.1
    exact ⟨loop.sign, loop.compares, [' '], [], _, by decide, by decide, hne, hfree, rfl⟩

/-! ### Reports -/

/-- The header up to a closing bracket in the limit. -/
def cut (left : Text) : Text := loop.initializer ++ ';' :: loop.condition left

/-- The clauses of a loop with the limit `bound` in front of something that ends it. -/
theorem split_header {bound : Text} (hbound : ';' ∉ bound) :
    split ';' (loop.cut bound) = [loop.initializer, loop.condition bound] ∧
      split ';' (loop.initializer ++ ';' :: (loop.condition bound ++ loop.rest)) =
        [loop.initializer, loop.condition bound, ' ' :: loop.increment] := by
  obtain ⟨hfirst, hlast, hmiddle⟩ := loop.notMem_clauses (.inl rfl)
  refine ⟨?_, ?_⟩
  · rw [cut, split_cons hfirst, split_single (hmiddle bound hbound)]
  · rw [rest, split_cons hfirst, split_cons (hmiddle bound hbound), split_single hlast]

theorem checkForHeader_header (hof : ¬ HasWord "of" loop.header) : checkForHeader loop.header =
    if Blank loop.bound ∧ loop.sign = "<" then [.forCondition] else [] := by
  have hincrement := isLoopIncrement_iff.2 loop.increments
  have hcondition := loop.isLoopCondition_condition loop.oneLine
  rw [checkForHeader_clauses hof (loop.split_header loop.oneClause).2, checkForClauses,
    loopVariable?_eq_some.2 loop.initializes, trim_increment]
  dsimp only
  rw [if_pos hincrement, List.append_nil]
  split
  · next h => rw [if_neg (hcondition.1 h)]
  · next h => rw [if_pos (not_not.1 (mt hcondition.2 h))]

theorem checkForLoops_text (hbound : ')' ∉ loop.bound) :
    checkForLoops loop.text = checkForHeader loop.header := by
  obtain ⟨hfirst, hlast, hmiddle⟩ := loop.notMem_clauses (.inr rfl)
  have hfree : ')' ∉ loop.header := by
    have hcondition := hmiddle _ hbound
    simp only [header, rest, List.mem_append, List.mem_cons, not_or] at hlast ⊢
    exact ⟨hfirst, by decide, hcondition, by decide, hlast⟩
  have hheads : Heads loop.header [] loop.text := ⟨hfree, [' '], by decide, rfl⟩
  rw [checkForLoops_heads hheads]
  exact List.append_nil _

/-- A closing bracket in the limit ends the header. -/
theorem checkForLoops_cut {left right : Text} (hbound : loop.bound = left ++ ')' :: right)
    (hleft : ')' ∉ left) : checkForLoops loop.text =
      checkForHeader (loop.cut left) ++ checkForLoops (right ++ (loop.rest ++ ")".toList)) := by
  obtain ⟨hfirst, -, hmiddle⟩ := loop.notMem_clauses (.inr rfl)
  have hfree : ')' ∉ loop.cut left := by
    have hcondition := hmiddle _ hleft
    simp only [cut, List.mem_append, List.mem_cons, not_or]
    exact ⟨hfirst, by decide, hcondition⟩
  refine checkForLoops_heads ⟨hfree, [' '], by decide, ?_⟩
  simp [text_eq, header, cut, condition, hbound]

theorem checkForHeader_cut {left right : Text} (hbound : loop.bound = left ++ ')' :: right)
    (hof : ¬ HasWord "of" (loop.cut left)) : checkForHeader (loop.cut left) = [.forShape] := by
  have hclause : ';' ∉ left := fun hmem => loop.oneClause (by rw [hbound]; simp [hmem])
  refine checkForHeader_shape hof ?_
  rw [(loop.split_header hclause).1]
  exact (by decide : 2 ≠ 3)

end CountingLoop

/-- **What is reported of the loops of a program.**  Headers are judged one after another, in any
program and whatever stands before them.  A canonical loop whose limit holds no closing bracket is
reported only for a blank limit behind `<`.  Any other is cut at that bracket, and what is left of
its header has the wrong shape.  A header with the word `of` is never reported. -/
theorem loop_headers_reported (code : Text) (loop : CountingLoop) :
    ((Headless code [] → checkForLoops code = []) ∧
      ∀ u s header v, code = u ++ s → Headless u s → Heads header v s →
        checkForLoops code = checkForHeader header ++ checkForLoops v) ∧
    (')' ∉ loop.bound →
      (HasWord "of" loop.header → checkForLoops loop.text = []) ∧
      (¬ HasWord "of" loop.header → checkForLoops loop.text =
        if Blank loop.bound ∧ loop.sign = "<" then [.forCondition] else [])) ∧
    ∀ left right, loop.bound = left ++ ')' :: right → ')' ∉ left →
      let after := checkForLoops (right ++ (loop.rest ++ ")".toList))
      (HasWord "of" (loop.cut left) → checkForLoops loop.text = after) ∧
      (¬ HasWord "of" (loop.cut left) → checkForLoops loop.text = .forShape :: after) := by
  refine ⟨⟨fun hcode => ?none, ?first⟩, fun hbound => ?whole, fun left right hbound hleft => ?cut⟩
  case none =>
    have hnone := checkForLoops_headless hcode
    rw [List.append_nil] at hnone
    exact hnone
  case first =>
    rintro u s header v rfl hu hs
    rw [checkForLoops_headless hu, checkForLoops_heads hs]
  case whole =>
    rw [loop.checkForLoops_text hbound]
    exact ⟨checkForHeader_list, loop.checkForHeader_header⟩
  case cut =>
    intro after
    rw [loop.checkForLoops_cut hbound hleft]
    refine ⟨fun hof => ?_, fun hof => ?_⟩
    · rw [checkForHeader_list hof, List.nil_append]
    · rw [loop.checkForHeader_cut hbound hof, List.singleton_append]

/-- The loop `for (let i = 0; i < f(1); i++)`. -/
def callLimit : CountingLoop where
  name := "i"
  sign := "<"
  bound := "f(1)"
  increment := "i++"
  isIdent := ⟨'i', [], rfl, by decide, by decide⟩
  compares := by decide
  oneClause := by decide
  oneLine := by decide
  increments := .inl (by decide)

theorem loop_headers_reported_call :
    callLimit.bound = "f(1".toList ++ ')' :: [] ∧ ')' ∉ "f(1".toList ∧
      ¬ HasWord "of" (callLimit.cut "f(1") ∧
      checkForLoops callLimit.text = .forShape :: checkForLoops "; i++)" := by
  have hof : ¬ HasWord "of" (callLimit.cut "f(1") := by
    rw [← occurs_word (by decide) (by decide)]
    decide
  have hcut := (loop_headers_reported callLimit.text callLimit).2.2 "f(1" [] rfl (by decide)
  exact ⟨rfl, by decide, hof, hcut.2 hof⟩

/-- A canonical loop whose limit is a call is rejected, and so is a call of a block whose name ends
in `for`. -/
theorem call_limit_rejected :
    callLimit.text = "for (let i = 0; i < f(1); i++)".toList ∧ Paired callLimit.bound ∧
      checkForLoops callLimit.text = [.forShape] ∧
      ¬ HasWord "for" "waitfor(100)" ∧ checkForLoops "waitfor(100)" = [.forShape] := by
  have hargs : Paired "1" := paired_nil.cons (by decide) (by decide)
  have hbound : Paired callLimit.bound := hargs.enclose.cons (c := 'f') (by decide) (by decide)
  have hfor : ¬ HasWord "for" "waitfor(100)" := by
    rw [← occurs_word (by decide) (by decide)]
    decide
  exact ⟨by decide, hbound, by decide, hfor, by decide⟩

end BlockSafe
