import BlockSafe.Proofs.Rule.QuotedLines

/-!
# What the rules on lines see of a string

The rules on nesting read the program as it stands, so the contents of its strings count.  Of a
string on one line they see five things, its `sight`: how many more braces it opens than it closes,
whether a registration stands in it, whether it closes a list of parameters, whether it marks a
parameter before that, and whether a type can go on through it.

Two strings with the same sight can stand for each other anywhere (`checkLines_sight`).  Two strings
with different sights are told apart by some program, made for the part of the sight in which they
differ (`registers_seen` to `balance_seen`); so the rules on lines see just this
(`same_tags_iff_sight`), and a brace in a string can nest what stands at top level.
-/

namespace BlockSafe

open Pattern Text

/-- What the rules on lines see of the contents of a string. -/
structure Sight where
  /-- The braces that it opens, less those that it closes. -/
  balance : Int
  /-- Whether a call that registers a handler stands in it. -/
  registers : Bool
  /-- Whether it closes a list of parameters. -/
  closes : Bool
  /-- Whether it makes a parameter optional, or gives it a default, before it closes the list. -/
  marks : Bool
  /-- Whether a type can go on through it. -/
  typed : Bool
deriving DecidableEq

/-- What the rules on lines see of a text on one line. -/
def sight (s : Text) : Sight where
  balance := balance s
  registers := registrationPattern.occurs s
  closes := closes s
  marks := marks s
  typed := s.all fun c => c != '=' && c != ';'

/-! ## Lines -/

section
variable {q : Char} (hq : Foreign q)
include hq

theorem balance_foreign (t : Text) : balance (q :: t) = balance t := by
  unfold balance
  rw [List.count_cons_of_ne (hq.ne (by decide)), List.count_cons_of_ne (hq.ne (by decide))]

theorem trim_foreign (u s v : Text) : trim (u ++ q :: (s ++ q :: v)) =
    trimStart u ++ q :: (s ++ q :: trimEnd v) := by
  have hsplit : u ++ q :: (s ++ q :: v) = u ++ (q :: (s ++ [q]) ++ v) := by simp
  have hhead : ∀ c ∈ (q :: (s ++ [q])).head?, isSpace c = false := by simpa using hq.space
  have hlast : ∀ c ∈ (q :: (s ++ [q])).getLast?, isSpace c = false := by
    rw [← List.cons_append, List.getLast?_concat]
    simpa using hq.space
  rw [trim, hsplit, trimBoth_append (List.cons_ne_nil q (s ++ [q])) hhead hlast, trimStart, trimEnd,
    List.cons_append, List.append_assoc, List.singleton_append]

variable {a b s l r : Text} {above below : List Text} {violation : Violation}

/-- The lines around a string on one line. -/
theorem lines_foreign (hs : OneLine s) (ha : lines a = above ++ [l]) (hb : lines b = r :: below) :
    lines (a ++ q :: (s ++ q :: b)) = above ++ (l ++ q :: (s ++ q :: r)) :: below := by
  obtain ⟨above', l', x, xs, ha', hx, hlines⟩ := lines_append_cons hq.unbroken a (s ++ q :: b)
  obtain ⟨ys, y, r', below', hy, hb', hxs⟩ := lines_append_cons hq.unbroken s b
  rw [lines_oneLine hs] at hy
  obtain ⟨rfl, rfl⟩ : ys = [] ∧ y = s := by simpa [List.singleton_eq_append_iff] using hy
  obtain ⟨rfl, rfl⟩ := List.cons.inj (hb.symm.trans hb')
  obtain ⟨rfl, rfl⟩ := List.cons.inj (hx.symm.trans hxs)
  obtain ⟨rfl, hl⟩ := List.append_inj' (ha.symm.trans ha') rfl
  rw [hlines, (List.cons.inj hl).1]

/-- What is reported of the lines above a string, of its own line, and of the lines below. -/
theorem mem_checkLines_foreign (hs : OneLine s) (ha : lines a = above ++ [l])
    (hb : lines b = r :: below) : violation ∈ checkLines (a ++ q :: (s ++ q :: b)) ↔
      violation ∈ checkLinesFrom 0 above ∨
      violation ∈ checkLine (above.foldl depthAfterLine 0 > 0)
        (trimStart l ++ q :: (s ++ q :: trimEnd r)) ∨
      violation ∈ checkLinesFrom
        (depthAfterLine (above.foldl depthAfterLine 0) (l ++ q :: (s ++ q :: r))) below := by
  rw [checkLines, lines_foreign hq hs ha hb, checkLinesFrom_append, checkLinesFrom,
    trim_foreign hq, List.mem_append, List.mem_append]

/-! ## Strings with the same sight -/

theorem depthAfterLine_foreign (depth : Nat) :
    (depthAfterLine depth (l ++ q :: (s ++ q :: r)) : Int) =
      max 0 (depth + (balance l + balance s + balance r)) := by
  rw [depthAfterLine_eq, balance_append, balance_foreign hq, balance_append, balance_foreign hq]
  omega

theorem checkLine_sight {s₁ s₂ : Text} (h : sight s₁ = sight s₂) (nested : Bool) (u v : Text) :
    violation ∈ checkLine nested (u ++ q :: (s₁ ++ q :: v)) ↔
      violation ∈ checkLine nested (u ++ q :: (s₂ ++ q :: v)) := by
  have hregisters : registrationPattern.occurs s₁ = registrationPattern.occurs s₂ :=
    congrArg Sight.registers h
  have hcloses : closes s₁ = closes s₂ := congrArg Sight.closes h
  have hmarks : marks s₁ = marks s₂ := congrArg Sight.marks h
  have htyped : s₁.all (fun c => c != '=' && c != ';') = s₂.all fun c => c != '=' && c != ';' :=
    congrArg Sight.typed h
  simp only [mem_checkLine, occurs_registration_foreign hq, functionParameters?_isSome,
    functionParameters?_any, functionHead?_foreign hq, Option.any_map, closes_append,
    closes_between hq, marks_append, marks_between hq, bareLet_foreign hq _ s₁,
    bareLet_foreign hq _ s₂, hregisters, hcloses, hmarks, htyped]

theorem checkLines_sight {s₁ s₂ : Text} (h₁ : OneLine s₁) (h₂ : OneLine s₂)
    (h : sight s₁ = sight s₂) (a b : Text) (violation : Violation) :
    violation ∈ checkLines (a ++ q :: (s₁ ++ q :: b)) ↔
      violation ∈ checkLines (a ++ q :: (s₂ ++ q :: b)) := by
  obtain ⟨above, l, r, below, ha, hb, -⟩ := lines_append_cons hq.unbroken a b
  have hdepth : ∀ depth, depthAfterLine depth (l ++ q :: (s₁ ++ q :: r)) =
      depthAfterLine depth (l ++ q :: (s₂ ++ q :: r)) := by
    intro depth
    have hbalance : balance s₁ = balance s₂ := congrArg Sight.balance h
    apply Int.natCast_inj.1
    rw [depthAfterLine_foreign hq, depthAfterLine_foreign hq, hbalance]
  rw [mem_checkLines_foreign hq h₁ ha hb, mem_checkLines_foreign hq h₂ ha hb,
    checkLine_sight hq h, hdepth]

/-! ## Programs that tell strings apart -/

/-- What is reported of a string on the last line, if the lines above are in order. -/
theorem mem_checkLines_last (hs : OneLine s) (ha : lines a = above ++ [l]) (hb : lines b = [r])
    (habove : violation ∉ checkLinesFrom 0 above) :
    violation ∈ checkLines (a ++ q :: (s ++ q :: b)) ↔
      violation ∈ checkLine (above.foldl depthAfterLine 0 > 0)
        (trimStart l ++ q :: (s ++ q :: trimEnd r)) := by
  rw [mem_checkLines_foreign hq hs ha hb, checkLinesFrom]
  simp only [habove, List.not_mem_nil, false_or, or_false]

/-- Inside braces, a registration in the string is reported. -/
theorem registers_seen (hs : OneLine s) :
    .nestedRegistration ∈ checkLines ("\x7b\n".toList ++ q :: (s ++ q :: [])) ↔
      registrationPattern.occurs s = true := by
  have hnothing : registrationPattern.occurs [] = false := by decide
  have habove : lines "\x7b\n".toList = ["\x7b".toList] ++ [[]] := by decide
  rw [mem_checkLines_last hq hs habove lines_nil (by decide), mem_checkLine,
    occurs_registration_foreign hq, occurs_registration_foreign hq]
  simp [hnothing, trimStart, trimEnd, dropEndWhile, depthAfterLine]

/-- Inside braces, a function declaration is reported if the string closes its parameters. -/
theorem closes_seen (hs : OneLine s) :
    .nestedFunction ∈ checkLines ("\x7b\nfunction f(".toList ++ q :: (s ++ q :: [])) ↔
      closes s = true := by
  have hhead : functionHead? (trimStart "function f(".toList) = some [] := by decide
  have habove : lines "\x7b\nfunction f(".toList = ["\x7b".toList] ++ ["function f(".toList] := by
    decide
  rw [mem_checkLines_last hq hs habove lines_nil (by decide), mem_checkLine,
    functionParameters?_isSome, functionHead?_foreign hq, hhead, Option.any_map, Option.any_some,
    List.nil_append, closes_between hq]
  simp [closes, trimEnd, dropEndWhile, depthAfterLine]

/-- A function declaration is reported if the string marks a parameter. -/
theorem marks_seen (hs : OneLine s) :
    .defaultParameters ∈ checkLines ("function f(".toList ++ q :: (s ++ q :: ")".toList)) ↔
      marks s = true := by
  have hhead : functionHead? (trimStart "function f(".toList) = some [] := by decide
  have hlist : closes (trimEnd ")".toList) = true ∧ marks (trimEnd ")".toList) = false := by decide
  have habove : lines "function f(".toList = [] ++ ["function f(".toList] := by decide
  have hbelow : lines ")".toList = [")".toList] := by decide
  rw [mem_checkLines_last hq hs habove hbelow (by decide), mem_checkLine,
    functionParameters?_any, functionHead?_foreign hq, hhead, Option.any_map, Option.any_some,
    List.nil_append, closes_between hq, marks_between hq, hlist.1, hlist.2]
  simp

/-- A declaration is reported if its type can go on through the string. -/
theorem typed_seen (hs : OneLine s) (hquote : q ∈ programQuotes) :
    .missingInitializer ∈ checkLines ("let x: ".toList ++ q :: (s ++ q :: [])) ↔
      s.all (fun c => c != '=' && c != ';') = true := by
  have hbare : ∀ q ∈ programQuotes, bareLetPattern.matchesAt
      (Cursor.start (trimStart "let x: ".toList ++ q :: q :: trimEnd [])) = true := by
    decide
  have habove : lines "let x: ".toList = [] ++ ["let x: ".toList] := by decide
  rw [mem_checkLines_last hq hs habove lines_nil (by decide), mem_checkLine,
    bareLet_foreign hq, hbare q hquote]
  simp

/-- What stands below a string is nested if the string opens enough braces. -/
theorem balance_seen (hs : OneLine s) (opened closed : Nat) :
    .nestedRegistration ∈ checkLines (List.replicate opened '{' ++
      q :: (s ++ q :: (List.replicate closed '}' ++ "\nbasic.forever()".toList))) ↔
      closed < opened + balance s := by
  have hopen : OneLine (List.replicate opened '{') := by
    intro c hc
    rw [(List.mem_replicate.1 hc).2]
    decide
  have hclosed : OneLine (List.replicate closed '}') := by
    intro c hc
    rw [(List.mem_replicate.1 hc).2]
    decide
  have hlines : lines (List.replicate closed '}' ++ "\nbasic.forever()".toList) =
      List.replicate closed '}' :: lines "basic.forever()".toList :=
    lines_break hclosed (.feed : LineBreak "\n".toList "basic.forever()".toList)
  have hbelow : lines "basic.forever()".toList = ["basic.forever()".toList] := by decide
  have hregister : registrationPattern.occurs (trim "basic.forever()".toList) = true := by decide
  have hnested : ∀ depth, .nestedRegistration ∈
      checkLinesFrom depth (lines "basic.forever()".toList) ↔ 0 < depth := by
    intro depth
    rw [hbelow, checkLinesFrom, checkLinesFrom, List.append_nil, mem_checkLine, hregister]
    simp
  have hown : ∀ line, .nestedRegistration ∉ checkLine (0 > 0) line := by
    intro line
    rw [mem_checkLine]
    simp
  have hbalance : balance (List.replicate opened '{') = opened ∧
      balance (List.replicate closed '}') = -closed := by
    simp [balance, List.count_replicate]
  have hdepth := depthAfterLine_foreign hq (l := List.replicate opened '{') (s := s)
    (r := List.replicate closed '}') 0
  rw [hbalance.1, hbalance.2] at hdepth
  have habove : lines (List.replicate opened '{') = [] ++ [List.replicate opened '{'] :=
    lines_oneLine hopen
  rw [mem_checkLines_foreign hq hs habove hlines, hnested,
    List.foldl_nil, checkLinesFrom, or_iff_right List.not_mem_nil, or_iff_right (hown _)]
  omega

end

/-! ## Sight is what the rules on lines see -/

/-- The rules on lines report the same tags, in some order. -/
def SameTags (code code' : Text) : Prop :=
  ∀ tag, tag ∈ (checkLines code).map Violation.tag ↔ tag ∈ (checkLines code').map Violation.tag

/-- The violations of lines have different tags. -/
theorem mem_tags_checkLines {v : Violation} (hv : v ∈ Phase.lines.fixed) (code : Text) :
    v.tag ∈ (checkLines code).map Violation.tag ↔ v ∈ checkLines code := by
  have hinj : ∀ v ∈ Phase.lines.fixed, ∀ w ∈ Phase.lines.fixed, w.tag = v.tag → w = v := by decide
  constructor
  · intro h
    obtain ⟨w, hw, htag⟩ := List.mem_map.1 h
    rwa [hinj v hv w (checkLinesFrom_fixed hw) htag] at hw
  · exact List.mem_map_of_mem

theorem sameTags_iff {code code' : Text} : SameTags code code' ↔
    ∀ v, v ∈ checkLines code ↔ v ∈ checkLines code' := by
  constructor
  · intro h v
    by_cases hv : v ∈ Phase.lines.fixed
    · rw [← mem_tags_checkLines hv, ← mem_tags_checkLines hv, h]
    · -- A violation of another phase is reported of neither.
      exact iff_of_false (mt checkLinesFrom_fixed hv) (mt checkLinesFrom_fixed hv)
  · intro h tag
    simp only [List.mem_map, h]

section
variable {q : Char} {comments : Bool}

/-- A quote behind a text opens a string: it stands in no other string, nor in a comment if comments
are told apart. -/
def Opens (comments : Bool) (q : Char) (a : Text) : Prop :=
  regionAfter ⟨programQuotes, comments⟩ .code (some q) a = .code

/-- Nothing opens in a text without quotes and slashes. -/
theorem opens_plain {a : Text} (ha : ∀ c ∈ a, c ∉ '/' :: programQuotes) : Opens comments q a := by
  induction a with
  | nil => rfl
  | cons c a ih =>
    obtain ⟨hc, ha⟩ := List.forall_mem_cons.1 ha
    obtain ⟨hslash, hquote⟩ := not_or.1 (mt List.mem_cons.2 hc)
    have hstep : ∀ next, (Region.code.step ⟨programQuotes, comments⟩ c next).2 = .code := by
      simp [Region.step, hslash, hquote]
    rw [Opens, regionAfter, hstep]
    exact ih ha

/-- Two strings have the same sight if no program without quotes and slashes in front of them tells
them apart. -/
theorem sight_eq {s₁ s₂ : Text} (hq : q ∈ programQuotes) (h₁ : OneLine s₁) (h₂ : OneLine s₂)
    (h : ∀ a b violation, (∀ c ∈ a, c ∉ '/' :: programQuotes) →
      (violation ∈ checkLines (a ++ q :: (s₁ ++ q :: b)) ↔
        violation ∈ checkLines (a ++ q :: (s₂ ++ q :: b)))) : sight s₁ = sight s₂ := by
  have hforeign := foreign_quote q hq
  have hbalance : ∀ opened closed : Nat,
      closed < opened + balance s₁ ↔ closed < opened + balance s₂ := by
    intro opened closed
    rw [← balance_seen hforeign h₁, ← balance_seen hforeign h₂]
    refine h _ _ _ fun c hc => ?_
    rw [(List.mem_replicate.1 hc).2]
    decide
  have hregisters := h "\x7b\n".toList [] .nestedRegistration (by decide)
  have hcloses := h "\x7b\nfunction f(".toList [] .nestedFunction (by decide)
  have hmarks := h "function f(".toList ")".toList .defaultParameters (by decide)
  have htyped := h "let x: ".toList [] .missingInitializer (by decide)
  rw [registers_seen hforeign h₁, registers_seen hforeign h₂] at hregisters
  rw [closes_seen hforeign h₁, closes_seen hforeign h₂] at hcloses
  rw [marks_seen hforeign h₁, marks_seen hforeign h₂] at hmarks
  rw [typed_seen hforeign h₁ hq, typed_seen hforeign h₂ hq] at htyped
  have hequal : balance s₁ = balance s₂ := by
    -- Each string is matched with as many braces around it as undo its own.
    have h₁₂ := hbalance (-balance s₁).toNat (balance s₁).toNat
    have h₂₁ := hbalance (-balance s₂).toNat (balance s₂).toNat
    omega
  rw [sight, sight, Sight.mk.injEq]
  exact ⟨hequal, Bool.eq_iff_iff.2 hregisters, Bool.eq_iff_iff.2 hcloses, Bool.eq_iff_iff.2 hmarks,
    Bool.eq_iff_iff.2 htyped⟩

/-- **The rules on lines see the sight of a string, and nothing else of it.**  Two strings on one
line can stand for each other wherever a string opens, without a change in the tags reported, iff
they have the same sight. -/
theorem same_tags_iff_sight (hq : q ∈ programQuotes) {s₁ s₂ : Text} (h₁ : OneLine s₁)
    (h₂ : OneLine s₂) :
    (∀ a b, Opens comments q a →
      SameTags (a ++ q :: (s₁ ++ q :: b)) (a ++ q :: (s₂ ++ q :: b))) ↔ sight s₁ = sight s₂ := by
  constructor
  · intro h
    exact sight_eq hq h₁ h₂ fun a b violation ha =>
      sameTags_iff.1 (h a b (opens_plain ha)) violation
  · intro h a b _
    exact sameTags_iff.2 (checkLines_sight (foreign_quote q hq) h₁ h₂ h a b)

end

/-- Two words can stand for each other, a word and an opening brace cannot. -/
theorem words_not_brace : '"' ∈ programQuotes ∧ OneLine "red".toList ∧
    OneLine "blue".toList ∧ OneLine ['{'] ∧
    (∀ a b, Opens true '"' a →
      SameTags (a ++ '"' :: ("red".toList ++ '"' :: b)) (a ++ '"' :: ("blue".toList ++ '"' :: b))) ∧
    ¬ ∀ a b, Opens true '"' a →
      SameTags (a ++ '"' :: ("red".toList ++ '"' :: b)) (a ++ '"' :: (['{'] ++ '"' :: b)) := by
  have hquote : '"' ∈ programQuotes := by decide
  have hred : OneLine "red".toList := by decide
  have hblue : OneLine "blue".toList := by decide
  have hbrace : OneLine ['{'] := by decide
  exact ⟨hquote, hred, hblue, hbrace, (same_tags_iff_sight hquote hred hblue).2 (by decide),
    mt (same_tags_iff_sight hquote hred hbrace).1 (by decide)⟩

/-- An opening brace in a string nests the registration on the line below. -/
theorem brace_in_string_nests : (∀ comments, Opens comments '"' "let x = ".toList) ∧
    (∀ c ∈ ['{'], c ≠ '"' ∧ c ≠ '\\' ∧ c ≠ '\r' ∧ c ≠ '\n') ∧
    ¬ SameTags ("let x = ".toList ++ '"' :: (['{'] ++ '"' :: "\nbasic.forever(f)".toList))
      ("let x = ".toList ++ '"' :: ([] ++ '"' :: "\nbasic.forever(f)".toList)) := by
  refine ⟨fun comments => opens_plain (by decide), by decide, fun h => ?_⟩
  have hnested : Violation.nestedRegistration ∈ checkLines
      ("let x = ".toList ++ '"' :: (['{'] ++ '"' :: "\nbasic.forever(f)".toList)) := by
    decide
  have htop : checkLines
      ("let x = ".toList ++ '"' :: ([] ++ '"' :: "\nbasic.forever(f)".toList)) = [] := by
    decide
  rw [sameTags_iff.1 h, htop] at hnested
  cases hnested

end BlockSafe
