import BlockSafe.Proofs.Text.BreakPatterns
import BlockSafe.Rule.Construct
import BlockSafe.Target.Profile

/-!
# Constructs across line breaks

None of the patterns for forbidden constructs and foreign tokens tells the two spellings of a line
break apart (`unbroken_syntaxRules`, `unbroken_literalRules`, `unbroken_bitwise`, `unbroken_forIn`,
`unbroken_foreign`).  Most of them are steady from part to part.  A lone operator sign is not,
because what stands next to it is taken as one character; its occurrences are said outright
(`occurs_loneSign`).
-/

namespace BlockSafe

open Pattern Text

/-! ## Parts of patterns -/

theorem steady_spaces : spaces.Steady Near Near := steady_many (by decide)

theorem steady_gap : gap.Steady Aligned Near := steady_many1 (by decide)

theorem steady_identStart : (one isIdentStart).Steady Near Aligned := steady_one (by decide)

theorem steady_anyLit {names : List Text} (h : ∀ name ∈ names, Token name) :
    (anyOf (names.map lit)).Steady Near Aligned := by
  induction names with
  | nil =>
    constructor
    · intro c d _ c' hc'
      cases hc'
    · intro c d _ c' hc'
      cases hc'
  | cons name names ih =>
    obtain ⟨hname, hnames⟩ := List.forall_mem_cons.1 h
    exact (steady_lit hname).either (ih hnames)

/-- A keyword and an identifier. -/
theorem unbroken_keyword {s : Text} (h : Token s) :
    (chain [wordStart s, gap, one isIdentStart]).Unbroken :=
  ((steady_wordStart h).seq (steady_gap.seq
    (steady_identStart.seq (steady_nothing Aligned)))).unbroken

/-- A keyword and white space. -/
theorem unbroken_spaced {s : Text} (h : Token s) :
    (chain [wordStart s, one isSpace]).Unbroken :=
  Steady.unbroken ((steady_wordStart h).seq (steady_gap.seq (steady_nothing Near)))
    |>.congr (matchesAt_many1 _ _)

/-- A name and an opening bracket. -/
theorem steady_bracketed {p : Pattern} (h : p.Steady Near Aligned) {bracket : Text}
    (hbracket : Token bracket) : (chain [p, spaces, lit bracket]).Steady Near Aligned :=
  h.seq (steady_spaces.aligned.seq ((steady_lit hbracket).seq (steady_nothing Aligned)))

/-- One of several words. -/
theorem unbroken_words (words : List Text) (h : ∀ s ∈ words, Token s) :
    (anyOf (words.map word)).Unbroken := by
  apply unbroken_anyOf
  intro p hp
  obtain ⟨s, hs, rfl⟩ := List.mem_map.1 hp
  exact (steady_word (h s hs)).unbroken

/-! ## Tables -/

theorem unbroken_typeDeclarations :
    (anyOf [word "enum", word "interface",
      chain [wordStart "type", gap, one isIdentStart]]).Unbroken := by
  apply unbroken_anyOf
  simp only [List.forall_mem_cons]
  exact ⟨(steady_word (by decide)).unbroken, (steady_word (by decide)).unbroken,
    unbroken_keyword (by decide), fun _ h => absurd h List.not_mem_nil⟩

theorem unbroken_imports : (anyOf [chain [wordStart "import", one isSpace],
    chain [wordStart "export", one isSpace]]).Unbroken := by
  apply unbroken_anyOf
  simp only [List.forall_mem_cons]
  exact ⟨unbroken_spaced (by decide), unbroken_spaced (by decide),
    fun _ h => absurd h List.not_mem_nil⟩

/-- Something between two marks. -/
theorem unbroken_enclosed {first last : Text} {p : Char → Bool} (hfirst : Token first)
    (hlast : Token last) (hp : p '\r' = p '\n') :
    (chain [lit first, many p, lit last]).Unbroken ∧
      (chain [lit first, many1 p, lit last]).Unbroken := by
  have hend := (steady_lit hlast).seq (steady_nothing Aligned)
  exact ⟨((steady_lit hfirst).seq ((steady_many hp).aligned.seq hend)).unbroken,
    ((steady_lit hfirst).seq ((steady_many1 hp).seq hend)).unbroken⟩

theorem unbroken_timers : (anyOf [chain [lit "setTimeout", spaces, lit "("],
    chain [lit "setInterval", spaces, lit "("]]).Unbroken := by
  apply unbroken_anyOf
  simp only [List.forall_mem_cons]
  exact ⟨(steady_bracketed (steady_lit (by decide)) (by decide)).unbroken,
    (steady_bracketed (steady_lit (by decide)) (by decide)).unbroken,
    fun _ h => absurd h List.not_mem_nil⟩

theorem unbroken_higherOrder : (chain [lit ".", spaces, anyOf (higherOrderNames.map lit), spaces,
    lit "("]).Unbroken :=
  ((steady_lit (by decide)).seq (steady_spaces.aligned.seq
    (steady_bracketed (steady_anyLit (by decide)) (by decide)))).unbroken

theorem unbroken_syntaxRules : ∀ rule ∈ syntaxRules, rule.pattern.Unbroken := by
  simp only [syntaxRules, List.forall_mem_cons]
  refine ⟨?arrows, ?classes, ?new, ?promises, unbroken_imports, ?interpolation,
    unbroken_higherOrder, ?namespaces, unbroken_typeDeclarations, ?generics, unbroken_timers,
    ?console, ?lineComments, ?blockComments, ?randint, ?compound, ?none⟩
  case arrows => exact (steady_lit (by decide)).unbroken
  case classes =>
    exact ((steady_wordStart (by decide)).seq (steady_gap.seq (steady_nothing Near))).unbroken
  case new => exact unbroken_keyword (by decide)
  case promises => exact unbroken_words ["Promise", "async", "await"] (by decide)
  case interpolation => exact (unbroken_enclosed (by decide) (by decide) (by decide)).2
  case namespaces => exact unbroken_words ["namespace", "module"] (by decide)
  case generics => exact (unbroken_enclosed (by decide) (by decide) (by decide)).2
  case console => exact (steady_lit (by decide)).unbroken
  case lineComments => exact (steady_bracketed steady_lineStart (by decide)).unbroken
  case blockComments => exact (unbroken_enclosed (by decide) (by decide) rfl).1
  case randint =>
    exact (steady_bracketed (steady_wordStart (by decide)) (by decide)).unbroken
  case compound => exact (steady_anyLit (by decide)).unbroken
  case none => exact fun _ h => absurd h List.not_mem_nil

theorem unbroken_literalRules : ∀ rule ∈ literalRules, rule.pattern.Unbroken := by
  simp only [literalRules, List.forall_mem_cons]
  exact ⟨(steady_word (by decide)).unbroken, (steady_word (by decide)).unbroken,
    unbroken_keyword (by decide), fun _ h => absurd h List.not_mem_nil⟩

theorem unbroken_forIn : forInPattern.Unbroken :=
  ((steady_wordStart (by decide)).seq (steady_spaces.aligned.seq ((steady_lit (by decide)).seq
    ((steady_many (by decide)).aligned.seq ((steady_word (by decide)).seq
      ((steady_many (by decide)).aligned.seq ((steady_lit (by decide)).seq
        (steady_nothing Aligned)))))))).unbroken

/-- One of several tokens in any mixture of cases. -/
theorem unbroken_tokens (tokens : List Text) (h : ∀ s ∈ tokens, Token (s.map foldLetter)) :
    (anyOf (tokens.map litAnyCase)).Unbroken := by
  apply unbroken_anyOf
  intro p hp
  obtain ⟨s, hs, rfl⟩ := List.mem_map.1 hp
  exact (steady_litAnyCase (h s hs)).unbroken

theorem unbroken_foreign (target : Target) : target.profile.foreign.Unbroken := by
  have harcade : arcadeTokens.Unbroken :=
    unbroken_tokens ["sprites.", "controller.", "scene.", "game.onUpdate"] (by decide)
  have hmicrobit : microbitTokens.Unbroken := unbroken_tokens ["led.", "radio."] (by decide)
  cases target with
  | microbit => exact harcade
  | arcade => exact hmicrobit
  | maker => exact harcade

/-! ## Lone signs -/

section
variable {sign : Char}

/-- What may stand behind a lone sign. -/
theorem matchesAt_behind (hsign : ¬ IsBreak sign) (before : Option Char) (v : Text) :
    (chain [either (one fun c => c != sign && c != '=') (test Cursor.atLineEnd)]).matchesAt
        ⟨before, v⟩ = true ↔ v.head? ≠ some sign ∧ v.head? ≠ some '=' := by
  rw [matchesAt_last, matchesAt_either, matchesAt_one, matchesAt_test]
  cases v with
  | nil => simp [Cursor.atLineEnd]
  | cons x v =>
    have hbreak : x = '\n' → x ≠ sign ∧ x ≠ '=' := by
      rintro rfl
      exact ⟨fun h => hsign (h ▸ .inr rfl), by decide⟩
    simpa [Cursor.atLineEnd] using hbreak

theorem matchesAt_loneSign (hsign : ¬ IsBreak sign) {c : Cursor} :
    (loneSign sign).matchesAt c = true ↔ ∃ d : Cursor,
      (c.atLineStart = true ∧ d = c ∨
        ∃ x rest, c.rest = x :: rest ∧ x ≠ sign ∧ d = ⟨some x, rest⟩) ∧
      ∃ v, d.rest = sign :: v ∧ v.head? ≠ some sign ∧ v.head? ≠ some '=' := by
  have hsecond : ∀ d : Cursor, (chain [one (· == sign),
      either (one fun c => c != sign && c != '=') (test Cursor.atLineEnd)]).matchesAt d = true ↔
        ∃ v, d.rest = sign :: v ∧ v.head? ≠ some sign ∧ v.head? ≠ some '=' := by
    intro d
    refine matchesAt_seq.trans ⟨?_, ?_⟩
    · rintro ⟨e, he, hbehind⟩
      obtain ⟨x, v, hrest, hx, rfl⟩ := mem_rests_one.1 he
      obtain rfl := eq_of_beq hx
      exact ⟨v, hrest, (matchesAt_behind hsign _ v).1 hbehind⟩
    · rintro ⟨v, hrest, hbehind⟩
      exact ⟨⟨some sign, v⟩, mem_rests_one.2 ⟨sign, v, hrest, beq_self_eq_true sign, rfl⟩,
        (matchesAt_behind hsign _ v).2 hbehind⟩
  refine matchesAt_seq.trans (exists_congr fun d => and_congr ?_ (hsecond d))
  rw [rests, List.mem_append, mem_rests_test, mem_rests_one]
  simp only [bne_iff_ne]

/-- A sign is found where it stands with neither another before it nor another or an equals sign
behind it. -/
theorem occurs_loneSign (hsign : ¬ IsBreak sign) (s : Text) :
    (loneSign sign).occurs s = true ↔ ∃ u v, s = u ++ sign :: v ∧ u.getLast? ≠ some sign ∧
      v.head? ≠ some sign ∧ v.head? ≠ some '=' := by
  simp only [occurs_iff, matchesAt_loneSign hsign]
  constructor
  · rintro ⟨u, t, rfl, d, ⟨hstart, rfl⟩ | ⟨x, rest, rfl, hx, rfl⟩, v, hrest, hbehind⟩
    · refine ⟨u, v, by rw [← hrest], ?_, hbehind⟩
      intro hlast
      rw [Cursor.atLineStart, hlast] at hstart
      exact hsign (.inr (by simpa using hstart))
    · obtain rfl : rest = sign :: v := hrest
      refine ⟨u ++ [x], v, by simp, ?_, hbehind⟩
      rw [List.getLast?_concat]
      exact fun h => hx (Option.some.inj h)
  · rintro ⟨u, v, rfl, hlast, hbehind⟩
    rcases List.eq_nil_or_concat u with rfl | ⟨u, x, rfl⟩
    · exact ⟨[], sign :: v, rfl, _, .inl ⟨rfl, rfl⟩, v, rfl, hbehind⟩
    · rw [List.concat_eq_append, List.getLast?_concat] at hlast
      refine ⟨u, x :: sign :: v, by simp, ⟨some x, sign :: v⟩, ?_, v, rfl, hbehind⟩
      exact .inr ⟨x, sign :: v, rfl, fun h => hlast (congrArg some h), rfl⟩

theorem unbroken_loneSign (hsign : ¬ IsBreak sign) : (loneSign sign).Unbroken := by
  intro s
  rw [Bool.eq_iff_iff, occurs_loneSign hsign, occurs_loneSign hsign]
  constructor
  · rintro ⟨u, v, hs, hlast, hnext, hequals⟩
    obtain ⟨a, b, rfl, rfl, rfl⟩ := crlf_eq_append_cons hsign hs
    rw [getLast?_crlf] at hlast
    rw [Ne, head?_crlf_eq_some hsign] at hnext
    rw [Ne, head?_crlf_eq_some (by decide)] at hequals
    exact ⟨a, b, rfl, hlast, hnext, hequals⟩
  · rintro ⟨u, v, rfl, hlast, hnext, hequals⟩
    have hbreak : sign ≠ '\n' := fun h => hsign (.inr h)
    refine ⟨crlf u, crlf v, ?_, ?_, ?_, ?_⟩
    · rw [crlf_append, crlf_cons hbreak]
    · rwa [getLast?_crlf]
    · rwa [Ne, head?_crlf_eq_some hsign]
    · rwa [Ne, head?_crlf_eq_some (by decide)]

theorem unbroken_bitwise : bitwisePattern.Unbroken := by
  apply unbroken_anyOf
  simp only [List.forall_mem_cons]
  exact ⟨(steady_lit (by decide)).unbroken, (steady_lit (by decide)).unbroken,
    (steady_lit (by decide)).unbroken, unbroken_loneSign (by decide), unbroken_loneSign (by decide),
    fun _ h => absurd h List.not_mem_nil⟩

end

end BlockSafe
