import BlockSafe.Proofs.Rule.Registration
import BlockSafe.Proofs.Text.Lines
import BlockSafe.Proofs.Verdict.Phases

/-!
# Nested registrations

The rules on nesting look at one line at a time, with the brace depth at its start.  So a
registration is reported iff it fills no more than one line and that line starts inside braces
(`mem_checkLines_registration`); braces on the line itself count for the lines behind it.

The depth is at least the number of braces that were opened less those that were closed
(`balance_le_depthAfter`), and is that number where no prefix of the program closes more than it
opens (`depthAfter_eq`).
-/

namespace BlockSafe

open Pattern Text

/-! ## Depth -/

/-- The braces that a text opens, less those that it closes. -/
def balance (s : Text) : Int := s.count '{' - s.count '}'

/-- The brace depth behind a text that starts at some depth. -/
def depthAfter (depth : Nat) (s : Text) : Nat := (lines s).foldl depthAfterLine depth

variable {depth : Nat} {line brk rest : Text}

@[simp] theorem balance_append (s t : Text) : balance (s ++ t) = balance s + balance t := by
  simp only [balance, List.count_append]
  omega

theorem balance_break (h : LineBreak brk rest) : balance brk = 0 := by
  cases h <;> rfl

theorem depthAfter_oneLine (h : OneLine line) (depth : Nat) :
    depthAfter depth line = depthAfterLine depth line := by
  rw [depthAfter, lines_oneLine h]
  rfl

theorem depthAfter_line (hl : OneLine line) (hb : LineBreak brk rest) (depth : Nat) :
    depthAfter depth (line ++ (brk ++ rest)) = depthAfter (depthAfterLine depth line) rest := by
  rw [depthAfter, lines_break hl hb, List.foldl_cons]
  rfl

/-- Closing braces that close nothing are ignored at the end of a line. -/
theorem depthAfterLine_eq (depth : Nat) (line : Text) :
    (depthAfterLine depth line : Int) = max 0 (depth + balance line) := by
  unfold depthAfterLine balance
  omega

theorem balance_le_depthAfter (depth : Nat) (s : Text) :
    depth + balance s ≤ (depthAfter depth s : Int) := by
  induction s using line_induction generalizing depth with
  | last line hline =>
    have hdepth := depthAfterLine_eq depth line
    rw [depthAfter_oneLine hline]
    omega
  | line line brk rest hline hbreak ih =>
    have hdepth := depthAfterLine_eq depth line
    have hrest := ih (depthAfterLine depth line)
    rw [depthAfter_line hline hbreak, balance_append, balance_append, balance_break hbreak]
    omega

/-- Where nothing is closed that was not opened, the depth is the number of open braces. -/
theorem depthAfter_eq {s : Text} (h : ∀ u, u <+: s → 0 ≤ depth + balance u) :
    (depthAfter depth s : Int) = depth + balance s := by
  induction s using line_induction generalizing depth with
  | last line hline =>
    have hdepth := depthAfterLine_eq depth line
    have hall := h line (List.prefix_refl line)
    rw [depthAfter_oneLine hline]
    omega
  | line line brk rest hline hbreak ih =>
    have hdepth := depthAfterLine_eq depth line
    have hfirst := h line ⟨brk ++ rest, rfl⟩
    rw [depthAfter_line hline hbreak, balance_append, balance_append, balance_break hbreak, ih]
    · omega
    · rintro u ⟨v, rfl⟩
      have hlater := h (line ++ (brk ++ u)) ⟨v, by simp⟩
      rw [balance_append, balance_append, balance_break hbreak] at hlater
      omega

/-! ## Lines -/

theorem checkLinesFrom_append (depth : Nat) (above below : List Text) :
    checkLinesFrom depth (above ++ below) =
      checkLinesFrom depth above ++ checkLinesFrom (above.foldl depthAfterLine depth) below := by
  induction above generalizing depth with
  | nil => rfl
  | cons line above ih =>
    rw [List.cons_append, checkLinesFrom, checkLinesFrom, ih, List.append_assoc, List.foldl_cons]

/-- The text up to the start of its last line. -/
def lineStart (u : Text) : Text := dropEndWhile (fun c => !decide (IsBreak c)) u

theorem lineStart_oneLine (h : OneLine line) : lineStart line = [] := by
  refine List.rdropWhile_eq_nil_iff.2 fun c hc => ?_
  simpa using h c hc

theorem lineStart_line (h : LineBreak brk rest) (line u : Text) :
    lineStart (line ++ (brk ++ u)) = line ++ (brk ++ lineStart u) := by
  refine dropEndWhile_append h.ne_nil (fun c hc => ?_) line u
  have := h.isBreak c (List.mem_of_getLast? hc)
  simpa using this

theorem depthAfter_lineStart_oneLine (h : OneLine line) (depth : Nat) :
    depthAfter depth (lineStart line) = depth := by
  rw [lineStart_oneLine h]
  rfl

/-- Above a place behind the break stand the first line and what is above the place there. -/
theorem depthAfter_lineStart_line {w : Text} (hl : OneLine line) (hb : LineBreak brk rest)
    (hw : w <+: rest) (depth : Nat) : depthAfter depth (lineStart (line ++ (brk ++ w))) =
      depthAfter (depthAfterLine depth line) (lineStart w) := by
  rw [lineStart_line hb, depthAfter_line hl]
  exact hb.of_prefix ((dropEndWhile_isPrefix _ w).trans hw)

/-- Whether a word stands before a place behind the break is seen from that line alone. -/
theorem getLast_line (h : LineBreak brk rest) (line w : Text) :
    (line ++ (brk ++ w)).getLast?.any isWord = w.getLast?.any isWord := by
  have hbrk : (line ++ brk).getLast?.any isWord = false := by
    rw [List.getLast?_append_of_ne_nil _ h.ne_nil]
    cases h <;> decide
  rw [← List.append_assoc]
  exact any_getLast_append hbrk w

/-- A text without breaks stands in the first line or behind it. -/
theorem oneLine_in_lines {u m v : Text} (hb : LineBreak brk rest) (hm : OneLine m) (hne : m ≠ [])
    (h : line ++ (brk ++ rest) = u ++ (m ++ v)) :
    (∃ w, line = u ++ (m ++ w)) ∨ ∃ w, u = line ++ (brk ++ w) ∧ rest = w ++ (m ++ v) := by
  rcases List.append_eq_append_iff.1 h with ⟨t, rfl, ht⟩ | ⟨t, rfl, ht⟩
  · rcases List.append_eq_append_iff.1 ht with ⟨w, rfl, hw⟩ | ⟨b, rfl, hb'⟩
    · exact .inr ⟨w, rfl, hw⟩
    · have hbreaks : ∀ c ∈ b, IsBreak c := fun c hc => hb.isBreak c (List.mem_append_right t hc)
      by_cases hnil : b = []
      · rw [hnil, List.nil_append] at hb'
        rw [hnil, List.append_nil]
        exact .inr ⟨[], by rw [List.append_nil], hb'.symm⟩
      · exact absurd hb' (hm.ne_breaks hne hbreaks hnil rest v)
  · rcases List.append_eq_append_iff.1 ht with ⟨w, rfl, -⟩ | ⟨m', rfl, hm'⟩
    · exact .inl ⟨w, rfl⟩
    · have hline' : OneLine m' := fun c hc => hm c (List.mem_append_right t hc)
      by_cases hnil : m' = []
      · exact .inl ⟨[], by rw [hnil, List.append_nil, List.append_nil]⟩
      · exact absurd hm'.symm (hline'.ne_breaks hnil hb.isBreak hb.ne_nil rest v)

/-! ## Registrations -/

/-- What is reported of a line, and when. -/
theorem mem_checkLine {nested : Bool} {violation : Violation} : violation ∈ checkLine nested line ↔
    (violation = .nestedRegistration ∧ nested = true ∧ registrationPattern.occurs line = true) ∨
    (violation = .nestedFunction ∧ nested = true ∧ (functionParameters? line).isSome = true) ∨
    (violation = .defaultParameters ∧
      ((functionParameters? line).any (·.any fun c => c == '?' || c == '=')) = true) ∨
    (violation = .missingInitializer ∧ bareLetPattern.matchesAt (Cursor.start line) = true) := by
  have hif : ∀ {v : Violation} {b : Bool}, violation ∈ (if b = true then [v] else []) ↔
      violation = v ∧ b = true := by
    intro v b
    cases b <;> simp
  unfold checkLine
  rw [List.mem_append, List.mem_append, hif, hif, Bool.and_eq_true, or_assoc]
  refine or_congr_right ?_
  rw [← or_assoc]
  refine or_congr_left ?_
  cases functionParameters? line with
  | none => simp
  | some parameters =>
    rw [List.mem_append, hif, hif, Option.isSome_some, and_iff_left rfl]
    rfl

theorem mem_checkLine_registration (nested : Bool) (line : Text) :
    .nestedRegistration ∈ checkLine nested (trim line) ↔
      nested = true ∧ ∃ m, Registers m ∧ Stands false m line := by
  rw [mem_checkLine, occurs_registration_trim, occurs_registration]
  simp

/-- A registration is reported iff it stands on one line that starts inside braces. -/
theorem mem_checkLinesFrom_registration (code : Text) (depth : Nat) :
    .nestedRegistration ∈ checkLinesFrom depth (lines code) ↔
      ∃ u m v, code = u ++ (m ++ v) ∧ registrationPattern.Takes u.getLast? m v ∧ OneLine m ∧
        0 < depthAfter depth (lineStart u) := by
  simp only [takes_registration]
  induction code using line_induction generalizing depth with
  | last line hl =>
    rw [lines_oneLine hl, checkLinesFrom, checkLinesFrom, List.append_nil,
      mem_checkLine_registration, decide_eq_true_iff]
    constructor
    · rintro ⟨hdepth, m, hm, u, v, rfl, hu, -⟩
      obtain ⟨huline, hmline⟩ := hl.parts
      exact ⟨u, m, v, rfl, ⟨hu, hm⟩, hmline, by rwa [depthAfter_lineStart_oneLine huline]⟩
    · rintro ⟨u, m, v, rfl, ⟨hu, hm⟩, -, hdepth⟩
      rw [depthAfter_lineStart_oneLine hl.parts.1] at hdepth
      exact ⟨hdepth, m, hm, u, v, rfl, hu, rfl⟩
  | line line brk rest hl hbreak ih =>
    have hrest : _ ↔ _ := ih (depthAfterLine depth line)
    rw [lines_break hl hbreak, checkLinesFrom, List.mem_append, hrest,
      mem_checkLine_registration, decide_eq_true_iff]
    constructor
    · rintro (⟨hdepth, m, hm, u, v, rfl, hu, -⟩ | ⟨u, m, v, rfl, ⟨hu, hm⟩, hmline, hdepth⟩)
      · obtain ⟨huline, hmline⟩ := hl.parts
        exact ⟨u, m, v ++ (brk ++ rest), by simp, ⟨hu, hm⟩, hmline,
          by rwa [depthAfter_lineStart_oneLine huline]⟩
      · exact ⟨line ++ (brk ++ u), m, v, by simp, ⟨by rwa [getLast_line hbreak], hm⟩, hmline,
          by rwa [depthAfter_lineStart_line hl hbreak ⟨m ++ v, rfl⟩]⟩
    · rintro ⟨u, m, v, hcode, ⟨hu, hm⟩, hmline, hdepth⟩
      rcases oneLine_in_lines hbreak hmline hm.trimmed.1 hcode with ⟨w, rfl⟩ | ⟨w, rfl, rfl⟩
      · rw [depthAfter_lineStart_oneLine hl.parts.1] at hdepth
        exact .inl ⟨hdepth, m, hm, u, w, rfl, hu, rfl⟩
      · rw [getLast_line hbreak] at hu
        rw [depthAfter_lineStart_line hl hbreak ⟨m ++ v, rfl⟩] at hdepth
        exact .inr ⟨w, m, v, rfl, ⟨hu, hm⟩, hmline, hdepth⟩

theorem mem_checkLines_registration (code : Text) : .nestedRegistration ∈ checkLines code ↔
    ∃ u m v, code = u ++ (m ++ v) ∧ registrationPattern.Takes u.getLast? m v ∧ OneLine m ∧
      0 < depthAfterLines (lineStart u) :=
  mem_checkLinesFrom_registration code 0

/-- A registration stands on one line, and more braces were opened than closed before that line. -/
def NestedOnLine (code : Text) : Prop :=
  ∃ u m v, code = u ++ (m ++ v) ∧ registrationPattern.Takes u.getLast? m v ∧ OneLine m ∧
    0 < balance (lineStart u)

/-- **Nested registrations are caught line by line.**  A program is refused, for every target, if a
registration stands on one line of it and more braces were opened than closed before that line; in a
program that closes nothing that was not opened, these are the registrations that are reported. -/
theorem nested_registration (code : Text) :
    (NestedOnLine code → ∀ target, (validate code target).compliant = false) ∧
      ((∀ u, u <+: code → 0 ≤ balance u) →
        (.nestedRegistration ∈ checkLines code ↔ NestedOnLine code)) := by
  have hbalance : ∀ s, balance s ≤ (depthAfterLines s : Int) := by
    intro s
    have h := balance_le_depthAfter 0 s
    rwa [Int.natCast_zero, Int.zero_add] at h
  have hreported : NestedOnLine code → .nestedRegistration ∈ checkLines code := by
    rintro ⟨u, m, v, hcode, hm, hline, hopen⟩
    have hdepth := hbalance (lineStart u)
    exact (mem_checkLines_registration code).2 ⟨u, m, v, hcode, hm, hline, by omega⟩
  have hrefused : NestedOnLine code → ∀ target, (validate code target).compliant = false := by
    intro h target
    have hphase : .nestedRegistration ∈ Phase.lines.report code target := hreported h
    exact refused_of_report hphase
  refine ⟨hrefused, fun hclosed => ⟨fun h => ?_, hreported⟩⟩
  obtain ⟨u, m, v, rfl, hm, hline, hdepth⟩ := (mem_checkLines_registration code).1 h
  have hprefix : lineStart u <+: u ++ (m ++ v) :=
    (dropEndWhile_isPrefix _ u).trans (List.prefix_append u _)
  have hexact : (depthAfter 0 (lineStart u) : Int) = (0 : Nat) + balance (lineStart u) :=
    depthAfter_eq fun w hw => by simpa using hclosed w (hw.trans hprefix)
  have hsame : depthAfter 0 (lineStart u) = depthAfterLines (lineStart u) := rfl
  exact ⟨u, m, v, rfl, hm, hline, by omega⟩

/-- A registration in a block that starts on the line before. -/
theorem nested_registration_in_block :
    let code : Text := "if (true) \x7b\n    basic.forever(f)\n\x7d"
    NestedOnLine code ∧ (validate code .maker).compliant = false := by
  intro code
  have hnested : NestedOnLine code :=
    ⟨"if (true) \x7b\n    ", "basic.forever(", "f)\n\x7d", by decide,
      takes_registration.2 ⟨by decide, "basic.forever", [], .fixed (by decide), by decide, rfl⟩,
      by decide, by decide⟩
  exact ⟨hnested, (nested_registration code).1 hnested .maker⟩

/-- In a program without quotes and comments a registration stands inside braces, and the program is
accepted. -/
def Overlooked (code : Text) : Prop :=
  (∀ c ∈ code, c ∉ programQuotes ∧ c ≠ '/') ∧ (∀ u, u <+: code → 0 ≤ balance u) ∧
    (∃ u m v, code = u ++ (m ++ v) ∧ registrationPattern.Takes u.getLast? m v ∧ 0 < balance u) ∧
    (validate code .maker).compliant = true

/-- Behind a brace of its own line, or spread over two lines, a registration is not seen. -/
theorem registration_off_line : Overlooked "if (true) \x7bbasic.forever(f)\x7d" ∧
    Overlooked "if (true) \x7b\nbasic.forever\n(f)\n\x7d" := by
  have hname : Handles "basic.forever" := .fixed (by decide)
  have hinits : ∀ code : Text, (∀ u ∈ code.inits, 0 ≤ balance u) → ∀ u, u <+: code →
      0 ≤ balance u := fun code h u hu => h u ((List.mem_inits u code).2 hu)
  refine ⟨⟨by decide, hinits _ (by decide), ?sameLine, by decide +kernel⟩,
    ⟨by decide, hinits _ (by decide), ?spread, by decide +kernel⟩⟩
  case sameLine =>
    exact ⟨"if (true) \x7b", "basic.forever(", "f)\x7d", by decide,
      takes_registration.2 ⟨by decide, "basic.forever", [], hname, by decide, rfl⟩, by decide⟩
  case spread =>
    exact ⟨"if (true) \x7b\n", "basic.forever\n(", "f)\n\x7d", by decide,
      takes_registration.2 ⟨by decide, "basic.forever", ['\n'], hname, by decide, rfl⟩, by decide⟩

end BlockSafe
