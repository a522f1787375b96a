import BlockSafe.Proofs.Rule.Nesting

/-!
# Units of a program

The rules on nesting carry one number from line to line, the brace depth.  Behind a unit, a text at
whose end no brace is open, they start again as at the start of a program:

    depthAfterLines a = 0 → checkLines (a ++ '\n' :: b) = checkLines a ++ checkLines b

and that holds of no other text (`checkLines_units`).  Where `a` ends with a carriage return, it and
the line feed are one break, so that the empty line at the end of `a` is gone; nothing is reported of
an empty line, and it leaves the depth as it is.
-/

namespace BlockSafe

open Text

variable {line : Text}

/-! ## Lines on both sides of a line feed -/

/-- A text has the lines before a line feed, apart from an empty one at its end, and the lines
behind it. -/
theorem lines_feed (a b : Text) : ∃ above, lines (a ++ '\n' :: b) = above ++ lines b ∧
    (lines a = above ∨ lines a = above ++ [[]]) := by
  induction a using line_induction with
  | last line hline =>
    have hfeed : LineBreak ['\n'] b := .feed
    exact ⟨[line], lines_break hline hfeed, .inl (lines_oneLine hline)⟩
  | line line brk rest hline hbreak ih =>
    have hlater : LineBreak brk (rest ++ '\n' :: b) → ∃ above,
        lines (line ++ (brk ++ rest) ++ '\n' :: b) = above ++ lines b ∧
          (lines (line ++ (brk ++ rest)) = above ∨
            lines (line ++ (brk ++ rest)) = above ++ [[]]) := by
      intro hbreak'
      obtain ⟨above, hboth, ha⟩ := ih
      refine ⟨line :: above, ?_, ?_⟩
      · rw [List.append_assoc, List.append_assoc, lines_break hline hbreak', hboth,
          List.cons_append]
      · rw [lines_break hline hbreak]
        exact ha.imp (congrArg (line :: ·)) (congrArg (line :: ·))
    cases hbreak with
    | feed => exact hlater .feed
    | pair => exact hlater .pair
    | carriage hhead =>
      cases rest with
      | nil =>
        -- The carriage return at the end and the line feed are one break.
        have hpair : LineBreak ['\r', '\n'] b := .pair
        refine ⟨[line], ?_, .inr ?_⟩
        · rw [List.append_assoc]
          exact lines_break hline hpair
        · exact lines_break hline (.carriage hhead)
      | cons c rest => exact hlater (.carriage hhead)

/-! ## Depth and reports -/

/-- Nothing is reported of an empty line. -/
theorem checkLine_nil (nested : Bool) : checkLine nested [] = [] := by
  cases nested <;> decide

theorem checkLinesFrom_empty (depth : Nat) : checkLinesFrom depth [[]] = [] := by
  rw [checkLinesFrom, checkLinesFrom, List.append_nil]
  exact checkLine_nil _

theorem checkLinesFrom_feed (depth : Nat) (a b : Text) :
    checkLinesFrom depth (lines (a ++ '\n' :: b)) =
      checkLinesFrom depth (lines a) ++ checkLinesFrom (depthAfter depth a) (lines b) := by
  obtain ⟨above, hboth, ha | ha⟩ := lines_feed a b
  · rw [hboth, checkLinesFrom_append, depthAfter, ha]
  · rw [hboth, checkLinesFrom_append, depthAfter, ha, checkLinesFrom_append, checkLinesFrom_empty,
      List.append_nil, List.foldl_append]
    rfl

theorem depthAfter_feed (depth : Nat) (a b : Text) :
    depthAfter depth (a ++ '\n' :: b) = depthAfter (depthAfter depth a) b := by
  obtain ⟨above, hboth, ha | ha⟩ := lines_feed a b
  · rw [depthAfter, hboth, List.foldl_append, depthAfter, depthAfter, ha]
  · rw [depthAfter, hboth, List.foldl_append, depthAfter, depthAfter, ha, List.foldl_append]
    rfl

/-- A registration on a line of its own tells whether that line starts inside braces. -/
theorem checkLinesFrom_registration (depth : Nat) :
    checkLinesFrom depth (lines "basic.forever(f)") = [] ↔ depth = 0 := by
  have hline : lines "basic.forever(f)" = ["basic.forever(f)".toList] :=
    lines_oneLine (by decide)
  rw [hline, checkLinesFrom, checkLinesFrom, List.append_nil]
  cases depth with
  | zero => decide
  | succ depth =>
    have hnested : checkLine true (trim "basic.forever(f)") = [.nestedRegistration] := by decide
    rw [decide_eq_true (Nat.succ_pos depth), hnested]
    exact iff_of_false (List.cons_ne_nil _ _) (Nat.succ_ne_zero depth)

/-! ## Units -/

theorem checkLines_feed (a b : Text) : checkLines (a ++ '\n' :: b) =
    checkLines a ++ checkLinesFrom (depthAfterLines a) (lines b) :=
  checkLinesFrom_feed 0 a b

theorem checkLines_append_unit {a : Text} (h : depthAfterLines a = 0) (b : Text) :
    checkLines (a ++ '\n' :: b) = checkLines a ++ checkLines b := by
  rw [checkLines_feed, h]
  rfl

theorem depthAfterLines_append_unit {a : Text} (h : depthAfterLines a = 0) (b : Text) :
    depthAfterLines (a ++ '\n' :: b) = depthAfterLines b := by
  have hfeed : depthAfterLines (a ++ '\n' :: b) = depthAfter (depthAfterLines a) b :=
    depthAfter_feed 0 a b
  rw [hfeed, h]
  rfl

/-- Units in a row are checked one by one. -/
theorem checkLines_join {units : List Text} (h : ∀ unit ∈ units, depthAfterLines unit = 0) :
    checkLines (join ['\n'] units) = units.flatMap checkLines ∧
      depthAfterLines (join ['\n'] units) = 0 := by
  induction units with
  | nil => decide
  | cons unit units ih =>
    obtain ⟨hunit, hunits⟩ := List.forall_mem_cons.1 h
    cases units with
    | nil =>
      rw [join_singleton, List.flatMap_cons, List.flatMap_nil, List.append_nil]
      exact ⟨rfl, hunit⟩
    | cons next units =>
      obtain ⟨hreports, hdepth⟩ := ih hunits
      rw [join_cons_cons, checkLines_append_unit hunit, depthAfterLines_append_unit hunit, hreports,
        List.flatMap_cons]
      exact ⟨rfl, hdepth⟩

/-- **The rules on nesting compose over units.**  Behind a text that leaves no brace open, and a line
feed, another text is checked as on its own, whatever the breaks in both are and also where the first
one ends with a carriage return; this is so for every other text iff no brace is left open.  Of any
number of such texts, one to a line or more, the reports are those on each, one after the other. -/
theorem checkLines_units :
    (∀ a, depthAfterLines a = 0 ↔
      ∀ b, checkLines (a ++ '\n' :: b) = checkLines a ++ checkLines b) ∧
    ∀ units, (∀ unit ∈ units, depthAfterLines unit = 0) →
      checkLines (join ['\n'] units) = units.flatMap checkLines ∧
        depthAfterLines (join ['\n'] units) = 0 := by
  refine ⟨fun a => ⟨checkLines_append_unit, fun h => ?_⟩, fun _ => checkLines_join⟩
  have hprobe := h "basic.forever(f)"
  have htop : checkLines "basic.forever(f)" = [] := (checkLinesFrom_registration 0).2 rfl
  rw [checkLines_feed, htop, List.append_right_inj] at hprobe
  exact (checkLinesFrom_registration (depthAfterLines a)).1 hprobe

/-- A block with both characters in its breaks and a carriage return at its end, and two lines with
a carriage return between them. -/
theorem checkLines_units_returned :
    let a : Text := "if (true) \x7b\r\n    basic.pause(5)\r\n\x7d\r"
    let b : Text := "let y\rbasic.forever(f)"
    depthAfterLines a = 0 ∧ checkLines (a ++ '\n' :: b) = checkLines a ++ checkLines b ∧
      checkLines (join ['\n'] [a, b]) = [.missingInitializer] := by
  intro a b
  have ha : depthAfterLines a = 0 := by decide
  have hunits : ∀ unit ∈ [a, b], depthAfterLines unit = 0 := by decide
  refine ⟨ha, (checkLines_units.1 a).1 ha b, ?_⟩
  rw [(checkLines_units.2 [a, b] hunits).1]
  decide

end BlockSafe
