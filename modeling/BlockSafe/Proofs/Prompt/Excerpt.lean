import BlockSafe.Prompt.Excerpt
import BlockSafe.Proofs.Text.Ends

/-!
# Excerpts are faithful

A program that is cut keeps two ends of itself, with something left out between them and nothing
else changed.  The shares of the two ends never meet, however small the room, and what an end has
less than its share is white space next to the cut (`keptEnds_split`):

    code = head ++ (before ++ (cut ++ (behind ++ tail)))

So an excerpt is the program itself, or its two ends around the marker, with the number of
characters that stood there in the program (`excerpt_faithful`).
-/

namespace BlockSafe

/-! ## The two ends -/

/-- A text with more characters than its two ends have. -/
theorem split_ends {s : Text} {a b : Nat} (h : a + b < s.length) :
    ∃ cut, cut ≠ [] ∧ s = s.take a ++ (cut ++ s.drop (s.length - b)) := by
  refine ⟨(s.drop a).take (s.length - b - a), ?_, ?_⟩
  · rw [← List.length_pos_iff, List.length_take, List.length_drop]
    omega
  · have htail : (s.drop a).drop (s.length - b - a) = s.drop (s.length - b) := by
      rw [List.drop_drop]
      congr 1
      omega
    rw [← htail, List.take_append_drop, List.take_append_drop]

theorem headShare_le (room : Nat) : headShare room ≤ room := by
  unfold headShare
  omega

/-- The ends that are kept stand in the program with something between them, and fill the room but
for white space next to the cut. -/
theorem keptEnds_split {code : Text} {room : Nat} (h : room < code.length) :
    ∃ before cut behind, Text.Blank before ∧ cut ≠ [] ∧ Text.Blank behind ∧
      code = (keptEnds code room).1 ++ (before ++ (cut ++ (behind ++ (keptEnds code room).2))) ∧
      ((keptEnds code room).1 ++ before).length = headShare room ∧
      (behind ++ (keptEnds code room).2).length = room - headShare room := by
  have hshare := headShare_le room
  obtain ⟨cut, hcut, hcode⟩ :=
    split_ends (s := code) (a := headShare room) (b := room - headShare room) (by omega)
  obtain ⟨before, hhead, hbefore⟩ : ∃ before, code.take (headShare room) =
      (keptEnds code room).1 ++ before ∧ Text.Blank before :=
    Text.dropEndWhile_split isSpace _
  obtain ⟨behind, hbehind, htail⟩ : ∃ behind, Text.Blank behind ∧
      code.drop (code.length - (room - headShare room)) = behind ++ (keptEnds code room).2 := by
    obtain ⟨behind, hbehind, -, htail⟩ := Text.trimStart_eq_iff.1
      (rfl : Text.trimStart (code.drop (code.length - (room - headShare room))) = _)
    exact ⟨behind, hbehind, htail⟩
  refine ⟨before, cut, behind, hbefore, hcut, hbehind, ?_, ?_, ?_⟩
  · rwa [hhead, htail, List.append_assoc] at hcode
  · rw [← hhead, List.length_take]
    omega
  · rw [← htail, List.length_drop]
    omega

/-! ## Main result -/

/-- An excerpt that keeps the two ends `head` and `tail` of a program around the marker. -/
structure Excerpt.Keeps (kept : Excerpt) (code marker head tail : Text) : Prop where
  text : kept.text = head ++ marker ++ tail
  truncated : kept.truncated = true
  /-- The number of characters is that of what stood between the two, and there was something. -/
  omitted : ∃ cut, cut ≠ [] ∧ code = head ++ (cut ++ tail) ∧ kept.omitted = cut.length

/-- A program that is to be cut keeps the ends that fit beside the marker. -/
theorem excerpt_cut {code : Text} {limit : Int} (marker : Text) (hblank : ¬ Text.Blank code)
    (hlimit : limit ≠ 0) (hlong : limit < code.length) :
    ∃ head tail, (excerpt code limit marker).Keeps code marker head tail ∧
      head.length + tail.length ≤ (limit - marker.length).toNat := by
  have hcase : ¬(limit = 0 ∨ (code.length : Int) ≤ limit) := by omega
  have hne : code ≠ [] := by
    rintro rfl
    exact hblank (by simp [Text.Blank])
  have hlength := List.length_pos_iff.2 hne
  rw [excerpt, if_neg (Text.isBlank_iff.not.2 hblank), if_neg hcase]
  obtain ⟨room, hroom⟩ : ∃ room, room = (limit - marker.length).toNat := ⟨_, rfl⟩
  have hfits : room < code.length := by omega
  rw [← hroom]
  obtain ⟨before, cut, behind, -, hcut, -, hcode, hfront, hback⟩ := keptEnds_split hfits
  have hshare := headShare_le room
  generalize keptEnds code room = ends at hcode hfront hback ⊢
  obtain ⟨head, tail⟩ := ends
  have hsum := congrArg List.length hcode
  simp only [List.length_append] at hsum hfront hback
  refine ⟨head, tail, ⟨rfl, rfl, before ++ (cut ++ behind), ?_, ?_, ?_⟩, by omega⟩
  · exact List.append_ne_nil_of_right_ne_nil _ (List.append_ne_nil_of_left_ne_nil hcut _)
  · simpa only [List.append_assoc] using hcode
  · simp only [List.length_append]
    omega

/-- **Excerpts are faithful.**  A blank program has an empty excerpt, and one that is not to be cut
is quoted as it is.  Otherwise a proper start and a proper end of it stand around the marker, both
together in the room that the marker leaves; a limit that has room for the marker is kept. -/
theorem excerpt_faithful (code marker : Text) (limit : Int) :
    (Text.Blank code → excerpt code limit marker = ⟨[], false, 0⟩) ∧
    (¬ Text.Blank code → limit = 0 ∨ code.length ≤ limit →
      excerpt code limit marker = ⟨code, false, 0⟩) ∧
    (¬ Text.Blank code → limit ≠ 0 → limit < code.length →
      ∃ head tail, (excerpt code limit marker).Keeps code marker head tail ∧
        (head.length + tail.length : Int) ≤ max 0 (limit - marker.length) ∧
        (marker.length ≤ limit → (excerpt code limit marker).text.length ≤ limit)) := by
  refine ⟨fun hblank => ?_, fun hblank huncut => ?_, fun hblank hlimit hlong => ?_⟩
  · rw [excerpt, if_pos (Text.isBlank_iff.2 hblank)]
  · rw [excerpt, if_neg (Text.isBlank_iff.not.2 hblank), if_pos huncut]
  · obtain ⟨head, tail, hkeeps, hroom⟩ := excerpt_cut marker hblank hlimit hlong
    refine ⟨head, tail, hkeeps, by omega, fun hmarker => ?_⟩
    rw [hkeeps.text, List.length_append, List.length_append]
    omega

/-- A marker that leaves two characters for either end, one of which is white space next to the
cut. -/
theorem excerpt_faithful_small :
    ¬ Text.Blank "a b c d e".toList ∧
      ∃ head tail, (excerpt "a b c d e" 7 "...").Keeps "a b c d e" "..." head tail ∧
        excerpt "a b c d e" 7 "..." = ⟨"a...e".toList, true, 7⟩ := by
  have hblank : ¬ Text.Blank "a b c d e".toList := by decide +kernel
  obtain ⟨head, tail, hkeeps, -⟩ :=
    (excerpt_faithful "a b c d e" "..." 7).2.2 hblank (by decide) (by decide)
  exact ⟨hblank, head, tail, hkeeps, by decide +kernel⟩

end BlockSafe
