import BlockSafe.Proofs.Json.Depth
import BlockSafe.Proofs.Text.LineBreaks

/-!
# White space between tokens

No token holds a tab, a line feed or a carriage return, so whatever becomes of these characters, as
long as it is white space again, the value stays the same (`Spells.respace`) and so does the bracket
that is one too many (`Overfills.respace`).  Hence a value is read alike with either kind of line
break:

    '\r' ∉ s → Json.read room s.crlf = Json.read room s                         (Json.read_crlf)
-/

namespace BlockSafe

/-! ## Tokens -/

/-- No control character. -/
def Printable (s : Text) : Prop := ∀ c ∈ s, 32 ≤ c.toNat

theorem Printable.cons {c : Char} {s : Text} (hc : 32 ≤ c.toNat) (hs : Printable s) :
    Printable (c :: s) :=
  List.forall_mem_cons.2 ⟨hc, hs⟩

theorem printable_nil : Printable [] := List.forall_mem_nil _

/-- What is not below a printable character is printable. -/
theorem printable_of_le {c d : Char} (hd : 32 ≤ d.toNat) (h : d ≤ c) : 32 ≤ c.toNat :=
  Nat.le_trans hd h

theorem printable_of_inNumber {c : Char} (h : InNumber c) : 32 ≤ c.toNat := by
  rcases h with hdigit | hmark
  · simp only [Char.isDigit, Bool.and_eq_true, decide_eq_true_iff] at hdigit
    exact printable_of_le (d := '0') (by decide) hdigit.1
  · have hmarks : ∀ c ∈ "+-.eENaInfity".toList, 32 ≤ c.toNat := by decide
    exact hmarks c hmark

theorem SpellsNumber.printable {c : Text} {n : Number} (h : SpellsNumber c n) : Printable c :=
  fun d hd => printable_of_inNumber (h.inNumber d hd)

theorem printable_escape {e c : Char} (h : escapedChar? e = some c) : 32 ≤ e.toNat := by
  unfold escapedChar? at h
  split at h
  all_goals first | decide | cases h

theorem printable_hexDigit {c : Char} {n : Nat} (h : hexValue? c = some n) : 32 ≤ c.toNat := by
  unfold hexValue? at h
  split at h
  · next hc => exact printable_of_le (d := '0') (by decide) hc.1
  · split at h
    · next hc => exact printable_of_le (d := 'a') (by decide) hc.1
    · split at h
      · next hc => exact printable_of_le (d := 'A') (by decide) hc.1
      · cases h

theorem SpellsUnits.printable {u : Text} {units : List Nat} (h : SpellsUnits u units) :
    Printable u := by
  induction h with
  | nil => exact printable_nil
  | plain hp _ _ _ ih => exact ih.cons hp
  | escape letter _ ih => exact (ih.cons (printable_escape letter)).cons (by decide)
  | unit hex _ ih =>
    obtain ⟨ha, hb, hc, hd⟩ := digits_of_hexUnit? printable_hexDigit hex
    have hdigits := (((ih.cons hd).cons hc).cons hb).cons ha
    exact (hdigits.cons (by decide)).cons (by decide)

/-! ## Other white space -/

/-- Every character that a token may hold stays, and white space becomes white space or nothing. -/
structure Respacing (g : Char → Text) : Prop where
  keeps : ∀ c, 32 ≤ c.toNat → g c = [c]
  spaces : ∀ c, isJsonSpace c = true → Gap (g c)

namespace Respacing

variable {g : Char → Text} (hg : Respacing g)
include hg

theorem cons {c : Char} (hc : 32 ≤ c.toNat) (s : Text) : (c :: s).flatMap g = c :: s.flatMap g := by
  rw [List.flatMap_cons, hg.keeps c hc]
  rfl

theorem eq_self {s : Text} (hs : Printable s) : s.flatMap g = s := by
  induction s with
  | nil => rfl
  | cons c s ih =>
    rw [hg.cons (hs c List.mem_cons_self), ih fun d hd => hs d (List.mem_cons_of_mem c hd)]

theorem gap {w : Text} (hw : Gap w) : Gap (w.flatMap g) := by
  intro c hc
  obtain ⟨d, hd, hcd⟩ := List.mem_flatMap.1 hc
  exact hg.spaces d (hw d hd) c hcd

theorem name {k key : Text} (h : SpellsName k key) : SpellsName (k.flatMap g) key := by
  obtain ⟨hu, before, behind⟩ := h
  have h := SpellsName.mk hu (hg.gap before) (hg.gap behind)
  rw [hg.cons (by decide), List.flatMap_append, hg.eq_self hu.printable, hg.cons (by decide),
    List.flatMap_append, hg.cons (by decide)]
  exact h

end Respacing

/-- What a text writes does not depend on the white space between its tokens. -/
theorem Spells.respace {g : Char → Text} (hg : Respacing g) {room : Nat} {c : Text} {part : Part}
    (h : Spells room c part) : Spells room (c.flatMap g) part := by
  induction h with
  | null =>
    rw [hg.eq_self (Text.forall_of_all (by decide))]
    exact .null
  | yes =>
    rw [hg.eq_self (Text.forall_of_all (by decide))]
    exact .yes
  | no =>
    rw [hg.eq_self (Text.forall_of_all (by decide))]
    exact .no
  | number h =>
    rw [hg.eq_self h.printable]
    exact .number h
  | text h =>
    rw [hg.cons (by decide), List.flatMap_append, hg.eq_self h.printable, hg.cons (by decide)]
    exact .text h
  | emptyList gap =>
    rw [hg.cons (by decide), List.flatMap_append, hg.cons (by decide)]
    exact .emptyList (hg.gap gap)
  | list gap _ ih =>
    rw [hg.cons (by decide), List.flatMap_append]
    exact .list (hg.gap gap) ih
  | emptyObject gap =>
    rw [hg.cons (by decide), List.flatMap_append, hg.cons (by decide)]
    exact .emptyObject (hg.gap gap)
  | object gap _ ih =>
    rw [hg.cons (by decide), List.flatMap_append]
    exact .object (hg.gap gap) ih
  | lastItem _ gap ih =>
    rw [List.flatMap_append, List.flatMap_append, hg.cons (by decide)]
    exact .lastItem ih (hg.gap gap)
  | item _ before behind _ ih ihs =>
    rw [List.flatMap_append, List.flatMap_append, hg.cons (by decide), List.flatMap_append]
    exact .item ih (hg.gap before) (hg.gap behind) ihs
  | lastField name _ gap ih =>
    rw [List.flatMap_append, List.flatMap_append, List.flatMap_append, hg.cons (by decide)]
    exact .lastField (hg.name name) ih (hg.gap gap)
  | field name _ before behind _ ih ihs =>
    rw [List.flatMap_append, List.flatMap_append, List.flatMap_append, hg.cons (by decide),
      List.flatMap_append]
    exact .field (hg.name name) ih (hg.gap before) (hg.gap behind) ihs

/-- Neither does where the brackets become too many. -/
theorem Overfills.respace {g : Char → Text} (hg : Respacing g) {room : Nat} {c : Text}
    {place : Place} {opening : Bracket} (h : Overfills room c place opening) :
    Overfills room (c.flatMap g) place opening := by
  induction h with
  | opensList =>
    rw [hg.cons (by decide)]
    exact .opensList
  | opensObject =>
    rw [hg.cons (by decide)]
    exact .opensObject
  | list gap _ ih =>
    rw [hg.cons (by decide), List.flatMap_append]
    exact .list (hg.gap gap) ih
  | object gap _ ih =>
    rw [hg.cons (by decide), List.flatMap_append]
    exact .object (hg.gap gap) ih
  | item _ ih => exact .item ih
  | laterItem item before behind _ ih =>
    rw [List.flatMap_append, List.flatMap_append, hg.cons (by decide), List.flatMap_append]
    exact .laterItem (item.respace hg) (hg.gap before) (hg.gap behind) ih
  | field name _ ih =>
    rw [List.flatMap_append]
    exact .field (hg.name name) ih
  | laterField name value before behind _ ih =>
    rw [List.flatMap_append, List.flatMap_append, List.flatMap_append, hg.cons (by decide),
      List.flatMap_append]
    exact .laterField (hg.name name) (value.respace hg) (hg.gap before) (hg.gap behind) ih

/-- Whatever is not malformed is read alike. -/
theorem Json.read_respace {g : Char → Text} (hg : Respacing g) {room : Nat} {s : Text}
    (h : Json.read room s ≠ .error .malformed) :
    Json.read room (s.flatMap g) = Json.read room s := by
  cases hs : Json.read room s with
  | ok v =>
    obtain ⟨w, c, w', rfl, gap, gap', hc⟩ := Json.read_eq_ok.1 hs
    rw [List.flatMap_append, List.flatMap_append]
    exact Json.read_eq_ok.2 ⟨_, _, _, rfl, hg.gap gap, hg.gap gap', hc.respace hg⟩
  | error e =>
    cases e with
    | malformed => exact absurd hs h
    | tooDeep opening =>
      obtain ⟨w, c, t, rfl, gap, hc⟩ := Json.read_eq_tooDeep.1 hs
      rw [List.flatMap_append, List.flatMap_append]
      exact Json.read_eq_tooDeep.2 ⟨_, _, _, rfl, hg.gap gap, hc.respace hg⟩

/-! ## Line breaks -/

/-- One control character may become any white space. -/
theorem respacing_control {x : Char} {w : Text} (hx : x.toNat < 32) (hw : Gap w) :
    Respacing fun c => if c = x then w else [c] where
  keeps c hc := by
    rw [if_neg]
    rintro rfl
    exact Nat.not_le_of_lt hx hc
  spaces c hc := by
    split
    · exact hw
    · intro d hd
      rwa [List.mem_singleton.1 hd]

/-- Leaving out carriage returns undoes `crlf`. -/
theorem noReturn_crlf {s : Text} (h : '\r' ∉ s) :
    (s.crlf.flatMap fun c => if c = '\r' then [] else [c]) = s := by
  induction s with
  | nil => rfl
  | cons c s ih =>
    rw [List.mem_cons, not_or] at h
    by_cases hc : c = '\n'
    · subst hc
      simp [ih h.2]
    · rw [Text.crlf_cons hc, List.flatMap_cons, if_neg (Ne.symm h.1), ih h.2]
      rfl

/-- A value is read alike with either kind of line break. -/
theorem Json.read_crlf {s : Text} (h : '\r' ∉ s) (room : Nat) :
    Json.read room s.crlf = Json.read room s := by
  have hcrlf := respacing_control (x := '\n') (w := ['\r', '\n']) (by decide)
    (Text.forall_of_all (by decide))
  have hplain := respacing_control (x := '\r') (by decide) gap_nil
  by_cases hs : Json.read room s = .error .malformed
  · by_cases ht : Json.read room s.crlf = .error .malformed
    · rw [hs, ht]
    · have hback := Json.read_respace hplain ht
      rwa [noReturn_crlf h, eq_comm] at hback
  · exact Json.read_respace hcrlf hs

end BlockSafe
