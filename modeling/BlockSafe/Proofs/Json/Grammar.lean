import BlockSafe.Proofs.Json.Numeral

/-!
# The grammar of structured values

Which text writes which value, apart from how it is read: `SpellsUnits` for what stands between
the quotes of a text, `Spells` for values, for the items of a list up to its closing bracket and
for the fields of an object up to its closing brace, with the room that its brackets take.  White
space may stand between any two tokens, never inside one (`Gap`).  The reader accepts what the
grammar spells and nothing else:

    Json.read room s = .ok v ↔
      ∃ w c w', s = w ++ (c ++ w') ∧ Gap w ∧ Gap w' ∧ Spells room c (.value v)    (Json.read_eq_ok)

More room is no harm (`Spells.mono`), so it matters only whether there is enough.
-/

namespace BlockSafe

/-! ## White space -/

/-- White space between tokens. -/
def Gap (w : Text) : Prop := ∀ c ∈ w, isJsonSpace c = true

theorem isJsonSpace_iff {c : Char} :
    isJsonSpace c = true ↔ c = ' ' ∨ c = '\t' ∨ c = '\n' ∨ c = '\r' := by
  simp only [isJsonSpace, Bool.or_eq_true, beq_iff_eq, or_assoc]

theorem gap_nil : Gap [] := by
  intro c hc
  cases hc

theorem gap_space : Gap [' '] := by
  intro c hc
  rw [List.mem_singleton.1 hc]
  rfl

/-- Skipping drops a gap, and nothing but a gap. -/
theorem skipJsonSpace_gap {w s : Text} (hw : Gap w) (hs : ∀ c ∈ s.head?, isJsonSpace c = false) :
    skipJsonSpace (w ++ s) = s := by
  unfold skipJsonSpace
  rw [List.dropWhile_append_of_pos hw, Text.dropWhile_eq_self hs]

theorem skipJsonSpace_split (s : Text) : ∃ w, s = w ++ skipJsonSpace s ∧ Gap w :=
  ⟨s.takeWhile isJsonSpace, List.takeWhile_append_dropWhile.symm,
    fun _ hc => List.mem_takeWhile_imp hc⟩

/-! ## Texts in quotes -/

/-- `u`, between two quotes, writes the code points and units `units`. -/
inductive SpellsUnits : Text → List Nat → Prop where
  | nil : SpellsUnits [] []
  | plain {c : Char} {u units} (printable : 32 ≤ c.toNat) (quote : c ≠ '"') (slash : c ≠ '\\')
      (rest : SpellsUnits u units) : SpellsUnits (c :: u) (c.toNat :: units)
  | escape {e c : Char} {u units} (letter : escapedChar? e = some c)
      (rest : SpellsUnits u units) : SpellsUnits ('\\' :: e :: u) (c.toNat :: units)
  | unit {a b c d : Char} {n : Nat} {u units} (hex : hexUnit? a b c d = some n)
      (rest : SpellsUnits u units) :
      SpellsUnits ('\\' :: 'u' :: a :: b :: c :: d :: u) (n :: units)

/-- What every hexadecimal digit is, the four digits of a unit are. -/
theorem digits_of_hexUnit? {P : Char → Prop} (hP : ∀ {x n}, hexValue? x = some n → P x)
    {a b c d : Char} {n : Nat} (h : hexUnit? a b c d = some n) : P a ∧ P b ∧ P c ∧ P d := by
  simp only [hexUnit?, Option.bind_eq_bind, Option.bind_eq_some_iff] at h
  obtain ⟨_, ha, _, hb, _, hc, _, hd, -⟩ := h
  exact ⟨hP ha, hP hb, hP hc, hP hd⟩

theorem readUnits_sound {s tail : Text} {units : List Nat}
    (h : readUnits s = some (units, tail)) : ∃ u, s = u ++ '"' :: tail ∧ SpellsUnits u units := by
  fun_induction readUnits s generalizing units tail with
  | case1 => cases h
  | case2 rest =>
    cases h
    exact ⟨[], rfl, .nil⟩
  | case3 a b c d rest n us t hr hn ih =>
    cases h
    obtain ⟨u, rfl, hu⟩ := ih hr
    exact ⟨'\\' :: 'u' :: a :: b :: c :: d :: u, rfl, .unit hn hu⟩
  | case4 => cases h
  | case5 e rest _ c us t hr hc ih =>
    cases h
    obtain ⟨u, rfl, hu⟩ := ih hr
    exact ⟨'\\' :: e :: u, rfl, .escape hc hu⟩
  | case6 => cases h
  | case7 => cases h
  | case8 c rest hq _ _ hc us t hr ih =>
    cases h
    obtain ⟨u, rfl, hu⟩ := ih hr
    have hc' := not_or.1 hc
    exact ⟨c :: u, rfl, .plain (by omega) hq hc'.2 hu⟩
  | case9 => cases h

theorem SpellsUnits.readUnits_eq {u : Text} {units : List Nat} (h : SpellsUnits u units)
    (tail : Text) : readUnits (u ++ '"' :: tail) = some (units, tail) := by
  induction h with
  | nil => rw [List.nil_append, readUnits]
  | @plain c u units hp hq hs _ ih =>
    have hc : ¬(c.toNat < 32 ∨ c = '\\') := by
      rintro (h | h)
      · omega
      · exact hs h
    rw [List.cons_append, readUnits, if_neg hc, ih]
    · exact hq
    · exact fun _ _ _ _ _ h => absurd h hs
    · exact fun _ _ h => absurd h hs
  | @escape e c u units hc _ ih =>
    have he : e ≠ 'u' := by
      rintro rfl
      cases hc
    rw [List.cons_append, List.cons_append, readUnits, hc, ih]
    exact fun _ _ _ _ _ h => absurd h he
  | unit hn _ ih =>
    simp only [List.cons_append]
    rw [readUnits, hn, ih]

/-! ## Values -/

/-- What is read as a whole: a value, the items of a list up to its closing bracket, or the fields
of an object up to its closing brace. -/
inductive Part where
  | value (v : Json)
  | items (vs : List Json)
  | fields (pairs : List (Text × Json))

/-- The name of a field with the colon behind it. -/
inductive SpellsName : Text → Text → Prop where
  | mk {u units w w'} (name : SpellsUnits u units) (before : Gap w) (behind : Gap w') :
      SpellsName ('"' :: (u ++ '"' :: (w ++ ':' :: w'))) (joinUnits units)

/-- The text `c` writes a value, or items or fields, with at most `room` brackets open at once. -/
inductive Spells : Nat → Text → Part → Prop where
  | null {room} : Spells room "null" (.value .null)
  | yes {room} : Spells room "true" (.value (.bool true))
  | no {room} : Spells room "false" (.value (.bool false))
  | number {room c n} (number : SpellsNumber c n) : Spells room c (.value (.num n))
  | text {room u units} (text : SpellsUnits u units) :
      Spells room ('"' :: (u ++ ['"'])) (.value (.str (joinUnits units)))
  | emptyList {room w} (gap : Gap w) : Spells (room + 1) ('[' :: (w ++ [']'])) (.value (.list []))
  | list {room w c vs} (gap : Gap w) (items : Spells room c (.items vs)) :
      Spells (room + 1) ('[' :: (w ++ c)) (.value (.list vs))
  | emptyObject {room w} (gap : Gap w) :
      Spells (room + 1) ('{' :: (w ++ ['}'])) (.value (.object []))
  | object {room w c pairs} (gap : Gap w) (fields : Spells room c (.fields pairs)) :
      Spells (room + 1) ('{' :: (w ++ c)) (.value (.object (Fields.ofPairs pairs)))
  | lastItem {room c w v} (item : Spells room c (.value v)) (gap : Gap w) :
      Spells room (c ++ (w ++ [']'])) (.items [v])
  | item {room c w w' c' v vs} (item : Spells room c (.value v)) (before : Gap w)
      (behind : Gap w') (items : Spells room c' (.items vs)) :
      Spells room (c ++ (w ++ ',' :: (w' ++ c'))) (.items (v :: vs))
  | lastField {room k key c w v} (name : SpellsName k key) (value : Spells room c (.value v))
      (gap : Gap w) : Spells room (k ++ (c ++ (w ++ ['}']))) (.fields [(key, v)])
  | field {room k key c w w' c' v pairs} (name : SpellsName k key)
      (value : Spells room c (.value v)) (before : Gap w) (behind : Gap w')
      (fields : Spells room c' (.fields pairs)) :
      Spells room (k ++ (c ++ (w ++ ',' :: (w' ++ c')))) (.fields ((key, v) :: pairs))

/-- More room is no harm. -/
theorem Spells.mono {room : Nat} {c : Text} {part : Part} (h : Spells room c part) {more : Nat}
    (hle : room ≤ more) : Spells more c part := by
  induction h generalizing more with
  | null => exact .null
  | yes => exact .yes
  | no => exact .no
  | number number => exact .number number
  | text text => exact .text text
  | emptyList gap =>
    obtain ⟨more, rfl⟩ := Nat.exists_eq_add_of_le' (Nat.one_le_of_lt hle)
    exact .emptyList gap
  | list gap _ ih =>
    obtain ⟨more, rfl⟩ := Nat.exists_eq_add_of_le' (Nat.one_le_of_lt hle)
    exact .list gap (ih (Nat.le_of_succ_le_succ hle))
  | emptyObject gap =>
    obtain ⟨more, rfl⟩ := Nat.exists_eq_add_of_le' (Nat.one_le_of_lt hle)
    exact .emptyObject gap
  | object gap _ ih =>
    obtain ⟨more, rfl⟩ := Nat.exists_eq_add_of_le' (Nat.one_le_of_lt hle)
    exact .object gap (ih (Nat.le_of_succ_le_succ hle))
  | lastItem _ gap ih => exact .lastItem (ih hle) gap
  | item _ before behind _ ih ihs => exact .item (ih hle) before behind (ihs hle)
  | lastField name _ gap ih => exact .lastField name (ih hle) gap
  | field name _ before behind _ ih ihs => exact .field name (ih hle) before behind (ihs hle)

/-! ## Soundness -/

theorem readString_sound {s text tail : Text} (h : readString s = some (text, tail)) :
    ∃ u units, s = u ++ '"' :: tail ∧ SpellsUnits u units ∧ text = joinUnits units := by
  obtain ⟨⟨units, t⟩, hu, he⟩ := Option.map_eq_some_iff.1 h
  cases he
  obtain ⟨u, rfl, hs⟩ := readUnits_sound hu
  exact ⟨u, units, rfl, hs, rfl⟩

theorem readWord_sound {s tail : Text} {v : Json} (h : readWord s = some (v, tail)) (room : Nat) :
    ∃ c, s = c ++ tail ∧ Spells room c (.value v) := by
  unfold readWord at h
  split at h
  · next ht =>
    cases h
    exact ⟨_, Text.after?_eq_some.1 ht, .null⟩
  · next ht _ =>
    cases h
    exact ⟨_, Text.after?_eq_some.1 ht, .yes⟩
  · next ht _ _ =>
    cases h
    exact ⟨_, Text.after?_eq_some.1 ht, .no⟩
  · cases h

theorem readScalar_sound {s tail : Text} {v : Json} (h : readScalar s = some (v, tail))
    (room : Nat) : ∃ c, s = c ++ tail ∧ Spells room c (.value v) := by
  unfold readScalar at h
  split at h
  · obtain ⟨⟨text, t⟩, hr, he⟩ := Option.map_eq_some_iff.1 h
    cases he
    obtain ⟨u, units, rfl, hu, rfl⟩ := readString_sound hr
    exact ⟨'"' :: (u ++ ['"']), by simp, .text hu⟩
  · split at h
    · next word hr =>
      cases h
      exact readWord_sound hr room
    · obtain ⟨⟨n, t⟩, hr, he⟩ := Option.map_eq_some_iff.1 h
      cases he
      obtain ⟨c, rfl, hc⟩ := readNumber_sound hr
      exact ⟨c, rfl, .number hc⟩

theorem readName_sound {s key tail : Text} (h : readName s = some (key, tail)) :
    ∃ k, s = k ++ tail ∧ SpellsName k key := by
  unfold readName at h
  split at h
  · split at h
    · cases h
    · next key afterKey hk =>
      obtain ⟨u, units, rfl, hu, rfl⟩ := readString_sound hk
      obtain ⟨w, hw, gap⟩ := skipJsonSpace_split afterKey
      split at h
      · next afterColon hcolon =>
        cases h
        rw [hcolon] at hw
        obtain ⟨w', hw', gap'⟩ := skipJsonSpace_split afterColon
        refine ⟨_, ?_, .mk hu gap gap'⟩
        simp only [List.cons_append, List.append_assoc]
        rw [← hw', ← hw]
      · cases h
  · cases h

theorem orMalformed_eq_ok {α : Type} {found : Option α} {a : α} :
    orMalformed found = .ok a ↔ found = some a := by
  cases found with
  | none => exact ⟨nofun, nofun⟩
  | some b =>
    exact ⟨fun h => congrArg some (Except.ok.inj h), fun h => congrArg _ (Option.some.inj h)⟩

theorem map_eq_ok {ε α β : Type} {f : α → β} {result : Except ε α} {b : β} :
    result.map f = .ok b ↔ ∃ a, result = .ok a ∧ f a = b := by
  cases result with
  | error e => exact ⟨nofun, fun ⟨_, h, _⟩ => nomatch h⟩
  | ok a =>
    constructor
    · intro h
      exact ⟨a, rfl, Except.ok.inj h⟩
    · rintro ⟨_, h, rfl⟩
      cases h
      rfl

/-- Whatever is read at some fuel is spelled by what was consumed. -/
structure Sound (fuel : Nat) : Prop where
  value : ∀ {room s v tail}, readValue fuel room s = .ok (v, tail) →
    ∃ c, s = c ++ tail ∧ Spells room c (.value v)
  items : ∀ {room s vs tail}, readItems fuel room s = .ok (vs, tail) →
    ∃ c, s = c ++ tail ∧ Spells room c (.items vs)
  fields : ∀ {room s pairs tail}, readFields fuel room s = .ok (pairs, tail) →
    ∃ c, s = c ++ tail ∧ Spells room c (.fields pairs)

section
variable {fuel : Nat} (ih : Sound fuel) {room : Nat} {s tail : Text}
include ih

theorem Sound.value_succ {v : Json} (h : readValue (fuel + 1) room s = .ok (v, tail)) :
    ∃ c, s = c ++ tail ∧ Spells room c (.value v) := by
  unfold readValue at h
  split at h
  · next rest =>
    obtain ⟨w, hw, gap⟩ := skipJsonSpace_split rest
    split at h
    · cases h
    · split at h
      · next t hs =>
        cases h
        rw [hs] at hw
        exact ⟨'[' :: (w ++ [']']), by simp [hw], .emptyList gap⟩
      · obtain ⟨⟨items, t⟩, hr, he⟩ := map_eq_ok.1 h
        cases he
        obtain ⟨c, hc, hs⟩ := ih.items hr
        rw [hc] at hw
        exact ⟨'[' :: (w ++ c), by simp [hw], .list gap hs⟩
  · next rest =>
    obtain ⟨w, hw, gap⟩ := skipJsonSpace_split rest
    split at h
    · cases h
    · split at h
      · next t hs =>
        cases h
        rw [hs] at hw
        exact ⟨'{' :: (w ++ ['}']), by simp [hw], .emptyObject gap⟩
      · obtain ⟨⟨pairs, t⟩, hr, he⟩ := map_eq_ok.1 h
        cases he
        obtain ⟨c, hc, hs⟩ := ih.fields hr
        rw [hc] at hw
        exact ⟨'{' :: (w ++ c), by simp [hw], .object gap hs⟩
  · exact readScalar_sound (orMalformed_eq_ok.1 h) room

theorem Sound.items_succ {vs : List Json} (h : readItems (fuel + 1) room s = .ok (vs, tail)) :
    ∃ c, s = c ++ tail ∧ Spells room c (.items vs) := by
  unfold readItems at h
  split at h
  · cases h
  · next item afterItem hv =>
    obtain ⟨c, rfl, hc⟩ := ih.value hv
    obtain ⟨w, hw, gap⟩ := skipJsonSpace_split afterItem
    split at h
    · next t hs =>
      cases h
      rw [hs] at hw
      exact ⟨c ++ (w ++ [']']), by simp [hw], .lastItem hc gap⟩
    · next rest hs =>
      obtain ⟨⟨items, t⟩, hr, he⟩ := map_eq_ok.1 h
      cases he
      obtain ⟨w', hw', gap'⟩ := skipJsonSpace_split rest
      obtain ⟨c', hc', hs'⟩ := ih.items hr
      rw [hs] at hw
      rw [hc'] at hw'
      exact ⟨c ++ (w ++ ',' :: (w' ++ c')), by simp [hw, hw'], .item hc gap gap' hs'⟩
    · cases h

theorem Sound.fields_succ {pairs : List (Text × Json)}
    (h : readFields (fuel + 1) room s = .ok (pairs, tail)) :
    ∃ c, s = c ++ tail ∧ Spells room c (.fields pairs) := by
  unfold readFields at h
  split at h
  · cases h
  · next key afterName hk =>
    obtain ⟨k, rfl, hname⟩ := readName_sound hk
    split at h
    · cases h
    · next v afterValue hv =>
      obtain ⟨c, rfl, hspell⟩ := ih.value hv
      obtain ⟨z, hz, gapz⟩ := skipJsonSpace_split afterValue
      split at h
      · next t hs =>
        cases h
        rw [hs] at hz
        exact ⟨k ++ (c ++ (z ++ ['}'])), by simp [hz], .lastField hname hspell gapz⟩
      · next more hs =>
        obtain ⟨⟨rest, t⟩, hr, he⟩ := map_eq_ok.1 h
        cases he
        obtain ⟨z', hz', gapz'⟩ := skipJsonSpace_split more
        obtain ⟨c', hc', hs'⟩ := ih.fields hr
        rw [hs] at hz
        rw [hc'] at hz'
        exact ⟨k ++ (c ++ (z ++ ',' :: (z' ++ c'))), by simp [hz, hz'],
          .field hname hspell gapz gapz' hs'⟩
      · cases h

end

theorem sound (fuel : Nat) : Sound fuel := by
  induction fuel with
  | zero =>
    refine ⟨fun h => ?_, fun h => ?_, fun h => ?_⟩
    · cases h
    · cases h
    · cases h
  | succ fuel ih => exact ⟨ih.value_succ, ih.items_succ, ih.fields_succ⟩

/-! ## Completeness -/

/-- No number goes on behind white space. -/
theorem Gap.halts {w t : Text} (hw : Gap w) (ht : Halts t) : Halts (w ++ t) := by
  cases w with
  | nil => exact ht
  | cons d w =>
    intro c hc
    cases hc
    rcases isJsonSpace_iff.1 (hw d List.mem_cons_self) with rfl | rfl | rfl | rfl <;> decide

/-- No number goes on behind white space and a token that may follow a value. -/
theorem Gap.halts_token {w : Text} (hw : Gap w) {d : Char} (hd : d = ',' ∨ d = ']' ∨ d = '}')
    (t : Text) : Halts (w ++ d :: t) := by
  apply hw.halts
  intro c hc
  cases hc
  rcases hd with rfl | rfl | rfl <;> decide

/-- The text starts with neither white space nor a closing bracket. -/
def Starts (c : Text) : Prop :=
  ∃ d c', c = d :: c' ∧ isJsonSpace d = false ∧ d ≠ ']' ∧ d ≠ '}'

theorem Starts.append {c : Text} (h : Starts c) (t : Text) : Starts (c ++ t) := by
  obtain ⟨d, c', rfl, hd⟩ := h
  exact ⟨d, c' ++ t, rfl, hd⟩

theorem SpellsName.opens {k key : Text} (h : SpellsName k key) : Starts k := by
  obtain ⟨-, -, -⟩ := h
  exact ⟨'"', _, rfl, by decide⟩

/-- No part starts with white space or with a closing bracket. -/
theorem Spells.opens {room : Nat} {c : Text} {part : Part} (h : Spells room c part) : Starts c := by
  induction h with
  | null => exact ⟨'n', _, rfl, by decide⟩
  | yes => exact ⟨'t', _, rfl, by decide⟩
  | no => exact ⟨'f', _, rfl, by decide⟩
  | number h =>
    obtain ⟨d, c', rfl, hd⟩ := h.head
    refine ⟨d, c', rfl, Bool.eq_false_iff.2 fun hs => ?_, ?_, ?_⟩
    · rcases isJsonSpace_iff.1 hs with rfl | rfl | rfl | rfl <;> revert hd <;> decide
    · rintro rfl
      revert hd
      decide
    · rintro rfl
      revert hd
      decide
  | text => exact ⟨'"', _, rfl, by decide⟩
  | emptyList | list => exact ⟨'[', _, rfl, by decide⟩
  | emptyObject | object => exact ⟨'{', _, rfl, by decide⟩
  | lastItem _ _ ih | item _ _ _ _ ih => exact ih.append _
  | lastField name | field name => exact name.opens.append _

/-- The reader finds the part, given as much fuel as the part is long; a number only if it ends
there. -/
def Found (room : Nat) (c : Text) : Part → Prop
  | .value v => ∀ {fuel t}, c.length ≤ fuel + 1 → (∀ n, v = .num n → Halts t) →
      readValue (fuel + 1) room (c ++ t) = .ok (v, t)
  | .items vs => ∀ {fuel t}, c.length ≤ fuel + 1 →
      readItems (fuel + 1) room (c ++ t) = .ok (vs, t)
  | .fields pairs => ∀ {fuel t}, c.length ≤ fuel + 1 →
      readFields (fuel + 1) room (c ++ t) = .ok (pairs, t)

/-- What opens is not empty, and neither is the fuel for it. -/
theorem Starts.fuel {c : Text} (h : Starts c) {n : Nat} (hn : c.length ≤ n) : ∃ k, n = k + 1 := by
  obtain ⟨d, c', rfl, -⟩ := h
  exact Nat.exists_eq_succ_of_ne_zero (Nat.ne_of_gt (Nat.lt_of_lt_of_le (Nat.succ_pos _) hn))

theorem SpellsUnits.readString_eq {u : Text} {units : List Nat} (h : SpellsUnits u units)
    (tail : Text) : readString (u ++ '"' :: tail) = some (joinUnits units, tail) := by
  rw [readString, h.readUnits_eq]
  rfl

/-- A gap in front of a character that is no white space, or of what opens, is skipped. -/
theorem Gap.skip {w : Text} (hw : Gap w) {d : Char} (hd : isJsonSpace d = false) (s : Text) :
    skipJsonSpace (w ++ d :: s) = d :: s :=
  skipJsonSpace_gap hw (by simpa using hd)

theorem Gap.skip_part {w c : Text} (hw : Gap w) (hc : Starts c) (t : Text) :
    skipJsonSpace (w ++ (c ++ t)) = c ++ t := by
  obtain ⟨d, c', rfl, hd, -⟩ := hc
  exact hw.skip hd (c' ++ t)

/-- What starts with no opening bracket is a scalar. -/
theorem readValue_scalar {d : Char} (hlist : d ≠ '[') (hobject : d ≠ '{') (fuel room : Nat)
    (s : Text) : readValue (fuel + 1) room (d :: s) = orMalformed (readScalar (d :: s)) := by
  rw [readValue]
  · exact fun _ h => absurd (List.cons.inj h).1 hlist
  · exact fun _ h => absurd (List.cons.inj h).1 hobject

/-- A number is no text and no word. -/
theorem readScalar_number {d : Char} (hd : d.isDigit = true ∨ d = '-' ∨ d = 'N' ∨ d = 'I')
    (s : Text) :
    readScalar (d :: s) = (readNumber (d :: s)).map fun (n, tail) => (.num n, tail) := by
  have hne : ∀ p : Char, (p.isDigit = true ∨ p = '-' ∨ p = 'N' ∨ p = 'I') = False → p ≠ d := by
    rintro p hp rfl
    rw [hp] at hd
    exact hd
  have hword : readWord (d :: s) = none := by
    unfold readWord
    have h1 : Text.after? "null" (d :: s) = none := if_neg (hne 'n' (by decide))
    have h2 : Text.after? "true" (d :: s) = none := if_neg (hne 't' (by decide))
    have h3 : Text.after? "false" (d :: s) = none := if_neg (hne 'f' (by decide))
    rw [h1, h2, h3]
  rw [readScalar, hword]
  exact fun _ h => absurd (List.cons.inj h).1.symm (hne '"' (by decide))

theorem readValue_number {c : Text} {n : Number} (h : SpellsNumber c n) {t : Text} (ht : Halts t)
    (fuel room : Nat) : readValue (fuel + 1) room (c ++ t) = .ok (.num n, t) := by
  have hread := h.readNumber_eq ht
  obtain ⟨d, c', rfl, hd⟩ := h.head
  have hlist : d ≠ '[' := by
    rintro rfl
    revert hd
    decide
  have hobject : d ≠ '{' := by
    rintro rfl
    revert hd
    decide
  rw [List.cons_append] at hread ⊢
  rw [readValue_scalar hlist hobject, readScalar_number hd, hread]
  rfl

/-- Behind an opening bracket, what opens is read as the items or the fields. -/
theorem readValue_list {w c : Text} (gap : Gap w) (hc : Starts c) (fuel room : Nat) (t : Text) :
    readValue (fuel + 1) (room + 1) ('[' :: (w ++ c) ++ t) =
      (readItems fuel room (c ++ t)).map fun (items, tail) => (.list items, tail) := by
  rw [List.cons_append, List.append_assoc, readValue]
  dsimp only
  rw [gap.skip_part hc]
  obtain ⟨d, c', rfl, -, hd, -⟩ := hc
  split
  · next he => exact absurd (List.cons.inj he).1 hd
  · rfl

theorem readValue_object {w c : Text} (gap : Gap w) (hc : Starts c) (fuel room : Nat) (t : Text) :
    readValue (fuel + 1) (room + 1) ('{' :: (w ++ c) ++ t) =
      (readFields fuel room (c ++ t)).map fun (pairs, tail) =>
        (.object (Fields.ofPairs pairs), tail) := by
  rw [List.cons_append, List.append_assoc, readValue]
  dsimp only
  rw [gap.skip_part hc]
  obtain ⟨d, c', rfl, -, -, hd⟩ := hc
  split
  · next he => exact absurd (List.cons.inj he).1 hd
  · rfl

theorem SpellsName.readName_eq {k key c : Text} (hk : SpellsName k key) (hc : Starts c) (t : Text) :
    readName (k ++ (c ++ t)) = some (key, c ++ t) := by
  obtain ⟨hu, before, behind⟩ := hk
  simp only [List.append_assoc, List.cons_append]
  rw [readName, hu.readString_eq]
  dsimp only
  rw [before.skip rfl]
  exact congrArg (fun s => some (_, s)) (behind.skip_part hc t)

/-- Behind an item and a comma the other items are read. -/
theorem readItems_next {fuel room : Nat} {c w w' c' : Text} {v : Json}
    (hv : ∀ t, Halts t → readValue fuel room (c ++ t) = .ok (v, t)) (before : Gap w)
    (behind : Gap w') (hc' : Starts c') (t : Text) :
    readItems (fuel + 1) room (c ++ (w ++ ',' :: (w' ++ c')) ++ t) =
      (readItems fuel room (c' ++ t)).map fun (items, tail) => (v :: items, tail) := by
  simp only [List.append_assoc, List.cons_append]
  rw [readItems, hv _ (before.halts_token (by decide) _)]
  dsimp only
  rw [before.skip rfl]
  show (readItems fuel room (skipJsonSpace (w' ++ (c' ++ t)))).map _ = _
  rw [behind.skip_part hc']

theorem readFields_next {fuel room : Nat} {k key c w w' c' : Text} {v : Json}
    (hk : SpellsName k key) (hc : Starts c)
    (hv : ∀ t, Halts t → readValue fuel room (c ++ t) = .ok (v, t)) (before : Gap w)
    (behind : Gap w') (hc' : Starts c') (t : Text) :
    readFields (fuel + 1) room (k ++ (c ++ (w ++ ',' :: (w' ++ c'))) ++ t) =
      (readFields fuel room (c' ++ t)).map fun (pairs, tail) => ((key, v) :: pairs, tail) := by
  simp only [List.append_assoc, List.cons_append]
  rw [readFields, hk.readName_eq hc]
  dsimp only
  rw [hv _ (before.halts_token (by decide) _)]
  dsimp only
  rw [before.skip rfl]
  show (readFields fuel room (skipJsonSpace (w' ++ (c' ++ t)))).map _ = _
  rw [behind.skip_part hc']

theorem Spells.found {room : Nat} {c : Text} {part : Part} (h : Spells room c part) :
    Found room c part := by
  induction h with
  | null | yes | no =>
    intro fuel t _ _
    rfl
  | number h =>
    intro fuel t _ hn
    exact readValue_number h (hn _ rfl) fuel _
  | text h =>
    intro fuel t _ _
    rw [List.cons_append, List.append_assoc, readValue_scalar (by decide) (by decide), readScalar,
      List.singleton_append, h.readString_eq]
    rfl
  | emptyList gap =>
    intro fuel t _ _
    rw [List.cons_append, List.append_assoc, readValue, List.singleton_append]
    dsimp only
    rw [gap.skip rfl]
    rfl
  | emptyObject gap =>
    intro fuel t _ _
    rw [List.cons_append, List.append_assoc, readValue, List.singleton_append]
    dsimp only
    rw [gap.skip rfl]
    rfl
  | @list _ w c vs gap h ih =>
    intro fuel t hf _
    rw [List.length_cons, List.length_append] at hf
    obtain ⟨k, rfl⟩ := h.opens.fuel (show c.length ≤ fuel by omega)
    rw [readValue_list gap h.opens, ih (by omega)]
    rfl
  | @object _ w c pairs gap h ih =>
    intro fuel t hf _
    rw [List.length_cons, List.length_append] at hf
    obtain ⟨k, rfl⟩ := h.opens.fuel (show c.length ≤ fuel by omega)
    rw [readValue_object gap h.opens, ih (by omega)]
    rfl
  | @lastItem _ c w v h gap ih =>
    intro fuel t hf
    simp only [List.length_append, List.length_cons] at hf
    obtain ⟨k, rfl⟩ := h.opens.fuel (show c.length ≤ fuel by omega)
    rw [List.append_assoc, List.append_assoc, List.singleton_append, readItems,
      ih (by omega) fun _ _ => gap.halts_token (by decide) t]
    dsimp only
    rw [gap.skip rfl]
    rfl
  | @item _ c w w' c' v vs h gap gap' hs ih ihs =>
    intro fuel t hf
    simp only [List.length_append, List.length_cons] at hf
    obtain ⟨k, rfl⟩ := h.opens.fuel (show c.length ≤ fuel by omega)
    rw [readItems_next (fun _ ht => ih (by omega) fun _ _ => ht) gap gap' hs.opens, ihs (by omega)]
    rfl
  | @lastField _ k key c w v name h gap ih =>
    intro fuel t hf
    simp only [List.length_append, List.length_cons] at hf
    obtain ⟨n, rfl⟩ := h.opens.fuel (show c.length ≤ fuel by omega)
    rw [List.append_assoc, List.append_assoc, List.append_assoc, List.singleton_append,
      readFields, name.readName_eq h.opens]
    dsimp only
    rw [ih (by omega) fun _ _ => gap.halts_token (by decide) _]
    dsimp only
    rw [gap.skip rfl]
    rfl
  | @field _ k key c w w' c' v pairs name h gap gap' hs ih ihs =>
    intro fuel t hf
    simp only [List.length_append, List.length_cons] at hf
    obtain ⟨n, rfl⟩ := h.opens.fuel (show c.length ≤ fuel by omega)
    rw [readFields_next name h.opens (fun _ ht => ih (by omega) fun _ _ => ht) gap gap' hs.opens,
      ihs (by omega)]
    rfl

/-! ## The reader and the grammar -/

/-- Two objects that start one text are one text and write one value. -/
theorem Spells.object_unique {room room' : Nat} {c c' t t' : Text} {f f' : Fields}
    (h : Spells room c (.value (.object f))) (h' : Spells room' c' (.value (.object f')))
    (he : c ++ t = c' ++ t') : c = c' ∧ f = f' := by
  have hr : readValue (c.length + c'.length + 1) (max room room') (c ++ t) = .ok (.object f, t) :=
    (h.mono (Nat.le_max_left _ _)).found (by omega) fun _ hn => by cases hn
  have hr' : readValue (c.length + c'.length + 1) (max room room') (c' ++ t') =
      .ok (.object f', t') :=
    (h'.mono (Nat.le_max_right _ _)).found (by omega) fun _ hn => by cases hn
  rw [he, hr', Except.ok.injEq, Prod.mk.injEq, Json.object.injEq] at hr
  obtain ⟨rfl, rfl⟩ := hr
  exact ⟨List.append_cancel_right he, rfl⟩

theorem Json.read_eq_ok {room : Nat} {s : Text} {v : Json} : Json.read room s = .ok v ↔
    ∃ w c w', s = w ++ (c ++ w') ∧ Gap w ∧ Gap w' ∧ Spells room c (.value v) := by
  unfold Json.read
  constructor
  · intro h
    split at h
    · next value tail hr =>
      split at h
      · next he =>
        cases h
        obtain ⟨w, hw, gap⟩ := skipJsonSpace_split s
        obtain ⟨c, hc, hs⟩ := (sound _).value hr
        obtain ⟨w', hw', gap'⟩ := skipJsonSpace_split tail
        rw [List.isEmpty_iff.1 he, List.append_nil] at hw'
        subst hw'
        exact ⟨w, c, tail, by rw [← hc, ← hw], gap, gap', hs⟩
      · cases h
    · cases h
  · rintro ⟨w, c, w', rfl, gap, gap', hs⟩
    have hlength : c.length ≤ 2 * (w ++ (c ++ w')).length + 1 + 1 := by
      simp only [List.length_append]
      omega
    have hend : Halts w' := by
      have := gap'.halts (t := []) (by intro c hc; cases hc)
      rwa [List.append_nil] at this
    rw [gap.skip_part hs.opens, hs.found hlength fun _ _ => hend]
    have hskip := skipJsonSpace_gap gap' (s := []) (by intro c hc; cases hc)
    rw [List.append_nil] at hskip
    simp only [hskip, List.isEmpty_nil, if_true]

end BlockSafe
