import BlockSafe.Proofs.Json.Grammar
import BlockSafe.Proofs.Text.Quoting

/-!
# Scanning what the grammar spells

The search for balanced objects knows double quotes and braces only.  It agrees with the grammar
nevertheless: whatever a value is, its quotes are paired, its braces outside of them are balanced,
and outside of them no backslash stands (`Spells.passes`).  So the search finds the text of every
object as a whole (`Spells.object_passes`).

The name of every field that an object has stands in its text, behind a quote that opens
(`Spells.name_at`), and starts there with its first letter or with an escape (`SpellsUnits.head`).
-/

namespace BlockSafe

/-! ## Tokens -/

/-- A character of a token that is no quote and no brace. -/
def PlainToken (c : Char) : Prop := InToken c ∧ c ≠ '"' ∧ c ≠ '{' ∧ c ≠ '}'

instance (c : Char) : Decidable (PlainToken c) := inferInstanceAs (Decidable (_ ∧ _))

theorem passes_plain {s : Text} (h : ∀ c ∈ s, PlainToken c) : Passes .outside s .outside := by
  induction s with
  | nil => exact .nil _
  | cons c s ih =>
    have hc := h c List.mem_cons_self
    refine .cons (.inr hc.2.2) (fun _ => hc.1) ?_
    rw [Quoting.next, if_neg hc.2.1]
    exact ih fun d hd => h d (List.mem_cons_of_mem c hd)

theorem passes_token {c : Char} (h : PlainToken c) : Passes .outside [c] .outside :=
  passes_plain fun d hd => by rwa [List.mem_singleton.1 hd]

theorem passes_comma : Passes .outside [','] .outside := passes_token (by decide)

theorem Gap.passes {w : Text} (hw : Gap w) : Passes .outside w .outside := by
  apply passes_plain
  intro c hc
  rcases isJsonSpace_iff.1 (hw c hc) with rfl | rfl | rfl | rfl <;> decide

theorem plainToken_of_inNumber {c : Char} (h : InNumber c) : PlainToken c := by
  rcases h with hdigit | hmark
  · refine ⟨⟨?_, ?_, ?_⟩, ?_, ?_, ?_⟩ <;> rintro rfl <;> cases hdigit
  · have hmarks : ∀ c ∈ "+-.eENaInfity".toList, PlainToken c := by decide
    exact hmarks c hmark

theorem SpellsNumber.passes {c : Text} {n : Number} (h : SpellsNumber c n) :
    Passes .outside c .outside :=
  passes_plain fun d hd => plainToken_of_inNumber (h.inNumber d hd)

/-! ## Texts in quotes -/

theorem passes_inside {c : Char} {s : Text} {q : Quoting} (hq : c ≠ '"') (hs : c ≠ '\\')
    (h : Passes .inside s q) : Passes .inside (c :: s) q := by
  refine .cons (.inl (by simp [Quoting.masks, hq])) (fun e => by cases e) ?_
  rw [Quoting.next, if_neg hs, if_neg hq]
  exact h

theorem passes_escape {c : Char} {s : Text} {q : Quoting} (h : Passes .inside s q) :
    Passes .inside ('\\' :: c :: s) q :=
  .cons (.inl rfl) (fun e => by cases e) (.cons (.inl rfl) (fun e => by cases e) h)

theorem hexValue?_ne {c : Char} {n : Nat} (h : hexValue? c = some n) : c ≠ '"' ∧ c ≠ '\\' := by
  refine ⟨?_, ?_⟩ <;> rintro rfl <;> cases h

theorem SpellsUnits.passes {u : Text} {units : List Nat} (h : SpellsUnits u units) :
    Passes .inside u .inside := by
  induction h with
  | nil => exact .nil _
  | plain _ hq hs _ ih => exact passes_inside hq hs ih
  | escape _ _ ih => exact passes_escape ih
  | unit hex _ ih =>
    obtain ⟨ha, hb, hc, hd⟩ := digits_of_hexUnit? hexValue?_ne hex
    have hdigits := passes_inside ha.1 ha.2 (passes_inside hb.1 hb.2
      (passes_inside hc.1 hc.2 (passes_inside hd.1 hd.2 ih)))
    exact passes_escape hdigits

theorem SpellsUnits.quoted_passes {u : Text} {units : List Nat} (h : SpellsUnits u units) :
    Passes .outside ('"' :: (u ++ ['"'])) .outside :=
  .cons (.inr (by decide)) (fun _ => by decide)
    (h.passes.append (.cons (.inr (by decide)) (fun e => by cases e) (.nil _)))

theorem SpellsName.passes {k key : Text} (h : SpellsName k key) : Passes .outside k .outside := by
  obtain ⟨hu, before, behind⟩ := h
  have := hu.quoted_passes.append
    (before.passes.append ((passes_token (by decide : PlainToken ':')).append behind.passes))
  simpa using this

/-! ## Values -/

/-- How the search reads a part: a closing brace ends the object that the fields belong to. -/
def Scanned (c : Text) : Part → Prop
  | .value _ | .items _ => Passes .outside c .outside
  | .fields _ => ∃ b, c = b ++ ['}'] ∧ Passes .outside b .outside

theorem Spells.scanned {room : Nat} {c : Text} {part : Part} (h : Spells room c part) :
    Scanned c part := by
  have opening : Passes .outside ['['] .outside := passes_token (by decide)
  have closing : Passes .outside [']'] .outside := passes_token (by decide)
  induction h with
  | null => exact passes_plain (Text.forall_of_all (by decide))
  | yes => exact passes_plain (Text.forall_of_all (by decide))
  | no => exact passes_plain (Text.forall_of_all (by decide))
  | number h => exact h.passes
  | text h => exact h.quoted_passes
  | emptyList gap => exact opening.append (gap.passes.append closing)
  | list gap _ ih => exact opening.append (gap.passes.append ih)
  | emptyObject gap => exact gap.passes.braces
  | object gap _ ih =>
    obtain ⟨b, rfl, hb⟩ := ih
    have := (gap.passes.append hb).braces
    rwa [List.append_assoc] at this
  | lastItem _ gap ih => exact ih.append (gap.passes.append closing)
  | item _ before behind _ ih ihs =>
    exact ih.append (before.passes.append (passes_comma.append (behind.passes.append ihs)))
  | @lastField _ k key c w v name _ gap ih =>
    refine ⟨k ++ (c ++ w), ?_, name.passes.append (ih.append gap.passes)⟩
    simp only [List.append_assoc]
  | @field _ k key c w w' c' v pairs name _ before behind _ ih ihs =>
    obtain ⟨b, rfl, hb⟩ := ihs
    refine ⟨k ++ (c ++ (w ++ ([','] ++ (w' ++ b)))), ?_, ?_⟩
    · simp only [List.append_assoc, List.cons_append, List.nil_append]
    · exact name.passes.append
        (ih.append (before.passes.append (passes_comma.append (behind.passes.append hb))))

theorem Spells.passes {room : Nat} {c : Text} {v : Json} (h : Spells room c (.value v)) :
    Passes .outside c .outside := h.scanned

/-- An object is a text that passes, in braces. -/
theorem Spells.object_passes {room : Nat} {c : Text} {fields : Fields}
    (h : Spells room c (.value (.object fields))) :
    ∃ b, c = '{' :: (b ++ ['}']) ∧ Passes .outside b .outside := by
  cases h with
  | emptyObject gap => exact ⟨_, rfl, gap.passes⟩
  | object gap h =>
    obtain ⟨b, rfl, hb⟩ := h.scanned
    exact ⟨_, by rw [List.append_assoc], gap.passes.append hb⟩

/-! ## Names -/

theorem isSome_put (fields : Fields) (key other : Text) (value : Json) :
    (Fields.get? (Fields.put other value fields) key).isSome = true ↔
      key = other ∨ (Fields.get? fields key).isSome = true := by
  unfold Fields.get?
  rw [List.lookup_isSome_iff, List.lookup_isSome_iff]
  induction fields with
  | nil => simp [Fields.put]
  | cons field fields ih =>
    obtain ⟨k, v⟩ := field
    rw [Fields.put]
    by_cases h : k = other
    · subst h
      simp
    · rw [if_neg h]
      simp only [List.mem_cons, exists_eq_or_imp]
      rw [ih, or_left_comm]

/-- An object has a field iff one of its pairs has that name. -/
theorem isSome_ofPairs {pairs : List (Text × Json)} {key : Text} :
    (Fields.get? (Fields.ofPairs pairs) key).isSome = true ↔ key ∈ pairs.map Prod.fst := by
  have run : ∀ (pairs : List (Text × Json)) (fields : Fields),
      (Fields.get? (pairs.foldl (fun fields p => Fields.put p.1 p.2 fields) fields) key).isSome =
        true ↔ key ∈ pairs.map Prod.fst ∨ (Fields.get? fields key).isSome = true := by
    intro pairs
    induction pairs with
    | nil => simp
    | cons p pairs ih =>
      intro fields
      rw [List.foldl_cons, ih, isSome_put, List.map_cons, List.mem_cons, or_left_comm, or_assoc]
  rw [Fields.ofPairs, run]
  simp [Fields.get?]

/-- The surrogates are the gap between the code points. -/
theorem codePoint_bounds (c : Char) :
    c.toNat < 0xD800 ∨ 0xDFFF < c.toNat ∧ c.toNat < 0x110000 := c.valid

/-- Half a surrogate pair is no character. -/
theorem not_halfUnit (c : Char) : isHighUnit c.toNat = false ∧ isLowUnit c.toNat = false := by
  have hv := codePoint_bounds c
  unfold isHighUnit isLowUnit
  refine ⟨?_, ?_⟩ <;> rw [Bool.eq_false_iff, Ne, Bool.and_eq_true, decide_eq_true_iff,
    decide_eq_true_iff] <;> omega

theorem joinUnits_char (c : Char) (units : List Nat) :
    joinUnits (c.toNat :: units) = c :: joinUnits units := by
  obtain ⟨hh, hl⟩ := not_halfUnit c
  have hc : charOfUnit c.toNat = c := by
    rw [charOfUnit, hh, hl]
    exact Char.ofNat_toNat c
  cases units with
  | nil => exact congrArg (fun d => [d]) hc
  | cons n units => rw [joinUnits, hh, Bool.false_and, if_neg Bool.false_ne_true, hc]

/-- A text in quotes starts with its first character or with an escape. -/
theorem SpellsUnits.head {u : Text} {units : List Nat} (h : SpellsUnits u units) {c : Char}
    {s : Text} (hc : joinUnits units = c :: s) : ∃ d u', u = d :: u' ∧ (d = c ∨ d = '\\') := by
  cases h with
  | nil => cases hc
  | @plain d u units _ _ _ _ =>
    rw [joinUnits_char] at hc
    exact ⟨d, u, rfl, .inl (List.cons.inj hc).1⟩
  | escape => exact ⟨'\\', _, rfl, .inr rfl⟩
  | unit => exact ⟨'\\', _, rfl, .inr rfl⟩

/-- Somewhere in the text an opening quote stands before the name `key` and a closing quote. -/
def NameIn (key c : Text) : Prop :=
  ∃ a u b units, c = a ++ '"' :: (u ++ '"' :: b) ∧ Quoting.after .outside a = .outside ∧
    SpellsUnits u units ∧ joinUnits units = key

theorem NameIn.behind {key c a : Text} (h : NameIn key c)
    (ha : Quoting.after .outside a = .outside) : NameIn key (a ++ c) := by
  obtain ⟨a', u, b, units, rfl, ha', hu, hk⟩ := h
  refine ⟨a ++ a', u, b, units, by rw [List.append_assoc], ?_, hu, hk⟩
  rw [Quoting.after_append, ha, ha']

theorem SpellsName.nameIn {k key : Text} (h : SpellsName k key) (c : Text) :
    NameIn key (k ++ c) := by
  cases h with
  | @mk u units w w' hu =>
    refine ⟨[], u, w ++ ':' :: w' ++ c, units, ?_, rfl, hu, rfl⟩
    simp only [List.nil_append, List.cons_append, List.append_assoc]

theorem Spells.fields_nameIn {room : Nat} {c : Text} {pairs : List (Text × Json)}
    (h : Spells room c (.fields pairs)) {key : Text} (hk : key ∈ pairs.map Prod.fst) :
    NameIn key c := by
  generalize hp : Part.fields pairs = part at h
  induction h generalizing pairs with
  | lastField name =>
    cases hp
    rw [List.map_singleton, List.mem_singleton] at hk
    subst hk
    exact name.nameIn _
  | @field _ k _ c w w' c' _ _ name value before behind _ _ ih =>
    cases hp
    rw [List.map_cons, List.mem_cons] at hk
    rcases hk with rfl | hk
    · exact name.nameIn _
    · have := (ih hk rfl).behind (name.passes.append (value.passes.append
        (before.passes.append (passes_comma.append behind.passes)))).after
      simpa only [List.append_assoc, List.singleton_append, List.cons_append, List.nil_append]
        using this
  | null | yes | no | number | text | emptyList | list | emptyObject | object | lastItem | item =>
    cases hp

/-- The name of every field of an object stands in its text. -/
theorem Spells.nameIn {room : Nat} {c : Text} {fields : Fields}
    (h : Spells room c (.value (.object fields))) {key : Text}
    (hk : (Fields.get? fields key).isSome = true) : NameIn key c := by
  cases h with
  | emptyObject => cases hk
  | @object _ w c pairs gap h =>
    have hopen : Quoting.after .outside ('{' :: w) = .outside := gap.passes.after
    exact (h.fields_nameIn (isSome_ofPairs.1 hk)).behind hopen

end BlockSafe
