import BlockSafe.Json.Writer
import BlockSafe.Proofs.Json.Depth
import BlockSafe.Proofs.Json.Scanning

/-!
# What is written is read back

The compact form of a value is spelled by the grammar (`Lossless.spells`), provided that no number
stands in the value and no object in it has a key twice; so the reader gives the value back:

    Lossless (.value v) → v.depth ≤ room → Json.read room v.write = .ok v      (Json.read_write)

A text is written in ASCII: a character that is not printable there becomes a 16-bit unit or a
surrogate pair (`charUnits`), and joining the units gives the text back (`joinUnits_chars`).
-/

namespace BlockSafe

/-! ## Hexadecimal digits -/

theorem hexValue?_digitChar : ∀ d < 16, hexValue? (Nat.digitChar d) = some d := by decide

theorem hex_one {n : Nat} (h : n < 16) : Text.hex 1 n = [Nat.digitChar n] := by
  simp [Text.hex, Nat.toDigits_of_lt_base h]

/-- Every further digit stands in front. -/
theorem hex_succ (width n : Nat) :
    Text.hex (width + 2) n = Text.hex (width + 1) (n / 16) ++ [Nat.digitChar (n % 16)] := by
  unfold Text.hex
  by_cases h : n < 16
  · have hzero : n / 16 = 0 := by omega
    have hmod : n % 16 = n := by omega
    have hfill : List.replicate (width + 1) '0' = List.replicate width '0' ++ ['0'] :=
      List.replicate_succ'
    rw [hzero, hmod, Nat.toDigits_zero, Nat.toDigits_of_lt_base h]
    exact congrArg (· ++ [Nat.digitChar n]) hfill
  · have hdigits := Nat.toDigits_eq_if (b := 16) (n := n) (by decide)
    rw [if_neg h] at hdigits
    have hfill : width + 2 - ((Nat.toDigits 16 (n / 16)).length + 1) =
        width + 1 - (Nat.toDigits 16 (n / 16)).length := by omega
    rw [hdigits]
    simp only [List.length_append, List.length_singleton, hfill, List.append_assoc]

theorem hex_four {n : Nat} (h : n < 0x10000) :
    Text.hex 4 n = [Nat.digitChar (n / 16 / 16 / 16), Nat.digitChar (n / 16 / 16 % 16),
      Nat.digitChar (n / 16 % 16), Nat.digitChar (n % 16)] := by
  rw [hex_succ, hex_succ, hex_succ, hex_one (by omega)]
  rfl

/-- A unit of 16 bits is read back from its digits. -/
theorem hexUnit?_hex {n : Nat} (h : n < 0x10000) :
    ∃ a b c d, Text.hex 4 n = [a, b, c, d] ∧ hexUnit? a b c d = some n := by
  refine ⟨_, _, _, _, hex_four h, ?_⟩
  have h1 := hexValue?_digitChar (n / 16 / 16 / 16) (by omega)
  have h2 := hexValue?_digitChar (n / 16 / 16 % 16) (by omega)
  have h3 := hexValue?_digitChar (n / 16 % 16) (by omega)
  have h4 := hexValue?_digitChar (n % 16) (by omega)
  have hvalue :
      (((n / 16 / 16 / 16) * 16 + n / 16 / 16 % 16) * 16 + n / 16 % 16) * 16 + n % 16 = n := by
    omega
  simp only [hexUnit?, h1, h2, h3, h4, Option.bind_eq_bind, Option.bind_some, Option.pure_def,
    hvalue]

/-! ## Texts -/

/-- The code point of a character, or its surrogate pair if it lies beyond 16 bits. -/
def charUnits (c : Char) : List Nat :=
  if c.toNat < 0x10000 then [c.toNat]
  else [0xD800 + (c.toNat - 0x10000) / 0x400, 0xDC00 + (c.toNat - 0x10000) % 0x400]

theorem charUnits_small {c : Char} (h : c.toNat < 0x10000) : charUnits c = [c.toNat] := if_pos h

theorem joinUnits_charUnits (c : Char) (units : List Nat) :
    joinUnits (charUnits c ++ units) = c :: joinUnits units := by
  unfold charUnits
  split
  · exact joinUnits_char c units
  · next h =>
    have hv := codePoint_bounds c
    generalize hr : c.toNat - 0x10000 = r
    have hhigh : isHighUnit (0xD800 + r / 0x400) = true := by
      simp only [isHighUnit, Bool.and_eq_true, decide_eq_true_iff]
      omega
    have hlow : isLowUnit (0xDC00 + r % 0x400) = true := by
      simp only [isLowUnit, Bool.and_eq_true, decide_eq_true_iff]
      omega
    have hpoint : 0x10000 + (0xD800 + r / 0x400 - 0xD800) * 0x400 + (0xDC00 + r % 0x400 - 0xDC00) =
        c.toNat := by
      omega
    show joinUnits ((0xD800 + r / 0x400) :: (0xDC00 + r % 0x400) :: units) = c :: joinUnits units
    rw [joinUnits, hhigh, hlow, Bool.and_self, if_pos rfl, hpoint, Char.ofNat_toNat]

theorem joinUnits_chars (s : Text) : joinUnits (s.flatMap charUnits) = s := by
  induction s with
  | nil => rfl
  | cons c s ih => rw [List.flatMap_cons, joinUnits_charUnits, ih]

section
variable {u : Text} {units : List Nat}

theorem SpellsUnits.writtenUnit {n : Nat} (h : n < 0x10000) (hu : SpellsUnits u units) :
    SpellsUnits (unitEscape n ++ u) (n :: units) := by
  obtain ⟨a, b, c, d, hhex, hn⟩ := hexUnit?_hex h
  have hshape : unitEscape n ++ u = '\\' :: 'u' :: a :: b :: c :: d :: u := by
    rw [unitEscape, hhex]
    rfl
  rw [hshape]
  exact .unit hn hu

/-- A character that stands for itself or has an escape of one letter. -/
theorem SpellsUnits.writtenChar (c : Char) (hu : SpellsUnits u units) :
    SpellsUnits (escapeChar c ++ u) (charUnits c ++ units) := by
  unfold escapeChar
  -- seven characters have an escape of one letter
  iterate 7
    split
    · next h => exact h ▸ .escape rfl hu
  split
  · next hq hs _ _ _ _ _ h =>
    rw [charUnits_small (by omega)]
    exact .plain h.1 hq hs hu
  split
  · next h =>
    rw [charUnits_small h]
    exact hu.writtenUnit h
  · next h =>
    have hv := codePoint_bounds c
    rw [charUnits, if_neg h]
    dsimp only
    rw [List.append_assoc]
    exact (hu.writtenUnit (by omega)).writtenUnit (by omega)

end

theorem spellsUnits_chars (s : Text) :
    SpellsUnits (s.flatMap escapeChar) (s.flatMap charUnits) := by
  induction s with
  | nil => exact .nil
  | cons c s ih =>
    rw [List.flatMap_cons, List.flatMap_cons]
    exact ih.writtenChar c

theorem spells_writeString (room : Nat) (s : Text) :
    Spells room (writeString s) (.value (.str s)) := by
  have h : Spells room ('"' :: (s.flatMap escapeChar ++ ['"'])) _ := .text (spellsUnits_chars s)
  rwa [joinUnits_chars] at h

/-! ## Values -/

/-- No number stands in the part, and no object in it has a key twice. -/
inductive Lossless : Part → Prop where
  | null : Lossless (.value .null)
  | bool (b : Bool) : Lossless (.value (.bool b))
  | text (s : Text) : Lossless (.value (.str s))
  | emptyList : Lossless (.value (.list []))
  | list {vs} (items : Lossless (.items vs)) : Lossless (.value (.list vs))
  | emptyObject : Lossless (.value (.object []))
  | object {pairs} (distinct : (pairs.map Prod.fst).Nodup) (fields : Lossless (.fields pairs)) :
      Lossless (.value (.object pairs))
  | lastItem {v} (item : Lossless (.value v)) : Lossless (.items [v])
  | item {v w vs} (item : Lossless (.value v)) (items : Lossless (.items (w :: vs))) :
      Lossless (.items (v :: w :: vs))
  | lastField {key v} (value : Lossless (.value v)) : Lossless (.fields [(key, v)])
  | field {key v p pairs} (value : Lossless (.value v)) (fields : Lossless (.fields (p :: pairs))) :
      Lossless (.fields ((key, v) :: p :: pairs))

/-- The compact form of a part; items and fields with the bracket that closes them. -/
def Part.write : Part → Text
  | .value v => v.write
  | .items vs => Json.writeItems vs ++ [']']
  | .fields pairs => Json.writeFields pairs ++ ['}']

theorem put_new {key : Text} {fields : Fields} (h : key ∉ fields.map Prod.fst) (v : Json) :
    Fields.put key v fields = fields ++ [(key, v)] := by
  induction fields with
  | nil => rfl
  | cons field fields ih =>
    obtain ⟨k, w⟩ := field
    rw [List.map_cons, List.mem_cons, not_or] at h
    rw [Fields.put, if_neg (Ne.symm h.1), ih h.2, List.cons_append]

/-- Fields with distinct keys are kept as they are. -/
theorem ofPairs_eq_self {pairs : List (Text × Json)} (h : (pairs.map Prod.fst).Nodup) :
    Fields.ofPairs pairs = pairs := by
  have run : ∀ (pairs fields : List (Text × Json)), ((fields ++ pairs).map Prod.fst).Nodup →
      pairs.foldl (fun fields p => Fields.put p.1 p.2 fields) fields = fields ++ pairs := by
    intro pairs
    induction pairs with
    | nil => simp
    | cons p pairs ih =>
      intro fields hn
      have hp : p.1 ∉ fields.map Prod.fst := by
        rw [List.map_append, List.nodup_append] at hn
        exact fun hmem => hn.2.2 p.1 hmem p.1 (by simp) rfl
      rw [List.foldl_cons, put_new hp, ih, List.append_assoc]
      · rfl
      · rwa [List.append_assoc]
  exact run pairs [] h

/-- A name is written with a colon and a space behind it. -/
theorem spellsName_write (key : Text) : SpellsName (writeString key ++ ": ") key := by
  have h := SpellsName.mk (spellsUnits_chars key) gap_nil gap_space
  rw [joinUnits_chars] at h
  simpa [writeString] using h

theorem Lossless.spells {part : Part} (h : Lossless part) {room : Nat} (hroom : part.depth ≤ room) :
    Spells room part.write part := by
  induction h generalizing room with
  | null => exact .null
  | bool b =>
    cases b with
    | false => exact .no
    | true => exact .yes
  | text s => exact spells_writeString room s
  | emptyList =>
    obtain ⟨room, rfl⟩ := Nat.exists_eq_add_of_le' (Nat.one_le_of_lt hroom)
    exact .emptyList gap_nil
  | list _ ih =>
    obtain ⟨room, rfl⟩ := Nat.exists_eq_add_of_le' (Nat.one_le_of_lt hroom)
    exact Spells.list gap_nil (ih (Nat.le_of_succ_le_succ hroom)) (w := [])
  | emptyObject =>
    obtain ⟨room, rfl⟩ := Nat.exists_eq_add_of_le' (Nat.one_le_of_lt hroom)
    exact .emptyObject gap_nil
  | @object pairs distinct _ ih =>
    obtain ⟨room, rfl⟩ := Nat.exists_eq_add_of_le' (Nat.one_le_of_lt hroom)
    have := Spells.object gap_nil (ih (Nat.le_of_succ_le_succ hroom))
    rwa [ofPairs_eq_self distinct] at this
  | lastItem _ ih => exact Spells.lastItem (ih (Nat.max_le.1 hroom).1) gap_nil (w := [])
  | item _ _ ih ihs =>
    have := Spells.item (ih (Nat.max_le.1 hroom).1) gap_nil gap_space (ihs (Nat.max_le.1 hroom).2)
    simpa [Part.write, Json.writeItems] using this
  | @lastField key v _ ih =>
    have := Spells.lastField (spellsName_write key) (ih (Nat.max_le.1 hroom).1) gap_nil
    simpa [Part.write, Json.writeFields] using this
  | @field key v p pairs _ _ ih ihs =>
    have := Spells.field (spellsName_write key) (ih (Nat.max_le.1 hroom).1) gap_nil gap_space
      (ihs (Nat.max_le.1 hroom).2)
    simpa [Part.write, Json.writeFields] using this

/-- A value without numbers, with no key twice in an object, is read back from its compact form, if
there is room for its depth. -/
theorem Json.read_write {v : Json} (h : Lossless (.value v)) {room : Nat} (hroom : v.depth ≤ room) :
    Json.read room v.write = .ok v :=
  Json.read_eq_ok.2 ⟨[], v.write, [], by simp, gap_nil, gap_nil, h.spells hroom⟩

end BlockSafe
