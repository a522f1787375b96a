import BlockSafe.Proofs.Json.Grammar

/-!
# Texts that nest too deep

A reader with room for so many open brackets gives up at the first one for which there is none left.
Which texts these are is again a matter of the grammar: what precedes the bracket is spelled, and
the bracket is one too many (`Overfills`).  The reader fails with them and with no others:

    Json.read room s = .error (.tooDeep opening) ↔ TooDeep room s opening     (Json.read_eq_tooDeep)

Such a text holds more opening brackets than there is room for (`TooDeep.room_lt`).  A text that is
not too deep is read as by a reader with all the room there is (`Json.read_toOption`).
-/

namespace BlockSafe

/-! ## The bracket that is one too many -/

/-- Where the bracket stands: in a value, or in what is read behind an opening bracket. -/
inductive Place where
  | value
  | items
  | fields

/-- `c` starts a value, or items or fields, and ends with the first bracket that `room` leaves no
room for. -/
inductive Overfills : Nat → Text → Place → Bracket → Prop where
  | opensList : Overfills 0 ['['] .value .list
  | opensObject : Overfills 0 ['{'] .value .object
  | list {room w c opening} (gap : Gap w) (items : Overfills room c .items opening) :
      Overfills (room + 1) ('[' :: (w ++ c)) .value opening
  | object {room w c opening} (gap : Gap w) (fields : Overfills room c .fields opening) :
      Overfills (room + 1) ('{' :: (w ++ c)) .value opening
  | item {room c opening} (value : Overfills room c .value opening) :
      Overfills room c .items opening
  | laterItem {room c w w' c' v opening} (item : Spells room c (.value v)) (before : Gap w)
      (behind : Gap w') (items : Overfills room c' .items opening) :
      Overfills room (c ++ (w ++ ',' :: (w' ++ c'))) .items opening
  | field {room k key c opening} (name : SpellsName k key)
      (value : Overfills room c .value opening) : Overfills room (k ++ c) .fields opening
  | laterField {room k key c w w' c' v opening} (name : SpellsName k key)
      (value : Spells room c (.value v)) (before : Gap w) (behind : Gap w')
      (fields : Overfills room c' .fields opening) :
      Overfills room (k ++ (c ++ (w ++ ',' :: (w' ++ c')))) .fields opening

/-- The text starts a value, white space before it apart, that `room` has no room for. -/
def TooDeep (room : Nat) (s : Text) (opening : Bracket) : Prop :=
  ∃ w c t, s = w ++ (c ++ t) ∧ Gap w ∧ Overfills room c .value opening

theorem TooDeep.enclosed {room : Nat} {s : Text} {opening : Bracket} (h : TooDeep room s opening)
    {w : Text} (hw : Gap w) (t : Text) : TooDeep room (w ++ (s ++ t)) opening := by
  obtain ⟨w', c, t', rfl, hw', hc⟩ := h
  exact ⟨w ++ w', c, t' ++ t, by simp only [List.append_assoc], List.forall_mem_append.2 ⟨hw, hw'⟩,
    hc⟩

/-! ## How many brackets it takes -/

/-- How many brackets the text opens, those within quotes included. -/
def openings (s : Text) : Nat := s.countP fun c => c == '[' || c == '{'

theorem openings_le_length (s : Text) : openings s ≤ s.length := List.countP_le_length

theorem openings_le_of_isInfix {s t : Text} (h : s <:+: t) : openings s ≤ openings t :=
  h.sublist.countP_le

/-- Behind an opening bracket stand fewer. -/
theorem openings_opening {d : Char} (hd : d = '[' ∨ d = '{') (w c : Text) :
    openings c + 1 ≤ openings (d :: (w ++ c)) := by
  rw [openings, openings, List.countP_cons_of_pos (by rcases hd with rfl | rfl <;> rfl)]
  exact Nat.succ_le_succ (openings_le_of_isInfix (List.suffix_append w c).isInfix)

/-- A bracket is one too many only behind as many others as there is room for. -/
theorem Overfills.room_lt {room : Nat} {c : Text} {place : Place} {opening : Bracket}
    (h : Overfills room c place opening) : room < openings c := by
  induction h with
  | opensList | opensObject => decide
  | list _ _ ih => exact Nat.lt_of_lt_of_le (Nat.succ_lt_succ ih) (openings_opening (.inl rfl) _ _)
  | object _ _ ih =>
    exact Nat.lt_of_lt_of_le (Nat.succ_lt_succ ih) (openings_opening (.inr rfl) _ _)
  | item _ ih => exact ih
  | @laterItem _ c w w' c' _ _ _ _ _ _ ih =>
    exact Nat.lt_of_lt_of_le ih (openings_le_of_isInfix ⟨c ++ (w ++ ',' :: w'), [], by simp⟩)
  | @field _ k _ c _ _ _ ih =>
    exact Nat.lt_of_lt_of_le ih (openings_le_of_isInfix (List.suffix_append k c).isInfix)
  | @laterField _ k _ c w w' c' _ _ _ _ _ _ _ ih =>
    exact Nat.lt_of_lt_of_le ih (openings_le_of_isInfix ⟨k ++ (c ++ (w ++ ',' :: w')), [], by simp⟩)

/-- How many brackets of a part are open at once. -/
def Part.depth : Part → Nat
  | .value v => v.depth
  | .items vs => Json.itemsDepth vs
  | .fields pairs => Json.fieldsDepth pairs

theorem fieldsDepth_put (key : Text) (v : Json) (fields : Fields) :
    Json.fieldsDepth (Fields.put key v fields) ≤ max v.depth (Json.fieldsDepth fields) := by
  induction fields with
  | nil => exact Nat.le_refl _
  | cons field fields ih =>
    obtain ⟨k, w⟩ := field
    rw [Fields.put]
    split
    · simp only [Json.fieldsDepth]
      omega
    · simp only [Json.fieldsDepth]
      omega

/-- Of several fields with one key one is kept, which is no deeper than all of them. -/
theorem fieldsDepth_ofPairs (pairs : List (Text × Json)) :
    Json.fieldsDepth (Fields.ofPairs pairs) ≤ Json.fieldsDepth pairs := by
  have run : ∀ (pairs : List (Text × Json)) (fields : Fields),
      Json.fieldsDepth (pairs.foldl (fun fields p => Fields.put p.1 p.2 fields) fields) ≤
        max (Json.fieldsDepth fields) (Json.fieldsDepth pairs) := by
    intro pairs
    induction pairs with
    | nil => exact fun fields => Nat.le_max_left _ _
    | cons p pairs ih =>
      intro fields
      have hput := fieldsDepth_put p.1 p.2 fields
      have hrest := ih (Fields.put p.1 p.2 fields)
      rw [List.foldl_cons, Json.fieldsDepth]
      omega
  have h := run pairs []
  rwa [Json.fieldsDepth, Nat.zero_max] at h

/-- A part opens as many brackets at least as are open at once. -/
theorem Spells.depth_le {room : Nat} {c : Text} {part : Part} (h : Spells room c part) :
    part.depth ≤ openings c := by
  induction h with
  | null | yes | no | number | text => exact Nat.zero_le _
  | emptyList =>
    exact Nat.le_trans (Nat.succ_le_succ (Nat.zero_le _)) (openings_opening (.inl rfl) _ _)
  | list _ _ ih => exact Nat.le_trans (Nat.succ_le_succ ih) (openings_opening (.inl rfl) _ _)
  | emptyObject =>
    exact Nat.le_trans (Nat.succ_le_succ (Nat.zero_le _)) (openings_opening (.inr rfl) _ _)
  | object _ _ ih =>
    exact Nat.le_trans (Nat.succ_le_succ ((fieldsDepth_ofPairs _).trans ih))
      (openings_opening (.inr rfl) _ _)
  | lastItem _ _ ih =>
    exact Nat.max_le.2 ⟨ih.trans (openings_le_of_isInfix (List.prefix_append _ _).isInfix),
      Nat.zero_le _⟩
  | @item _ c w w' c' _ _ _ _ _ _ ih ihs =>
    exact Nat.max_le.2 ⟨ih.trans (openings_le_of_isInfix (List.prefix_append _ _).isInfix),
      ihs.trans (openings_le_of_isInfix ⟨c ++ (w ++ ',' :: w'), [], by simp⟩)⟩
  | @lastField _ k _ c w _ _ _ _ ih =>
    exact Nat.max_le.2 ⟨ih.trans (openings_le_of_isInfix ⟨k, w ++ ['}'], by simp⟩), Nat.zero_le _⟩
  | @field _ k _ c w w' c' _ _ _ _ _ _ _ ih ihs =>
    exact Nat.max_le.2 ⟨ih.trans (openings_le_of_isInfix ⟨k, w ++ ',' :: (w' ++ c'), by simp⟩),
      ihs.trans (openings_le_of_isInfix ⟨k ++ (c ++ (w ++ ',' :: w')), [], by simp⟩)⟩

theorem TooDeep.room_lt {room : Nat} {s : Text} {opening : Bracket} (h : TooDeep room s opening) :
    room < openings s := by
  obtain ⟨w, c, t, rfl, -, hc⟩ := h
  exact Nat.lt_of_lt_of_le hc.room_lt (openings_le_of_isInfix ⟨w, t, by simp⟩)

/-- Brackets alone are too many as soon as they are more than there is room for. -/
theorem overfills_replicate (room : Nat) :
    Overfills room (List.replicate (room + 1) '[') .value .list := by
  induction room with
  | zero => exact .opensList
  | succ room ih => exact Overfills.list gap_nil (.item ih)

theorem tooDeep_replicate {room n : Nat} (h : room < n) (t : Text) :
    TooDeep room (List.replicate n '[' ++ t) .list := by
  obtain ⟨k, rfl⟩ := Nat.exists_eq_add_of_lt h
  refine ⟨[], List.replicate (room + 1) '[', List.replicate k '[' ++ t, ?_, gap_nil,
    overfills_replicate room⟩
  rw [List.nil_append, ← List.append_assoc, List.replicate_append_replicate]
  congr 2
  omega

/-! ## Soundness -/

theorem map_eq_error {ε α β : Type} {f : α → β} {result : Except ε α} {e : ε} :
    result.map f = .error e ↔ result = .error e := by
  cases result with
  | error e' =>
    exact ⟨fun h => congrArg _ (Except.error.inj h), fun h => congrArg _ (Except.error.inj h)⟩
  | ok a => exact ⟨nofun, nofun⟩

theorem orMalformed_ne_tooDeep {α : Type} {found : Option α} {opening : Bracket} :
    orMalformed found ≠ .error (.tooDeep opening) := by
  cases found <;> exact nofun

/-- Wherever the reading stops at some fuel for want of room, there is none. -/
structure Stuck (fuel : Nat) : Prop where
  value : ∀ {room s opening}, readValue fuel room s = .error (.tooDeep opening) →
    ∃ c t, s = c ++ t ∧ Overfills room c .value opening
  items : ∀ {room s opening}, readItems fuel room s = .error (.tooDeep opening) →
    ∃ c t, s = c ++ t ∧ Overfills room c .items opening
  fields : ∀ {room s opening}, readFields fuel room s = .error (.tooDeep opening) →
    ∃ c t, s = c ++ t ∧ Overfills room c .fields opening

section
variable {fuel : Nat} (ih : Stuck fuel) {room : Nat} {s : Text} {opening : Bracket}
include ih

theorem Stuck.value_succ (h : readValue (fuel + 1) room s = .error (.tooDeep opening)) :
    ∃ c t, s = c ++ t ∧ Overfills room c .value opening := by
  unfold readValue at h
  split at h
  · next rest =>
    obtain ⟨w, hw, gap⟩ := skipJsonSpace_split rest
    split at h
    · cases h
      exact ⟨['['], rest, rfl, .opensList⟩
    · split at h
      · cases h
      · obtain ⟨c, t, hc, hover⟩ := ih.items (map_eq_error.1 h)
        rw [hc] at hw
        exact ⟨'[' :: (w ++ c), t, by simp [hw], .list gap hover⟩
  · next rest =>
    obtain ⟨w, hw, gap⟩ := skipJsonSpace_split rest
    split at h
    · cases h
      exact ⟨['{'], rest, rfl, .opensObject⟩
    · split at h
      · cases h
      · obtain ⟨c, t, hc, hover⟩ := ih.fields (map_eq_error.1 h)
        rw [hc] at hw
        exact ⟨'{' :: (w ++ c), t, by simp [hw], .object gap hover⟩
  · exact absurd h orMalformed_ne_tooDeep

theorem Stuck.items_succ (h : readItems (fuel + 1) room s = .error (.tooDeep opening)) :
    ∃ c t, s = c ++ t ∧ Overfills room c .items opening := by
  unfold readItems at h
  split at h
  · next hv =>
    cases h
    obtain ⟨c, t, hc, hover⟩ := ih.value hv
    exact ⟨c, t, hc, .item hover⟩
  · next item afterItem hv =>
    obtain ⟨c, rfl, hc⟩ := (sound fuel).value hv
    obtain ⟨w, hw, gap⟩ := skipJsonSpace_split afterItem
    split at h
    · cases h
    · next rest hs =>
      obtain ⟨w', hw', gap'⟩ := skipJsonSpace_split rest
      obtain ⟨c', t, hc', hover⟩ := ih.items (map_eq_error.1 h)
      rw [hs] at hw
      rw [hc'] at hw'
      exact ⟨c ++ (w ++ ',' :: (w' ++ c')), t, by simp [hw, hw'], .laterItem hc gap gap' hover⟩
    · cases h

theorem Stuck.fields_succ (h : readFields (fuel + 1) room s = .error (.tooDeep opening)) :
    ∃ c t, s = c ++ t ∧ Overfills room c .fields opening := by
  unfold readFields at h
  split at h
  · cases h
  · next key afterName hk =>
    obtain ⟨k, rfl, hname⟩ := readName_sound hk
    split at h
    · next hv =>
      cases h
      obtain ⟨c, t, rfl, hover⟩ := ih.value hv
      exact ⟨k ++ c, t, by rw [List.append_assoc], .field hname hover⟩
    · next v afterValue hv =>
      obtain ⟨c, rfl, hc⟩ := (sound fuel).value hv
      obtain ⟨w, hw, gap⟩ := skipJsonSpace_split afterValue
      split at h
      · cases h
      · next more hs =>
        obtain ⟨w', hw', gap'⟩ := skipJsonSpace_split more
        obtain ⟨c', t, hc', hover⟩ := ih.fields (map_eq_error.1 h)
        rw [hs] at hw
        rw [hc'] at hw'
        exact ⟨k ++ (c ++ (w ++ ',' :: (w' ++ c'))), t, by simp [hw, hw'],
          .laterField hname hc gap gap' hover⟩
      · cases h

end

theorem stuck (fuel : Nat) : Stuck fuel := by
  induction fuel with
  | zero =>
    refine ⟨fun h => ?_, fun h => ?_, fun h => ?_⟩
    · cases h
    · cases h
    · cases h
  | succ fuel ih => exact ⟨ih.value_succ, ih.items_succ, ih.fields_succ⟩

/-! ## Completeness -/

/-- Nothing that overfills starts with white space or with a closing bracket. -/
theorem Overfills.opens {room : Nat} {c : Text} {place : Place} {opening : Bracket}
    (h : Overfills room c place opening) : Starts c := by
  induction h with
  | opensList | list => exact ⟨'[', _, rfl, by decide⟩
  | opensObject | object => exact ⟨'{', _, rfl, by decide⟩
  | item _ ih => exact ih
  | laterItem item => exact item.opens.append _
  | field name => exact name.opens.append _
  | laterField name => exact name.opens.append _

/-- The reading stops at the bracket, given two steps for every character before it. -/
def StopsAt (room : Nat) (c : Text) (opening : Bracket) : Place → Prop
  | .value => ∀ {fuel t}, 2 * c.length ≤ fuel + 1 →
      readValue (fuel + 1) room (c ++ t) = .error (.tooDeep opening)
  | .items => ∀ {fuel t}, 2 * c.length ≤ fuel →
      readItems (fuel + 1) room (c ++ t) = .error (.tooDeep opening)
  | .fields => ∀ {fuel t}, 2 * c.length ≤ fuel →
      readFields (fuel + 1) room (c ++ t) = .error (.tooDeep opening)

theorem Overfills.stopsAt {room : Nat} {c : Text} {place : Place} {opening : Bracket}
    (h : Overfills room c place opening) : StopsAt room c opening place := by
  induction h with
  | opensList | opensObject =>
    intro fuel t _
    rfl
  | @list _ w c _ gap h ih =>
    intro fuel t hf
    rw [List.length_cons, List.length_append] at hf
    obtain ⟨k, rfl⟩ := h.opens.fuel (show c.length ≤ fuel by omega)
    rw [readValue_list gap h.opens, ih (by omega)]
    rfl
  | @object _ w c _ gap h ih =>
    intro fuel t hf
    rw [List.length_cons, List.length_append] at hf
    obtain ⟨k, rfl⟩ := h.opens.fuel (show c.length ≤ fuel by omega)
    rw [readValue_object gap h.opens, ih (by omega)]
    rfl
  | @item _ c _ h ih =>
    intro fuel t hf
    obtain ⟨k, rfl⟩ := h.opens.fuel (show c.length ≤ fuel by omega)
    rw [readItems, ih hf]
  | @laterItem _ c w w' c' v _ item gap gap' h ih =>
    intro fuel t hf
    simp only [List.length_append, List.length_cons] at hf
    obtain ⟨k, rfl⟩ := item.opens.fuel (show c.length ≤ fuel by omega)
    rw [readItems_next (fun _ ht => item.found (by omega) fun _ _ => ht) gap gap' h.opens,
      ih (by omega)]
    rfl
  | @field _ k key c _ name h ih =>
    intro fuel t hf
    rw [List.length_append] at hf
    obtain ⟨n, rfl⟩ := h.opens.fuel (show c.length ≤ fuel by omega)
    rw [List.append_assoc, readFields, name.readName_eq h.opens]
    dsimp only
    rw [ih (by omega)]
  | @laterField _ k key c w w' c' v _ name value gap gap' h ih =>
    intro fuel t hf
    simp only [List.length_append, List.length_cons] at hf
    obtain ⟨n, rfl⟩ := value.opens.fuel (show c.length ≤ fuel by omega)
    rw [readFields_next name value.opens (fun _ ht => value.found (by omega) fun _ _ => ht) gap gap'
      h.opens, ih (by omega)]
    rfl

/-! ## The reader and its room -/

/-- The reader fails for want of room with the texts that are too deep for it. -/
theorem Json.read_eq_tooDeep {room : Nat} {s : Text} {opening : Bracket} :
    Json.read room s = .error (.tooDeep opening) ↔ TooDeep room s opening := by
  unfold Json.read
  constructor
  · intro h
    split at h
    · split at h <;> cases h
    · next hr =>
      cases h
      obtain ⟨w, hw, gap⟩ := skipJsonSpace_split s
      obtain ⟨c, t, hc, hover⟩ := (stuck _).value hr
      exact ⟨w, c, t, by rw [← hc, ← hw], gap, hover⟩
  · rintro ⟨w, c, t, rfl, gap, hover⟩
    have hlength : 2 * c.length ≤ 2 * (w ++ (c ++ t)).length + 1 + 1 := by
      simp only [List.length_append]
      omega
    rw [gap.skip_part hover.opens, hover.stopsAt hlength]

/-- `ample`, which was read with more room, is the same as `result`, unless there was too little
room for that. -/
def Agree {α : Type} (ample result : Except ReadError α) : Prop :=
  ample = result ∨ ∃ opening, result = .error (.tooDeep opening)

theorem Agree.map {α β : Type} {ample result : Except ReadError α} (h : Agree ample result)
    (f : α → β) : Agree (ample.map f) (result.map f) := by
  rcases h with rfl | ⟨opening, rfl⟩
  · exact .inl rfl
  · exact .inr ⟨opening, rfl⟩

/-- With more room the result is the same, at some fuel. -/
structure Steady (fuel : Nat) : Prop where
  value : ∀ {room more}, room ≤ more → ∀ s, Agree (readValue fuel more s) (readValue fuel room s)
  items : ∀ {room more}, room ≤ more → ∀ s, Agree (readItems fuel more s) (readItems fuel room s)
  fields : ∀ {room more}, room ≤ more →
    ∀ s, Agree (readFields fuel more s) (readFields fuel room s)

section
variable {fuel : Nat} (ih : Steady fuel) {room more : Nat} (hle : room ≤ more) (s : Text)
include ih hle

theorem Steady.value_succ : Agree (readValue (fuel + 1) more s) (readValue (fuel + 1) room s) := by
  unfold readValue
  split
  · cases room with
    | zero => exact .inr ⟨.list, rfl⟩
    | succ room =>
      obtain ⟨more, rfl⟩ := Nat.exists_eq_add_of_le' (Nat.one_le_of_lt hle)
      dsimp only
      split
      · exact .inl rfl
      · exact (ih.items (Nat.le_of_succ_le_succ hle) _).map _
  · cases room with
    | zero => exact .inr ⟨.object, rfl⟩
    | succ room =>
      obtain ⟨more, rfl⟩ := Nat.exists_eq_add_of_le' (Nat.one_le_of_lt hle)
      dsimp only
      split
      · exact .inl rfl
      · exact (ih.fields (Nat.le_of_succ_le_succ hle) _).map _
  · exact .inl rfl

theorem Steady.items_succ : Agree (readItems (fuel + 1) more s) (readItems (fuel + 1) room s) := by
  unfold readItems
  rcases ih.value hle s with hv | ⟨opening, hv⟩
  · rw [hv]
    split
    · exact .inl rfl
    · split
      · exact .inl rfl
      · exact (ih.items hle _).map _
      · exact .inl rfl
  · exact .inr ⟨opening, by rw [hv]⟩

theorem Steady.fields_succ :
    Agree (readFields (fuel + 1) more s) (readFields (fuel + 1) room s) := by
  unfold readFields
  split
  · exact .inl rfl
  · next key afterName _ =>
    rcases ih.value hle afterName with hv | ⟨opening, hv⟩
    · rw [hv]
      split
      · exact .inl rfl
      · split
        · exact .inl rfl
        · exact (ih.fields hle _).map _
        · exact .inl rfl
    · exact .inr ⟨opening, by rw [hv]⟩

end

theorem steady (fuel : Nat) : Steady fuel := by
  induction fuel with
  | zero => exact ⟨fun _ _ => .inl rfl, fun _ _ => .inl rfl, fun _ _ => .inl rfl⟩
  | succ fuel ih =>
    exact ⟨fun hle => ih.value_succ hle, fun hle => ih.items_succ hle,
      fun hle => ih.fields_succ hle⟩

theorem Json.read_agree {room more : Nat} (hle : room ≤ more) (s : Text) :
    Agree (Json.read more s) (Json.read room s) := by
  unfold Json.read
  rcases (steady (2 * s.length + 2)).value hle (skipJsonSpace s) with h | ⟨opening, h⟩
  · rw [h]
    exact .inl rfl
  · exact .inr ⟨opening, by rw [h]⟩

/-- With as much room as the text is long no text is too deep. -/
theorem not_tooDeep_length (s : Text) (opening : Bracket) : ¬ TooDeep s.length s opening :=
  fun h => Nat.not_lt_of_le (openings_le_length s) h.room_lt

/-- A text that is not too deep is read as if there were all the room it may take. -/
theorem Json.read_toOption {room : Nat} {s : Text} (h : ∀ opening, ¬ TooDeep room s opening) :
    (Json.read room s).toOption = Json.read? s := by
  unfold Json.read?
  rcases Nat.le_total room s.length with hle | hle
  · rcases Json.read_agree hle s with he | ⟨opening, he⟩
    · rw [he]
    · exact absurd (Json.read_eq_tooDeep.1 he) (h opening)
  · rcases Json.read_agree hle s with he | ⟨opening, he⟩
    · rw [he]
    · exact absurd (Json.read_eq_tooDeep.1 he) (not_tooDeep_length s opening)

theorem toOption_eq_some {ε α : Type} {result : Except ε α} {a : α} :
    result.toOption = some a ↔ result = .ok a := by
  cases result with
  | error e => exact ⟨nofun, nofun⟩
  | ok b => exact ⟨fun h => congrArg _ (Option.some.inj h), fun h => congrArg _ (Except.ok.inj h)⟩

/-- What is read with some room is what is read with all of it. -/
theorem Json.read?_of_read {room : Nat} {s : Text} {v : Json} (h : Json.read room s = .ok v) :
    Json.read? s = some v := by
  have hfits : ∀ opening, ¬ TooDeep room s opening := fun opening hdeep =>
    nomatch h.symm.trans (Json.read_eq_tooDeep.2 hdeep)
  rw [← Json.read_toOption hfits, h]
  rfl

theorem Json.read?_eq_some {s : Text} {v : Json} : Json.read? s = some v ↔
    ∃ w c w', s = w ++ (c ++ w') ∧ Gap w ∧ Gap w' ∧ ∃ room, Spells room c (.value v) := by
  constructor
  · intro h
    obtain ⟨w, c, w', hs, gap, gap', hc⟩ := Json.read_eq_ok.1 (toOption_eq_some.1 h)
    exact ⟨w, c, w', hs, gap, gap', s.length, hc⟩
  · rintro ⟨w, c, w', hs, gap, gap', room, hc⟩
    exact Json.read?_of_read (Json.read_eq_ok.2 ⟨w, c, w', hs, gap, gap', hc⟩)

end BlockSafe
