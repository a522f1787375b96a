import BlockSafe.Json.Reader
import BlockSafe.Proofs.Text.Ends

/-!
# The grammar of numbers

Which text writes which number: an integer part without a leading zero, a fraction and an
exponent, both optional, or one of the three names.  The reader finds exactly these texts, as long
as what follows does not prolong the number (`Halts`):

    readNumber s = some (n, tail) → ∃ c, s = c ++ tail ∧ SpellsNumber c n      (readNumber_sound)
    SpellsNumber c n → Halts tail → readNumber (c ++ tail) = some (n, tail)
                                                               (SpellsNumber.readNumber_eq)
-/

namespace BlockSafe

/-! ## Grammar -/

/-- A text behind which a number cannot go on. -/
def Halts (t : Text) : Prop :=
  ∀ c ∈ t.head?, c.isDigit = false ∧ c ≠ '.' ∧ c ≠ 'e' ∧ c ≠ 'E'

/-- One digit or more. -/
structure Digits (ds : Text) : Prop where
  ne_nil : ds ≠ []
  digit : ∀ c ∈ ds, c.isDigit = true

/-- An integer part: a zero alone, or digits that do not start with one. -/
structure Whole (w : Text) : Prop extends Digits w where
  zero : w.head? = some '0' → w = ['0']

/-- A fraction and its digits, or nothing. -/
inductive SpellsFraction : Text → Option Text → Prop where
  | absent : SpellsFraction [] none
  | present {ds : Text} (digits : Digits ds) : SpellsFraction ('.' :: ds) (some ds)

/-- An exponent and its value, or nothing. -/
inductive SpellsExponent : Text → Option Int → Prop where
  | absent : SpellsExponent [] none
  | plain {e : Char} {ds : Text} (letter : e = 'e' ∨ e = 'E') (digits : Digits ds) :
      SpellsExponent (e :: ds) (some (digitsValue ds))
  | plus {e : Char} {ds : Text} (letter : e = 'e' ∨ e = 'E') (digits : Digits ds) :
      SpellsExponent (e :: '+' :: ds) (some (digitsValue ds))
  | minus {e : Char} {ds : Text} (letter : e = 'e' ∨ e = 'E') (digits : Digits ds) :
      SpellsExponent (e :: '-' :: ds) (some (-(digitsValue ds : Int)))

/-- The number with this integer part, fraction and exponent; an integer that is too long is
none. -/
def number? (negative : Bool) (whole : Text) : Option Text → Option Int → Option Number
  | none, none =>
    if whole.length > maxIntegerDigits then none
    else some (.int (if negative then -(digitsValue whole : Int) else digitsValue whole))
  | fraction, exponent =>
    let places := fraction.getD []
    some (.real (signedReal negative
      (realOfDecimal ⟨digitsValue (whole ++ places), exponent.getD 0 - places.length⟩)))

/-- A number behind its sign. -/
inductive SpellsMagnitude (negative : Bool) : Text → Number → Prop where
  | mk {w f x : Text} {places power n} (whole : Whole w) (fraction : SpellsFraction f places)
      (exponent : SpellsExponent x power) (value : number? negative w places power = some n) :
      SpellsMagnitude negative (w ++ (f ++ x)) n

/-- A number, the three named ones among them. -/
inductive SpellsNumber : Text → Number → Prop where
  | nan : SpellsNumber "NaN" (.real (0 / 0))
  | infinity : SpellsNumber "Infinity" (.real (1 / 0))
  | minusInfinity : SpellsNumber "-Infinity" (.real (-1 / 0))
  | plain {c : Text} {n : Number} (magnitude : SpellsMagnitude false c n) : SpellsNumber c n
  | minus {c : Text} {n : Number} (magnitude : SpellsMagnitude true c n) : SpellsNumber ('-' :: c) n

section
variable {s t tail : Text}

/-! ## Digits -/

theorem Halts.not_digit (ht : Halts t) : ∀ c ∈ t.head?, c.isDigit = false := fun c hc => (ht c hc).1

theorem takeWhile_digits {ds : Text} (h : ∀ c ∈ ds, c.isDigit = true)
    (ht : ∀ c ∈ t.head?, c.isDigit = false) : (ds ++ t).takeWhile Char.isDigit = ds := by
  rw [List.takeWhile_append_of_pos h]
  cases t with
  | nil => simp
  | cons c t => simp [ht c rfl]

theorem dropWhile_digits {ds : Text} (h : ∀ c ∈ ds, c.isDigit = true)
    (ht : ∀ c ∈ t.head?, c.isDigit = false) : (ds ++ t).dropWhile Char.isDigit = t := by
  rw [List.dropWhile_append_of_pos h, Text.dropWhile_eq_self ht]

theorem digits_of_nonempty {s : Text} (h : ¬(s.takeWhile Char.isDigit).isEmpty = true) :
    Digits (s.takeWhile Char.isDigit) := by
  refine ⟨fun he => h ?_, fun c hc => List.mem_takeWhile_imp hc⟩
  rw [he]
  rfl

theorem digits_takeWhile {c : Char} (hc : c.isDigit = true) (s : Text) :
    Digits (c :: s.takeWhile Char.isDigit) := by
  refine ⟨List.cons_ne_nil _ _, fun d hd => ?_⟩
  rcases List.mem_cons.1 hd with rfl | hd
  · exact hc
  · exact List.mem_takeWhile_imp hd

theorem readWhole_sound {w : Text} (h : readWhole s = some (w, tail)) :
    s = w ++ tail ∧ Whole w := by
  unfold readWhole at h
  split at h
  · cases h
    have digit : ∀ c ∈ ['0'], c.isDigit = true := Text.forall_of_all rfl
    exact ⟨rfl, ⟨List.cons_ne_nil _ _, digit⟩, fun _ => rfl⟩
  · next c rest hz =>
    split at h
    · next hc =>
      cases h
      refine ⟨?_, digits_takeWhile hc rest, ?_⟩
      · rw [List.cons_append, List.takeWhile_append_dropWhile]
      · intro h0
        cases h0
        exact absurd rfl hz
    · cases h
  · cases h

theorem Whole.readWhole_eq {w : Text} (h : Whole w) (ht : ∀ c ∈ t.head?, c.isDigit = false) :
    readWhole (w ++ t) = some (w, t) := by
  cases w with
  | nil => exact absurd rfl h.ne_nil
  | cons c w =>
    by_cases hc : c = '0'
    · subst hc
      rw [h.zero rfl]
      rfl
    · have hw : ∀ d ∈ w, d.isDigit = true := fun d hd => h.digit d (List.mem_cons_of_mem c hd)
      rw [List.cons_append, readWhole, if_pos (h.digit c List.mem_cons_self),
        takeWhile_digits hw ht, dropWhile_digits hw ht]
      exact hc

/-! ## Fractions and exponents -/

/-- What stands before the rest is the fraction that was read, nothing if none was. -/
theorem readFraction_split (s : Text) :
    ∃ f, s = f ++ ((readFraction s).map (·.2)).getD s ∧
      SpellsFraction f ((readFraction s).map (·.1)) := by
  cases h : readFraction s with
  | none => exact ⟨[], rfl, .absent⟩
  | some r =>
    unfold readFraction at h
    split at h
    · next rest =>
      simp only at h
      split at h
      · cases h
      · next hne =>
        cases h
        refine ⟨'.' :: rest.takeWhile Char.isDigit, ?_, .present (digits_of_nonempty hne)⟩
        show _ = '.' :: (_ ++ rest.dropWhile Char.isDigit)
        rw [List.takeWhile_append_dropWhile]
    · cases h

theorem SpellsFraction.readFraction_eq {f : Text} {places : Option Text}
    (h : SpellsFraction f places) (ht : ∀ c ∈ t.head?, c.isDigit = false ∧ c ≠ '.') :
    readFraction (f ++ t) = places.map fun ds => (ds, t) := by
  have hd : ∀ c ∈ t.head?, c.isDigit = false := fun c hc => (ht c hc).1
  cases h with
  | absent =>
    rw [List.nil_append]
    unfold readFraction
    split
    · exact absurd rfl (ht '.' rfl).2
    · rfl
  | @present ds h =>
    rw [List.cons_append, readFraction, takeWhile_digits h.digit hd, dropWhile_digits h.digit hd]
    have hne : ds.isEmpty = false := by simpa using h.ne_nil
    simp [hne]

/-- The digits of an exponent behind its sign. -/
def readPower (negative : Bool) (body : Text) : Option (Int × Text) :=
  let digits := body.takeWhile Char.isDigit
  if digits.isEmpty then none
  else
    let value : Int := digitsValue digits
    some (if negative then -value else value, body.dropWhile Char.isDigit)

section
variable {e : Char} (he : e = 'e' ∨ e = 'E')
include he

theorem readExponent_minus (body : Text) :
    readExponent (e :: '-' :: body) = readPower true body := by
  rw [readExponent, if_pos he]
  rfl

theorem readExponent_plus (body : Text) :
    readExponent (e :: '+' :: body) = readPower false body := by
  rw [readExponent, if_pos he]
  rfl

theorem readExponent_plain {body : Text} (h : ∀ c ∈ body.head?, c ≠ '-' ∧ c ≠ '+') :
    readExponent (e :: body) = readPower false body := by
  rw [readExponent, if_pos he]
  · rfl
  · rintro _ rfl
    exact (h '-' rfl).1 rfl
  · rintro _ rfl
    exact (h '+' rfl).2 rfl

end

theorem readPower_sound {negative : Bool} {power : Int}
    (h : readPower negative s = some (power, tail)) :
    ∃ ds, s = ds ++ tail ∧ Digits ds ∧
      power = if negative then -(digitsValue ds : Int) else digitsValue ds := by
  unfold readPower at h
  simp only at h
  split at h
  · cases h
  · next hne =>
    cases h
    exact ⟨s.takeWhile Char.isDigit, List.takeWhile_append_dropWhile.symm,
      digits_of_nonempty hne, rfl⟩

theorem Digits.readPower_eq {ds : Text} (h : Digits ds) (ht : ∀ c ∈ t.head?, c.isDigit = false)
    (negative : Bool) : readPower negative (ds ++ t) =
      some (if negative then -(digitsValue ds : Int) else digitsValue ds, t) := by
  unfold readPower
  simp only [takeWhile_digits h.digit ht, dropWhile_digits h.digit ht]
  rw [if_neg]
  simpa using h.ne_nil

/-- What stands before the rest is the exponent that was read, nothing if none was. -/
theorem readExponent_split (s : Text) :
    ∃ x, s = x ++ ((readExponent s).map (·.2)).getD s ∧
      SpellsExponent x ((readExponent s).map (·.1)) := by
  cases h : readExponent s with
  | none => exact ⟨[], rfl, .absent⟩
  | some r =>
    obtain ⟨power, tail⟩ := r
    show ∃ x, s = x ++ tail ∧ SpellsExponent x (some power)
    cases s with
    | nil => cases h
    | cons e body =>
      have he : e = 'e' ∨ e = 'E' := by
        by_contra he
        unfold readExponent at h
        simp only [if_neg he] at h
        cases h
      -- the sign decides which of the three forms it is
      by_cases hm : body.head? = some '-'
      · obtain ⟨body, rfl⟩ := List.head?_eq_some_iff.1 hm
        rw [readExponent_minus he] at h
        obtain ⟨ds, rfl, hd, rfl⟩ := readPower_sound h
        exact ⟨e :: '-' :: ds, rfl, .minus he hd⟩
      · by_cases hp : body.head? = some '+'
        · obtain ⟨body, rfl⟩ := List.head?_eq_some_iff.1 hp
          rw [readExponent_plus he] at h
          obtain ⟨ds, rfl, hd, rfl⟩ := readPower_sound h
          exact ⟨e :: '+' :: ds, rfl, .plus he hd⟩
        · rw [readExponent_plain he] at h
          · obtain ⟨ds, rfl, hd, rfl⟩ := readPower_sound h
            exact ⟨e :: ds, rfl, .plain he hd⟩
          · rintro c hc
            refine ⟨?_, ?_⟩
            · rintro rfl
              exact hm hc
            · rintro rfl
              exact hp hc

theorem SpellsExponent.readExponent_eq {x : Text} {power : Option Int}
    (h : SpellsExponent x power) (ht : Halts t) :
    readExponent (x ++ t) = power.map fun p => (p, t) := by
  cases h with
  | absent =>
    rw [List.nil_append]
    unfold readExponent
    split
    · next e rest =>
      rw [if_neg (not_or.2 (ht e rfl).2.2)]
      rfl
    · rfl
  | @plain e ds he h =>
    rw [List.cons_append, readExponent_plain he, h.readPower_eq ht.not_digit]
    · rfl
    · intro c hc
      obtain ⟨d, ds', rfl⟩ := List.exists_cons_of_ne_nil h.ne_nil
      cases hc
      have hd := h.digit c List.mem_cons_self
      refine ⟨?_, ?_⟩
      · rintro rfl
        cases hd
      · rintro rfl
        cases hd
  | @plus e ds he h =>
    rw [List.cons_append, List.cons_append, readExponent_plus he, h.readPower_eq ht.not_digit]
    rfl
  | @minus e ds he h =>
    rw [List.cons_append, List.cons_append, readExponent_minus he, h.readPower_eq ht.not_digit]
    rfl

/-! ## Numbers -/

/-- An unsigned number is its integer part, its fraction and its exponent. -/
theorem readMagnitude_eq (negative : Bool) {whole afterWhole : Text}
    (h : readWhole s = some (whole, afterWhole)) :
    let afterFraction := ((readFraction afterWhole).map (·.2)).getD afterWhole
    readMagnitude negative s =
      (number? negative whole ((readFraction afterWhole).map (·.1))
        ((readExponent afterFraction).map (·.1))).map
          fun n => (n, ((readExponent afterFraction).map (·.2)).getD afterFraction) := by
  unfold readMagnitude
  rw [h]
  simp only
  cases hf : readFraction afterWhole with
  | none =>
    simp only [Option.map_none, Option.getD_none]
    cases hx : readExponent afterWhole with
    | none =>
      simp only [number?, Option.map_none, Option.getD_none]
      split <;> rfl
    | some r => rfl
  | some r =>
    simp only [Option.map_some, Option.getD_some]
    cases hx : readExponent r.2 with
    | none => rfl
    | some r => rfl

theorem readMagnitude_sound {negative : Bool} {n : Number}
    (h : readMagnitude negative s = some (n, tail)) :
    ∃ c, s = c ++ tail ∧ SpellsMagnitude negative c n := by
  cases hw : readWhole s with
  | none =>
    unfold readMagnitude at h
    rw [hw] at h
    cases h
  | some r =>
    obtain ⟨whole, afterWhole⟩ := r
    rw [readMagnitude_eq negative hw] at h
    obtain ⟨rfl, hwhole⟩ := readWhole_sound hw
    obtain ⟨f, hf, fraction⟩ := readFraction_split afterWhole
    obtain ⟨x, hx, exponent⟩ :=
      readExponent_split (((readFraction afterWhole).map (·.2)).getD afterWhole)
    obtain ⟨m, hm, hr⟩ := Option.map_eq_some_iff.1 h
    cases hr
    refine ⟨whole ++ (f ++ x), ?_, .mk hwhole fraction exponent hm⟩
    rw [List.append_assoc, List.append_assoc, ← hx, ← hf]

theorem SpellsMagnitude.readMagnitude_eq {negative : Bool} {c : Text} {n : Number}
    (h : SpellsMagnitude negative c n) (ht : Halts t) :
    readMagnitude negative (c ++ t) = some (n, t) := by
  obtain ⟨hw, hf, hx, hn⟩ := h
  rename_i w f x places power
  -- what follows each part starts with no character that would prolong it
  have afterFraction : ∀ c ∈ (x ++ t).head?, c.isDigit = false ∧ c ≠ '.' := by
    intro c hc
    cases hx with
    | absent => exact ⟨(ht c hc).1, (ht c hc).2.1⟩
    | plain he | plus he | minus he =>
      cases hc
      rcases he with rfl | rfl <;> exact ⟨rfl, by decide⟩
  have afterWhole : ∀ c ∈ (f ++ (x ++ t)).head?, c.isDigit = false := by
    intro c hc
    cases hf with
    | absent => exact (afterFraction c hc).1
    | present =>
      cases hc
      rfl
  have hread := BlockSafe.readMagnitude_eq negative (hw.readWhole_eq afterWhole)
  rw [hf.readFraction_eq afterFraction] at hread
  have hrest : ((places.map fun ds => (ds, x ++ t)).map (·.2)).getD (f ++ (x ++ t)) = x ++ t := by
    cases hf <;> rfl
  have hplaces : (places.map fun ds => (ds, x ++ t)).map (·.1) = places := by cases places <;> rfl
  have hpower : (power.map fun p => (p, t)).map (·.1) = power := by cases power <;> rfl
  have htail : ((power.map fun p => (p, t)).map (·.2)).getD (x ++ t) = t := by cases hx <;> rfl
  simp only [hrest, hplaces, hx.readExponent_eq ht, hpower, htail, hn] at hread
  rw [List.append_assoc, List.append_assoc, hread]
  rfl

theorem SpellsMagnitude.head {negative : Bool} {c : Text} {n : Number}
    (h : SpellsMagnitude negative c n) : ∃ d c', c = d :: c' ∧ d.isDigit = true := by
  obtain ⟨hw, -, -, -⟩ := h
  obtain ⟨d, w, rfl⟩ := List.exists_cons_of_ne_nil hw.ne_nil
  exact ⟨d, _, rfl, hw.digit d List.mem_cons_self⟩

theorem SpellsNumber.head {c : Text} {n : Number} (h : SpellsNumber c n) :
    ∃ d c', c = d :: c' ∧ (d.isDigit = true ∨ d = '-' ∨ d = 'N' ∨ d = 'I') := by
  cases h with
  | nan => exact ⟨'N', _, rfl, by decide⟩
  | infinity => exact ⟨'I', _, rfl, by decide⟩
  | minusInfinity => exact ⟨'-', _, rfl, by decide⟩
  | plain h =>
    obtain ⟨d, c', rfl, hd⟩ := h.head
    exact ⟨d, c', rfl, .inl hd⟩
  | minus => exact ⟨'-', _, rfl, .inr (.inl rfl)⟩

theorem readNumber_sound {n : Number} (h : readNumber s = some (n, tail)) :
    ∃ c, s = c ++ tail ∧ SpellsNumber c n := by
  unfold readNumber at h
  split at h
  · next ht =>
    cases h
    exact ⟨_, Text.after?_eq_some.1 ht, .nan⟩
  · next ht _ =>
    cases h
    exact ⟨_, Text.after?_eq_some.1 ht, .infinity⟩
  · next ht _ _ =>
    cases h
    exact ⟨_, Text.after?_eq_some.1 ht, .minusInfinity⟩
  · split at h
    · obtain ⟨c, rfl, hc⟩ := readMagnitude_sound h
      exact ⟨'-' :: c, rfl, .minus hc⟩
    · obtain ⟨c, rfl, hc⟩ := readMagnitude_sound h
      exact ⟨c, rfl, .plain hc⟩

theorem after?_digit {p d : Char} (hp : p.isDigit = false) (hd : d.isDigit = true) (ps r : Text) :
    Text.after? (p :: ps) (d :: r) = none := by
  rw [Text.after?, if_neg]
  rintro rfl
  rw [hp] at hd
  cases hd

theorem SpellsNumber.readNumber_eq {c : Text} {n : Number} (h : SpellsNumber c n) (ht : Halts t) :
    readNumber (c ++ t) = some (n, t) := by
  unfold readNumber
  cases h with
  | nan => rfl
  | infinity => rfl
  | minusInfinity => rfl
  | plain h =>
    rw [← h.readMagnitude_eq ht]
    obtain ⟨d, c, rfl, hd⟩ := h.head
    have h1 : Text.after? "NaN" (d :: (c ++ t)) = none := after?_digit rfl hd _ _
    have h2 : Text.after? "Infinity" (d :: (c ++ t)) = none := after?_digit rfl hd _ _
    have h3 : Text.after? "-Infinity" (d :: (c ++ t)) = none := after?_digit rfl hd _ _
    rw [List.cons_append, h1, h2, h3]
    dsimp only
    split
    · next he =>
      cases he
      cases hd
    · rfl
  | minus h =>
    rw [← h.readMagnitude_eq ht]
    obtain ⟨d, c, rfl, hd⟩ := h.head
    have h3 : Text.after? "-Infinity" ('-' :: d :: (c ++ t)) = none := after?_digit rfl hd _ _
    rw [List.cons_append, List.cons_append, h3]
    rfl

end

/-! ## Characters -/

/-- A digit, a mark or a letter that a number may be spelled with. -/
def InNumber (c : Char) : Prop := c.isDigit = true ∨ c ∈ "+-.eENaInfity".toList

instance (c : Char) : Decidable (InNumber c) := inferInstanceAs (Decidable (_ ∨ _))

theorem Digits.inNumber {ds : Text} (h : Digits ds) : ∀ c ∈ ds, InNumber c :=
  fun c hc => .inl (h.digit c hc)

theorem SpellsFraction.inNumber {f : Text} {places : Option Text} (h : SpellsFraction f places) :
    ∀ c ∈ f, InNumber c := by
  cases h with
  | absent => exact List.forall_mem_nil _
  | present h => exact List.forall_mem_cons.2 ⟨by decide, h.inNumber⟩

theorem SpellsExponent.inNumber {x : Text} {power : Option Int} (h : SpellsExponent x power) :
    ∀ c ∈ x, InNumber c := by
  have letter : ∀ {e : Char}, e = 'e' ∨ e = 'E' → InNumber e := by
    rintro e (rfl | rfl) <;> decide
  cases h with
  | absent => exact List.forall_mem_nil _
  | plain he h => exact List.forall_mem_cons.2 ⟨letter he, h.inNumber⟩
  | plus he h =>
    exact List.forall_mem_cons.2 ⟨letter he, List.forall_mem_cons.2 ⟨by decide, h.inNumber⟩⟩
  | minus he h =>
    exact List.forall_mem_cons.2 ⟨letter he, List.forall_mem_cons.2 ⟨by decide, h.inNumber⟩⟩

theorem SpellsMagnitude.inNumber {negative : Bool} {c : Text} {n : Number}
    (h : SpellsMagnitude negative c n) : ∀ d ∈ c, InNumber d := by
  obtain ⟨hw, hf, hx, -⟩ := h
  exact List.forall_mem_append.2
    ⟨hw.toDigits.inNumber, List.forall_mem_append.2 ⟨hf.inNumber, hx.inNumber⟩⟩

theorem SpellsNumber.inNumber {c : Text} {n : Number} (h : SpellsNumber c n) :
    ∀ d ∈ c, InNumber d := by
  cases h with
  | nan => exact Text.forall_of_all (by decide)
  | infinity => exact Text.forall_of_all (by decide)
  | minusInfinity => exact Text.forall_of_all (by decide)
  | plain h => exact h.inNumber
  | minus h => exact List.forall_mem_cons.2 ⟨by decide, h.inNumber⟩

end BlockSafe
