import BlockSafe.Proofs.Rule.QuotedLines

/-!
# References to members

No reference reaches over a character that is neither part of a word nor a point, so what is said of
the references of a text is said of its two sides apart:

    checkMembers (s ++ x :: t) = checkMembers s ++ checkMembers t         (checkMembers_across)

A reference to a known enum that stands on its own is judged on its own, whatever stands around it
(`reference_judged`).
-/

namespace BlockSafe

open Text

/-- A character over which no reference reaches. -/
def Parts (x : Char) : Prop := isWord x = false ∧ x ≠ '.'

instance (x : Char) : Decidable (Parts x) := inferInstanceAs (Decidable (_ ∧ _))

/-! ## Readers -/

theorem not_isUpper {c : Char} (h : isWord c = false) : c.isUpper = false := by
  have hstart := not_isIdentStart (not_isIdentPart h)
  unfold isIdentStart Char.isAlpha at hstart
  simp only [Bool.or_eq_false_iff] at hstart
  exact hstart.1.1

/-- No reference starts with something that is no part of a word. -/
theorem referenceAt?_none {x : Char} (hx : isWord x = false) (before : Option Char) (t : Text) :
    referenceAt? ⟨before, x :: t⟩ = none := by
  rw [referenceAt?_eq, not_isUpper hx, Bool.and_false, if_neg Bool.false_ne_true]

theorem referenceAt?_across {x : Char} (hx : Parts x) (t : Text) (before : Option Char) (u : Text) :
    referenceAt? ⟨before, u ++ x :: t⟩ =
      (referenceAt? ⟨before, u⟩).map fun found => (found.1, found.2 ++ x :: t) := by
  have hpart := not_isIdentPart hx.1
  have hhead : ∀ v : Text, (v ++ x :: t).head?.any isWord = v.head?.any isWord :=
    any_head_append hx.1
  cases u with
  | nil => exact referenceAt?_none hx.1 before t
  | cons c u =>
    obtain ⟨hdrop, htake⟩ := takeWhile_ident hpart u t
    have hpoint : x ∉ ['.'] := fun h => hx.2 (List.mem_singleton.1 h)
    rw [List.cons_append, referenceAt?_eq, referenceAt?_eq, hdrop, htake, after?_foreign hpoint]
    split
    · refine map_bind_link fun member => ?_
      rw [identAt?_foreign hpart]
      refine map_bind_link fun (name, rest) => ?_
      dsimp only
      rw [hhead]
      split <;> rfl
    · rfl

/-- The member of a reference is an identifier. -/
theorem isIdent_of_mem_enumReferences {s enumName member : Text}
    (h : (enumName, member) ∈ enumReferences s) : IsIdent member := by
  obtain ⟨⟨before, rest⟩, tail, hread⟩ := mem_findAllFrom h
  cases rest with
  | nil => cases hread
  | cons c rest =>
    rw [referenceAt?_eq] at hread
    split at hread
    · obtain ⟨more, -, hmember⟩ := Option.bind_eq_some_iff.1 hread
      obtain ⟨⟨name, behind⟩, hident, hfound⟩ := Option.bind_eq_some_iff.1 hmember
      split at hfound
      · cases hfound
        exact (identAt?_eq_some.1 hident).1
      · cases hfound
    · cases hread

/-- Where a reference starts, all that matters of what stands before it is whether a word goes on
there. -/
theorem enumReferences_from {x : Char} (hx : isWord x = false) (t : Text) :
    findAllFrom referenceAt? 0 (some x) t = enumReferences t := by
  have hstart : ∀ s, referenceAt? ⟨some x, s⟩ = referenceAt? ⟨none, s⟩ := by
    rintro (_ | ⟨c, s⟩)
    · rfl
    · rw [referenceAt?_eq, referenceAt?_eq, Option.any_some, hx, Option.any_none]
  cases t with
  | nil => rfl
  | cons c t =>
    rw [enumReferences, findAll, findAllFrom, findAllFrom, hstart]

/-- The same of a text that starts outside of words, whatever stands before it. -/
theorem enumReferences_fresh {t : Text} (ht : t.head?.any isWord = false) (before : Option Char) :
    findAllFrom referenceAt? 0 before t = enumReferences t := by
  cases t with
  | nil => rfl
  | cons x t =>
    rw [enumReferences, findAll, findAllFrom_none (referenceAt?_none ht before t),
      findAllFrom_none (referenceAt?_none ht none t)]

theorem enumReferences_across {x : Char} (hx : Parts x) (s t : Text) :
    enumReferences (s ++ x :: t) = enumReferences s ++ enumReferences t := by
  rw [← enumReferences_from hx.1 t]
  exact findAllFrom_across (referenceAt?_across hx t) steadyReader_reference.tail none s

/-! ## Known enums -/

/-- Each known enum has one row, and its name can start a reference. -/
theorem known_enums : ∀ row ∈ Microbit.enums, row.1.head?.any Char.isUpper = true ∧
    (∀ c ∈ row.1, isIdentPart c = true) ∧ Microbit.enums.lookup row.1 = some row.2 := by
  decide +kernel

section
variable {enumName m a b : Text} {members : List Text}

theorem referenceAt?_known (henum : (enumName, members) ∈ Microbit.enums) (hm : IsIdent m)
    (hb : b.head?.any isWord = false) :
    referenceAt? ⟨none, (enumName ++ '.' :: m) ++ b⟩ = some ((enumName, m), b) := by
  obtain ⟨hupper, hparts, -⟩ := known_enums _ henum
  obtain ⟨c, rest, rfl⟩ : ∃ c rest, enumName = c :: rest :=
    List.exists_cons_of_ne_nil (by rintro rfl; cases hupper)
  have hrest := (List.forall_mem_cons.1 hparts).2
  obtain ⟨hdrop, htake⟩ := takeWhile_ident (q := '.') (by decide) rest (m ++ b)
  have hhead : ∀ d ∈ b.head?, isIdentPart d = false := by
    intro d hd
    rw [Option.mem_def.1 hd] at hb
    exact not_isIdentPart hb
  have hstart : (!(none : Option Char).any isWord && c.isUpper) = true := hupper
  rw [List.append_assoc, List.cons_append, List.cons_append, referenceAt?_eq, if_pos hstart, hdrop,
    htake, List.dropWhile_eq_nil_iff.2 hrest, List.takeWhile_eq_self_iff.2 hrest, List.nil_append,
    after?_single, if_pos rfl, Option.bind_some, identAt?_eq_some.2 ⟨hm, hhead, rfl⟩,
    Option.bind_some, if_pos (by rw [hb]; rfl)]

theorem checkReference_known (henum : (enumName, members) ∈ Microbit.enums) (m : Text) :
    checkReference enumName m = if m ∈ members then none else some (.unknownMember enumName m) := by
  rw [checkReference, (known_enums _ henum).2.2]
  simp only [List.contains_iff_mem]

/-! ## Reports -/

/-- What is reported as a member is an identifier. -/
theorem isIdent_of_mem_checkMembers {s : Text}
    (h : .unknownMember enumName m ∈ checkMembers s) : IsIdent m := by
  obtain ⟨enumName', m', hreference, hequal⟩ := checkMembers_eq h
  cases hequal
  exact isIdent_of_mem_enumReferences hreference

/-- The two sides of a character over which no reference reaches are judged apart. -/
theorem checkMembers_across {x : Char} (hx : Parts x) (s t : Text) :
    checkMembers (s ++ x :: t) = checkMembers s ++ checkMembers t := by
  unfold checkMembers
  rw [enumReferences_across hx, List.filterMap_append]

theorem checkMembers_append (ha : ∀ x ∈ a.getLast?, Parts x) (t : Text) :
    checkMembers (a ++ t) = checkMembers a ++ checkMembers t := by
  rcases List.eq_nil_or_concat a with rfl | ⟨s, x, rfl⟩
  · rfl
  · rw [List.concat_eq_append] at ha ⊢
    have hx : Parts x := ha x (by rw [List.getLast?_concat]; rfl)
    rw [List.append_assoc, List.singleton_append, checkMembers_across hx, checkMembers_across hx,
      List.append_assoc]
    rfl

/-- A reference to a known enum is judged first, and then what stands behind it. -/
theorem checkMembers_known (henum : (enumName, members) ∈ Microbit.enums) (hm : IsIdent m)
    (hb : b.head?.any isWord = false) : checkMembers (enumName ++ '.' :: m ++ b) =
      (if m ∈ members then [] else [.unknownMember enumName m]) ++ checkMembers b := by
  have hname : enumName ++ '.' :: m ≠ [] := by simp
  have hreferences : enumReferences (enumName ++ '.' :: m ++ b) =
      (enumName, m) :: enumReferences b := by
    rw [enumReferences, findAll, findAllFrom_append hname (referenceAt?_known henum hm hb),
      enumReferences_fresh hb]
  rw [checkMembers, hreferences]
  simp only [List.filterMap_cons, checkReference_known henum]
  by_cases hmember : m ∈ members
  · simp only [if_pos hmember]
    rfl
  · simp only [if_neg hmember]
    rfl

/-- **References are judged on their own.**  Behind a text that ends outside of words and points and
before one that starts outside of words, a reference to a known enum is reported iff the enum has no
such member, and the two texts are judged as without it. -/
theorem reference_judged (henum : (enumName, members) ∈ Microbit.enums) (hm : IsIdent m)
    (ha : ∀ x ∈ a.getLast?, Parts x) (hb : b.head?.any isWord = false) :
    checkMembers (a ++ (enumName ++ '.' :: m ++ b)) =
      checkMembers a ++ (if m ∈ members then [] else [.unknownMember enumName m]) ++
        checkMembers b ∧
    (checkMembers (a ++ (enumName ++ '.' :: m ++ b))).map Violation.tag =
      (checkMembers a).map Violation.tag ++
        (if m ∈ members then [] else ["invalid enum member ".toList ++ enumName ++ '.' :: m]) ++
        (checkMembers b).map Violation.tag := by
  rw [checkMembers_append ha, checkMembers_known henum hm hb, ← List.append_assoc]
  refine ⟨rfl, ?_⟩
  rw [List.map_append, List.map_append]
  split <;> rfl

/-- An unknown icon between two brackets. -/
theorem reference_judged_unicorn :
    ("IconNames".toList, Microbit.iconNames ++ Microbit.oldIconNames) ∈ Microbit.enums ∧
      checkMembers "basic.showIcon(IconNames.Unicorn)" =
        [.unknownMember "IconNames" "Unicorn"] := by
  have henum : ("IconNames".toList, Microbit.iconNames ++ Microbit.oldIconNames) ∈
      Microbit.enums := by
    decide +kernel
  have hm : IsIdent "Unicorn" := ⟨'U', "nicorn", rfl, by decide, by decide⟩
  have ha : ∀ x ∈ ("basic.showIcon(".toList).getLast?, Parts x := by decide
  have hb : (")".toList).head?.any isWord = false := by decide
  exact ⟨henum, (reference_judged henum hm ha hb).1.trans (by decide +kernel)⟩

end

end BlockSafe
