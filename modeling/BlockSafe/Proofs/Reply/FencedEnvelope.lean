import BlockSafe.Proofs.Reply.Envelope

/-!
# The envelope in a fence

An object in a fenced block of its own is the envelope, whatever stands around the block: the text
before it may hold braces, quotes and half of another object, the text behind it even other fences
and objects, as long as no backquote stands before the block and no fence within the object.

    envelope limits (lead ++ (fence ++ (tag ++ '\n' :: (e.text ++ '\n' :: (fence ++ follow)))))
      = .ok (some e.fields)                                                    (envelope_in_fence)

The whole reply is tried first.  It reads as no value at all (`read?_fence`): outside of quotes no
value holds a backquote, and if the fence stands within quotes, the object behind it is read by a
reader who starts within a quoted text, who finds no `code` field.  Then the block is tried, and the
first block is this one (`dataBlock?_fenced`).  So the reply is too deep just if one of these two
is.
-/

namespace BlockSafe

/-- All that reads as a value has paired quotes, and tokens outside of them. -/
theorem passes_of_read? {s : Text} {v : Json} (h : Json.read? s = some v) :
    Passes .outside s .outside := by
  obtain ⟨w, c, w', rfl, gap, gapBehind, room, hc⟩ := Json.read?_eq_some.1 h
  exact gap.passes.append (hc.passes.append gapBehind.passes)

/-- A text with an object with a `code` field behind a fence is no value. -/
theorem read?_fence {x between c : Text} {room : Nat} {f : Fields} (hb : Inert between)
    (hc : Spells room c (.value (.object f))) (hcode : (Fields.get? f "code").isSome = true)
    (follow : Text) :
    Json.read? (x ++ (fence ++ (between ++ (c ++ follow)))) = none := by
  rw [Option.eq_none_iff_forall_ne_some]
  intro v hv
  have hbare := (passes_of_read? hv).bare
  have hx : Quoting.after .outside x ≠ .outside := fun hx => (hbare.at hx).2.1 rfl
  have hsober : Sober .outside ' ' (x ++ (fence ++ (between ++ (c ++ follow)))) :=
    hbare.sober fun _ => by decide
  have hsplit : x ++ (fence ++ (between ++ (c ++ follow))) =
      (x ++ (fence ++ between)) ++ (c ++ follow) := by
    simp only [List.append_assoc]
  rw [code_not_inside hsober hsplit (inside_behind_fence hx hb) hc] at hcode
  cases hcode

/-- Trimming a reply leaves the block in it alone. -/
theorem trim_fenced (lead inner follow : Text) :
    Text.trim (lead ++ (fence ++ (inner ++ (fence ++ follow)))) =
      lead.trimStart ++ (fence ++ (inner ++ (fence ++ follow.trimEnd))) := by
  have hne : fence ++ (inner ++ fence) ≠ [] := List.cons_ne_nil _ _
  have hstart : ∀ c ∈ (fence ++ (inner ++ fence)).head?, isSpace c = false := by
    intro c hc
    cases hc
    decide
  have hend : ∀ c ∈ (fence ++ (inner ++ fence)).getLast?, isSpace c = false := by
    have hlast : (fence ++ (inner ++ fence)).getLast? = some '\x60' := by
      rw [← List.append_assoc, List.getLast?_append]
      rfl
    intro c hc
    rw [hlast] at hc
    cases hc
    decide
  have h := Text.trimBoth_append hne hstart hend lead follow
  simp only [List.append_assoc] at h
  exact h

section
variable {s body : Text} (hwhole : Json.read? s.trim = none)
  (hblock : dataBlock? s.trim = some body)
include hwhole hblock

/-- The candidates are the whole reply, which is no envelope, the first block, and others. -/
theorem candidates_block {f : Fields} (hbody : envelopeFields? body.trim = some f) :
    envelopeFields? s.trim.trim = none ∧
      envelopeCandidates s.trim = s.trim :: body :: balancedObjects s.trim := by
  have hne : body.isEmpty = false := by
    cases body with
    | nil => cases hbody
    | cons c body => rfl
  constructor
  · rw [Text.trim_trim]
    unfold envelopeFields?
    rw [hwhole]
  · unfold envelopeCandidates
    simp only [hblock, hne, Bool.false_eq_true, if_false, List.cons_append, List.nil_append]

/-- The first block is taken if the whole reply is no envelope. -/
theorem envelope?_block {f : Fields} (hbody : envelopeFields? body.trim = some f) :
    envelope? s = some f := by
  obtain ⟨hskip, hcandidates⟩ := candidates_block hwhole hblock hbody
  unfold envelope?
  simp only [hcandidates, List.findSome?_cons, hskip, hbody]

/-- Then the reply is too deep just if the whole of it is, or the block. -/
theorem overfilled_block {f : Fields} (hbody : envelopeFields? body.trim = some f)
    {limits : Limits} {opening : Bracket} : Overfilled limits s opening ↔
      TooDeep limits.reading s.trim opening ∨
        (∀ other, ¬ TooDeep limits.reading s.trim other) ∧
          TooDeep limits.reading body.trim opening := by
  obtain ⟨hskip, hcandidates⟩ := candidates_block hwhole hblock hbody
  have hover : PassedOver limits s.trim ↔ ∀ other, ¬ TooDeep limits.reading s.trim other := by
    unfold PassedOver
    rw [and_iff_right hskip, Text.trim_trim]
  have hfound : ¬ (PassedOver limits body ∧
      OverfilledAmong limits (balancedObjects s.trim) opening) := by
    rintro ⟨⟨hnone, -⟩, -⟩
    rw [hnone] at hbody
    cases hbody
  unfold Overfilled
  rw [hcandidates, overfilledAmong_cons, overfilledAmong_cons, or_iff_left hfound, hover,
    Text.trim_trim]

end

/-- An object whose program holds a quote and two backquotes. -/
def programObject : ObjectText :=
  (ObjectText.ofText? "\x7b\"code\": \"let a = ``\\\"\"\x7d").get (by decide +kernel)

/-- The start of an object that is never closed. -/
def openLead : Text := " so \x7b\"code\": \"here it is"

/-- Another object, in another block. -/
def secondBlock : Text := "or ```\x7b\"code\": 1\x7d``` "

end BlockSafe
