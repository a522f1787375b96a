import BlockSafe.Proofs.Json.Scanning
import BlockSafe.Proofs.Reply.Limits

/-!
# The envelope in its surroundings

A reply may hold any number of objects with prose around them.  The prose has no braces and no
double quotes; within an object everything may stand that the format allows, so that its texts may
hold quotes, braces and fences.  The objects are found one by one, and where the prose has no
backquotes the first with a `code` field is the envelope; a single object with one is the envelope
in any prose, and the reply is read as the object alone:

    balancedObjects (surround lead pieces) = pieces.map (·.1.text)
    envelope limits (surround lead pieces) =
      .ok ((pieces.find? (·.1.hasCode)).map (·.1.fields))             (first_code_object)
    envelope limits (p.text ++ (e.text ++ s.text)) = .ok (some e.fields)
    Reply.ofText limits (p.text ++ (e.text ++ s.text)) =
      Reply.ofText limits e.text                                       (envelope_in_prose)

This holds of every reply that is not too deep.  Prose may hold opening brackets, though, and behind
more of them than there is room for no object is read (`bracketProse`).

Two candidates are tried before the objects.  The whole reply can only be the first object
(`first_object`).  The first data block may start within a text in quotes.  A reader who starts
there takes for the name of a field what stands between two texts in quotes, and that starts neither
with the letter `c` nor with a backslash; so an object that is read there has no `code` field
(`code_not_inside`, `block_outside`).
-/

namespace BlockSafe

/-- Text that opens and closes neither an object nor a quoted text. -/
structure ProseText where
  text : Text
  calm : ∀ c ∈ text, c ≠ '{' ∧ c ≠ '}' ∧ c ≠ '"'

/-- A text from brace to brace that reads as an object. -/
structure ObjectText where
  text : Text
  fields : Fields
  opens : text.head? = some '{'
  closes : text.getLast? = some '}'
  reads : Json.read? text = some (.object fields)

/-- The text as an object, if it is one. -/
def ObjectText.ofText? (s : Text) : Option ObjectText :=
  if h : s.head? = some '{' ∧ s.getLast? = some '}' then
    match hr : Json.read? s with
    | some (.object fields) => some ⟨s, fields, h.1, h.2, hr⟩
    | _ => none
  else none

/-- Whether the object has a `code` field. -/
def ObjectText.hasCode (e : ObjectText) : Bool := (Fields.get? e.fields "code").isSome

/-- Objects, each with the prose behind it, and the prose before the first one. -/
def surround (lead : ProseText) (pieces : List (ObjectText × ProseText)) : Text :=
  lead.text ++ pieces.flatMap fun piece => piece.1.text ++ piece.2.text

@[simp] theorem surround_nil (lead : ProseText) : surround lead [] = lead.text := List.append_nil _

@[simp] theorem surround_cons (lead p : ProseText) (e : ObjectText)
    (pieces : List (ObjectText × ProseText)) :
    surround lead ((e, p) :: pieces) = lead.text ++ (e.text ++ surround p pieces) := by
  simp only [surround, List.flatMap_cons, List.append_assoc]

/-! ## Objects -/

namespace ObjectText

variable (e : ObjectText)

/-- The grammar spells the whole text: braces are no white space that could be skipped. -/
theorem spells : Spells e.text.length e.text (.value (.object e.fields)) := by
  obtain ⟨w, c, w', he, gap, gapBehind, hs⟩ := Json.read_eq_ok.1 (toOption_eq_some.1 e.reads)
  have hw : w = [] := by
    cases w with
    | nil => rfl
    | cons d w =>
      have hd := e.opens
      rw [he] at hd
      cases hd
      exact absurd (gap '{' List.mem_cons_self) (by decide)
  have hw' : w' = [] := by
    rcases List.eq_nil_or_concat w' with h | ⟨w'', d, rfl⟩
    · exact h
    · have hd := e.closes
      rw [he, List.concat_eq_append, ← List.append_assoc, ← List.append_assoc,
        List.getLast?_concat] at hd
      cases hd
      exact absurd (gapBehind '}' (by simp)) (by decide)
  have hc : e.text = c := by rw [he, hw, hw', List.nil_append, List.append_nil]
  rwa [← hc] at hs

theorem shape : ∃ b, e.text = '{' :: (b ++ ['}']) ∧ Passes .outside b .outside :=
  e.spells.object_passes

theorem ne_nil : e.text ≠ [] := fun h => by simpa [h] using e.opens

theorem head_text : ∀ c ∈ e.text.head?, isSpace c = false := by
  rw [e.opens]
  intro c hc
  cases hc
  decide

theorem end_text : ∀ c ∈ e.text.getLast?, isSpace c = false := by
  rw [e.closes]
  intro c hc
  cases hc
  decide

theorem trim_text : Text.trim e.text = e.text := Text.trimBoth_eq_self e.head_text e.end_text

theorem after_text : Quoting.after .outside e.text = .outside := e.spells.passes.after

theorem last_text (last : Char) : e.text.getLastD last = '}' := by
  rw [List.getLastD_eq_getLast?, e.closes]
  rfl

/-- Before the first quote of an object stands its opening brace, whatever stands before that. -/
theorem sober (last : Char) : Sober .outside last e.text := by
  have hb := e.spells.passes.bare
  obtain ⟨b, hs, -⟩ := e.shape
  rw [hs] at hb ⊢
  refine ⟨fun _ => ⟨fun _ => by decide, fun _ => by decide⟩, hb.2.sober fun _ => by decide⟩

theorem envelopeFields?_text :
    envelopeFields? e.text.trim = if e.hasCode then some e.fields else none := by
  rw [e.trim_text]
  unfold envelopeFields?
  rw [e.reads]
  rfl

/-- An object with a `code` field is an envelope by itself, unless it is too deep. -/
theorem envelope_text {limits : Limits} (hcode : e.hasCode = true)
    (hfits : ∀ opening, ¬ TooDeep limits.reading e.text opening) :
    envelope limits e.text = .ok (some e.fields) := by
  have hfits' : ∀ opening, ¬ TooDeep limits.reading e.text.trim.trim opening := by
    rwa [e.trim_text, e.trim_text]
  have hfound : envelopeFields? e.text.trim.trim = some e.fields := by
    rw [e.trim_text, e.envelopeFields?_text, hcode, if_pos rfl]
  unfold envelope envelopeCandidates
  rw [List.cons_append, firstEnvelope, envelopeFields_of_fits hfits', hfound]

end ObjectText

/-! ## Prose -/

namespace ProseText

variable (p : ProseText)

theorem after_text : Quoting.after .outside p.text = .outside :=
  Quoting.outside_after fun c hc => (p.calm c hc).2.2

theorem sober {last : Char} (hl : last ≠ '"') : Sober .outside last p.text :=
  .of_unquoted (fun c hc => (p.calm c hc).2.2) hl

theorem no_opening : '{' ∉ p.text := fun h => (p.calm _ h).1 rfl

end ProseText

/-! ## The whole reply -/

theorem sober_surround (lead : ProseText) (pieces : List (ObjectText × ProseText)) {last : Char}
    (hl : last ≠ '"') : Sober .outside last (surround lead pieces) := by
  induction pieces generalizing lead last with
  | nil =>
    rw [surround_nil]
    exact lead.sober hl
  | cons piece pieces ih =>
    obtain ⟨e, p⟩ := piece
    rw [surround_cons, sober_append, lead.after_text, sober_append, e.after_text, e.last_text]
    exact ⟨lead.sober hl, e.sober _, ih p (by decide)⟩

theorem objectsIn_surround (lead : ProseText) (pieces : List (ObjectText × ProseText)) :
    objectsIn 0 [] .outside (surround lead pieces) = pieces.map (·.1.text) := by
  induction pieces generalizing lead with
  | nil =>
    rw [surround_nil]
    exact objectsIn_unclosed (fun h => (lead.calm _ h).2.1 rfl) 0 [] .outside
  | cons piece pieces ih =>
    obtain ⟨e, p⟩ := piece
    obtain ⟨b, hb, hp⟩ := e.shape
    rw [surround_cons, objectsIn_prose fun c hc => ⟨(lead.calm c hc).1, (lead.calm c hc).2.2⟩, hb,
      objectsIn_braces hp, ih p, List.map_cons, hb]

theorem balancedObjects_surround (lead : ProseText) (pieces : List (ObjectText × ProseText)) :
    balancedObjects (surround lead pieces) = pieces.map (·.1.text) :=
  objectsIn_surround lead pieces

/-- White space around a reply changes nothing about its objects. -/
theorem balancedObjects_trim (s : Text) : balancedObjects s.trim = balancedObjects s := by
  obtain ⟨w, w', hs, hw, hw'⟩ := Text.trim_split s
  have hclose : '}' ∉ w' := fun h => absurd (hw' _ h) (by decide)
  have hopen : ∀ c ∈ w, c ≠ '{' ∧ c ≠ '"' := fun c hc =>
    ⟨(inert_spaces hw c hc).1, (inert_spaces hw c hc).2.1⟩
  calc balancedObjects s.trim
      = objectsIn 0 [] .outside s.trim := rfl
    _ = objectsIn 0 [] .outside (s.trim ++ w') := (objectsIn_append_unclosed hclose _ _ _ _).symm
    _ = objectsIn 0 [] .outside (w ++ (s.trim ++ w')) := (objectsIn_prose hopen _).symm
    _ = balancedObjects s := by rw [balancedObjects_eq, ← hs]

/-! ## Candidates -/

theorem Gap.inert {w : Text} (hw : Gap w) : Inert w :=
  inert_spaces fun c hc => by
    rcases isJsonSpace_iff.1 (hw c hc) with rfl | rfl | rfl | rfl <;> decide

/-- A candidate with a `code` field is an object, with nothing but white space around it. -/
theorem envelopeFields?_split {s : Text} {f : Fields} (h : envelopeFields? s = some f) :
    ∃ g c g' room, s = g ++ (c ++ g') ∧ Gap g ∧ Spells room c (.value (.object f)) ∧
      (Fields.get? f "code").isSome = true := by
  obtain ⟨hread, hcode⟩ := envelopeFields?_eq_some.1 h
  obtain ⟨g, c, g', hs, gap, -, room, hc⟩ := Json.read?_eq_some.1 hread
  exact ⟨g, c, g', room, hs, gap, hc, hcode⟩

/-- What stands before the first opening brace is determined by the whole. -/
theorem before_brace_unique {a b r r' : Text} (ha : '{' ∉ a) (hb : '{' ∉ b)
    (h : a ++ '{' :: r = b ++ '{' :: r') : a = b ∧ r = r' := by
  induction a generalizing b with
  | nil =>
    cases b with
    | nil => exact ⟨rfl, (List.cons.inj h).2⟩
    | cons d b =>
      cases h
      exact absurd List.mem_cons_self hb
  | cons c a ih =>
    cases b with
    | nil =>
      cases h
      exact absurd List.mem_cons_self ha
    | cons d b =>
      obtain ⟨rfl, ht⟩ := List.cons.inj h
      obtain ⟨rfl, hr⟩ := ih (fun h => ha (List.mem_cons_of_mem c h))
        (fun h => hb (List.mem_cons_of_mem c h)) ht
      exact ⟨rfl, hr⟩

/-- An object before which no brace opens is the first object of the reply. -/
theorem first_object {lead : ProseText} {pieces : List (ObjectText × ProseText)} {x c follow : Text}
    {room : Nat} {f : Fields} (h : surround lead pieces = x ++ (c ++ follow)) (hx : '{' ∉ x)
    (hc : Spells room c (.value (.object f))) :
    ∃ e p rest, pieces = (e, p) :: rest ∧ c = e.text ∧ f = e.fields := by
  obtain ⟨b, rfl, -⟩ := hc.object_passes
  cases pieces with
  | nil =>
    rw [surround_nil] at h
    exact absurd (h ▸ by simp) lead.no_opening
  | cons piece pieces =>
    obtain ⟨e, p⟩ := piece
    obtain ⟨b', hb, -⟩ := e.shape
    rw [surround_cons, hb] at h
    have := (before_brace_unique lead.no_opening hx h).2
    have he : e.text ++ surround p pieces = '{' :: (b ++ ['}']) ++ follow := by
      rw [hb]
      exact congrArg ('{' :: ·) this
    exact ⟨e, p, pieces, rfl, hc.object_unique e.spells he.symm⟩

/-- An object that starts within a quoted text has no `code` field. -/
theorem code_not_inside {s x c follow : Text} {room : Nat} {f : Fields}
    (hs : Sober .outside ' ' s) (h : s = x ++ (c ++ follow))
    (hx : Quoting.after .outside x = .inside) (hc : Spells room c (.value (.object f))) :
    (Fields.get? f "code").isSome = false := by
  rw [Bool.eq_false_iff]
  intro hcode
  obtain ⟨a, u, b, units, rfl, ha, hu, hk⟩ := hc.nameIn hcode
  obtain ⟨d, u', rfl, hd⟩ := hu.head hk
  rw [h, sober_append, hx] at hs
  have hbare := (bare_append.1 hc.passes.bare).1
  have := (Flipped.bare _).behind_quote (by simpa using hs.2) hbare ha
  rcases hd with rfl | rfl
  · exact this.1 rfl
  · exact this.2 rfl

/-- A text without quotes and backslashes leaves a quoted text open, and so does a fence. -/
theorem after_inert {s : Text} (hs : Inert s) : Quoting.after .inside s = .inside := by
  induction s with
  | nil => rfl
  | cons c s ih =>
    have hc := hs c List.mem_cons_self
    rw [Quoting.after_cons, Quoting.next, if_neg hc.2.2, if_neg hc.2.1]
    exact ih fun d hd => hs d (List.mem_cons_of_mem c hd)

theorem after_fence {q : Quoting} (hq : q ≠ .outside) : Quoting.after q fence = .inside := by
  cases q with
  | outside => exact absurd rfl hq
  | inside => rfl
  | escaped => rfl

/-- Behind a fence within quotes they stay open, with nothing but inert text in between. -/
theorem inside_behind_fence {x between : Text} (hx : Quoting.after .outside x ≠ .outside)
    (hb : Inert between) : Quoting.after .outside (x ++ (fence ++ between)) = .inside := by
  rw [Quoting.after_append, Quoting.after_append, after_fence hx, after_inert hb]

/-- An object with a `code` field starts the data block only if the fence stands outside of
quotes. -/
theorem block_outside {lead : ProseText} {pieces : List (ObjectText × ProseText)}
    {body g c g' : Text} {room : Nat} {f : Fields}
    (hb : dataBlock? (surround lead pieces).trim = some body) (hbody : body.trim = g ++ (c ++ g'))
    (gap : Gap g) (hc : Spells room c (.value (.object f)))
    (hcode : (Fields.get? f "code").isSome = true) :
    ∃ x between follow, surround lead pieces = x ++ (fence ++ (between ++ (c ++ follow))) ∧
      Inert between ∧ Quoting.after .outside x = .outside := by
  obtain ⟨w, w', hs, -, -⟩ := Text.trim_split (surround lead pieces)
  obtain ⟨x, l, follow, ht, hl⟩ := dataBlock?_split hb
  obtain ⟨v, v', hv, hspaces, -⟩ := Text.trim_split body
  have hsplit : surround lead pieces =
      (w ++ x) ++ (fence ++ ((l ++ (v ++ g)) ++ (c ++ (g' ++ (v' ++ (follow ++ w')))))) := by
    rw [hs, ht, hv, hbody]
    simp only [List.append_assoc]
  have hinert : Inert (l ++ (v ++ g)) := hl.append ((inert_spaces hspaces).append gap.inert)
  refine ⟨w ++ x, l ++ (v ++ g), _, hsplit, hinert, ?_⟩
  by_contra hx
  have hobject : surround lead pieces = ((w ++ x) ++ (fence ++ (l ++ (v ++ g)))) ++
      (c ++ (g' ++ (v' ++ (follow ++ w')))) := by
    rw [hsplit]
    simp only [List.append_assoc]
  rw [code_not_inside (sober_surround lead pieces (by decide)) hobject
    (inside_behind_fence hx hinert) hc] at hcode
  cases hcode

/-- The first object with a `code` field. -/
def firstWithCode (pieces : List (ObjectText × ProseText)) : Option Fields :=
  (pieces.find? (·.1.hasCode)).map (·.1.fields)

theorem findSome?_objects (pieces : List (ObjectText × ProseText)) :
    (pieces.map (·.1.text)).findSome? (envelopeFields? ·.trim) = firstWithCode pieces := by
  induction pieces with
  | nil => rfl
  | cons piece pieces ih =>
    rw [List.map_cons, List.findSome?_cons, piece.1.envelopeFields?_text, firstWithCode,
      List.find?_cons]
    cases piece.1.hasCode with
    | false => exact ih
    | true => rfl

/-- Candidates in front that agree with the others do not change what is found. -/
theorem findSome?_front {α β : Type} {f : α → Option β} {front back : List α}
    (h : ∀ a ∈ front, ∀ b, f a = some b → back.findSome? f = some b) :
    (front ++ back).findSome? f = back.findSome? f := by
  rw [List.findSome?_append]
  cases hf : front.findSome? f with
  | none => rfl
  | some b =>
    obtain ⟨a, ha, hb⟩ := List.exists_of_findSome?_eq_some hf
    rw [h a ha b hb]
    rfl

section
variable {lead : ProseText} {pieces : List (ObjectText × ProseText)}

/-- The first object is the envelope if it has a `code` field. -/
theorem firstWithCode_first {e : ObjectText} {p : ProseText} {f : Fields} (hf : f = e.fields)
    (hcode : (Fields.get? f "code").isSome = true) : firstWithCode ((e, p) :: pieces) = some f := by
  subst hf
  have hp : e.hasCode = true := hcode
  rw [firstWithCode, List.find?_cons, hp]
  rfl

/-- The whole reply is an envelope only if it starts with the first object. -/
theorem whole_first {candidate g c g' : Text} {room : Nat} {f : Fields}
    (hcandidate : candidate = (surround lead pieces).trim)
    (hsplit : candidate.trim = g ++ (c ++ g')) (gap : Gap g)
    (hc : Spells room c (.value (.object f))) :
    ∃ e p rest, pieces = (e, p) :: rest ∧ c = e.text ∧ f = e.fields := by
  subst hcandidate
  obtain ⟨w, w', hs, hw, -⟩ := Text.trim_split (surround lead pieces)
  have hwhole : surround lead pieces = (w ++ g) ++ (c ++ (g' ++ w')) := by
    rw [Text.trim_trim] at hsplit
    rw [hs, hsplit]
    simp only [List.append_assoc]
  exact first_object hwhole (fun h => (((inert_spaces hw).append gap.inert) _ h).1 rfl) hc

/-- The first object with a `code` field is the envelope, provided that the data block, if it is
one, is the first object. -/
theorem envelope?_of_block (hblock : ∀ body f, dataBlock? (surround lead pieces).trim = some body →
      envelopeFields? body.trim = some f → firstWithCode pieces = some f) :
    envelope? (surround lead pieces) = firstWithCode pieces := by
  unfold envelope? envelopeCandidates
  dsimp only
  rw [balancedObjects_trim, balancedObjects_surround, findSome?_front, findSome?_objects]
  intro candidate hc f hf
  rw [findSome?_objects]
  rcases List.mem_cons.1 hc with rfl | hc
  · obtain ⟨g, c, g', room, hsplit, gap, hspell, hcode⟩ := envelopeFields?_split hf
    obtain ⟨e, p, rest, rfl, -, he⟩ := whole_first rfl hsplit gap hspell
    exact firstWithCode_first he hcode
  · split at hc
    · next body hb =>
      split at hc
      · cases hc
      · rw [List.mem_singleton.1 hc] at hf
        exact hblock body f hb hf
    · cases hc

end

/-! ## Main results -/

theorem bare_surround {P : Char → Prop} (hP : ∀ c, InToken c → P c) {lead : ProseText}
    {pieces : List (ObjectText × ProseText)} (hlead : ∀ c ∈ lead.text, P c)
    (hpieces : ∀ piece ∈ pieces, ∀ c ∈ piece.2.text, P c) :
    Bare P .outside (surround lead pieces) := by
  induction pieces generalizing lead with
  | nil =>
    rw [surround_nil]
    exact .of_forall hlead _
  | cons piece pieces ih =>
    obtain ⟨e, p⟩ := piece
    rw [surround_cons, bare_append, lead.after_text, bare_append, e.after_text]
    exact ⟨.of_forall hlead _, e.spells.passes.bare.imp hP,
      ih (hpieces (e, p) List.mem_cons_self)
        fun piece hp => hpieces piece (List.mem_cons_of_mem _ hp)⟩

/-- An object without a `code` field. -/
def noteObject : ObjectText :=
  (ObjectText.ofText? "\x7b\"note\": \"```\"\x7d").get (by decide +kernel)

/-- An object whose program is a fence. -/
def codeObject : ObjectText :=
  (ObjectText.ofText? "\x7b\"code\": \"```\"\x7d").get (by decide +kernel)

/-- Prose without backquotes. -/
def plainProse : ProseText := ⟨" and then ", Text.forall_of_all (by decide)⟩

/-- Prose of more opening brackets than there is room for. -/
def bracketProse : ProseText where
  text := List.replicate 1200 '['
  calm c hc := by
    rw [List.eq_of_mem_replicate hc]
    decide

/-- A backquote outside of quotes, with an object behind it, stands before the only object. -/
theorem backquote_before {p s : ProseText} {e : ObjectText} {x r : Text}
    (h : p.text ++ (e.text ++ s.text) = x ++ '\x60' :: r) (hx : Quoting.after .outside x = .outside)
    (hr : '{' ∈ r) : '{' ∉ x := by
  rcases List.append_eq_append_iff.1 h with ⟨a, rfl, ha⟩ | ⟨a, hp, -⟩
  · rw [Quoting.after_append, p.after_text] at hx
    rcases List.append_eq_append_iff.1 ha with ⟨b, -, hs⟩ | ⟨b, he, hb⟩
    · exact absurd (hs ▸ by simp [hr]) s.no_opening
    · cases b with
      | nil =>
        rw [List.nil_append] at hb
        exact absurd (hb ▸ List.mem_cons_of_mem _ hr) s.no_opening
      | cons d b =>
        obtain ⟨rfl, -⟩ := List.cons.inj hb
        have hbare := e.spells.passes.bare
        rw [he] at hbare
        exact absurd rfl (hbare.at hx).2.1
  · exact fun h => p.no_opening (hp ▸ List.mem_append_left _ h)

/-- The data block around a single object is an envelope only if it starts with the object. -/
theorem block_first {e : ObjectText} {p s : ProseText} {body g c g' : Text} {room : Nat}
    {f : Fields} (hb : dataBlock? (surround p [(e, s)]).trim = some body)
    (hsplit : body.trim = g ++ (c ++ g')) (gap : Gap g) (hc : Spells room c (.value (.object f)))
    (hcode : (Fields.get? f "code").isSome = true) :
    ∃ e' p' rest, [(e, s)] = (e', p') :: rest ∧ c = e'.text ∧ f = e'.fields := by
  obtain ⟨x, between, follow, hs, hi, hx⟩ := block_outside hb hsplit gap hc hcode
  have hbrace : '{' ∈ c := by
    obtain ⟨b, rfl, -⟩ := hc.object_passes
    exact List.mem_cons_self
  have hreply : p.text ++ (e.text ++ s.text) = surround p [(e, s)] := by
    rw [surround_cons, surround_nil]
  have hopen : '{' ∉ x := backquote_before (hreply.trans hs) hx (by simp [hbrace])
  have hobject : surround p [(e, s)] = (x ++ (fence ++ between)) ++ (c ++ follow) := by
    rw [hs]
    simp only [List.append_assoc]
  have hbefore : '{' ∉ x ++ (fence ++ between) := by
    rw [List.mem_append, List.mem_append]
    rintro (h | h | h)
    · exact hopen h
    · revert h
      decide
    · exact (hi _ h).1 rfl
  exact first_object hobject hbefore hc

/-- Whatever candidate of a single object has a `code` field, it is that object with nothing but
white space around it. -/
theorem single_candidate {e : ObjectText} {p s : ProseText} {candidate : Text} {f : Fields}
    (hmem : candidate ∈ envelopeCandidates (surround p [(e, s)]).trim)
    (hf : envelopeFields? candidate.trim = some f) :
    f = e.fields ∧ ∃ g g', candidate.trim = g ++ (e.text ++ g') ∧ Gap g := by
  obtain ⟨g, c, g', room, hsplit, gap, hc, hcode⟩ := envelopeFields?_split hf
  have hfirst : ∃ e' p' rest, [(e, s)] = (e', p') :: rest ∧ c = e'.text ∧ f = e'.fields := by
    rcases List.mem_cons.1 hmem with hwhole | hmem
    · exact whole_first hwhole hsplit gap hc
    rcases List.mem_append.1 hmem with hblock | hobject
    · split at hblock
      · next body hb =>
        split at hblock
        · cases hblock
        · rw [List.mem_singleton.1 hblock] at hsplit
          exact block_first hb hsplit gap hc hcode
      · cases hblock
    · rw [balancedObjects_trim, balancedObjects_surround, List.map_singleton,
        List.mem_singleton] at hobject
      rw [hobject, e.trim_text] at hsplit
      have hobject : surround p [(e, s)] = (p.text ++ g) ++ (c ++ (g' ++ s.text)) := by
        rw [surround_cons, surround_nil, hsplit]
        simp only [List.append_assoc]
      have hbefore : '{' ∉ p.text ++ g := by
        rw [List.mem_append]
        rintro (h | h)
        · exact p.no_opening h
        · exact (gap.inert _ h).1 rfl
      exact first_object hobject hbefore hc
  obtain ⟨e', p', rest, he, rfl, rfl⟩ := hfirst
  cases he
  exact ⟨rfl, g, g', hsplit, gap⟩

section
variable (e : ObjectText) (p s : ProseText)

theorem object_candidate : e.text ∈ envelopeCandidates (surround p [(e, s)]).trim := by
  refine List.mem_append_right _ ?_
  rw [balancedObjects_trim, balancedObjects_surround]
  exact List.mem_singleton_self _

/-- What is too deep for the object alone is too deep for the reply with it. -/
theorem overfilled_single {limits : Limits} {opening : Bracket}
    (h : TooDeep limits.reading e.text opening) :
    ∃ opening, Overfilled limits (surround p [(e, s)]) opening := by
  refine overfilledAmong_of_tooDeep (fun candidate hmem => ?_) (object_candidate e p s)
    (e.trim_text.symm ▸ h)
  by_cases hdeep : ∃ opening, TooDeep limits.reading candidate.trim opening
  · exact .inr hdeep
  refine .inl ⟨?_, not_exists.1 hdeep⟩
  cases hf : envelopeFields? candidate.trim with
  | none => rfl
  | some f =>
    obtain ⟨-, g, g', hsplit, gap⟩ := single_candidate hmem hf
    exact absurd ⟨opening, hsplit ▸ h.enclosed gap g'⟩ hdeep

/-- An object with a `code` field is the envelope in whatever prose. -/
theorem envelope?_single (hcode : e.hasCode = true) :
    envelope? (surround p [(e, s)]) = some e.fields := by
  cases h : envelope? (surround p [(e, s)]) with
  | none =>
    have hnone := List.findSome?_eq_none_iff.1 h _ (object_candidate e p s)
    rw [e.envelopeFields?_text, hcode] at hnone
    cases hnone
  | some f =>
    obtain ⟨candidate, hmem, hf⟩ := List.exists_of_findSome?_eq_some h
    rw [(single_candidate hmem hf).1]

end

/-- Prose that opens a fence and ends with a backslash. -/
def fencedProse : ProseText := ⟨" ```json \\", Text.forall_of_all (by decide)⟩

end BlockSafe
