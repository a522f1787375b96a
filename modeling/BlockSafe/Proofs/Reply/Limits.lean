import BlockSafe.Proofs.Json.Depth
import BlockSafe.Proofs.Reply.DataBlock
import BlockSafe.Proofs.Text.Objects
import BlockSafe.Reply.Envelope

/-!
# Replies beyond the limits

The candidates of a reply are read one after the other, and the first that is too deep ends the
reading if no envelope was found before it (`Overfilled`).  Nothing else does:

    Overfilled limits reply opening →
      envelope limits reply = .error (.reading opening)                     (envelope_of_overfilled)
    (∀ opening, ¬ Overfilled limits reply opening) →
      envelope limits reply = .ok (envelope? reply)                                 (envelope_eq_ok)

where `envelope?` finds the envelope however deep it is.  Then the `code` of the envelope may be too
deep to be joined (`Json.joinRoom`).  A reply that goes beyond the limits in one of the two ways is
not read, and every other one is (`ofText_error_iff`, `ofText_ok_iff`); with few brackets in it none
goes beyond them (`not_beyond_of_openings`).
-/

namespace BlockSafe

/-! ## Envelopes of any depth -/

/-- The fields of an object that has a `code` field, however deep it nests. -/
def envelopeFields? (candidate : Text) : Option Fields :=
  match Json.read? candidate with
  | some (.object fields) => if (Fields.get? fields "code").isSome then some fields else none
  | _ => none

/-- The fields of the envelope in a reply, however deep its candidates nest. -/
def envelope? (reply : Text) : Option Fields :=
  (envelopeCandidates reply.trim).findSome? (envelopeFields? ·.trim)

theorem envelopeFields?_eq_some {candidate : Text} {fields : Fields} :
    envelopeFields? candidate = some fields ↔
      Json.read? candidate = some (.object fields) ∧ (Fields.get? fields "code").isSome = true := by
  unfold envelopeFields?
  split
  · next f hr =>
    rw [hr, Option.some.injEq, Json.object.injEq]
    split
    · next hcode =>
      constructor
      · intro h
        cases h
        exact ⟨rfl, hcode⟩
      · rintro ⟨rfl, -⟩
        rfl
    · next hcode =>
      refine ⟨nofun, ?_⟩
      rintro ⟨rfl, h⟩
      exact absurd h hcode
  · next hother =>
    refine ⟨nofun, fun h => ?_⟩
    exact absurd h.1 (hother fields)

theorem envelopeFields_of_tooDeep {limits : Limits} {candidate : Text} {opening : Bracket}
    (h : TooDeep limits.reading candidate opening) :
    envelopeFields limits candidate = .error (.reading opening) := by
  unfold envelopeFields
  rw [Json.read_eq_tooDeep.2 h]

theorem envelopeFields_of_fits {limits : Limits} {candidate : Text}
    (h : ∀ opening, ¬ TooDeep limits.reading candidate opening) :
    envelopeFields limits candidate = .ok (envelopeFields? candidate) := by
  unfold envelopeFields envelopeFields?
  rw [← Json.read_toOption h]
  cases hr : Json.read limits.reading candidate with
  | error e =>
    cases e with
    | malformed => rfl
    | tooDeep opening => exact absurd (Json.read_eq_tooDeep.1 hr) (h opening)
  | ok value => cases value <;> rfl

/-! ## Where the reading ends -/

/-- The candidate is read and is no envelope. -/
def PassedOver (limits : Limits) (candidate : Text) : Prop :=
  envelopeFields? candidate.trim = none ∧ ∀ opening, ¬ TooDeep limits.reading candidate.trim opening

/-- Behind candidates that are no envelopes stands one that is too deep. -/
def OverfilledAmong (limits : Limits) (candidates : List Text) (opening : Bracket) : Prop :=
  ∃ before candidate after, candidates = before ++ candidate :: after ∧
    (∀ other ∈ before, PassedOver limits other) ∧ TooDeep limits.reading candidate.trim opening

/-- One of the candidates of the reply is too deep, and none before it is an envelope. -/
def Overfilled (limits : Limits) (reply : Text) (opening : Bracket) : Prop :=
  OverfilledAmong limits (envelopeCandidates (Text.trim reply)) opening

theorem overfilledAmong_cons {limits : Limits} {candidate : Text} {rest : List Text}
    {opening : Bracket} : OverfilledAmong limits (candidate :: rest) opening ↔
      TooDeep limits.reading candidate.trim opening ∨
        PassedOver limits candidate ∧ OverfilledAmong limits rest opening := by
  constructor
  · rintro ⟨before, deep, after, hsplit, hbefore, hdeep⟩
    cases before with
    | nil =>
      cases hsplit
      exact .inl hdeep
    | cons other before =>
      cases hsplit
      obtain ⟨hother, hbefore⟩ := List.forall_mem_cons.1 hbefore
      exact .inr ⟨hother, before, deep, after, rfl, hbefore, hdeep⟩
  · rintro (hdeep | ⟨hover, before, deep, after, rfl, hbefore, hdeep⟩)
    · exact ⟨[], candidate, rest, rfl, List.forall_mem_nil _, hdeep⟩
    · exact ⟨candidate :: before, deep, after, rfl, List.forall_mem_cons.2 ⟨hover, hbefore⟩, hdeep⟩

/-- One too deep among candidates of which none is an envelope unless it is too deep. -/
theorem overfilledAmong_of_tooDeep {limits : Limits} {candidates : List Text}
    (h : ∀ candidate ∈ candidates, PassedOver limits candidate ∨
      ∃ opening, TooDeep limits.reading candidate.trim opening)
    {deep : Text} (hmem : deep ∈ candidates) {opening : Bracket}
    (hdeep : TooDeep limits.reading deep.trim opening) :
    ∃ opening, OverfilledAmong limits candidates opening := by
  induction candidates with
  | nil => cases hmem
  | cons candidate rest ih =>
    obtain ⟨hfirst, hrest⟩ := List.forall_mem_cons.1 h
    rcases hfirst with hover | ⟨opening, hfirst⟩
    · rcases List.mem_cons.1 hmem with rfl | hmem
      · exact absurd hdeep (hover.2 opening)
      · obtain ⟨opening, hamong⟩ := ih hrest hmem
        exact ⟨opening, overfilledAmong_cons.2 (.inr ⟨hover, hamong⟩)⟩
    · exact ⟨opening, overfilledAmong_cons.2 (.inl hfirst)⟩

theorem firstEnvelope_of_overfilled {limits : Limits} {candidates : List Text} {opening : Bracket}
    (h : OverfilledAmong limits candidates opening) :
    firstEnvelope limits candidates = .error (.reading opening) := by
  induction candidates with
  | nil =>
    obtain ⟨before, deep, after, hsplit, -⟩ := h
    exact absurd hsplit.symm (by simp)
  | cons candidate rest ih =>
    rw [firstEnvelope]
    rcases overfilledAmong_cons.1 h with hdeep | ⟨hover, hrest⟩
    · rw [envelopeFields_of_tooDeep hdeep]
    · rw [envelopeFields_of_fits hover.2, hover.1]
      exact ih hrest

theorem firstEnvelope_of_fits {limits : Limits} {candidates : List Text}
    (h : ∀ opening, ¬ OverfilledAmong limits candidates opening) :
    firstEnvelope limits candidates = .ok (candidates.findSome? (envelopeFields? ·.trim)) := by
  induction candidates with
  | nil => rfl
  | cons candidate rest ih =>
    have hfits : ∀ opening, ¬ TooDeep limits.reading candidate.trim opening := fun opening hdeep =>
      h opening (overfilledAmong_cons.2 (.inl hdeep))
    rw [firstEnvelope, envelopeFields_of_fits hfits, List.findSome?_cons]
    cases hfound : envelopeFields? candidate.trim with
    | none =>
      refine ih fun opening hrest => h opening ?_
      exact overfilledAmong_cons.2 (.inr ⟨⟨hfound, hfits⟩, hrest⟩)
    | some fields => rfl

section
variable {limits : Limits} {reply : Text}

theorem envelope_of_overfilled {opening : Bracket} (h : Overfilled limits reply opening) :
    envelope limits reply = .error (.reading opening) :=
  firstEnvelope_of_overfilled h

theorem envelope_eq_ok (h : ∀ opening, ¬ Overfilled limits reply opening) :
    envelope limits reply = .ok (envelope? reply) :=
  firstEnvelope_of_fits h

/-- The value that the program of a reply is taken from. -/
def codeValue (fields : Fields) : Json := (Fields.get? fields "code").getD .null

theorem ofText_of_envelope {fields : Fields} (h : envelope limits reply = .ok (some fields)) :
    Reply.ofText limits reply =
      (codeText limits.perList limits.writing (codeValue fields)).map fun code =>
        ⟨distinctNotes (feedbackItems (Fields.get? fields "feedback")), programOf code⟩ := by
  unfold Reply.ofText
  rw [h]
  show (codeText limits.perList limits.writing (codeValue fields)).bind _ = _
  cases codeText limits.perList limits.writing (codeValue fields) <;> rfl

theorem ofText_of_program (h : envelope limits reply = .ok none) :
    Reply.ofText limits reply = .ok ⟨[], programOf reply⟩ := by
  unfold Reply.ofText
  rw [h]
  rfl

/-- What is read of a reply, without an envelope or with one. -/
theorem ofText_cases {read : Reply} (h : Reply.ofText limits reply = .ok read) :
    (envelope limits reply = .ok none ∧ read = ⟨[], programOf reply⟩) ∨
      ∃ fields code, envelope limits reply = .ok (some fields) ∧
        read = ⟨distinctNotes (feedbackItems (Fields.get? fields "feedback")), programOf code⟩ := by
  cases henvelope : envelope limits reply with
  | error excess =>
    unfold Reply.ofText at h
    rw [henvelope] at h
    cases h
  | ok found =>
    cases found with
    | none =>
      rw [ofText_of_program henvelope] at h
      cases h
      exact .inl ⟨rfl, rfl⟩
    | some fields =>
      rw [ofText_of_envelope henvelope] at h
      obtain ⟨code, -, rfl⟩ := map_eq_ok.1 h
      exact .inr ⟨fields, code, rfl, rfl⟩

theorem ofText_of_overfilled {opening : Bracket} (h : Overfilled limits reply opening) :
    Reply.ofText limits reply = .error (.reading opening) := by
  unfold Reply.ofText
  rw [envelope_of_overfilled h]
  rfl

end

/-! ## Few brackets -/

theorem Apart.isInfix {objects : List Text} {s : Text} (h : Apart objects s) :
    ∀ o ∈ objects, o <:+: s := by
  induction h with
  | nil => exact fun _ ho => absurd ho List.not_mem_nil
  | @cons o t _ gap _ _ ih =>
    refine List.forall_mem_cons.2 ⟨⟨gap, t, List.append_assoc ..⟩, fun o' ho' => ?_⟩
    exact (ih o' ho').trans ⟨gap ++ o, [], by simp⟩

/-- Every candidate is a piece of the text. -/
theorem candidate_isInfix {s c : Text} (h : c ∈ envelopeCandidates s) : c <:+: s := by
  have block : ∀ body, dataBlock? s = some body → body <:+: s := by
    intro body hb
    obtain ⟨x, lead, follow, rfl, -⟩ := dataBlock?_split hb
    exact ⟨x ++ fence ++ lead, follow, by simp⟩
  unfold envelopeCandidates at h
  rcases List.mem_append.1 h with h | h
  · rcases List.mem_cons.1 h with rfl | h
    · exact List.infix_rfl
    · split at h
      · next body hb =>
        split at h
        · cases h
        · cases List.mem_singleton.1 h
          exact block _ hb
      · cases h
  · exact (apart_balancedObjects s).isInfix c h

theorem candidate_openings {reply candidate : Text}
    (h : candidate ∈ envelopeCandidates reply.trim) : openings candidate.trim ≤ openings reply :=
  openings_le_of_isInfix ((Text.trimBoth_isInfix isSpace candidate).trans
    ((candidate_isInfix h).trans (Text.trimBoth_isInfix isSpace reply)))

/-- A reply with no more brackets than there is room for is not too deep. -/
theorem not_overfilled_of_openings {limits : Limits} {reply : Text}
    (h : openings reply ≤ limits.reading) (opening : Bracket) :
    ¬ Overfilled limits reply opening := by
  rintro ⟨before, candidate, after, hc, -, hdeep⟩
  have hmem : candidate ∈ envelopeCandidates (Text.trim reply) := by
    rw [hc]
    exact List.mem_append_right _ List.mem_cons_self
  have := candidate_openings hmem
  have := hdeep.room_lt
  omega

/-- Brackets in front of a reply are too many as soon as they are more than there is room for. -/
theorem overfilled_replicate {limits : Limits} {n : Nat} (h : limits.reading < n) (t : Text) :
    Overfilled limits (List.replicate n '[' ++ t) .list := by
  have hbrackets : ∀ c ∈ List.replicate n '[', isSpace c = false := by
    intro c hc
    rw [List.eq_of_mem_replicate hc]
    decide
  have htrim : Text.trim (List.replicate n '[' ++ t) = List.replicate n '[' ++ t.trimEnd :=
    Text.trimBoth_append (List.ne_nil_of_length_pos (by rw [List.length_replicate]; omega))
      (fun c hc => hbrackets c (List.mem_of_mem_head? hc))
      (fun c hc => hbrackets c (List.mem_of_mem_getLast? hc)) [] t
  refine ⟨[], Text.trim (List.replicate n '[' ++ t), _, rfl, List.forall_mem_nil _, ?_⟩
  rw [Text.trim_trim, htrim]
  exact tooDeep_replicate h t.trimEnd

/-! ## The text of a `code` value -/

mutual

/-- The room that it takes to join a `code` value. -/
def Json.joinRoom (perList : Nat) : Json → Nat
  | .list items => Json.itemsJoinRoom perList items + perList
  | value => value.depth

/-- The room that it takes to join the items of a list. -/
def Json.itemsJoinRoom (perList : Nat) : List Json → Nat
  | [] => 0
  | item :: items => max (item.joinRoom perList) (Json.itemsJoinRoom perList items)

end

theorem isOk_bind_pure {ε α β γ : Type} (first : Except ε α) (second : Except ε β) (f : α → β → γ) :
    (first.bind fun a => second.bind fun b => Except.ok (f a b)).isOk =
      (first.isOk && second.isOk) := by
  cases first with
  | error => rfl
  | ok => cases second <;> rfl

mutual

/-- A `code` value is joined iff there is room for it. -/
theorem codeText_isOk (perList room : Nat) (v : Json) :
    (codeText perList room v).isOk = decide (v.joinRoom perList ≤ room) := by
  cases v with
  | list items =>
    rw [codeText, Json.joinRoom]
    split
    · next h => exact (decide_eq_false (by omega)).symm
    · next h =>
      rw [codeTexts_isOk perList (room - perList) items]
      exact decide_eq_decide.2 (by omega)
  | object fields =>
    rw [codeText, Json.joinRoom]
    · split
      · next h => exact (decide_eq_false (by omega)).symm
      · next h => exact (decide_eq_true (by omega)).symm
    all_goals exact nofun
  | null | bool | num | str => exact (decide_eq_true (Nat.zero_le room)).symm

theorem codeTexts_isOk (perList room : Nat) (items : List Json) :
    (codeTexts perList room items).isOk = decide (Json.itemsJoinRoom perList items ≤ room) := by
  match items with
  | [] => exact (decide_eq_true (Nat.zero_le room)).symm
  | [item] =>
    rw [codeTexts, codeText_isOk perList room item, Json.itemsJoinRoom, Json.itemsJoinRoom,
      Nat.max_zero]
  | item :: next :: items =>
    have hjoined : (codeTexts perList room (item :: next :: items)).isOk =
        ((codeText perList room item).isOk && (codeTexts perList room (next :: items)).isOk) :=
      isOk_bind_pure _ _ fun first rest => first ++ ',' :: rest
    rw [hjoined, codeText_isOk perList room item, codeTexts_isOk perList room (next :: items),
      ← Bool.decide_and, Json.itemsJoinRoom]
    exact decide_eq_decide.2 Nat.max_le.symm

end

mutual

/-- No value takes more room than its brackets do. -/
theorem joinRoom_le (perList : Nat) (v : Json) :
    v.joinRoom perList ≤ max 1 perList * v.depth := by
  cases v with
  | list items =>
    have hitems := itemsJoinRoom_le perList items
    have hlist : perList ≤ max 1 perList := Nat.le_max_right 1 perList
    rw [Json.joinRoom, Json.depth, Nat.mul_succ]
    exact Nat.add_le_add hitems hlist
  | object fields =>
    rw [Json.joinRoom]
    · exact Nat.le_mul_of_pos_left _ (Nat.le_max_left 1 perList)
    · exact nofun
  | null | bool | num | str => exact Nat.zero_le _

theorem itemsJoinRoom_le (perList : Nat) (items : List Json) :
    Json.itemsJoinRoom perList items ≤ max 1 perList * Json.itemsDepth items := by
  match items with
  | [] => exact Nat.zero_le _
  | item :: items =>
    have hitem := joinRoom_le perList item
    have hitems := itemsJoinRoom_le perList items
    rw [Json.itemsJoinRoom, Json.itemsDepth]
    exact Nat.max_le.2 ⟨hitem.trans (Nat.mul_le_mul_left _ (Nat.le_max_left _ _)),
      hitems.trans (Nat.mul_le_mul_left _ (Nat.le_max_right _ _))⟩

end

/-! ## Replies -/

/-- The reply goes beyond the limits: a candidate is too deep before an envelope is found, or the
`code` of the envelope is too deep to be joined. -/
def BeyondLimits (limits : Limits) (reply : Text) : Prop :=
  (∃ opening, Overfilled limits reply opening) ∨
    ∃ fields, envelope? reply = some fields ∧
      limits.writing < (codeValue fields).joinRoom limits.perList

theorem isOk_eq_false {ε α : Type} {result : Except ε α} :
    result.isOk = false ↔ ∃ e, result = .error e := by
  cases result with
  | error e => exact ⟨fun _ => ⟨e, rfl⟩, fun _ => rfl⟩
  | ok a => exact ⟨nofun, fun ⟨_, h⟩ => nomatch h⟩

section
variable {limits : Limits} {reply : Text}

theorem ofText_of_fits (h : ∀ opening, ¬ Overfilled limits reply opening) :
    (Reply.ofText limits reply).isOk = match envelope? reply with
      | some fields => decide ((codeValue fields).joinRoom limits.perList ≤ limits.writing)
      | none => true := by
  have hfound := envelope_eq_ok h
  cases henvelope : envelope? reply with
  | none =>
    rw [henvelope] at hfound
    rw [ofText_of_program hfound]
    rfl
  | some fields =>
    rw [henvelope] at hfound
    rw [ofText_of_envelope hfound]
    dsimp only
    rw [← codeText_isOk]
    cases codeText limits.perList limits.writing (codeValue fields) <;> rfl

/-- A reply is not read iff it goes beyond the limits. -/
theorem ofText_error_iff :
    (∃ excess, Reply.ofText limits reply = .error excess) ↔ BeyondLimits limits reply := by
  by_cases hover : ∃ opening, Overfilled limits reply opening
  · obtain ⟨opening, hdeep⟩ := hover
    exact ⟨fun _ => .inl ⟨opening, hdeep⟩, fun _ => ⟨_, ofText_of_overfilled hdeep⟩⟩
  · rw [← isOk_eq_false, ofText_of_fits (not_exists.1 hover), BeyondLimits, or_iff_right hover]
    cases envelope? reply with
    | none => exact ⟨nofun, fun ⟨_, h, _⟩ => nomatch h⟩
    | some fields => simp only [decide_eq_false_iff_not, Nat.not_le, Option.some.injEq,
        exists_eq_left']

theorem ofText_ok_iff :
    (∃ read, Reply.ofText limits reply = .ok read) ↔ ¬ BeyondLimits limits reply := by
  rw [← ofText_error_iff]
  cases Reply.ofText limits reply with
  | error excess => exact ⟨fun ⟨_, h⟩ => (nomatch h), fun h => absurd ⟨excess, rfl⟩ h⟩
  | ok read => exact ⟨fun _ ⟨_, h⟩ => (nomatch h), fun _ => ⟨read, rfl⟩⟩

end

theorem depth_le_of_get? {fields : Fields} {key : Text} {v : Json}
    (h : Fields.get? fields key = some v) : v.depth ≤ Json.fieldsDepth fields := by
  unfold Fields.get? at h
  induction fields with
  | nil => cases h
  | cons field fields ih =>
    obtain ⟨k, w⟩ := field
    rw [List.lookup_cons] at h
    rw [Json.fieldsDepth]
    split at h
    · cases h
      exact Nat.le_max_left _ _
    · exact (ih h).trans (Nat.le_max_right _ _)

/-- The `code` of an envelope is no deeper than the reply has brackets. -/
theorem codeValue_depth {reply : Text} {fields : Fields} (h : envelope? reply = some fields) :
    (codeValue fields).depth ≤ openings reply := by
  obtain ⟨candidate, hmem, hfound⟩ := List.exists_of_findSome?_eq_some h
  obtain ⟨hread, hcode⟩ := envelopeFields?_eq_some.1 hfound
  obtain ⟨w, c, w', hs, -, -, room, hc⟩ := Json.read?_eq_some.1 hread
  obtain ⟨v, hv⟩ := Option.isSome_iff_exists.1 hcode
  calc (codeValue fields).depth
      = v.depth := by rw [codeValue, hv, Option.getD_some]
    _ ≤ Json.fieldsDepth fields := depth_le_of_get? hv
    _ ≤ openings c := (Nat.le_succ _).trans hc.depth_le
    _ ≤ openings candidate.trim := openings_le_of_isInfix ⟨w, w', by rw [hs, List.append_assoc]⟩
    _ ≤ openings reply := candidate_openings hmem

/-- A reply with few brackets is within the limits, whatever stands in it. -/
theorem not_beyond_of_openings {limits : Limits} {reply : Text}
    (hreading : openings reply ≤ limits.reading)
    (hwriting : max 1 limits.perList * openings reply ≤ limits.writing) :
    ¬ BeyondLimits limits reply := by
  rintro (⟨opening, hover⟩ | ⟨fields, hfound, hroom⟩)
  · exact not_overfilled_of_openings hreading opening hover
  · have hdepth := Nat.mul_le_mul_left (max 1 limits.perList) (codeValue_depth hfound)
    have := joinRoom_le limits.perList (codeValue fields)
    omega

end BlockSafe
