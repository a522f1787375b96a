import BlockSafe.Proofs.Generation.ClosedForm
import BlockSafe.Proofs.Generation.Trace
import BlockSafe.Proofs.Reply.Limits
import BlockSafe.Proofs.Reply.Notes
import BlockSafe.Proofs.Rule.References
import BlockSafe.Proofs.Verdict.Phases

/-!
# The feedback of an outcome

The notes of a generation are reduced twice, reply by reply and again at the end.  That comes to the
same as reducing once all that the replies had in the place of notes, with the note on the stub
behind it:

    outcome.feedback =
      distinctNotes (texts.flatMap (rawNotes limits) ++ stubNote.toList.map .str) defaultNote
                                                                          (feedback_reduced_once)

Every attempt adds the notes of its reply to those collected before (`Noted`), and a climb keeps
account of that.  The note on a stub is a proper note itself, as no tag on its list ends in white
space (`last_tag`), so there is always a note like it in the feedback.
-/

namespace BlockSafe

/-! ## Notes as they came -/

/-- What a text has in the place of notes. -/
def rawNotes (limits : Limits) (raw : Text) : List Json :=
  match envelope limits raw with
  | .ok (some fields) => feedbackItems (Fields.get? fields "feedback")
  | _ => []

theorem feedback_ofText {limits : Limits} {raw : Text} {reply : Reply}
    (h : Reply.ofText limits raw = .ok reply) :
    reply.feedback = distinctNotes (rawNotes limits raw) := by
  unfold rawNotes
  rcases ofText_cases h with ⟨henvelope, rfl⟩ | ⟨fields, code, henvelope, rfl⟩
  · rw [henvelope]
    rfl
  · rw [henvelope]

/-! ## The note on a stub -/

/-- The note on the stub, if the last reply has it take the place of a program. -/
def stubNote? (target : Target) (last : Reply) : Option Text :=
  match last.kind target with
  | .compliant => none
  | .blank => some emptyNote
  | .invalid => some ("Validation fallback: ".toList ++
      commaJoin (validate last.code target).violations)

theorem settledBy_eq (target : Target) (last : Reply) (notes : List Text) :
    settledBy target last notes = outcomeOf
      (if (stubNote? target last).isSome then target.profile.stub else last.code)
      (notes ++ (stubNote? target last).toList) := by
  unfold settledBy stubNote?
  cases last.kind target with
  | blank => rfl
  | invalid => rfl
  | compliant => simp

section
variable {code : Text} {target : Target}

/-- What an inspection reports as a member is an identifier. -/
theorem isIdent_of_reported {enumName member : Text}
    (h : .unknownMember enumName member ∈ inspect code target) : IsIdent member := by
  cases hforeign : target.profile.foreign.occurs code with
  | true =>
    unfold inspect at h
    rw [if_pos hforeign, List.mem_singleton] at h
    cases target <;> cases h
  | false =>
    rw [inspect_eq hforeign] at h
    obtain ⟨phase, -, hreport⟩ := List.mem_flatMap.1 h
    have hphase := Phase.ofTag?_tag (List.mem_map_of_mem hreport)
    rw [Phase.ofTag?, if_pos (isMemberTag_member _ _)] at hphase
    obtain rfl : Phase.members = phase := Option.some.inj hphase
    simp only [Phase.report] at hreport
    split at hreport
    · exact isIdent_of_mem_checkMembers hreport
    · cases hreport

/-- No tag that is reported ends in white space. -/
theorem last_tag {v : Violation} (h : v ∈ inspect code target) :
    ∀ c ∈ v.tag.getLast?, isSpace c = false := by
  cases v with
  | unknownMember enumName member =>
    have hident := isIdent_of_reported h
    obtain ⟨first, rest, hmember, -⟩ := id hident
    intro c hc
    have hne : member ≠ [] := by
      rw [hmember]
      exact List.cons_ne_nil _ _
    rw [tag_unknownMember, ← List.append_assoc, List.append_cons,
      List.getLast?_append_of_ne_nil _ hne] at hc
    exact not_isSpace (isWord_of_isIdentPart (hident.parts c (List.mem_of_getLast? hc)))
  | arity call least most got =>
    intro c hc
    rw [show (Violation.arity call least most got).tag.getLast? = some ')' from
      List.getLast?_concat] at hc
    cases hc
    decide
  | _ => decide +kernel

/-- Neither does a list of them. -/
theorem last_violations (code : Text) (target : Target) :
    ∀ c ∈ (commaJoin (validate code target).violations).getLast?, isSpace c = false := by
  refine last_commaJoin (fun _ => violations_ne_nil) fun item hitem => ?_
  unfold validate Verdict.ofTags at hitem
  rw [mem_distinct] at hitem
  obtain ⟨v, hv, rfl⟩ := List.mem_map.1 hitem
  exact last_tag hv

end

theorem trim_stubNote {target : Target} {last : Reply} {note : Text}
    (h : note ∈ stubNote? target last) :
    Text.trim note = note ∧ note ≠ [] := by
  have hprefix : "Validation fallback: ".toList ≠ [] := by decide
  unfold stubNote? at h
  rcases ofReply_cases target last with ⟨hk, -⟩ | ⟨hk, -, -, hrefused, -⟩ | ⟨hk, -⟩
  · rw [hk] at h
    cases h
    decide +kernel
  · rw [hk] at h
    cases h
    refine ⟨Text.trimBoth_eq_self ?_ ?_, List.append_ne_nil_of_left_ne_nil hprefix _⟩
    · rw [List.head?_append_of_ne_nil _ hprefix]
      decide
    · rw [List.getLast?_append_of_ne_nil _ (commaJoin_violations hrefused)]
      exact last_violations _ target
  · rw [hk] at h
    cases h

theorem proper_stubNote (target : Target) (last : Reply) :
    ProperNotes (stubNote? target last).toList := by
  cases h : stubNote? target last with
  | none => exact ⟨by simp, by simp, List.nodup_nil⟩
  | some note =>
    obtain ⟨htrim, hne⟩ := trim_stubNote h
    exact properNotes_singleton htrim hne

/-! ## What is collected -/

section
variable {σ : Type} {gateway : Gateway σ} {plan : Plan} {made : List Attempt} {now : Progress σ}

/-- The notes collected are those of the replies; the attempts come latest first. -/
def Noted (made : List Attempt) (now : Progress σ) : Prop :=
  now.notes = made.reverse.flatMap (·.reply.feedback)

/-- One attempt adds the notes of its reply. -/
theorem attempt_noted (h : Noted made now) (suffix : Text) :
    Ends (fun next => Noted (next :: made)) (fun _ _ => True)
      (attempt gateway plan suffix now) := by
  cases ha : attempt gateway plan suffix now with
  | mk result after =>
    rcases attempt_cases ha with ⟨-, rfl, -⟩ | ⟨-, -, brought, -, hread⟩
    · trivial
    rcases hread with ⟨failure, -, rfl, -⟩ | ⟨reply, -, rfl, hnotes⟩
    · trivial
    · show after.notes = _
      rw [hnotes, show now.notes = _ from h, List.reverse_cons, List.flatMap_append,
        List.flatMap_singleton]
      rfl

/-- The notes of replies are those of the texts that they were read from. -/
theorem notes_of_texts {limits : Limits} {texts : List Text} {replies : List Reply}
    (h : texts.map (Reply.ofText limits) = replies.map .ok) :
    (replies.flatMap fun reply => reply.feedback) =
      texts.flatMap fun text => distinctNotes (rawNotes limits text) := by
  induction texts generalizing replies with
  | nil =>
    rw [List.map_nil, eq_comm, List.map_eq_nil_iff] at h
    rw [h]
    rfl
  | cons text texts ih =>
    cases replies with
    | nil => cases h
    | cons reply replies =>
      obtain ⟨hread, hrest⟩ := List.cons.inj h
      rw [List.flatMap_cons, List.flatMap_cons, ih hrest, feedback_ofText hread]

/-- The texts that a climb was answered, and what it has collected of them where it ends. -/
theorem climb_noted (gateway : Gateway σ) (plan : Plan) (start : σ) (budgets : Budgets)
    (cancelled : Bool) :
    Ends (fun last after => ∃ texts raw reply,
        gateway.results start after.calls = (texts ++ [raw]).map .ok ∧
        Reply.ofText plan.limits raw = .ok reply ∧ last = Attempt.ofReply plan.target reply ∧
        (∀ text ∈ texts, ∃ read, Reply.ofText plan.limits text = .ok read) ∧
        after.notes =
          (texts ++ [raw]).flatMap fun text => distinctNotes (rawNotes plan.limits text))
      (fun _ _ => True) (climb gateway plan budgets ⟨start, cancelled, [], []⟩) := by
  have hstep : ∀ made now suffix, Standing gateway plan start made now ∧ Noted made now →
      Ends (fun next after => Standing gateway plan start (next :: made) after ∧
        Noted (next :: made) after) (fun _ _ => True) (attempt gateway plan suffix now) := by
    rintro made now suffix ⟨hstanding, hnoted⟩
    refine ((attempt_standing hstanding suffix).and (attempt_noted hnoted suffix)).imp ?_ ?_
    · exact fun _ _ h => ⟨h.1.1, h.2⟩
    · exact fun _ _ _ => trivial
  have hclimb : Ends (fun last after => ∃ earlier,
        Standing gateway plan start (last :: earlier) after ∧ Noted (last :: earlier) after)
      (fun _ _ => True) (climb gateway plan budgets ⟨start, cancelled, [], []⟩) :=
    climb_history
      (A := fun earlier last after => Standing gateway plan start (last :: earlier) after ∧
        Noted (last :: earlier) after)
      (hstep [] _ [] ⟨standing_start gateway plan start cancelled, rfl⟩)
      fun earlier last now suffix h _ => hstep (last :: earlier) now suffix h
  refine hclimb.imp ?_ fun _ _ h => h
  rintro last after ⟨earlier, hstanding, hnoted⟩
  obtain ⟨texts, replies, hresults, hreplies, hmade⟩ := hstanding.replies
  have hnotes : after.notes =
      texts.flatMap fun text => distinctNotes (rawNotes plan.limits text) := by
    rw [show after.notes = _ from hnoted, hmade, List.reverse_reverse, List.flatMap_map]
    exact notes_of_texts hreplies
  obtain ⟨raw, reply, hlast, hread, rfl⟩ := hstanding.last_result
  rw [hresults, List.getLast?_map] at hlast
  obtain ⟨raw', hraw, he⟩ := Option.map_eq_some_iff.1 hlast
  cases he
  obtain ⟨before, rfl⟩ := List.getLast?_eq_some_iff.1 hraw
  refine ⟨before, raw, reply, hresults, hread, rfl, fun text hmem => ?_, hnotes⟩
  have hmem : Reply.ofText plan.limits text ∈ replies.map .ok :=
    hreplies ▸ List.mem_map_of_mem (List.mem_append_left _ hmem)
  obtain ⟨read, -, hok⟩ := List.mem_map.1 hmem
  exact ⟨read, hok.symm⟩

end

/-! ## Main result -/

/-- What an outcome is made of: the reply in the last of the texts decides on the program, and all
of them have a part in the feedback. -/
structure MadeOf (limits : Limits) (target : Target) (texts : List Text) (last : Text)
    (reply : Reply) (outcome : Outcome) : Prop where
  /-- Every text is read. -/
  readable : ∀ text ∈ texts, ∃ read, Reply.ofText limits text = .ok read
  decisive : Reply.ofText limits last = .ok reply
  code : outcome.code = if (stubNote? target reply).isSome then target.profile.stub else reply.code
  /-- All notes of all texts in order and the note on the stub, reduced once. -/
  feedback : outcome.feedback = distinctNotes
    ((texts ++ [last]).flatMap (rawNotes limits) ++ (stubNote? target reply).toList.map .str)
    defaultNote
  /-- A stub comes with the note on it, but for case. -/
  explained : ∀ note ∈ stubNote? target reply, ∃ same ∈ outcome.feedback,
    Text.lower same = Text.lower note

theorem settledBy_madeOf {limits : Limits} (target : Target) {texts : List Text} {last : Text}
    {reply : Reply} (htexts : ∀ text ∈ texts, ∃ read, Reply.ofText limits text = .ok read)
    (hlast : Reply.ofText limits last = .ok reply) :
    MadeOf limits target texts last reply (settledBy target reply
      ((texts ++ [last]).flatMap fun text => distinctNotes (rawNotes limits text))) := by
  have hfeedback : (settledBy target reply
        ((texts ++ [last]).flatMap fun text => distinctNotes (rawNotes limits text))).feedback =
      distinctNotes ((texts ++ [last]).flatMap (rawNotes limits) ++
        (stubNote? target reply).toList.map .str) defaultNote := by
    have hstub := (proper_stubNote target reply).distinctNotes_eq_self (.inl rfl)
    have hlaw := distinctNotes_flatMap ((texts ++ [last]).map (rawNotes limits) ++
      [(stubNote? target reply).toList.map .str]) defaultNote
    rw [List.flatMap_append, List.flatMap_singleton, hstub, List.flatMap_map, List.flatten_append,
      List.flatten_singleton, ← List.flatMap_def] at hlaw
    rw [settledBy_eq]
    exact hlaw
  refine ⟨htexts, hlast, by rw [settledBy_eq]; rfl, hfeedback, fun note hnote => ?_⟩
  obtain ⟨htrim, hne⟩ := trim_stubNote hnote
  have htext : noteText (.str note) = note := htrim
  have hmem : Json.str note ∈ (texts ++ [last]).flatMap (rawNotes limits) ++
      (stubNote? target reply).toList.map .str :=
    List.mem_append_right _ (List.mem_map_of_mem (Option.mem_toList.2 hnote))
  have hspoken : noteText (.str note) ≠ [] := by rwa [htext]
  rw [hfeedback, ← htext]
  exact (gathered_distinctNotes (.inr ⟨_, hmem, hspoken⟩)).represented _
    (List.mem_map_of_mem hmem) hspoken

/-- **Nothing is lost of what is noted.**  Reducing lists of notes one by one and then together is
reducing them once; without need of a fallback this keeps, in order, a trimmed spelling of every
note that says something, and changes nothing the second time.  So the feedback of an outcome is
that of all notes of all texts, and a stub comes with the note on it. -/
theorem feedback_reduced_once :
    (∀ (groups : List (List Json)) (fallback : Text),
      distinctNotes ((groups.flatMap (distinctNotes ·)).map .str) fallback =
        distinctNotes groups.flatten fallback) ∧
    (∀ (items : List Json) (fallback : Text),
      (fallback = [] ∨ ∃ item ∈ items, noteText item ≠ []) →
      ProperNotes (distinctNotes items fallback) ∧
        Gathered (items.map noteText) (distinctNotes items fallback) ∧
        distinctNotes ((distinctNotes items fallback).map .str) fallback =
          distinctNotes items fallback) ∧
    ∀ {σ : Type} (generator : Generator) (gateway : Gateway σ) (request : Request)
      (cancelled : Bool) (state : σ),
      Ends (fun outcome after => ∃ texts last reply,
          gateway.results state after.calls = (texts ++ [last]).map .ok ∧
          MadeOf generator.limits request.target texts last reply outcome)
        (fun _ _ => True) (generator.generate gateway request cancelled state) := by
  refine ⟨distinctNotes_flatMap, fun items fallback h => ?_, ?_⟩
  · have hgathered := gathered_distinctNotes h
    have hproper : ProperNotes (distinctNotes items fallback) := by
      rw [distinctNotes_eq h]
      exact proper_freshNotes items
    refine ⟨hproper, hgathered, hproper.distinctNotes_eq_self (h.imp_right ?_)⟩
    rintro ⟨item, hitem, hne⟩
    obtain ⟨same, hsame, -⟩ := hgathered.represented _ (List.mem_map_of_mem hitem) hne
    exact List.ne_nil_of_mem hsame
  · intro σ generator gateway request cancelled state
    have hclimb := climb_noted gateway (generator.plan request) state generator.budgets cancelled
    rw [generate_eq_concluded]
    generalize climb gateway (generator.plan request) generator.budgets
      ⟨state, cancelled, [], []⟩ = step at hclimb ⊢
    rcases step with ⟨failure | last, after⟩
    · trivial
    · obtain ⟨texts, raw, reply, hresults, hread, hlast, htexts, hnotes⟩ := hclimb
      refine ⟨texts, raw, reply, hresults, ?_⟩
      rw [hlast, hnotes]
      show MadeOf _ request.target texts raw reply (settle request.target
        (Attempt.ofReply request.target reply) _)
      rw [settle_ofReply]
      exact settledBy_madeOf request.target htexts hread

/-- Two lists of notes with a text in three spellings, a number in two, and values that say
nothing. -/
theorem feedback_reduced_once_spelled :
    let first : List Json := [.str " Use a loop", .null, .str "USE A LOOP\n", .num (.int 7)]
    let second : List Json := [.str "7", .str "use a Loop", .str " ", .bool true]
    let kept : List Text := ["Use a loop", "7", "True"]
    (∃ item ∈ first ++ second, noteText item ≠ []) ∧
      distinctNotes ((distinctNotes first ++ distinctNotes second).map .str) defaultNote = kept ∧
      Gathered ((first ++ second).map noteText) kept := by
  intro first second kept
  have hheard : ∃ item ∈ first ++ second, noteText item ≠ [] :=
    ⟨.num (.int 7), by simp [first], by decide +kernel⟩
  have hkept : distinctNotes (first ++ second) defaultNote = kept := by decide +kernel
  have hlaw := feedback_reduced_once.1 [first, second] defaultNote
  simp only [List.flatMap_cons, List.flatMap_nil, List.flatten_cons, List.flatten_nil,
    List.append_nil] at hlaw
  refine ⟨hheard, hlaw.trans hkept, ?_⟩
  rw [← hkept]
  exact (feedback_reduced_once.2.1 (first ++ second) defaultNote (.inr hheard)).2.1

end BlockSafe
