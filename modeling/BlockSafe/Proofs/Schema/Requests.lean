import BlockSafe.Proofs.Schema.Budgets
import BlockSafe.Proofs.Text.Case
import BlockSafe.Proofs.Text.Words
import BlockSafe.Request

/-!
# Requests in normal form

What is read as a request is in normal form (`normal_ofFields`): its texts are trimmed, in lower case
or collapsed as their fields ask for, and the dialog holds starts of collapsed texts.  Reading the
fields of a request in normal form gives the request back, but for a space at the end of a dialog
text (`Normal.ofFields_toFields`).

Such a space is there where the limit of the text cuts behind a word; the second reading drops it,
and all further readings change nothing (`reading_settles`).
-/

namespace BlockSafe

/-! ## Fields that are read -/

theorem Checked.eq_ok_of_toOption {α : Type} {checked : Checked α} {a : α}
    (h : checked.toOption = some a) : checked = .ok a := by
  cases checked with
  | ok b => exact congrArg Except.ok (Option.some.inj h)
  | error issues => cases h

theorem Read.nonemptyText_eq_ok {s a : Text} (h : Read.nonemptyText (.str s) = .ok a) :
    a = s ∧ s ≠ [] := by
  cases s with
  | nil => cases h
  | cons c s => exact ⟨(Except.ok.inj h).symm, List.cons_ne_nil c s⟩

theorem Json.plain_str (s : Text) : (Json.str s).plain = s := by
  cases s with
  | nil => rfl
  | cons c s => rfl

namespace Dialog

/-! ## Dialogs -/

/-- The form that reading gives a dialog: its texts are clipped to their limits. -/
structure Normal (dialog : Dialog) : Prop where
  title : Text.IsClipped maxTitle dialog.title
  description : Text.IsClipped maxDescription dialog.description

/-- Whether no text ends with a space. -/
def IsSettled (dialog : Dialog) : Prop :=
  dialog.title.getLast? ≠ some ' ' ∧ dialog.description.getLast? ≠ some ' '

/-- The dialog without the spaces at the ends of its texts. -/
def settled (dialog : Dialog) : Dialog :=
  ⟨Text.withoutLastSpace dialog.title, Text.withoutLastSpace dialog.description⟩

variable {dialog : Dialog}

theorem normal_ofFields {fields : Fields} (h : ofFields fields = .ok dialog) : dialog.Normal := by
  cases h
  exact ⟨⟨_, rfl⟩, ⟨_, rfl⟩⟩

/-- To clip a text again drops the space at its end. -/
theorem clip_str {limit : Nat} {s : Text} (h : Text.IsClipped limit s) :
    clip limit (.str s) = Text.withoutLastSpace s := by
  have hshort : (Text.withoutLastSpace s).length ≤ limit :=
    (Text.length_withoutLastSpace_le s).trans h.length_le
  rw [clip, Json.plain_str, h.collapse_eq, List.take_of_length_le hshort]

theorem settled_eq_self_iff : dialog.settled = dialog ↔ dialog.IsSettled := by
  obtain ⟨title, description⟩ := dialog
  simp only [settled, IsSettled, Dialog.mk.injEq, Text.withoutLastSpace_eq_self_iff]

namespace Normal

theorem ofFields_toFields (h : dialog.Normal) :
    Dialog.ofFields dialog.toFields = .ok dialog.settled := by
  have htitle := clip_str h.title
  have hdescription := clip_str h.description
  exact congrArg Except.ok (congrArg₂ Dialog.mk htitle hdescription)

theorem isSettled (h : dialog.Normal) : dialog.settled.IsSettled :=
  ⟨h.title.last_withoutLastSpace, h.description.last_withoutLastSpace⟩

end Normal

end Dialog

namespace Request

/-! ## Requests -/

/-- The form that reading gives a request. -/
structure Normal (request : Request) : Prop where
  instruction : request.instruction ≠ [] ∧ Text.trim request.instruction = request.instruction
  pageErrors_length : request.pageErrors.length ≤ maxPageErrors
  pageErrors : ∀ error ∈ request.pageErrors, error ≠ [] ∧ Text.collapse error = error
  dialog : ∀ dialog ∈ request.dialog, dialog.Normal
  provider : ∀ name ∈ request.provider, name ≠ [] ∧ Text.lower (Text.trim name) = name
  model : ∀ name ∈ request.model, name ≠ [] ∧ Text.trim name = name

/-- The request without the spaces at the ends of dialog texts. -/
def settled (request : Request) : Request :=
  { request with dialog := request.dialog.map Dialog.settled }

variable {fields : Fields} {request : Request}

theorem pageErrorsOf_normal (value : Json) : (pageErrorsOf value).length ≤ maxPageErrors ∧
    ∀ error ∈ pageErrorsOf value, error ≠ [] ∧ Text.collapse error = error := by
  have hnone : ([] : List Text).length ≤ maxPageErrors ∧
      ∀ error ∈ ([] : List Text), error ≠ [] ∧ Text.collapse error = error :=
    ⟨Nat.zero_le _, fun _ h => absurd h List.not_mem_nil⟩
  cases value with
  | list items =>
    refine ⟨List.length_take_le _ _, fun error herror => ?_⟩
    obtain ⟨hitem, hne⟩ := List.mem_filter.1 (List.mem_of_mem_take herror)
    obtain ⟨item, -, rfl⟩ := List.mem_map.1 hitem
    exact ⟨by simpa using hne, Text.collapse_collapse _⟩
  | null => exact hnone
  | bool b => exact hnone
  | num n => exact hnone
  | str s => exact hnone
  | object fields => exact hnone

theorem pageErrorsOf_texts {errors : List Text} (hlength : errors.length ≤ maxPageErrors)
    (h : ∀ error ∈ errors, error ≠ [] ∧ Text.collapse error = error) :
    pageErrorsOf (.list (errors.map .str)) = errors := by
  have hcollapse : (errors.map Json.str).map (fun item => Text.collapse item.plain) = errors := by
    rw [List.map_map]
    refine (List.map_congr_left fun error herror => ?_).trans (List.map_id errors)
    rw [Function.comp_apply, Json.plain_str, (h error herror).2, id]
  have hkept : errors.filter (!·.isEmpty) = errors :=
    List.filter_eq_self.2 fun error herror => by simpa using (h error herror).1
  rw [pageErrorsOf, hcollapse, hkept, List.take_of_length_le hlength]

theorem nonempty?_normal {f : Text → Text} (hf : ∀ s, f (f s) = f s) (s : Text) :
    ∀ t ∈ nonempty? (f s), t ≠ [] ∧ f t = t := by
  intro t ht
  unfold nonempty? at ht
  split at ht
  · cases ht
  · next hne =>
    cases ht
    exact ⟨by simpa using hne, hf s⟩

theorem nonempty?_optionalText {f : Text → Text} (hnil : f [] = []) {given : Option Text}
    (h : ∀ s ∈ given, s ≠ [] ∧ f s = s) : nonempty? (f (optionalText given).plain) = given := by
  cases given with
  | none =>
    have hplain : (optionalText none).plain = [] := rfl
    rw [hplain, hnil]
    rfl
  | some s =>
    obtain ⟨hne, hs⟩ := h s rfl
    have hplain : (optionalText (some s)).plain = s := Json.plain_str s
    rw [hplain, hs, nonempty?, if_neg (by simpa using hne)]

theorem lower_trim_again (s : Text) :
    Text.lower (Text.trim (Text.lower (Text.trim s))) = Text.lower (Text.trim s) := by
  rw [Text.trim_lower, Text.lower_lower]

theorem dialog_normal {given : Option Dialog}
    (h : Read.optional fields "dialog_note" none
      (Read.nullable (Read.object "ConversionDialog" Dialog.ofFields)) = .ok given) :
    ∀ dialog ∈ given, dialog.Normal := by
  intro dialog hdialog
  rcases Read.optional_eq_ok h with rfl | ⟨value, hvalue⟩
  · cases hdialog
  · cases hdialog
    cases value with
    | object fields =>
      cases hvalue
      exact Dialog.normal_ofFields rfl
    | null => cases hvalue
    | bool b => cases hvalue
    | num n => cases hvalue
    | str s => cases hvalue
    | list items => cases hvalue

/-- What is read is in normal form. -/
theorem normal_ofFields (h : ofFields fields = .ok request) : request.Normal := by
  obtain ⟨_, _, hprovider, hmodel, rfl⟩ := Checked.and_eq_ok.1 h
  obtain ⟨_, _, hdialog, hname, rfl⟩ := Checked.and_eq_ok.1 hprovider
  obtain ⟨_, _, herrors, hread, rfl⟩ := Checked.and_eq_ok.1 hdialog
  obtain ⟨_, _, hcode, herror, rfl⟩ := Checked.and_eq_ok.1 herrors
  obtain ⟨_, _, hinstruction, -, rfl⟩ := Checked.and_eq_ok.1 hcode
  obtain ⟨_, _, htarget, htext, rfl⟩ := Checked.and_eq_ok.1 hinstruction
  obtain ⟨_, _, hnothing, -, rfl⟩ := Checked.and_eq_ok.1 htarget
  cases hnothing
  cases hmodel
  cases hname
  cases herror
  obtain ⟨value, hvalue⟩ := Read.required_eq_ok htext
  obtain ⟨rfl, hne⟩ := Read.nonemptyText_eq_ok hvalue
  obtain ⟨hlength, hpage⟩ := pageErrorsOf_normal ((Fields.get? fields "page_errors").getD .null)
  exact {
    instruction := ⟨hne, Text.trim_trim _⟩
    pageErrors_length := hlength
    pageErrors := hpage
    dialog := dialog_normal hread
    provider := nonempty?_normal (f := fun s => Text.lower (Text.trim s)) lower_trim_again _
    model := nonempty?_normal Text.trim_trim _ }

/-! ## Reading again -/

theorem ofValue_word (target : Target) : Target.ofValue (.str target.word) = target := by
  cases target <;> decide +kernel

namespace Normal

theorem read_dialog (h : request.Normal) :
    Read.optional request.toFields "dialog_note" none
      (Read.nullable (Read.object "ConversionDialog" Dialog.ofFields)) =
        .ok (request.dialog.map Dialog.settled) := by
  cases hgiven : request.dialog with
  | none =>
    have hnull : Fields.get? request.toFields "dialog_note" = some .null := by
      rw [toFields, hgiven]
      rfl
    exact optional_of_get? hnull rfl
  | some dialog =>
    have hobject : Fields.get? request.toFields "dialog_note" = some (.object dialog.toFields) := by
      rw [toFields, hgiven]
      rfl
    exact optional_of_get? hobject (congrArg (·.map some) (h.dialog dialog hgiven).ofFields_toFields)

/-- Reading the fields of a request in normal form settles its dialog. -/
theorem ofFields_toFields (h : request.Normal) :
    Request.ofFields request.toFields = .ok request.settled := by
  obtain ⟨hne, htrim⟩ := h.instruction
  have hinstruction : Read.nonemptyText (.str (Text.trim (Json.str request.instruction).plain)) =
      .ok request.instruction := by
    rw [Json.plain_str, htrim]
    exact nonemptyText_str hne
  have hprovider := nonempty?_optionalText (f := fun s => Text.lower (Text.trim s)) rfl h.provider
  have hmodel := nonempty?_optionalText (f := Text.trim) rfl h.model
  have herrors := pageErrorsOf_texts h.pageErrors_length h.pageErrors
  have hread : Read.required request.toFields "instruction" (fun value =>
      Read.nonemptyText (.str (Text.trim value.plain))) = .ok request.instruction :=
    required_of_get? rfl hinstruction
  have hdialog := h.read_dialog
  have htarget : (Fields.get? request.toFields "target").getD .null = .str request.target.word := rfl
  have hcode : (Fields.get? request.toFields "existing_code").getD .null =
    .str request.existingCode := rfl
  have hlist : (Fields.get? request.toFields "page_errors").getD .null =
    .list (request.pageErrors.map .str) := rfl
  have hname : (Fields.get? request.toFields "provider_override").getD .null =
    optionalText request.provider := rfl
  have hchosen : (Fields.get? request.toFields "model_override").getD .null =
    optionalText request.model := rfl
  unfold Request.ofFields
  simp only [hread, hdialog, htarget, hcode, hlist, hname, hchosen, herrors, hprovider, hmodel,
    ofValue_word]
  rfl

theorem settled (h : request.Normal) : request.settled.Normal :=
  normal_ofFields h.ofFields_toFields

theorem isSettled (h : request.Normal) : ∀ dialog ∈ request.settled.dialog, dialog.IsSettled := by
  intro dialog hdialog
  obtain ⟨given, hgiven, rfl⟩ := Option.map_eq_some_iff.1 hdialog
  exact (h.dialog given hgiven).isSettled

end Normal

theorem settled_eq_self_iff :
    request.settled = request ↔ ∀ dialog ∈ request.dialog, dialog.IsSettled := by
  obtain ⟨target, instruction, existingCode, pageErrors, dialog, provider, model⟩ := request
  cases dialog with
  | none => simp [settled]
  | some dialog => simp [settled, Dialog.settled_eq_self_iff]

/-- A second reading drops the spaces at the ends of the dialog texts, which only texts of full
length have, and a third one changes nothing. -/
theorem reading_settles (h : ofFields fields = .ok request) :
    ofFields request.toFields = .ok request.settled ∧
    ofFields request.settled.toFields = .ok request.settled ∧
    (request.settled = request ↔ ∀ dialog ∈ request.dialog,
      dialog.title.getLast? ≠ some ' ' ∧ dialog.description.getLast? ≠ some ' ') ∧
    ∀ dialog ∈ request.dialog,
      (dialog.title.getLast? = some ' ' → dialog.title.length = Dialog.maxTitle) ∧
      (dialog.description.getLast? = some ' ' →
        dialog.description.length = Dialog.maxDescription) := by
  have hnormal := normal_ofFields h
  have hagain : request.settled.settled = request.settled :=
    settled_eq_self_iff.2 hnormal.isSettled
  refine ⟨hnormal.ofFields_toFields, ?_, settled_eq_self_iff, fun dialog hdialog => ?_⟩
  · have hthird := hnormal.settled.ofFields_toFields
    rwa [hagain] at hthird
  · obtain ⟨htitle, hdescription⟩ := hnormal.dialog dialog hdialog
    exact ⟨htitle.length_of_last, hdescription.length_of_last⟩

/-- The fields of a request with margins, a blank diagnostic, and a title of which the limit leaves
one word and the space behind it. -/
def wideFields : Fields :=
  [("target", .str " Arcade"), ("instruction", .str "blink\n"),
   ("page_errors", .list [.str "Line 1:\n  no", .str " ", .num (.int 2)]),
   ("dialog_note", .object [("title", .str (List.replicate 219 'a' ++ " b".toList))]),
   ("provider_override", .str " OpenAI ")]

/-- What is read from those fields. -/
def wide : Request where
  target := .arcade
  instruction := "blink"
  existingCode := []
  pageErrors := ["Line 1: no", "2"]
  dialog := some ⟨List.replicate 219 'a' ++ [' '], []⟩
  provider := some "openai"
  model := none

theorem ofFields_wideFields : ofFields wideFields = .ok wide :=
  Checked.eq_ok_of_toOption (by decide +kernel)

theorem reading_settles_wide : ofFields wideFields = .ok wide ∧
    ofFields wide.toFields = .ok wide.settled ∧
    ofFields wide.settled.toFields = .ok wide.settled ∧
    wide.settled.dialog = some ⟨List.replicate 219 'a', []⟩ := by
  obtain ⟨hsecond, hthird, -, -⟩ := reading_settles ofFields_wideFields
  exact ⟨ofFields_wideFields, hsecond, hthird, by decide +kernel⟩

/-- The second reading of a request may differ from it. -/
theorem second_reading_differs :
    ofFields wideFields = .ok wide ∧ ofFields wide.toFields ≠ .ok wide := by
  refine ⟨ofFields_wideFields, fun hsame => ?_⟩
  have hagain := (normal_ofFields ofFields_wideFields).ofFields_toFields
  have hsettled : wide.settled = wide := Except.ok.inj (hagain.symm.trans hsame)
  have hlast := (settled_eq_self_iff.1 hsettled _ rfl).1
  exact hlast (by decide +kernel)

end Request

end BlockSafe
