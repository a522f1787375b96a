import BlockSafe.Proofs.Text.Takes
import BlockSafe.Rule.Nesting

/-!
# Calls that register a handler

What the pattern of registrations takes is the name of a handler, white space and an opening
bracket, at a place where no word goes on (`takes_registration`).  A registration holds only parts
of words, points, white space and its bracket (`Registers.chars`), and starts and ends without white
space, so it stands in a trimmed line iff it stands in the line (`occurs_registration_trim`).
-/

namespace BlockSafe

open Pattern Text

/-! ## Names -/

/-- A name that registers a handler when it is called. -/
inductive Handles : Text → Prop where
  | fixed {name : Text}
      (h : name ∈ texts ["basic.forever", "loops.forever", "control.inBackground"]) : Handles name
  | event {space event : Text}
      (hspace : space ∈ texts ["input", "radio", "pins", "controller", "sprites", "scene", "game",
        "info"])
      (hevent : ∀ c ∈ event, isWord c = true) : Handles (space ++ ".on".toList ++ event)
  | button {button : Text} (h : ∀ c ∈ button, isWord c = true) :
      Handles ("controller.".toList ++ (button ++ ".onEvent".toList))

/-- A call, up to its opening bracket, that registers a handler. -/
def Registers (m : Text) : Prop :=
  ∃ name gap, Handles name ∧ Blank gap ∧ m = name ++ (gap ++ "(".toList)

variable {before : Option Char} {m v name s : Text}

/-- The names in the pattern of registrations. -/
theorem registration_names : ∃ names : Pattern,
    registrationPattern = chain [wordEdge, names, spaces, lit "("] ∧
      ∀ before m v, names.Takes before m v ↔ Handles m := by
  refine ⟨_, rfl, fun before m v => ?_⟩
  have hevent : ∀ {space : Text} {m : Text},
      (seq (lit (space ++ ".on".toList)) (many isWord)).Takes before m v ↔
        ∃ event, (∀ c ∈ event, isWord c = true) ∧ m = space ++ ".on".toList ++ event := by
    intro space m
    simp only [takes_seq, takes_lit, takes_many]
    constructor
    · rintro ⟨_, event, rfl, rfl, h⟩
      exact ⟨event, h, rfl⟩
    · rintro ⟨event, h, rfl⟩
      exact ⟨_, event, rfl, rfl, h⟩
  have hbutton : (chain [lit "controller.", many isWord, lit ".onEvent"]).Takes before m v ↔
      ∃ button, (∀ c ∈ button, isWord c = true) ∧
        m = "controller.".toList ++ (button ++ ".onEvent".toList) := by
    simp only [takes_chain_cons, takes_chain_nil, takes_lit, takes_many]
    constructor
    · rintro ⟨_, _, rfl, rfl, button, _, rfl, h, _, _, rfl, rfl, rfl⟩
      exact ⟨button, h, by rw [List.append_nil]⟩
    · rintro ⟨button, h, rfl⟩
      exact ⟨_, _, rfl, rfl, button, _, rfl, h, _, [], (List.append_nil _).symm, rfl, rfl⟩
  simp only [takes_anyOf, List.mem_cons, List.not_mem_nil, or_false, exists_eq_or_imp,
    exists_eq_left, takes_lit, hevent, hbutton]
  constructor
  · rintro (rfl | rfl | ⟨e, h, rfl⟩ | ⟨e, h, rfl⟩ | ⟨e, h, rfl⟩ | ⟨e, h, rfl⟩ | ⟨e, h, rfl⟩ |
      ⟨e, h, rfl⟩ | ⟨e, h, rfl⟩ | ⟨e, h, rfl⟩ | ⟨e, h, rfl⟩ | rfl)
    case inr.inr.inr.inr.inr.inl => exact .button h
    all_goals first | exact .fixed (by decide) | exact .event (by decide) h
  · intro h
    cases h with
    | fixed h =>
      simp only [texts, List.map_cons, List.map_nil, List.mem_cons, List.not_mem_nil, or_false] at h
      rcases h with rfl | rfl | rfl <;> simp
    | event hspace h =>
      simp only [texts, List.map_cons, List.map_nil, List.mem_cons, List.not_mem_nil, or_false]
        at hspace
      have hsome := fun space : Text => (⟨_, h, rfl⟩ : ∃ event : Text, (∀ c ∈ event,
        isWord c = true) ∧ space ++ ".on".toList ++ _ = space ++ ".on".toList ++ event)
      rcases hspace with rfl | rfl | rfl | rfl | rfl | rfl | rfl | rfl
      all_goals simp only [hsome, true_or, or_true]
    | button h => exact .inr (.inr (.inr (.inr (.inr (.inl ⟨_, h, rfl⟩)))))

/-- A name starts with a part of a word. -/
theorem Handles.head (h : Handles name) : ∃ c t, name = c :: t ∧ isWord c = true := by
  have hletter : ∀ start : Text, start.head?.any isWord = true → ∀ rest : Text,
      ∃ c t, start ++ rest = c :: t ∧ isWord c = true := by
    intro start hstart rest
    obtain ⟨c, hc, hword⟩ := (Option.any_eq_true _ _).1 hstart
    obtain ⟨t, rfl⟩ := List.head?_eq_some_iff.1 hc
    exact ⟨c, t ++ rest, rfl, hword⟩
  cases h with
  | @fixed name h =>
    have hfixed : ∀ name ∈ texts ["basic.forever", "loops.forever", "control.inBackground"],
        name.head?.any isWord = true := by decide
    have hname := hletter name (hfixed name h) []
    rwa [List.append_nil] at hname
  | @event space event hspace h =>
    have hspaces : ∀ space ∈ texts ["input", "radio", "pins", "controller", "sprites", "scene",
        "game", "info"], space.head?.any isWord = true := by decide
    rw [List.append_assoc]
    exact hletter space (hspaces space hspace) _
  | button h => exact hletter _ (by decide) _

theorem takes_registration :
    registrationPattern.Takes before m v ↔ before.any isWord = false ∧ Registers m := by
  obtain ⟨names, hpattern, hnames⟩ := registration_names
  have hedge : ∀ {name s : Text}, Handles name →
      (Cursor.atWordEdge ⟨before, name ++ s⟩ = true ↔ before.any isWord = false) := by
    intro name s hname
    obtain ⟨c, t, rfl, hc⟩ := hname.head
    exact atWordEdge_start hc before
  rw [hpattern]
  simp only [takes_chain_cons, takes_chain_nil, takes_lit, wordEdge, takes_test, spaces, takes_many,
    hnames]
  constructor
  · rintro ⟨_, _, rfl, ⟨rfl, hstart⟩, name, _, rfl, hname, gap, _, rfl, hgap, _, _, rfl, rfl, rfl⟩
    rw [List.append_assoc, hedge hname] at hstart
    exact ⟨hstart, name, gap, hname, hgap, by rw [List.append_nil]; rfl⟩
  · rintro ⟨hbefore, name, gap, hname, hgap, rfl⟩
    refine ⟨[], name ++ (gap ++ "(".toList), rfl, ⟨rfl, ?_⟩, name, _, rfl, hname, gap, _, rfl, hgap,
      _, [], (List.append_nil _).symm, rfl, rfl⟩
    rw [List.append_assoc, hedge hname]
    exact hbefore

/-! ## Characters -/

/-- The characters of a registration. -/
theorem Registers.chars (h : Registers m) :
    ∀ c ∈ m, isWord c = true ∨ isSpace c = true ∨ c = '.' ∨ c = '(' := by
  obtain ⟨name, gap, hname, hgap, rfl⟩ := h
  have hwords : ∀ {w : Text}, (∀ c ∈ w, isWord c = true) →
      ∀ c ∈ w, isWord c = true ∨ isSpace c = true ∨ c = '.' ∨ c = '(' :=
    fun hw c hc => .inl (hw c hc)
  simp only [List.forall_mem_append]
  refine ⟨?_, fun c hc => .inr (.inl (hgap c hc)), by decide⟩
  cases hname with
  | fixed h =>
    have hfixed : ∀ name ∈ texts ["basic.forever", "loops.forever", "control.inBackground"],
        ∀ c ∈ name, isWord c = true ∨ c = '.' := by decide
    exact fun c hc => (hfixed _ h c hc).imp_right fun h => .inr (.inl h)
  | event hspace hevent =>
    have hspaces : ∀ space ∈ texts ["input", "radio", "pins", "controller", "sprites", "scene",
        "game", "info"], ∀ c ∈ space, isWord c = true := by decide
    simp only [List.forall_mem_append]
    exact ⟨⟨hwords (hspaces _ hspace), by decide⟩, hwords hevent⟩
  | button hbutton =>
    simp only [List.forall_mem_append]
    exact ⟨by decide, hwords hbutton, by decide⟩

/-- A registration starts with a part of a word and ends with a bracket. -/
theorem Registers.ends (h : Registers m) :
    (∃ c t, m = c :: t ∧ isWord c = true) ∧ m.getLast? = some '(' := by
  obtain ⟨name, gap, hname, -, rfl⟩ := h
  obtain ⟨c, t, rfl, hc⟩ := hname.head
  refine ⟨⟨c, t ++ (gap ++ "(".toList), rfl, hc⟩, ?_⟩
  rw [← List.append_assoc]
  exact List.getLast?_concat

theorem Registers.trimmed (h : Registers m) : m ≠ [] ∧ (∀ c ∈ m.head?, isSpace c = false) ∧
    ∀ c ∈ m.getLast?, isSpace c = false := by
  obtain ⟨⟨c, t, rfl, hc⟩, hlast⟩ := h.ends
  refine ⟨List.cons_ne_nil c t, ?_, ?_⟩
  · intro d hd
    obtain rfl : c = d := Option.some.inj hd
    rw [Bool.eq_false_iff]
    intro hspace
    rw [isWord_of_isSpace hspace] at hc
    cases hc
  · rw [hlast]
    decide

/-! ## Occurrences -/

theorem occurs_registration :
    registrationPattern.occurs s = true ↔ ∃ m, Registers m ∧ Stands false m s := by
  simp only [occurs_iff_takes, takes_registration]
  constructor
  · rintro ⟨u, m, v, rfl, hu, hm⟩
    exact ⟨m, hm, u, v, rfl, hu, rfl⟩
  · rintro ⟨m, hm, u, v, rfl, hu, -⟩
    exact ⟨u, m, v, rfl, hu, hm⟩

/-- A registration stands in a trimmed line iff it stands in the line. -/
theorem occurs_registration_trim (s : Text) :
    registrationPattern.occurs (trim s) = registrationPattern.occurs s := by
  rw [Bool.eq_iff_iff, occurs_registration, occurs_registration]
  refine exists_congr fun m => and_congr_right fun hm => ?_
  obtain ⟨hne, hhead, hlast⟩ := hm.trimmed
  exact stands_trim hne hhead hlast s

end BlockSafe
