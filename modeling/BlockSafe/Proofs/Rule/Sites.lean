import BlockSafe.Proofs.Rule.Constructs
import BlockSafe.Rule.Call
import BlockSafe.Rule.ForLoop
import BlockSafe.Rule.Member
import Mathlib.Data.List.ReduceOption

/-!
# Loops, members and calls across line breaks

Loop headers, references to members and call sites are collected from left to right.  Their readers
are steady, so they find the same ones however line breaks are written (`forHeaders_crlf`,
`enumReferences_crlf`, `callArguments_crlf`), and what is said of each one is the same too.  A
header or an argument may hold line breaks; an identifier holds none.

Each reader is a chain of partial readers of prefixes (`forHeaderAt?_eq`, `referenceAt?_eq`,
`callSiteAt?_eq`).  Every link commutes with the spelling of line breaks and leaves a suffix of what
it was given.
-/

namespace BlockSafe

open Pattern Text

/-! ## Links -/

/-- Two chains of readers agree, up to what is done to their results, if the rests of the chains
do. -/
theorem map_bind_link {α α' β β' : Type} {o : Option α} {i : α → α'} {f : α' → Option β'}
    {g : α → Option β} {k : β → β'} (h : ∀ a, f (i a) = (g a).map k) :
    (o.map i).bind f = (o.bind g).map k := by
  cases o with
  | none => rfl
  | some a => exact h a

theorem bind_link {α α' β : Type} {o : Option α} {i : α → α'} {f : α' → Option β}
    {g : α → Option β} (h : ∀ a, f (i a) = g a) : (o.map i).bind f = o.bind g := by
  cases o with
  | none => rfl
  | some a => exact h a

theorem after?_crlf {p : Text} (hp : ∀ c ∈ p, ¬ IsBreak c) (s : Text) :
    after? p (crlf s) = (after? p s).map crlf :=
  after?_withBreaks breakText_crlf hp s

theorem after?_suffix {p s t : Text} (h : after? p s = some t) : t <:+ s :=
  ⟨p, (after?_eq_some.1 h).symm⟩

/-- A prefix that is not empty is left behind. -/
theorem after?_lt {p s t : Text} (hp : p ≠ []) (h : after? p s = some t) :
    t.length < s.length := by
  rw [after?_eq_some.1 h, List.length_append]
  exact Nat.lt_add_of_pos_left (List.length_pos_iff.2 hp)

/-- A prefix of one character. -/
theorem after?_single (x c : Char) (s : Text) :
    after? [x] (c :: s) = if x = c then some s else none := rfl

theorem afterGap?_crlf (s : Text) : afterGap? (crlf s) = (afterGap? s).map crlf := by
  induction s using break_induction with
  | nil => rfl
  | line s _ =>
    have hskip : ∀ t, trimStart ('\n' :: t) = trimStart t := fun _ => rfl
    rw [crlf_break, afterGap?, afterGap?, if_pos (by decide), if_pos (by decide), hskip,
      trimStart_crlf]
    rfl
  | char c s hc _ =>
    rw [crlf_cons hc, afterGap?, afterGap?]
    split
    · rw [trimStart_crlf]
      rfl
    · rfl

theorem identAt?_crlf (s : Text) :
    identAt? (crlf s) = (identAt? s).map fun x => (x.1, crlf x.2) := by
  induction s using break_induction with
  | nil => rfl
  | line s _ => rfl
  | char c s hc _ =>
    rw [crlf_cons hc, identAt?, identAt?, takeWhile_solid (by decide),
      dropWhile_solid (by decide)]
    split
    · rfl
    · rfl

/-- An identifier holds no break. -/
theorem identAt?_unbroken {s name rest : Text} (h : identAt? s = some (name, rest)) :
    ∀ c ∈ name, ¬ IsBreak c := by
  have hfirst : Solid isIdentStart := by decide
  have hpart : Solid isIdentPart := by decide
  cases s with
  | nil => cases h
  | cons c s =>
    rw [identAt?] at h
    split at h
    · next hstart =>
      obtain ⟨rfl, rfl⟩ := h
      exact List.forall_mem_cons.2
        ⟨hfirst.not_isBreak hstart, fun d hd => hpart.not_isBreak (List.mem_takeWhile_imp hd)⟩
    · cases h

theorem identAt?_suffix {s name rest : Text} (h : identAt? s = some (name, rest)) : rest <:+ s := by
  cases s with
  | nil => cases h
  | cons c s =>
    rw [identAt?] at h
    split at h
    · obtain ⟨rfl, rfl⟩ := h
      exact (List.dropWhile_suffix _).trans (List.suffix_cons c s)
    · cases h

/-! ## Loop headers -/

theorem forHeaderAt?_eq (c : Cursor) : forHeaderAt? c =
    (after? "for" c.rest).bind fun rest => (after? ['('] (trimStart rest)).bind fun inner =>
      (after? [')'] (inner.dropWhile (· != ')'))).map fun tail =>
        (inner.takeWhile (· != ')'), tail) := by
  unfold forHeaderAt?
  cases after? "for" c.rest with
  | none => rfl
  | some rest =>
    rw [Option.bind_some]
    dsimp only
    split
    · next inner heq =>
      have hstop := List.head?_dropWhile_not (· != ')') inner
      rw [heq, after?_single, if_pos rfl, Option.bind_some]
      cases hrest : inner.dropWhile (· != ')') with
      | nil => rfl
      | cons y tail =>
        rw [hrest] at hstop
        obtain rfl : y = ')' := by simpa using hstop
        rfl
    · next hother =>
      cases hrest : trimStart rest with
      | nil => rfl
      | cons x inner =>
        have hx : '(' ≠ x := by
          rintro rfl
          exact hother inner hrest
        rw [after?_single, if_neg hx]
        rfl

theorem steadyReader_forHeader : SteadyReader forHeaderAt? crlf := by
  refine ⟨?read, ?stop, ?tail⟩
  case read =>
    intro before s
    have hinner : ∀ inner : Text, (crlf inner).dropWhile (· != ')') =
        crlf (inner.dropWhile (· != ')')) :=
      dropWhile_withBreaks (forall_of_all (by decide)) (by decide)
    have hheader : ∀ inner : Text, (crlf inner).takeWhile (· != ')') =
        crlf (inner.takeWhile (· != ')')) :=
      takeWhile_withBreaks (forall_of_all (by decide)) (by decide)
    rw [forHeaderAt?_eq, forHeaderAt?_eq, after?_crlf (forall_of_all (by decide))]
    refine map_bind_link fun rest => ?_
    rw [trimStart_crlf, after?_crlf (forall_of_all (by decide))]
    refine map_bind_link fun inner => ?_
    rw [hinner, hheader, after?_crlf (forall_of_all (by decide)), Option.map_map, Option.map_map]
    rfl
  case stop =>
    rintro before c s (rfl | rfl)
    · rfl
    · rfl
  case tail =>
    intro before s header tail h
    rw [forHeaderAt?_eq, Option.bind_eq_some_iff] at h
    obtain ⟨rest, hrest, h⟩ := h
    obtain ⟨inner, hinner, h⟩ := Option.bind_eq_some_iff.1 h
    obtain ⟨tail, htail, hpair⟩ := Option.map_eq_some_iff.1 h
    cases hpair
    have hsuffix : tail <:+ rest :=
      (after?_suffix htail).trans ((List.dropWhile_suffix _).trans
        ((after?_suffix hinner).trans (List.dropWhile_suffix _)))
    exact ⟨hsuffix.trans (after?_suffix hrest),
      hsuffix.length_le.trans_lt (after?_lt (by decide) hrest)⟩

theorem forHeaders_crlf (code : Text) : forHeaders (crlf code) = (forHeaders code).map crlf :=
  steadyReader_forHeader.findAll_crlf code

/-! ## Clauses -/

theorem loopVariable?_crlf (clause : Text) :
    loopVariable? (crlf clause) = loopVariable? clause := by
  unfold loopVariable?
  simp only [Option.bind_eq_bind]
  rw [after?_crlf (forall_of_all (by decide))]
  refine bind_link fun rest => ?_
  rw [afterGap?_crlf]
  refine bind_link fun rest => ?_
  rw [identAt?_crlf]
  refine bind_link fun (name, rest) => ?_
  rw [trimStart_crlf, after?_crlf (forall_of_all (by decide))]
  refine bind_link fun rest => ?_
  simp only [trimStart_crlf, crlf_eq_iff (t := ['0']) (forall_of_all (by decide))]

/-- The variable of a loop is an identifier. -/
theorem loopVariable?_unbroken {clause name : Text} (h : loopVariable? clause = some name) :
    ∀ c ∈ name, ¬ IsBreak c := by
  unfold loopVariable? at h
  simp only [Option.bind_eq_bind, Option.bind_eq_some_iff] at h
  obtain ⟨_, -, rest, -, ⟨ident, _⟩, hident, _, -, h⟩ := h
  split at h
  · obtain rfl := Option.some.inj h
    exact identAt?_unbroken hident
  · cases h

theorem isLoopBound_crlf (s : Text) : isLoopBound (crlf s) = isLoopBound s := by
  unfold isLoopBound
  have hempty : (crlf (trimStart s)).isEmpty = (trimStart s).isEmpty :=
    isEmpty_withBreaks breakText_crlf _
  simp only [trimStart_crlf, hempty]
  rw [all_crlf (by decide)]

section
variable {name : Text} (hname : ∀ c ∈ name, ¬ IsBreak c)
include hname

theorem isLoopCondition_crlf (clause : Text) :
    isLoopCondition name (crlf clause) = isLoopCondition name clause := by
  unfold isLoopCondition
  rw [after?_crlf hname]
  cases after? name clause with
  | none => rfl
  | some rest =>
    have hcomparison : ∀ sign : Text, (∀ c ∈ sign, ¬ IsBreak c) →
        (after? sign (crlf (trimStart rest))).any isLoopBound =
          (after? sign (trimStart rest)).any isLoopBound := by
      intro sign hsign
      rw [after?_crlf hsign, Option.any_map]
      congr 1
      funext bound
      exact isLoopBound_crlf bound
    simp only [Option.map_some, trimStart_crlf]
    rw [hcomparison "<" (forall_of_all (by decide)),
      hcomparison "<=" (forall_of_all (by decide))]

theorem isLoopIncrement_crlf (clause : Text) :
    isLoopIncrement name (crlf clause) = isLoopIncrement name clause := by
  have hequal : ∀ t : Text, (∀ c ∈ t, ¬ IsBreak c) → (crlf clause == t) = (clause == t) := by
    intro t ht
    rw [Bool.eq_iff_iff, beq_iff_eq, beq_iff_eq, crlf_eq_iff ht]
  have hplus : ∀ c ∈ "++".toList, ¬ IsBreak c := forall_of_all (by decide)
  unfold isLoopIncrement
  rw [hequal _ (List.forall_mem_append.2 ⟨hname, hplus⟩),
    hequal _ (List.forall_mem_append.2 ⟨hplus, hname⟩)]

end

theorem checkForClauses_crlf (initializer condition increment : Text) :
    checkForClauses (crlf initializer) (crlf condition) (crlf increment) =
      checkForClauses initializer condition increment := by
  unfold checkForClauses
  rw [loopVariable?_crlf]
  cases hname : loopVariable? initializer with
  | none => rfl
  | some name =>
    have hunbroken := loopVariable?_unbroken hname
    simp only [isLoopCondition_crlf hunbroken, isLoopIncrement_crlf hunbroken]

theorem checkForHeader_crlf (header : Text) :
    checkForHeader (crlf header) = checkForHeader header := by
  have hof := (steady_word (s := "of") (by decide)).unbroken (trim header)
  have hclauses : (split ';' (crlf (trim header))).map trim =
      ((split ';' (trim header)).map trim).map crlf := by
    rw [split_crlf (by decide), List.map_map, List.map_map]
    exact List.map_congr_left fun clause _ => trim_crlf clause
  unfold checkForHeader
  rw [trim_crlf, hof, hclauses]
  congr 1
  rcases (split ';' (trim header)).map trim with _ | ⟨initializer, _ | ⟨condition, _ | ⟨increment,
    _ | ⟨next, rest⟩⟩⟩⟩
  · rfl
  · rfl
  · rfl
  · exact checkForClauses_crlf initializer condition increment
  · rfl

theorem checkForLoops_crlf (code : Text) : checkForLoops (crlf code) = checkForLoops code := by
  unfold checkForLoops
  rw [forHeaders_crlf, List.flatMap_map]
  congr 1
  funext header
  exact checkForHeader_crlf header

/-! ## Members -/

theorem referenceAt?_eq (before : Option Char) (c : Char) (rest : Text) :
    referenceAt? ⟨before, c :: rest⟩ =
      if !before.any isWord && c.isUpper then
        (after? ['.'] (rest.dropWhile isIdentPart)).bind fun member =>
          (identAt? member).bind fun x =>
            if !x.2.head?.any isWord then some ((c :: rest.takeWhile isIdentPart, x.1), x.2)
            else none
      else none := by
  unfold referenceAt?
  dsimp only
  congr 1
  cases rest.dropWhile isIdentPart with
  | nil => rfl
  | cons x member =>
    by_cases hx : x = '.'
    · subst hx
      rw [after?_single, if_pos rfl, Option.bind_some]
      cases member with
      | nil => rfl
      | cons m more =>
        rw [identAt?]
        cases hstart : isIdentStart m with
        | true => simp [hstart]
        | false => simp [hstart]
    · rw [after?_single, if_neg (Ne.symm hx)]
      split
      · next heq => exact absurd (List.cons.inj heq).1 hx
      · rfl

theorem steadyReader_reference : SteadyReader referenceAt? id := by
  refine ⟨?read, ?stop, ?tail⟩
  case read =>
    intro before s
    cases s with
    | nil => rfl
    | cons c s =>
      by_cases hc : c = '\n'
      · subst hc
        rw [crlf_break, referenceAt?_eq, referenceAt?_eq]
        simp
      · rw [crlf_cons hc, referenceAt?_eq, referenceAt?_eq, takeWhile_solid (by decide),
          dropWhile_solid (by decide), after?_crlf (forall_of_all (by decide))]
        split
        · refine map_bind_link fun member => ?_
          rw [identAt?_crlf]
          refine map_bind_link fun x => ?_
          rw [any_head_crlf (by decide)]
          split
          · rfl
          · rfl
        · rfl
  case stop =>
    rintro before c s (rfl | rfl)
    · rw [referenceAt?_eq]
      simp
    · rw [referenceAt?_eq]
      simp
  case tail =>
    intro before s reference tail h
    cases s with
    | nil => cases h
    | cons c s =>
      rw [referenceAt?_eq] at h
      split at h
      · obtain ⟨member, hmember, h⟩ := Option.bind_eq_some_iff.1 h
        obtain ⟨⟨name, rest⟩, hident, h⟩ := Option.bind_eq_some_iff.1 h
        split at h
        · obtain ⟨-, rfl⟩ := Prod.mk.inj (Option.some.inj h)
          have hsuffix : rest <:+ s :=
            (identAt?_suffix hident).trans ((after?_suffix hmember).trans
              (List.dropWhile_suffix _))
          exact ⟨hsuffix.trans (List.suffix_cons c s),
            hsuffix.length_le.trans_lt (Nat.lt_succ_self _)⟩
        · cases h
      · cases h

theorem enumReferences_crlf (s : Text) : enumReferences (crlf s) = enumReferences s := by
  unfold enumReferences
  rw [steadyReader_reference.findAll_crlf, List.map_id]

theorem checkMembers_crlf (searchable : Text) :
    checkMembers (crlf searchable) = checkMembers searchable := by
  unfold checkMembers
  rw [enumReferences_crlf]

/-! ## Brackets -/

/-- The text up to the bracket that closes `depth` open ones, and what follows that bracket. -/
def bracketed? (depth : Int) (s : Text) : Option (Text × Text) :=
  (closingAt? depth s).map fun n => (s.take n, s.drop (n + 1))

/-- One more character before the bracket. -/
theorem map_bracketed? (depth : Int) (c : Char) (s : Text) :
    ((closingAt? depth s).map (· + 1)).map (fun n => ((c :: s).take n, (c :: s).drop (n + 1))) =
      (bracketed? depth s).map fun x => (c :: x.1, x.2) := by
  unfold bracketed?
  rw [Option.map_map, Option.map_map]
  rfl

theorem bracketed?_other {c : Char} (hopen : c ≠ '(') (hclose : c ≠ ')') (depth : Int) (s : Text) :
    bracketed? depth (c :: s) = (bracketed? depth s).map fun x => (c :: x.1, x.2) := by
  rw [bracketed?, closingAt?, if_neg hopen, if_neg hclose, map_bracketed?]

theorem bracketed?_open (depth : Int) (s : Text) :
    bracketed? depth ('(' :: s) = (bracketed? (depth + 1) s).map fun x => ('(' :: x.1, x.2) := by
  rw [bracketed?, closingAt?, if_pos rfl, map_bracketed?]

theorem bracketed?_close (depth : Int) (s : Text) : bracketed? depth (')' :: s) =
    if depth = 1 then some ([], s)
    else (bracketed? (depth - 1) s).map fun x => (')' :: x.1, x.2) := by
  rw [bracketed?, closingAt?, if_neg (by decide), if_pos rfl]
  split
  · rfl
  · rw [map_bracketed?]

theorem bracketed?_crlf (depth : Int) (s : Text) :
    bracketed? depth (crlf s) = (bracketed? depth s).map fun x => (crlf x.1, crlf x.2) := by
  induction s using break_induction generalizing depth with
  | nil => rfl
  | line s ih =>
    rw [crlf_break, bracketed?_other (by decide) (by decide),
      bracketed?_other (by decide) (by decide), bracketed?_other (by decide) (by decide), ih,
      Option.map_map, Option.map_map, Option.map_map]
    simp [Function.comp_def]
  | char c s hbreak ih =>
    have hcons : ∀ x : Text × Text, (c :: crlf x.1, crlf x.2) = (crlf (c :: x.1), crlf x.2) :=
      fun x => by rw [crlf_cons hbreak]
    rw [crlf_cons hbreak]
    by_cases hopen : c = '('
    · subst hopen
      rw [bracketed?_open, bracketed?_open, ih, Option.map_map, Option.map_map]
      simp only [Function.comp_def, hcons]
    · by_cases hclose : c = ')'
      · subst hclose
        rw [bracketed?_close, bracketed?_close, ih]
        split
        · rfl
        · rw [Option.map_map, Option.map_map]
          simp only [Function.comp_def, hcons]
      · rw [bracketed?_other hopen hclose, bracketed?_other hopen hclose, ih, Option.map_map,
          Option.map_map]
        simp only [Function.comp_def, hcons]

/-! ## Call sites -/

theorem callSiteAt?_eq (call : Text) (c : Cursor) : callSiteAt? call c =
    (afterCall? call c).map fun inner =>
      ((bracketed? 1 inner).map fun x => (some x.1, x.2)).getD (none, inner) := by
  unfold callSiteAt?
  cases afterCall? call c with
  | none => rfl
  | some inner =>
    rw [Option.map_some, bracketed?, Option.map_map]
    dsimp only
    cases closingAt? 1 inner with
    | none => rfl
    | some n => rfl

section
variable {call : Text} (hcall : Token call)
include hcall

theorem afterCall?_crlf (before : Option Char) (s : Text) :
    afterCall? call ⟨before, crlf s⟩ = (afterCall? call ⟨before, s⟩).map crlf := by
  unfold afterCall?
  rw [atWordEdge_crlf]
  split
  · rw [after?_crlf hcall.2]
    cases after? call s with
    | none => rfl
    | some rest =>
      dsimp only [Option.map_some]
      rw [trimStart_crlf, after?_crlf (forall_of_all (by decide))]
  · rfl

theorem afterCall?_tail {before : Option Char} {s inner : Text}
    (h : afterCall? call ⟨before, s⟩ = some inner) : inner <:+ s ∧ inner.length < s.length := by
  unfold afterCall? at h
  split at h
  · split at h
    · next rest hrest =>
      have hsuffix : inner <:+ rest := (after?_suffix h).trans (List.dropWhile_suffix _)
      exact ⟨hsuffix.trans (after?_suffix hrest),
        hsuffix.length_le.trans_lt (after?_lt hcall.1 hrest)⟩
    · cases h
  · cases h

theorem steadyReader_callSite : SteadyReader (callSiteAt? call) (Option.map crlf) := by
  refine ⟨?read, ?stop, ?tail⟩
  case read =>
    intro before s
    rw [callSiteAt?_eq, callSiteAt?_eq, afterCall?_crlf hcall, Option.map_map, Option.map_map]
    congr 1
    funext inner
    simp only [Function.comp_apply]
    rw [bracketed?_crlf]
    cases bracketed? 1 inner with
    | none => rfl
    | some x => rfl
  case stop =>
    intro before c s hc
    have hnone : after? call (c :: s) = none :=
      after?_cons_of_notMem hcall.1 (fun hmem => hcall.2 c hmem hc) s
    rw [callSiteAt?, afterCall?]
    simp [hnone]
  case tail =>
    intro before s args tail h
    rw [callSiteAt?_eq] at h
    obtain ⟨inner, hinner, h⟩ := Option.map_eq_some_iff.1 h
    obtain ⟨hsuffix, hlt⟩ := afterCall?_tail hcall hinner
    have htail : tail <:+ inner := by
      rw [bracketed?] at h
      cases hclose : closingAt? 1 inner with
      | none =>
        rw [hclose] at h
        obtain ⟨-, rfl⟩ := Prod.mk.inj h
        exact List.suffix_rfl
      | some n =>
        rw [hclose] at h
        obtain ⟨-, rfl⟩ := Prod.mk.inj h
        exact List.drop_suffix _ _
    exact ⟨htail.trans hsuffix, htail.length_le.trans_lt hlt⟩

theorem callArguments_crlf (s : Text) :
    callArguments call (crlf s) = (callArguments call s).map crlf := by
  have hsome : (Option.isSome ∘ Option.map crlf : Option Text → Bool) = Option.isSome :=
    funext fun _ => Option.isSome_map
  unfold callArguments
  rw [(steadyReader_callSite hcall).findAll_crlf, List.takeWhile_map, hsome,
    List.reduceOption_map]

end

/-! ## Arguments -/

theorem map_consPiece {c : Char} (hc : c ≠ '\n') (pieces : List Text) :
    (consPiece c pieces).map crlf = consPiece c (pieces.map crlf) := by
  cases pieces with
  | nil => simp [consPiece, crlf_cons hc]
  | cons piece pieces => simp [consPiece, crlf_cons hc]

theorem map_consPiece_break (pieces : List Text) :
    (consPiece '\n' pieces).map crlf = consPiece '\r' (consPiece '\n' (pieces.map crlf)) := by
  cases pieces with
  | nil => simp [consPiece]
  | cons piece pieces => simp [consPiece]

theorem argumentPieces_crlf (depth : Nat) (s : Text) :
    argumentPieces depth (crlf s) = (argumentPieces depth s).map crlf := by
  induction s using break_induction generalizing depth with
  | nil => rfl
  | line s ih =>
    have hother : ∀ (d : Char) (t : Text), IsBreak d →
        argumentPieces depth (d :: t) = consPiece d (argumentPieces depth t) := by
      rintro d t (rfl | rfl)
      · simp [argumentPieces, opensBracket, closesBracket]
      · simp [argumentPieces, opensBracket, closesBracket]
    rw [crlf_break, hother _ _ (.inl rfl), hother _ _ (.inr rfl), hother _ _ (.inr rfl), ih,
      map_consPiece_break]
  | char c s hc ih =>
    rw [crlf_cons hc, argumentPieces, argumentPieces, ih, ih, ih, ih]
    split
    · rw [map_consPiece hc]
    · split
      · rw [map_consPiece hc]
      · split
        · rfl
        · rw [map_consPiece hc]

theorem countArguments_crlf (args : Text) : countArguments (crlf args) = countArguments args := by
  unfold countArguments
  rw [argumentPieces_crlf, List.countP_map]
  congr 1
  funext piece
  simp only [Function.comp_apply]
  unfold isBlank
  rw [all_crlf (by decide)]

/-! ## Names of blocks -/

/-- A part of the name of a block. -/
def isNamePart (c : Char) : Bool := isWord c || c == '.'

/-- The name of a block: parts of words and points, with a part of a word first. -/
def CallName (call : Text) : Prop :=
  call.head?.any isWord = true ∧ ∀ c ∈ call, isNamePart c = true

/-- The names in the table, decided in one pass over it: parts of words with a point among them, and
no two alike. -/
theorem names_signatures :
    (∀ signature ∈ Microbit.signatures, signature.call.head?.any isWord = true ∧
      signature.call.all isNamePart = true ∧ '.' ∈ signature.call) ∧
      (Microbit.signatures.map (·.call)).Nodup := by
  decide +kernel

theorem callName_signatures : ∀ signature ∈ Microbit.signatures, CallName signature.call := by
  intro signature h
  obtain ⟨hhead, hparts, -⟩ := names_signatures.1 signature h
  exact ⟨hhead, List.all_eq_true.1 hparts⟩

/-- No name is empty or holds a break. -/
theorem CallName.token {call : Text} (h : CallName call) : Token call := by
  constructor
  · rintro rfl
    exact Bool.false_ne_true h.1
  · rintro c hc (rfl | rfl)
    · exact absurd (h.2 _ hc) (by decide)
    · exact absurd (h.2 _ hc) (by decide)

theorem checkCalls_crlf (searchable : Text) :
    checkCalls (crlf searchable) = checkCalls searchable := by
  unfold checkCalls
  apply List.flatMap_congr
  intro signature hsignature
  rw [callArguments_crlf (callName_signatures signature hsignature).token, List.filterMap_map]
  congr 1
  funext args
  simp only [Function.comp_apply, countArguments_crlf]

end BlockSafe
