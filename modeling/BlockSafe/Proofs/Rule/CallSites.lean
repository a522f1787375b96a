import BlockSafe.Proofs.Rule.Brackets
import BlockSafe.Proofs.Text.Pieces
import BlockSafe.Proofs.Text.Takes

/-!
# Which calls are counted

`Calls call before s inner` says that a call of `call` starts the text `s`, and that `inner` follows
its bracket.  The search for calls goes on behind the bracket that closes the last call found, and
ends at a call that is never closed.  So it passes over the calls that start while a call of the same
block is open (`InCall`), and over no others:

    args ∈ callArguments call s  ↔  ∃ u, CallAt call none s u args ∧ ¬ InCall call none u

which is `mem_callArguments`.  The number of arguments is reported of just these calls
(`arity_reported_iff`); one inside another call of its block is never looked at
(`inner_calls_unchecked`).
-/

namespace BlockSafe

open Pattern Text

/-! ## Names -/

theorem isNamePart_of_isSpace {c : Char} (h : isSpace c = true) : isNamePart c = false := by
  unfold isNamePart
  rw [isWord_of_isSpace h, Bool.false_or]
  refine beq_false_of_ne ?_
  rintro rfl
  exact absurd h (by decide)

/-- No part of a name stands between the name and the arguments. -/
theorem not_namePart {gap : Text} (hgap : Blank gap) : ∀ c ∈ gap ++ ['('], isNamePart c = false := by
  simp only [List.forall_mem_append, List.forall_mem_singleton]
  exact ⟨fun c hc => isNamePart_of_isSpace (hgap c hc), by decide⟩

/-- Before the white space and the bracket of a call there is nothing but its name. -/
theorem takeWhile_namePart {a gap : Text} (ha : ∀ c ∈ a, isNamePart c = true) (hgap : Blank gap)
    (inner : Text) : (a ++ (gap ++ '(' :: inner)).takeWhile isNamePart = a := by
  rw [List.takeWhile_append_of_pos ha, List.append_cons]
  have hstop := not_namePart hgap
  generalize hfence : gap ++ ['('] = fence at hstop
  cases fence with
  | nil => simp at hfence
  | cons c fence =>
    rw [List.cons_append, List.takeWhile_cons_of_neg (by simp [hstop c List.mem_cons_self]),
      List.append_nil]

section
variable {call : Text} {before : Option Char} {s t u r inner : Text}

/-! ## Calls -/

/-- A call of `call` starts the text `s`, and `inner` follows its bracket. -/
def Calls (call : Text) (before : Option Char) (s inner : Text) : Prop :=
  before.any isWord = false ∧ ∃ gap, Blank gap ∧ s = call ++ (gap ++ '(' :: inner)

theorem Calls.append (h : Calls call before s inner) (t : Text) :
    Calls call before (s ++ t) (inner ++ t) := by
  obtain ⟨hbefore, gap, hgap, rfl⟩ := h
  exact ⟨hbefore, gap, hgap, by simp⟩

theorem Calls.close {a : Text} (h : Calls call before s a) (v : Text) :
    Calls call before (s ++ [')'] ++ v) (a ++ ')' :: v) := by
  rw [List.append_assoc]
  exact h.append _

theorem Calls.split {a v : Text} (h : Calls call before s (a ++ ')' :: v)) :
    ∃ u, s = u ++ [')'] ++ v ∧ Calls call before u a := by
  obtain ⟨hbefore, gap, hgap, rfl⟩ := h
  exact ⟨call ++ (gap ++ '(' :: a), by simp, hbefore, gap, hgap, rfl⟩

section
variable (hcall : CallName call)
include hcall

theorem afterCall?_eq_some :
    afterCall? call ⟨before, s⟩ = some inner ↔ Calls call before s inner := by
  obtain ⟨x, hx, hword⟩ := (Option.any_eq_true _ _).1 hcall.1
  obtain ⟨call', rfl⟩ := List.head?_eq_some_iff.1 hx
  unfold afterCall?
  constructor
  · intro h
    split at h
    · next hedge =>
      split at h
      · next rest hrest =>
        obtain rfl := after?_eq_some.1 hrest
        obtain ⟨gap, hgap, -, hbracket⟩ := trimStart_eq_iff.1 (after?_eq_some.1 h)
        exact ⟨(atWordEdge_start hword before).1 hedge, gap, hgap, by rw [hbracket]; rfl⟩
      · cases h
    · cases h
  · rintro ⟨hbefore, gap, hgap, rfl⟩
    have hbracket : trimStart (gap ++ '(' :: inner) = '(' :: inner :=
      trimStart_eq_iff.2 ⟨gap, hgap, by simp; decide, rfl⟩
    have hedge : Cursor.atWordEdge ⟨before, x :: call' ++ (gap ++ '(' :: inner)⟩ = true :=
      (atWordEdge_start hword before).2 hbefore
    rw [if_pos hedge, after?_eq_some.2 rfl]
    show after? ['('] (trimStart (gap ++ '(' :: inner)) = some inner
    rw [hbracket, after?_single, if_pos rfl]

theorem Calls.unique {inner' : Text} (h : Calls call before s inner)
    (h' : Calls call before s inner') : inner = inner' :=
  Option.some.inj (((afterCall?_eq_some hcall).2 h).symm.trans ((afterCall?_eq_some hcall).2 h'))

/-- A call starts with a part of a name. -/
theorem Calls.head (h : Calls call before s inner) :
    ∃ x rest, s = x :: rest ∧ isNamePart x = true := by
  obtain ⟨x, hx, -⟩ := (Option.any_eq_true _ _).1 hcall.1
  obtain ⟨call', rfl⟩ := List.head?_eq_some_iff.1 hx
  obtain ⟨-, gap, -, rfl⟩ := h
  exact ⟨x, _, rfl, hcall.2 x List.mem_cons_self⟩

/-- A call starts with the name of its block, and no longer one. -/
theorem Calls.takeWhile_name (h : Calls call before s inner) : s.takeWhile isNamePart = call := by
  obtain ⟨-, gap, hgap, rfl⟩ := h
  exact takeWhile_namePart hcall.2 hgap inner

/-- A call that starts behind the start of another one starts behind its bracket. -/
theorem Calls.behind {before' : Option Char} {inner' : Text} (h : Calls call before (u ++ r) inner)
    (hu : u ≠ []) (hr : Calls call before' r inner') :
    ∃ y, inner = y ++ r ∧ Calls call before u y := by
  obtain ⟨hbefore, gap, hgap, htext⟩ := h
  rcases List.append_eq_append_iff.1 htext with ⟨w, hname, rfl⟩ | ⟨w, rfl, hrest⟩
  · -- Within the name there starts only a shorter one.
    have hshort : (w ++ (gap ++ '(' :: inner)).takeWhile isNamePart = w := by
      refine takeWhile_namePart (fun c hc => hcall.2 c ?_) hgap inner
      rw [hname]
      exact List.mem_append_right u hc
    rw [Calls.takeWhile_name hcall hr] at hshort
    rw [hshort, List.self_eq_append_left] at hname
    exact absurd hname hu
  · rw [List.append_cons] at hrest
    rcases List.append_eq_append_iff.1 hrest with ⟨y, rfl, hinner⟩ | ⟨y, hgap', rfl⟩
    · refine ⟨y, hinner, hbefore, gap, hgap, ?_⟩
      rw [← List.append_cons]
    · cases y with
      | nil =>
        obtain rfl : w = gap ++ ['('] := by simpa using hgap'.symm
        exact ⟨[], rfl, hbefore, gap, hgap, rfl⟩
      | cons c y =>
        obtain ⟨x, rest, hstart, hx⟩ := Calls.head hcall hr
        obtain ⟨rfl, -⟩ := List.cons.inj hstart
        have hc := not_namePart hgap c (by simp [hgap'])
        rw [hx] at hc
        cases hc

/-! ## Sites -/

theorem callSiteAt?_eq_none :
    callSiteAt? call ⟨before, s⟩ = none ↔ ∀ inner, ¬ Calls call before s inner := by
  rw [callSiteAt?_eq, Option.map_eq_none_iff, Option.eq_none_iff_forall_ne_some]
  exact forall_congr' fun inner => not_congr (afterCall?_eq_some hcall)

/-- A call is read with its arguments if its bracket is closed, and without them if it is not. -/
theorem callSiteAt?_of_calls (h : Calls call before s inner) : callSiteAt? call ⟨before, s⟩ =
    some (((bracketed? 1 inner).map fun x => (some x.1, x.2)).getD (none, inner)) := by
  rw [callSiteAt?_eq, (afterCall?_eq_some hcall).2 h, Option.map_some]

theorem Calls.closed {args v : Text} (h : Calls call before s (args ++ ')' :: v))
    (hargs : Paired args) : callSiteAt? call ⟨before, s⟩ = some (some args, v) := by
  rw [callSiteAt?_of_calls hcall h, bracketed?_eq_some.2 ⟨rfl, hargs⟩]
  rfl

theorem Calls.unclosed (h : Calls call before s inner) (hinner : Unclosing inner) :
    callSiteAt? call ⟨before, s⟩ = some (none, inner) := by
  rw [callSiteAt?_of_calls hcall h, bracketed?_eq_none.2 hinner]
  rfl

omit hcall in
/-- Where the search stands there is no call, a closed one or one that is never closed. -/
theorem calls_cases (call : Text) (before : Option Char) (s : Text) :
    (∀ inner, ¬ Calls call before s inner) ∨
      (∃ args v, Calls call before s (args ++ ')' :: v) ∧ Paired args) ∨
      ∃ inner, Calls call before s inner ∧ Unclosing inner := by
  by_cases h : ∃ inner, Calls call before s inner
  · obtain ⟨inner, h⟩ := h
    cases hclose : bracketed? 1 inner with
    | none => exact .inr (.inr ⟨inner, h, bracketed?_eq_none.1 hclose⟩)
    | some x =>
      obtain ⟨rfl, hargs⟩ := bracketed?_eq_some.1 hclose
      exact .inr (.inl ⟨x.1, x.2, h, hargs⟩)
  · exact .inl (not_exists.1 h)

end

/-! ## The search -/

/-- The arguments of the calls in the text `t` before the first one that is never closed. -/
def argumentsFrom (call : Text) (before : Option Char) (t : Text) : List Text :=
  ((findAllFrom (callSiteAt? call) 0 before t).takeWhile Option.isSome).reduceOption

/-- A closed call of `call` with the arguments `args` starts in `t` behind `u`. -/
def CallAt (call : Text) (before : Option Char) (t u args : Text) : Prop :=
  ∃ r v, t = u ++ r ∧ Calls call (u.getLast?.or before) r (args ++ ')' :: v) ∧ Paired args

/-- At the end of the text `u` some call of `call` is open. -/
def InCall (call : Text) (before : Option Char) (u : Text) : Prop :=
  ∃ b c mid, u = b ++ c ∧ Calls call (b.getLast?.or before) c mid ∧ Unclosing mid

/-- The arguments are those of a call that starts while no other call of its block is open. -/
def Counted (call : Text) (before : Option Char) (t args : Text) : Prop :=
  ∃ u, CallAt call before t u args ∧ ¬ InCall call before u

section
variable {args a v : Text} {x : Char}

theorem callAt_append : CallAt call before (s ++ t) (s ++ u) args ↔
    CallAt call (s.getLast?.or before) t u args := by
  unfold CallAt
  simp only [List.append_assoc, List.append_cancel_left_eq, getLast?_append_or]

theorem getLast?_closed (s w : Text) (before : Option Char) :
    (s ++ [')'] ++ w).getLast?.or before = w.getLast?.or (some ')') := by
  rw [getLast?_append_or, List.getLast?_concat, Option.some_or]

theorem InCall.append (h : InCall call (s.getLast?.or before) u) : InCall call before (s ++ u) := by
  obtain ⟨b, c, mid, rfl, hc, hmid⟩ := h
  refine ⟨s ++ b, c, mid, by rw [List.append_assoc], ?_, hmid⟩
  rw [getLast?_append_or]
  exact hc

section
variable (hcall : CallName call)
include hcall

/-- A call that starts behind the bracket of a closed one starts within its arguments or behind
them. -/
theorem Calls.within_or_behind {y : Text} (h : a ++ ')' :: v = y ++ r)
    (hr : Calls call before r inner) :
    (∃ w, a = y ++ w ∧ r = w ++ ')' :: v) ∨ ∃ w, y = a ++ ')' :: w ∧ v = w ++ r := by
  rcases List.append_eq_append_iff.1 h with ⟨w, rfl, hw⟩ | ⟨w, rfl, hw⟩
  · cases w with
    | nil =>
      obtain ⟨x, rest, rfl, hx⟩ := Calls.head hcall hr
      obtain ⟨rfl, -⟩ := List.cons.inj hw
      cases hx
    | cons c w =>
      obtain ⟨rfl, hv⟩ := List.cons.inj hw
      exact .inr ⟨w, rfl, hv⟩
  · exact .inl ⟨w, rfl, hw⟩

/-- The bracket that closes a call stands behind its opening one. -/
theorem close_notMem {gap : Text} (hgap : Blank gap) : ')' ∉ call ++ (gap ++ ['(']) := by
  simp only [List.mem_append, List.mem_singleton, not_or]
  refine ⟨fun hname => ?_, fun hspace => ?_, by decide⟩
  · exact absurd (hcall.2 _ hname) (by decide)
  · exact absurd (hgap _ hspace) (by decide)

theorem not_calls_nil : ¬ Calls call before [] inner := by
  intro h
  obtain ⟨_, _, hnil, -⟩ := Calls.head hcall h
  cases hnil

theorem not_inCall_nil : ¬ InCall call before [] := by
  rintro ⟨b, c, mid, hnil, hc, -⟩
  obtain ⟨rfl, rfl⟩ := List.append_eq_nil_iff.1 hnil.symm
  exact not_calls_nil hcall hc

/-- Behind its closing bracket a call is over, with all that its arguments hold. -/
theorem inCall_of_closed (h : Calls call before s a) (ha : Paired a)
    (hin : InCall call before (s ++ [')'] ++ u)) : InCall call (some ')') u := by
  obtain ⟨b, c, mid, htext, hc, hmid⟩ := hin
  have houter : Calls call before (b ++ c) (a ++ ')' :: u) := by
    rw [← htext]
    exact h.close u
  by_cases hb : b = []
  · subst hb
    obtain rfl := Calls.unique hcall houter hc
    exact absurd hmid (ha.not_unclosing u)
  · obtain ⟨y, hy, -⟩ := Calls.behind hcall houter hb hc
    rcases Calls.within_or_behind hcall hy hc with ⟨w, rfl, rfl⟩ | ⟨w, rfl, rfl⟩
    · -- A call within the arguments is closed there.
      obtain ⟨-, gap, hgap, hname⟩ := hc
      have hbracket : call ++ (gap ++ ['(']) ++ mid = w ++ ')' :: u := by
        rw [hname]
        simp
      obtain ⟨m, rfl, rfl⟩ := append_eq_of_notMem_left (close_notMem hcall hgap) hbracket
      have hargs : y ++ (call ++ (gap ++ ['(']) ++ m) = y ++ (call ++ gap) ++ '(' :: m := by simp
      rw [hargs] at ha
      exact absurd hmid (ha.closes _)
    · rw [← List.append_assoc] at htext
      obtain rfl := List.append_cancel_right htext
      rw [getLast?_closed] at hc
      exact ⟨w, c, mid, rfl, hc, hmid⟩

omit hcall in
theorem counted_cons (h : ∀ inner, ¬ Calls call before (x :: t) inner) :
    Counted call before (x :: t) args ↔ Counted call (some x) t args := by
  constructor
  · rintro ⟨u, ⟨r, v, htext, hr, hargs⟩, hout⟩
    cases u with
    | nil =>
      rw [List.nil_append] at htext
      subst htext
      exact absurd hr (h _)
    | cons c u =>
      obtain ⟨rfl, rfl⟩ := List.cons.inj htext
      rw [getLast?_cons_or] at hr
      exact ⟨u, ⟨r, v, rfl, hr, hargs⟩, fun hin => hout (InCall.append (s := [x]) hin)⟩
  · rintro ⟨u, hat, hout⟩
    refine ⟨[x] ++ u, (callAt_append (s := [x])).2 hat, fun hin => hout ?_⟩
    obtain ⟨b, c, mid, htext, hc, hmid⟩ := hin
    cases b with
    | nil =>
      obtain ⟨r, v, rfl, -⟩ := hat
      obtain rfl : x :: u = c := htext
      exact absurd (hc.append r) (h _)
    | cons d b =>
      obtain ⟨rfl, rfl⟩ := List.cons.inj htext
      rw [getLast?_cons_or] at hc
      exact ⟨b, c, mid, rfl, hc, hmid⟩

theorem counted_closed (h : Calls call before s a) (ha : Paired a) :
    Counted call before (s ++ [')'] ++ v) args ↔ args = a ∨ Counted call (some ')') v args := by
  have houter := h.close v
  constructor
  · rintro ⟨u, ⟨r, w, htext, hr, hargs⟩, hout⟩
    by_cases hu : u = []
    · subst hu
      rw [htext] at houter
      have hsame := Calls.unique hcall houter hr
      have hread := bracketed?_eq_some.2 ⟨hsame, hargs⟩
      rw [bracketed?_eq_some.2 ⟨rfl, ha⟩] at hread
      exact .inl (Prod.mk.inj (Option.some.inj hread)).1.symm
    · rw [htext] at houter
      obtain ⟨y, hy, hopen⟩ := Calls.behind hcall houter hu hr
      rcases Calls.within_or_behind hcall hy hr with ⟨z, rfl, -⟩ | ⟨z, -, rfl⟩
      · exact absurd ⟨[], u, y, rfl, hopen, ha.unclosing.of_append⟩ hout
      · rw [← List.append_assoc] at htext
        obtain rfl := List.append_cancel_right htext
        rw [getLast?_closed] at hr
        refine .inr ⟨z, ⟨r, w, rfl, hr, hargs⟩, fun hin => hout ?_⟩
        exact InCall.append (by rwa [List.getLast?_concat])
  · rintro (rfl | ⟨u, hat, hout⟩)
    · exact ⟨[], ⟨_, v, rfl, houter, ha⟩, not_inCall_nil hcall⟩
    · refine ⟨s ++ [')'] ++ u, callAt_append.2 ?_, fun hin => hout (inCall_of_closed hcall h ha hin)⟩
      rwa [List.getLast?_concat]

theorem not_counted_of_unclosed (h : Calls call before t inner) (hinner : Unclosing inner) :
    ¬ Counted call before t args := by
  rintro ⟨u, ⟨r, v, rfl, hr, hargs⟩, hout⟩
  by_cases hu : u = []
  · subst hu
    obtain rfl := Calls.unique hcall h hr
    exact hargs.not_unclosing v hinner
  · obtain ⟨y, rfl, hopen⟩ := Calls.behind hcall h hu hr
    exact hout ⟨[], u, y, rfl, hopen, hinner.of_append⟩

theorem argumentsFrom_none (h : ∀ inner, ¬ Calls call before (x :: t) inner) :
    argumentsFrom call before (x :: t) = argumentsFrom call (some x) t := by
  rw [argumentsFrom, findAllFrom_none ((callSiteAt?_eq_none hcall).2 h)]
  rfl

theorem argumentsFrom_closed (h : Calls call before s a) (ha : Paired a) :
    argumentsFrom call before (s ++ [')'] ++ v) = a :: argumentsFrom call (some ')') v := by
  have hne : s ++ [')'] ≠ [] := by simp
  have hread := (h.close v).closed hcall ha
  rw [argumentsFrom, findAllFrom_append hne hread, List.getLast?_concat]
  rfl

theorem argumentsFrom_unclosed (h : Calls call before t inner) (hinner : Unclosing inner) :
    argumentsFrom call before t = [] := by
  have hread := h.unclosed hcall hinner
  cases t with
  | nil => rfl
  | cons x t =>
    rw [argumentsFrom, findAllFrom, hread]
    rfl

/-- The search collects the arguments of all calls but those within another call. -/
theorem mem_argumentsFrom (before : Option Char) (t : Text) :
    args ∈ argumentsFrom call before t ↔ Counted call before t args := by
  -- Behind a closed call the search goes on with what is left of the text.
  induction hlength : t.length using Nat.strong_induction_on generalizing before t with
  | _ n ih =>
    subst hlength
    rcases calls_cases call before t with hnone | ⟨a, v, hclosed, ha⟩ | ⟨inner, hopen, hinner⟩
    · cases t with
      | nil =>
        refine iff_of_false List.not_mem_nil ?_
        rintro ⟨u, ⟨r, v, hnil, hr, -⟩, -⟩
        obtain ⟨rfl, rfl⟩ := List.append_eq_nil_iff.1 hnil.symm
        exact hnone _ hr
      | cons x t =>
        rw [counted_cons hnone, argumentsFrom_none hcall hnone,
          ih t.length (Nat.lt_succ_self _) _ t rfl]
    · obtain ⟨s, rfl, hs⟩ := Calls.split hclosed
      have hshorter : v.length < (s ++ [')'] ++ v).length := by
        simp only [List.length_append, List.length_singleton]
        omega
      rw [counted_closed hcall hs ha, argumentsFrom_closed hcall hs ha, List.mem_cons,
        ih v.length hshorter _ v rfl]
    · rw [argumentsFrom_unclosed hcall hopen hinner]
      exact iff_of_false List.not_mem_nil (not_counted_of_unclosed hcall hopen hinner)

/-- The arguments of a block that are counted. -/
theorem mem_callArguments (s : Text) : args ∈ callArguments call s ↔ Counted call none s args :=
  mem_argumentsFrom hcall none s

end

end

end

/-! ## Numbers of arguments -/

theorem check_eq_some {signature : Microbit.Signature} {got : Nat} {violation : Violation} :
    signature.check got = some violation ↔ (got < signature.least ∨ signature.most < got) ∧
      .arity signature.call signature.least signature.most got = violation := by
  unfold Microbit.Signature.check
  rw [Option.ite_none_right_eq_some, Option.some.injEq]

theorem arity_mem_checkCalls {signature : Microbit.Signature} (h : signature ∈ Microbit.signatures)
    {s : Text} {got : Nat} :
    .arity signature.call signature.least signature.most got ∈ checkCalls s ↔
      (got < signature.least ∨ signature.most < got) ∧
        ∃ args ∈ callArguments signature.call s, countArguments args = got := by
  unfold checkCalls
  simp only [List.mem_flatMap, List.mem_filterMap, check_eq_some, Violation.arity.injEq]
  constructor
  · rintro ⟨other, -, args, hargs, hrange, hcall, hleast, hmost, rfl⟩
    rw [hleast, hmost] at hrange
    rw [hcall] at hargs
    exact ⟨hrange, args, hargs, rfl⟩
  · rintro ⟨hrange, args, hargs, rfl⟩
    exact ⟨signature, h, args, hargs, hrange, rfl, rfl, rfl, rfl⟩

/-- A number of arguments that a block does not take is reported iff it is that of a call of the
block that starts while no other call of the block is open. -/
theorem arity_reported_iff {signature : Microbit.Signature} (h : signature ∈ Microbit.signatures)
    (s : Text) (got : Nat) :
    .arity signature.call signature.least signature.most got ∈ checkCalls s ↔
      (got < signature.least ∨ signature.most < got) ∧
        ∃ args, Counted signature.call none s args ∧ countArguments args = got := by
  rw [arity_mem_checkCalls h]
  simp only [mem_callArguments (callName_signatures signature h)]

/-- A call within the arguments of another block is counted. -/
theorem arity_reported_in_plot :
    (⟨"basic.pause", 1, 1⟩ : Microbit.Signature) ∈ Microbit.signatures ∧
      ∃ args, Counted "basic.pause" none "led.plot(basic.pause(1, 2), 3)" args ∧
        countArguments args = 2 := by
  have hmem : (⟨"basic.pause", 1, 1⟩ : Microbit.Signature) ∈ Microbit.signatures :=
    List.mem_map.2 ⟨("basic.pause", 1, 1), by decide +kernel, rfl⟩
  have hfound : "1, 2".toList ∈ callArguments "basic.pause" "led.plot(basic.pause(1, 2), 3)" := by
    decide
  have hreported : .arity "basic.pause" 1 1 2 ∈ checkCalls "led.plot(basic.pause(1, 2), 3)" :=
    (arity_mem_checkCalls hmem).2 ⟨.inr (by decide), _, hfound, by decide⟩
  exact ⟨hmem, ((arity_reported_iff hmem _ 2).1 hreported).2⟩

/-- Not all calls are counted: one within a call of its own block is passed over, whether that call
is closed or not. -/
theorem inner_calls_unchecked :
    (⟨"pins.map", 5, 5⟩ : Microbit.Signature) ∈ Microbit.signatures ∧ countArguments "1, 2" = 2 ∧
      (CallAt "pins.map" none "pins.map(pins.map(1, 2), 0, 4, 0, 1)" "pins.map(" "1, 2" ∧
        .arity "pins.map" 5 5 2 ∉ checkCalls "pins.map(pins.map(1, 2), 0, 4, 0, 1)") ∧
      (CallAt "pins.map" none "pins.map(pins.map(1, 2)" "pins.map(" "1, 2" ∧
        .arity "pins.map" 5 5 2 ∉ checkCalls "pins.map(pins.map(1, 2)") := by
  have hmem : (⟨"pins.map", 5, 5⟩ : Microbit.Signature) ∈ Microbit.signatures :=
    List.mem_map.2 ⟨("pins.map", 5, 5), by decide +kernel, rfl⟩
  have hread : bracketed? 1 "1, 2)" = some ("1, 2".toList, []) := by decide
  have hargs : Paired "1, 2" := (bracketed?_eq_some.1 hread).2
  have hcalls : ∀ v, Calls "pins.map" (some '(') ("pins.map(1, 2)".toList ++ v)
      ("1, 2".toList ++ ')' :: v) :=
    fun v => ⟨by decide, [], fun _ hc => absurd hc List.not_mem_nil, rfl⟩
  have hmissed : ∀ s : Text, (∀ args ∈ callArguments "pins.map" s, countArguments args ≠ 2) →
      .arity "pins.map" 5 5 2 ∉ checkCalls s := by
    intro s hnone hreported
    obtain ⟨-, args, hfound, hcount⟩ := (arity_mem_checkCalls hmem).1 hreported
    exact hnone args hfound hcount
  refine ⟨hmem, by decide, ⟨⟨_, _, rfl, hcalls ", 0, 4, 0, 1)", hargs⟩, hmissed _ ?_⟩,
    ⟨_, _, rfl, hcalls [], hargs⟩, hmissed _ ?_⟩
  all_goals decide

end BlockSafe
