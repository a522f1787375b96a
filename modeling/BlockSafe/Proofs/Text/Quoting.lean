import BlockSafe.Text.Mask

/-!
# Double quotes

The search for balanced objects masks what stands in double quotes.  `Quoting` is the state of that
mask alone, `Quoting.next` moves it on by one character, and `objectsIn` is the search started in
any state:

    objectsIn 0 [] .outside s = balancedObjects s                         (balancedObjects_eq)

`Passes q c q'` says that the text `c`, read inside an object from state `q` on, is kept as a whole
and leads to state `q'`.  An object around such a text is found as a whole (`objectsIn_braces`),
text without braces and quotes between objects is dropped (`objectsIn_prose`).

What is outside for one reader can be inside for another who starts within a text in quotes:
`Flipped` relates the states of the two, and holds along every text in which no backslash stands
outside before a quote (`Flipped.run`).
-/

namespace BlockSafe

/-- Whether double quotes are open, and whether a backslash has just been read within them. -/
inductive Quoting where
  | outside
  | inside
  | escaped
deriving DecidableEq

namespace Quoting

/-- The state behind one more character. -/
def next : Quoting → Char → Quoting
  | outside, c => if c = '"' then inside else outside
  | inside, c => if c = '\\' then escaped else if c = '"' then outside else inside
  | escaped, _ => inside

/-- Whether a character is part of the quoted text. -/
def masks : Quoting → Char → Bool
  | outside, _ => false
  | inside, c => c != '"'
  | escaped, _ => true

/-- The state as a region of the mask. -/
def region : Quoting → Region
  | outside => .code
  | inside => .string '"'
  | escaped => .escape '"'

/-- The state behind a text. -/
def after (q : Quoting) (s : Text) : Quoting := s.foldl next q

@[simp] theorem after_nil (q : Quoting) : q.after [] = q := rfl

@[simp] theorem after_cons (q : Quoting) (c : Char) (s : Text) :
    q.after (c :: s) = (q.next c).after s := rfl

@[simp] theorem after_append (q : Quoting) (a b : Text) : q.after (a ++ b) = (q.after a).after b :=
  List.foldl_append

/-- Without a quote nothing is opened. -/
theorem outside_after {s : Text} (h : ∀ c ∈ s, c ≠ '"') : outside.after s = outside := by
  induction s with
  | nil => rfl
  | cons c s ih =>
    rw [after_cons, next, if_neg (h c List.mem_cons_self)]
    exact ih fun d hd => h d (List.mem_cons_of_mem c hd)

/-- One step of the mask for double quotes. -/
theorem step_region (q : Quoting) (c : Char) (following : Option Char) :
    q.region.step ⟨['"'], false⟩ c following = (q.masks c, (q.next c).region) := by
  cases q with
  | outside =>
    by_cases hc : c = '"'
    · subst hc
      rfl
    · simp [region, Region.step, masks, next, hc]
  | inside =>
    by_cases hs : c = '\\'
    · subst hs
      rfl
    · by_cases hc : c = '"'
      · subst hc
        rfl
      · simp [region, Region.step, masks, next, hs, hc]
  | escaped => rfl

end Quoting

/-! ## Bare characters -/

/-- Every character that stands outside of quotes has the property. -/
def Bare (P : Char → Prop) : Quoting → Text → Prop
  | _, [] => True
  | q, c :: s => (q = .outside → P c) ∧ Bare P (q.next c) s

theorem bare_append {P : Char → Prop} {q : Quoting} {a b : Text} :
    Bare P q (a ++ b) ↔ Bare P q a ∧ Bare P (q.after a) b := by
  induction a generalizing q with
  | nil => simp [Bare]
  | cons c a ih => rw [List.cons_append, Bare, Bare, ih, and_assoc, Quoting.after_cons]

theorem Bare.at {P : Char → Prop} {q : Quoting} {a b : Text} {c : Char}
    (h : Bare P q (a ++ c :: b)) (ha : q.after a = .outside) : P c :=
  (bare_append.1 h).2.1 ha

theorem Bare.of_forall {P : Char → Prop} {s : Text} (h : ∀ c ∈ s, P c) (q : Quoting) :
    Bare P q s := by
  induction s generalizing q with
  | nil => trivial
  | cons c s ih =>
    exact ⟨fun _ => h c List.mem_cons_self, ih (fun d hd => h d (List.mem_cons_of_mem c hd)) _⟩

theorem Bare.imp {P Q : Char → Prop} (hPQ : ∀ c, P c → Q c) {q : Quoting} {s : Text}
    (h : Bare P q s) : Bare Q q s := by
  induction s generalizing q with
  | nil => trivial
  | cons c s ih => exact ⟨fun hq => hPQ c (h.1 hq), ih h.2⟩

/-! ## The search for objects -/

/-- The search for balanced objects from any state on. -/
def objectsIn (depth : Nat) (read : Text) (q : Quoting) (s : Text) : List Text :=
  objectsFrom depth read (mark ⟨['"'], false⟩ q.region s)

theorem balancedObjects_eq (s : Text) : objectsIn 0 [] .outside s = balancedObjects s := rfl

theorem objectsIn_cons (depth : Nat) (read : Text) (q : Quoting) (c : Char) (s : Text) :
    objectsIn depth read q (c :: s) =
      if !q.masks c && c == '{' then objectsIn (depth + 1) (c :: read) (q.next c) s
      else if depth = 0 then objectsIn 0 [] (q.next c) s
      else if !q.masks c && c == '}' then
        if depth = 1 then (c :: read).reverse :: objectsIn 0 [] (q.next c) s
        else objectsIn (depth - 1) (c :: read) (q.next c) s
      else objectsIn depth (c :: read) (q.next c) s := by
  unfold objectsIn
  rw [mark, Quoting.step_region]
  rfl

theorem objectsIn_open (depth : Nat) (read s : Text) :
    objectsIn depth read .outside ('{' :: s) = objectsIn (depth + 1) ('{' :: read) .outside s := rfl

theorem objectsIn_close (depth : Nat) (read s : Text) :
    objectsIn (depth + 2) read .outside ('}' :: s) =
      objectsIn (depth + 1) ('}' :: read) .outside s := rfl

theorem objectsIn_last (read s : Text) :
    objectsIn 1 read .outside ('}' :: s) = ('}' :: read).reverse :: objectsIn 0 [] .outside s := rfl

/-- The character is quoted, or no brace. -/
def PlainIn (q : Quoting) (c : Char) : Prop := q.masks c = true ∨ c ≠ '{' ∧ c ≠ '}'

/-- Such a character opens and closes nothing. -/
theorem objectsIn_plain {q : Quoting} {c : Char} (h : PlainIn q c) (depth : Nat) (read s : Text) :
    objectsIn depth read q (c :: s) =
      if depth = 0 then objectsIn 0 [] (q.next c) s
      else objectsIn depth (c :: read) (q.next c) s := by
  have hopen : ¬(!q.masks c && c == '{') = true := by
    rcases h with h | h <;> simp [h]
  have hclose : ¬(!q.masks c && c == '}') = true := by
    rcases h with h | h <;> simp [h]
  rw [objectsIn_cons, if_neg hopen, if_neg hclose]

/-- Text without braces and quotes between objects is dropped. -/
theorem objectsIn_prose {p : Text} (hp : ∀ c ∈ p, c ≠ '{' ∧ c ≠ '"') (t : Text) :
    objectsIn 0 [] .outside (p ++ t) = objectsIn 0 [] .outside t := by
  induction p with
  | nil => rfl
  | cons c p ih =>
    have hc := hp c List.mem_cons_self
    rw [List.cons_append, objectsIn_cons, if_neg (by simp [hc.1]), if_pos rfl, Quoting.next,
      if_neg hc.2]
    exact ih fun d hd => hp d (List.mem_cons_of_mem c hd)

/-- Where nothing closes, no object is found. -/
theorem objectsIn_unclosed {w : Text} (hw : '}' ∉ w) (depth : Nat) (read : Text) (q : Quoting) :
    objectsIn depth read q w = [] := by
  induction w generalizing depth read q with
  | nil => rfl
  | cons c w ih =>
    have hc : c ≠ '}' := fun h => hw (h ▸ List.mem_cons_self)
    have ih := fun depth read q => ih (fun h => hw (List.mem_cons_of_mem c h)) depth read q
    rw [objectsIn_cons, ih, ih, if_neg (by simp [hc] : ¬(!q.masks c && c == '}') = true), ih]
    simp only [ite_self]

/-- What follows the last closing brace does not matter. -/
theorem objectsIn_append_unclosed {w : Text} (hw : '}' ∉ w) (s : Text) (depth : Nat) (read : Text)
    (q : Quoting) : objectsIn depth read q (s ++ w) = objectsIn depth read q s := by
  induction s generalizing depth read q with
  | nil => exact objectsIn_unclosed hw depth read q
  | cons c s ih =>
    rw [List.cons_append, objectsIn_cons, objectsIn_cons]
    simp only [ih]

/-! ## Texts within an object -/

/-- A character that a token may hold: in no token there is a backslash, a backquote or the letter
`c`. -/
def InToken (c : Char) : Prop := c ≠ '\\' ∧ c ≠ '\x60' ∧ c ≠ 'c'

instance (c : Char) : Decidable (InToken c) := inferInstanceAs (Decidable (_ ∧ _))

/-- The text leads from one state to another, consists of tokens outside of quotes, and is kept as a
whole when it is read within an object. -/
structure Passes (q : Quoting) (c : Text) (q' : Quoting) : Prop where
  after : q.after c = q'
  bare : Bare InToken q c
  kept : ∀ depth read t,
    objectsIn (depth + 1) read q (c ++ t) = objectsIn (depth + 1) (c.reverse ++ read) q' t

namespace Passes

variable {q q' q'' : Quoting} {a b : Text} {c : Char}

theorem nil (q : Quoting) : Passes q [] q := ⟨rfl, trivial, fun _ _ _ => rfl⟩

theorem append (ha : Passes q a q') (hb : Passes q' b q'') : Passes q (a ++ b) q'' where
  after := by rw [Quoting.after_append, ha.after, hb.after]
  bare := bare_append.2 ⟨ha.bare, ha.after ▸ hb.bare⟩
  kept depth read t := by
    rw [List.append_assoc, ha.kept, hb.kept, List.reverse_append, List.append_assoc]

/-- A quoted character passes, and one of a token that is no brace. -/
theorem cons (hb : PlainIn q c) (ht : q = .outside → InToken c)
    (h : Passes (q.next c) b q') : Passes q (c :: b) q' where
  after := h.after
  bare := ⟨ht, h.bare⟩
  kept depth read t := by
    rw [List.cons_append, objectsIn_plain hb, if_neg (Nat.succ_ne_zero depth), h.kept,
      List.reverse_cons, List.append_assoc, List.singleton_append]

/-- An object inside another. -/
theorem braces (h : Passes .outside b .outside) :
    Passes .outside ('{' :: (b ++ ['}'])) .outside where
  after := by
    rw [Quoting.after_cons, Quoting.after_append]
    show (Quoting.after .outside b).after ['}'] = _
    rw [h.after]
    rfl
  bare := by
    refine ⟨fun _ => by decide, bare_append.2 ⟨h.bare, ?_⟩⟩
    show Bare InToken (Quoting.after .outside b) ['}']
    rw [h.after]
    exact ⟨fun _ => by decide, trivial⟩
  kept depth read t := by
    rw [List.cons_append, List.append_assoc, List.singleton_append, objectsIn_open, h.kept,
      objectsIn_close]
    simp only [List.reverse_cons, List.reverse_append, List.reverse_nil, List.nil_append,
      List.append_assoc, List.cons_append]

end Passes

/-- Between objects, an object is found as a whole. -/
theorem objectsIn_braces {b : Text} (h : Passes .outside b .outside) (t : Text) :
    objectsIn 0 [] .outside ('{' :: (b ++ ['}']) ++ t) =
      ('{' :: (b ++ ['}'])) :: objectsIn 0 [] .outside t := by
  rw [List.cons_append, List.append_assoc, List.singleton_append, objectsIn_open, h.kept,
    objectsIn_last]
  simp only [List.reverse_cons, List.reverse_append, List.reverse_reverse, List.reverse_nil,
    List.nil_append, List.cons_append]

/-! ## Readers that start within a quoted text -/

/-- A text, read from state `q` on behind the character `last`, in which outside of quotes no
backslash stands before a quote, and no `c` and no backslash behind one. -/
def Sober : Quoting → Char → Text → Prop
  | _, _, [] => True
  | q, last, c :: s =>
    (q = .outside → (last = '\\' → c ≠ '"') ∧ (last = '"' → c ≠ 'c' ∧ c ≠ '\\')) ∧
      Sober (q.next c) c s

theorem sober_append {q : Quoting} {last : Char} {a b : Text} :
    Sober q last (a ++ b) ↔ Sober q last a ∧ Sober (q.after a) (a.getLastD last) b := by
  induction a generalizing q last with
  | nil => simp [Sober]
  | cons c a ih =>
    rw [List.cons_append, Sober, Sober, ih, and_assoc, Quoting.after_cons, List.getLastD_cons]

/-- Text without quotes is sober, if it does not stand behind a quote. -/
theorem Sober.of_unquoted {s : Text} (hs : ∀ c ∈ s, c ≠ '"') {last : Char} (hl : last ≠ '"') :
    Sober .outside last s := by
  induction s generalizing last with
  | nil => trivial
  | cons c s ih =>
    have hc := hs c List.mem_cons_self
    refine ⟨fun _ => ⟨fun _ => hc, fun h => absurd h hl⟩, ?_⟩
    rw [Quoting.next, if_neg hc]
    exact ih (fun d hd => hs d (List.mem_cons_of_mem c hd)) hc

/-- Tokens and quoted texts are sober, unless a backslash stands before the first quote. -/
theorem Bare.sober {q : Quoting} {s : Text} (h : Bare InToken q s) {last : Char}
    (hl : q = .outside → last ≠ '\\') : Sober q last s := by
  induction s generalizing q last with
  | nil => trivial
  | cons c s ih =>
    refine ⟨fun hq => ⟨fun e => absurd e (hl hq), fun _ => ⟨(h.1 hq).2.2, (h.1 hq).1⟩⟩, ?_⟩
    refine ih h.2 fun hn => ?_
    -- a backslash never leads outside, and outside there is none
    rintro rfl
    cases q with
    | outside => exact (h.1 rfl).1 rfl
    | inside => cases hn
    | escaped => cases hn

/-- The states of a reader and of one who started within a quoted text: what is quoted for one is
not for the other. -/
inductive Flipped : Quoting → Quoting → Char → Prop where
  | bare (last : Char) : Flipped .inside .outside last
  | quoted (last : Char) : Flipped .outside .inside last
  | escaped : Flipped .outside .escaped '\\'

theorem Flipped.step {outer inner : Quoting} {last c : Char} {s : Text}
    (h : Flipped outer inner last) (hs : Sober outer last (c :: s))
    (hb : inner = .outside → InToken c) : Flipped (outer.next c) (inner.next c) c := by
  cases h with
  | bare =>
    have hc := (hb rfl).1
    by_cases hq : c = '"'
    · subst hq
      exact .quoted _
    · simpa [Quoting.next, hc, hq] using Flipped.bare c
  | quoted =>
    by_cases hc : c = '\\'
    · subst hc
      exact .escaped
    · by_cases hq : c = '"'
      · subst hq
        exact .bare _
      · simpa [Quoting.next, hc, hq] using Flipped.quoted c
  | escaped =>
    have hq := (hs.1 rfl).1 rfl
    simpa [Quoting.next, hq] using Flipped.quoted c

theorem Flipped.run {outer inner : Quoting} {last : Char} {s : Text}
    (h : Flipped outer inner last) (hs : Sober outer last s) (hb : Bare InToken inner s) :
    Flipped (outer.after s) (inner.after s) (s.getLastD last) := by
  induction s generalizing outer inner last with
  | nil => exact h
  | cons c s ih =>
    rw [Quoting.after_cons, Quoting.after_cons, List.getLastD_cons]
    exact ih (h.step hs hb.1) hs.2 hb.2

/-- Where the second reader reads an opening quote, the first one reads a closing quote. -/
theorem Flipped.behind_quote {outer inner : Quoting} {last d : Char} {a b : Text}
    (h : Flipped outer inner last) (hs : Sober outer last (a ++ '"' :: d :: b))
    (hb : Bare InToken inner a) (ha : inner.after a = .outside) : d ≠ 'c' ∧ d ≠ '\\' := by
  obtain ⟨hsa, hsb⟩ := sober_append.1 hs
  have hf := h.run hsa hb
  rw [ha] at hf
  generalize outer.after a = outer' at hf hsb
  cases hf with
  | bare => exact (hsb.2.1 rfl).2 rfl

end BlockSafe
