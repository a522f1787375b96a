import BlockSafe.Proofs.Reply.Canonical
import BlockSafe.Reply.Fence

/-!
# Where a data block stands

The body of the data block in a text is a piece of it: an opening fence stands before it, and
between the two nothing but the word `json` and white space (`dataBlock?_split`).  No character
there opens an object or a quoted text (`Inert`).

A block behind text without backquotes, on lines of its own, is the first one, and it ends at the
first closing fence, whatever follows (`dataBlock?_fenced`).
-/

namespace BlockSafe

/-- No character opens an object or a quoted text, and none is a backslash. -/
def Inert (s : Text) : Prop := ∀ c ∈ s, c ≠ '{' ∧ c ≠ '"' ∧ c ≠ '\\'

theorem Inert.append {a b : Text} (ha : Inert a) (hb : Inert b) : Inert (a ++ b) := by
  intro c hc
  rcases List.mem_append.1 hc with hc | hc
  · exact ha c hc
  · exact hb c hc

theorem inert_of_class {p : Char → Prop} (hp : ∀ c ∈ ['{', '"', '\\'], ¬ p c) {w : Text}
    (hw : ∀ c ∈ w, p c) : Inert w := by
  intro c hc
  have hclass := hw c hc
  refine ⟨?_, ?_, ?_⟩ <;> rintro rfl <;> exact hp _ (by decide) hclass

theorem inert_spaces {w : Text} (hw : ∀ c ∈ w, isSpace c = true) : Inert w :=
  inert_of_class (by decide) hw

/-! ## Finds -/

theorem findFirst_split {α : Type} {read? : Text → Option α} {s : Text} {a : α}
    (h : findFirst read? s = some a) : ∃ x y, s = x ++ y ∧ read? y = some a := by
  induction s with
  | nil => exact ⟨[], [], rfl, h⟩
  | cons c s ih =>
    rw [findFirst, Option.or_eq_some_iff] at h
    rcases h with h | ⟨-, h⟩
    · exact ⟨[], c :: s, rfl, h⟩
    · obtain ⟨x, y, rfl, hy⟩ := ih h
      exact ⟨c :: x, y, rfl, hy⟩

theorem cut?_split {p s before tail : Text} (h : Text.cut? p s = some (before, tail)) :
    s = before ++ (p ++ tail) := by
  induction s generalizing before with
  | nil =>
    rw [Text.cut?] at h
    split at h
    · next hp =>
      cases h
      rw [List.isEmpty_iff.1 hp]
      rfl
    · cases h
  | cons c s ih =>
    rw [Text.cut?] at h
    split at h
    · next t ht =>
      cases h
      rw [List.nil_append]
      exact Text.after?_eq_some.1 ht
    · obtain ⟨⟨b, t⟩, hb, he⟩ := Option.map_eq_some_iff.1 h
      cases he
      rw [ih hb]
      rfl

theorem afterAnyCase?_split {p s r : Text} (h : afterAnyCase? p s = some r) :
    ∃ w, s = w ++ r ∧ ∀ c ∈ w, foldLetter c ∈ p.map foldLetter := by
  induction p generalizing s with
  | nil =>
    rw [afterAnyCase?] at h
    cases h
    exact ⟨[], rfl, by simp⟩
  | cons d p ih =>
    cases s with
    | nil => cases h
    | cons c s =>
      rw [afterAnyCase?] at h
      split at h
      · next hc =>
        obtain ⟨w, rfl, hw⟩ := ih h
        refine ⟨c :: w, rfl, fun x hx => ?_⟩
        rcases List.mem_cons.1 hx with rfl | hx
        · rw [List.map_cons, hc]
          exact List.mem_cons_self
        · exact List.mem_cons_of_mem _ (hw x hx)
      · cases h

/-! ## Data blocks -/

/-- The word behind an opening fence is inert. -/
theorem inert_json {w : Text} (hw : ∀ c ∈ w, foldLetter c ∈ ("json" : Text).map foldLetter) :
    Inert w :=
  inert_of_class (by decide) hw

theorem dataBlockAt?_split {s body : Text} (h : dataBlockAt? s = some body) :
    ∃ lead follow, s = fence ++ (lead ++ (body ++ follow)) ∧ Inert lead := by
  unfold dataBlockAt? at h
  split at h
  · cases h
  · next rest hf =>
    have hrest : ∃ w, rest = w ++ (afterAnyCase? "json" rest).getD rest ∧ Inert w := by
      cases hj : afterAnyCase? "json" rest with
      | none => exact ⟨[], rfl, by simp [Inert]⟩
      | some r =>
        obtain ⟨w, hw, hi⟩ := afterAnyCase?_split hj
        exact ⟨w, hw, inert_json hi⟩
    obtain ⟨w, hw, hi⟩ := hrest
    generalize (afterAnyCase? "json" rest).getD rest = r at h hw
    obtain ⟨⟨b, t⟩, hc, rfl⟩ := Option.map_eq_some_iff.1 h
    have hb := cut?_split hc
    refine ⟨w ++ r.takeWhile isSpace, fence ++ t, ?_, hi.append (inert_spaces fun c hc => ?_)⟩
    · rw [Text.after?_eq_some.1 hf, List.append_assoc, ← hb, Text.trimStart,
        List.takeWhile_append_dropWhile, ← hw]
    · exact List.mem_takeWhile_imp hc

theorem dataBlock?_split {s body : Text} (h : dataBlock? s = some body) :
    ∃ x lead follow, s = x ++ (fence ++ (lead ++ (body ++ follow))) ∧ Inert lead := by
  obtain ⟨x, y, rfl, hy⟩ := findFirst_split h
  obtain ⟨lead, follow, rfl, hi⟩ := dataBlockAt?_split hy
  exact ⟨x, lead, follow, rfl, hi⟩

/-! ## The first block -/

/-- Where a reader finds nothing, the search goes on. -/
theorem findFirst_pass {α : Type} {read? : Text → Option α} {u t : Text}
    (h : ∀ p q, u = p ++ q → q ≠ [] → read? (q ++ t) = none) :
    findFirst read? (u ++ t) = findFirst read? t := by
  induction u with
  | nil => rfl
  | cons c u ih =>
    have hstart : read? (c :: (u ++ t)) = none := h [] (c :: u) rfl (List.cons_ne_nil c u)
    rw [List.cons_append, findFirst, hstart, Option.none_or]
    exact ih fun p q hu hq => h (c :: p) q (by rw [hu]; rfl) hq

/-- The search passes over characters at which nothing starts. -/
theorem findFirst_append {α : Type} {read? : Text → Option α} {p : Text}
    (hp : ∀ c ∈ p, ∀ r, read? (c :: r) = none) (s : Text) :
    findFirst read? (p ++ s) = findFirst read? s := by
  refine findFirst_pass fun a q hq hne => ?_
  obtain ⟨c, q, rfl⟩ := List.exists_cons_of_ne_nil hne
  exact hp c (by simp [hq]) (q ++ s)

/-- What is found at the start of a text is the first find. -/
theorem findFirst_eq_some {α : Type} {read? : Text → Option α} {s : Text} {a : α}
    (h : read? s = some a) : findFirst read? s = some a := by
  cases s with
  | nil => exact h
  | cons c s => rw [findFirst, h, Option.some_or]

/-- A prefix without the character `c` ends before it. -/
theorem prefix_before {p a t : Text} {c : Char} (hc : c ∉ p) (h : p <+: a ++ c :: t) : p <+: a := by
  have hac : a ++ [c] <+: a ++ c :: t := ⟨t, by simp⟩
  rcases List.prefix_or_prefix_of_prefix h hac with h | h
  · rcases List.prefix_concat_iff.1 h with rfl | h
    · exact absurd (by simp) hc
    · exact h
  · exact absurd (h.subset (by simp)) hc

/-- A fence is found where it stands, behind text without a fence that ends with another
character. -/
theorem cut?_fence {a : Text} (ha : ¬ fence <:+: a) {c : Char} (hc : c ≠ '\x60') (s : Text) :
    Text.cut? fence (a ++ c :: (fence ++ s)) = some (a ++ [c], s) := by
  have hfree : c ∉ fence := fun h => hc (mem_fence.1 h)
  induction a with
  | nil =>
    have hnone : Text.after? fence (c :: (fence ++ s)) = none := if_neg hc.symm
    rw [List.nil_append, Text.cut?, hnone]
    rfl
  | cons d a ih =>
    have hnone : Text.after? fence (d :: (a ++ c :: (fence ++ s))) = none := by
      rw [Option.eq_none_iff_forall_ne_some]
      intro r hr
      have hp : fence <+: d :: a ++ c :: (fence ++ s) := ⟨r, (Text.after?_eq_some.1 hr).symm⟩
      exact ha (prefix_before hfree hp).isInfix
    rw [List.cons_append, Text.cut?, hnone, ih fun h => ha (h.trans (List.suffix_cons d a).isInfix)]
    rfl

/-- A block does not open at a character that is no backquote. -/
theorem dataBlockAt?_other {c : Char} (hc : c ≠ '\x60') (r : Text) :
    dataBlockAt? (c :: r) = none := by
  have h : Text.after? fence (c :: r) = none := if_neg hc.symm
  unfold dataBlockAt?
  rw [h]

/-- A word is read in any mixture of cases. -/
theorem afterAnyCase?_append {p w : Text} (h : w.map foldLetter = p.map foldLetter) (r : Text) :
    afterAnyCase? p (w ++ r) = some r := by
  induction p generalizing w with
  | nil =>
    rw [List.map_nil, List.map_eq_nil_iff] at h
    rw [h]
    rfl
  | cons d p ih =>
    obtain ⟨c, w, rfl, hc, hw⟩ := List.map_eq_cons_iff.1 h
    rw [List.cons_append, afterAnyCase?, if_pos hc]
    exact ih hw

/-- A tag in any mixture of ASCII cases. -/
theorem foldLetter_of_toLower {c d : Char} (h : c.toLower = d) (hd : d.isAlpha = true) :
    foldLetter c = d := by
  have other : ∀ x : Char, x.toLower = x ∧ x.isAlpha = false → c ≠ x := by
    rintro x ⟨hx, ha⟩ rfl
    rw [← h, hx, ha] at hd
    cases hd
  have h1 := other '\u0130' (by decide)
  have h2 := other '\u0131' (by decide)
  have h3 := other '\u017F' (by decide)
  have h4 := other '\u212A' (by decide)
  rw [foldLetter, if_neg (by simp [h1, h2]), if_neg h3, if_neg h4, h]

/-- The word `json` is read in any mixture of ASCII cases. -/
theorem foldLetter_json {tag : Text} (h : tag.map Char.toLower = "json") :
    tag.map foldLetter = ("json" : Text).map foldLetter := by
  have alpha : ∀ d ∈ ("json" : Text), d.isAlpha = true := Text.forall_of_all (by decide)
  have small : ("json" : Text).map foldLetter = "json" := rfl
  rw [small, ← h]
  exact List.map_congr_left fun c hc =>
    foldLetter_of_toLower rfl (alpha _ (h ▸ List.mem_map_of_mem hc))

/-- The line that opens a block is inert. -/
theorem inert_tag {tag : Text} (htag : tag = [] ∨ tag.map Char.toLower = "json") :
    Inert (tag ++ ['\n']) := by
  have hbreak : Inert ['\n'] := inert_spaces (Text.forall_of_all (by decide))
  rcases htag with rfl | htag
  · exact hbreak
  · refine Inert.append (inert_json fun c hc => ?_) hbreak
    rw [← foldLetter_json htag]
    exact List.mem_map_of_mem hc

/-- A tagged block opens with a fence, nothing or the word `json`, and the end of the line. -/
theorem dataBlockAt?_fence {tag : Text} (htag : tag = [] ∨ tag.map Char.toLower = "json")
    (r : Text) :
    dataBlockAt? (fence ++ (tag ++ '\n' :: r)) = beforeFence? (Text.trimStart r) := by
  have hfence : Text.after? fence (fence ++ (tag ++ '\n' :: r)) = some (tag ++ '\n' :: r) :=
    Text.after?_eq_some.2 rfl
  have hword : (afterAnyCase? "json" (tag ++ '\n' :: r)).getD (tag ++ '\n' :: r) = '\n' :: r := by
    rcases htag with rfl | htag
    · rfl
    · rw [afterAnyCase?_append (foldLetter_json htag)]
      rfl
  unfold dataBlockAt?
  rw [hfence]
  dsimp only
  rw [hword]
  rfl

/-- The first block of a text, opened behind text without backquotes: what it holds is kept up to
the end of the line before its closing fence, whatever follows. -/
theorem dataBlock?_fenced {lead tag body : Text} (hlead : '\x60' ∉ lead)
    (htag : tag = [] ∨ tag.map Char.toLower = "json") (hne : body ≠ [])
    (hstart : ∀ c ∈ body.head?, isSpace c = false) (hbody : ¬ fence <:+: body) (s : Text) :
    dataBlock? (lead ++ (fence ++ (tag ++ '\n' :: (body ++ '\n' :: (fence ++ s))))) =
      some (body ++ ['\n']) := by
  have hopen : ∀ c ∈ lead, ∀ r, dataBlockAt? (c :: r) = none :=
    fun c hc r => dataBlockAt?_other (fun h => hlead (h ▸ hc)) r
  have htrim : Text.trimStart (body ++ '\n' :: (fence ++ s)) = body ++ '\n' :: (fence ++ s) := by
    have h := Text.dropWhile_append hne hstart [] ('\n' :: (fence ++ s))
    rwa [List.nil_append] at h
  unfold dataBlock?
  rw [findFirst_append hopen]
  apply findFirst_eq_some
  rw [dataBlockAt?_fence htag, htrim, beforeFence?, cut?_fence hbody (by decide)]
  rfl

end BlockSafe
