import BlockSafe.Proofs.Json.Spacing
import BlockSafe.Proofs.Reply.Canonical
import BlockSafe.Proofs.Reply.Limits
import BlockSafe.Proofs.Text.Quoting

/-!
# Replies with either kind of line break

A reply without carriage returns holds the same notes and the same program when a carriage return
is put before every line feed:

    '\r' ∉ reply → Reply.ofText limits reply.crlf = Reply.ofText limits reply       (ofText_crlf)

The blocks and objects of the longer reply are those of the reply with carriage returns put in
(`dataBlock?_crlf`, `codeBlock?_crlf`, `balancedObjects_crlf`), so the same candidates are tried in
the same order, and each reads as the same value or is too deep alike (`envelope_crlf`).  A program
loses the carriage returns when its breaks are unified; the passes before that keep the two texts in
step (`canonical_crlf`).

The carriage returns matter in two places.  Behind a backslash the one is escaped in place of the
line feed, in an object as in a program; both texts go on alike, as neither character is a quote, a
brace or the letter of an escape.  And at the end of a text the line feed of a break comes first, so
`dropClosingFence` meets the breaks reversed.
-/

namespace BlockSafe

open Text (crlf IsBreak)

/-! ## Blocks -/

theorem fence_unbroken : ∀ c ∈ fence, ¬ IsBreak c := by
  intro c hc
  rw [mem_fence.1 hc]
  rintro (h | h) <;> cases h

theorem afterFence_crlf (s : Text) :
    Text.after? fence s.crlf = (Text.after? fence s).map crlf :=
  Text.after?_withBreaks Text.breakText_crlf fence_unbroken s

theorem beforeFence?_crlf (s : Text) : beforeFence? s.crlf = (beforeFence? s).map crlf := by
  have h := Text.cut?_withBreaks Text.breakText_crlf (by decide) fence_unbroken s
  unfold beforeFence? crlf
  rw [h, Option.map_map, Option.map_map]
  rfl

/-- A search for something that opens at no break finds it in the same place. -/
theorem findFirst_crlf {read? : Text → Option Text}
    (hread : ∀ s, read? (crlf s) = (read? s).map crlf)
    (hbreak : ∀ c, IsBreak c → ∀ r, read? (c :: r) = none) (s : Text) :
    findFirst read? s.crlf = (findFirst read? s).map crlf := by
  induction s with
  | nil => exact hread []
  | cons c s ih =>
    by_cases hc : c = '\n'
    · subst hc
      rw [Text.crlf_break, findFirst, findFirst, findFirst, hbreak '\r' (.inl rfl),
        hbreak '\n' (.inr rfl), hbreak '\n' (.inr rfl), ih]
      rfl
    · have hread := hread (c :: s)
      rw [Text.crlf_cons hc] at hread ⊢
      rw [findFirst, findFirst, hread, ih]
      cases read? (c :: s) <;> rfl

/-- Letters are compared alike with either kind of line break. -/
theorem afterAnyCase?_crlf {p : Text}
    (hp : ∀ c ∈ p, foldLetter '\r' ≠ foldLetter c ∧ foldLetter '\n' ≠ foldLetter c) (s : Text) :
    afterAnyCase? p s.crlf = (afterAnyCase? p s).map crlf := by
  induction p generalizing s with
  | nil => rfl
  | cons d p ih =>
    have hd := hp d List.mem_cons_self
    cases s with
    | nil => rfl
    | cons c s =>
      by_cases hc : c = '\n'
      · subst hc
        rw [Text.crlf_break, afterAnyCase?, if_neg hd.1, afterAnyCase?, if_neg hd.2]
        rfl
      · rw [Text.crlf_cons hc, afterAnyCase?, afterAnyCase?]
        split
        · exact ih (fun c hc => hp c (List.mem_cons_of_mem d hc)) s
        · rfl

theorem dataBlockAt?_crlf (s : Text) : dataBlockAt? s.crlf = (dataBlockAt? s).map crlf := by
  have hjson : ∀ r, afterAnyCase? "json" (crlf r) = (afterAnyCase? "json" r).map crlf :=
    afterAnyCase?_crlf (Text.forall_of_all (by decide))
  unfold dataBlockAt?
  rw [afterFence_crlf]
  cases Text.after? fence s with
  | none => rfl
  | some rest =>
    have hrest : (afterAnyCase? "json" (crlf rest)).getD (crlf rest) =
        crlf ((afterAnyCase? "json" rest).getD rest) := by
      rw [hjson]
      cases afterAnyCase? "json" rest <;> rfl
    simp only [Option.map_some]
    rw [hrest, Text.trimStart_crlf, beforeFence?_crlf]

theorem dataBlock?_crlf (s : Text) : dataBlock? s.crlf = (dataBlock? s).map crlf := by
  refine findFirst_crlf dataBlockAt?_crlf (fun c hc r => dataBlockAt?_other ?_ r) s
  rintro rfl
  rcases hc with h | h <;> cases h

theorem codeBlockAt?_crlf (s : Text) : codeBlockAt? s.crlf = (codeBlockAt? s).map crlf := by
  unfold codeBlockAt?
  rw [afterFence_crlf]
  cases Text.after? fence s with
  | none => rfl
  | some info =>
    have hline := Text.dropWhile_line (p := fun c => c != '\n' && c != '\x60') (by decide)
      (by decide) info
    simp only [Option.map_some]
    rw [hline]
    cases info.dropWhile fun c => c != '\n' && c != '\x60' with
    | nil => rfl
    | cons c body =>
      by_cases hc : c = '\n'
      · subst hc
        exact beforeFence?_crlf body
      · split
        · next h => exact absurd (List.cons.inj h).1 hc
        · split
          · next h => exact absurd (List.cons.inj h).1 hc
          · rfl

theorem codeBlock?_crlf (s : Text) : codeBlock? s.crlf = (codeBlock? s).map crlf := by
  refine findFirst_crlf codeBlockAt?_crlf (fun c hc r => ?_) s
  have hfence : Text.after? fence (c :: r) = none :=
    Text.after?_cons_of_notMem (by decide) (fun h => fence_unbroken c h hc) r
  unfold codeBlockAt?
  rw [hfence]

/-! ## Objects -/

/-- The search for objects passes over a line break of either kind: it holds no quote and no brace,
and behind a backslash its first character is as good as the other. -/
theorem objectsIn_crlf {read read' : Text} (hread : read'.reverse = crlf read.reverse)
    (depth : Nat) (q : Quoting) (s : Text) :
    objectsIn depth read' q s.crlf = (objectsIn depth read q s).map crlf := by
  have hnil : ([] : Text).reverse = crlf ([] : Text).reverse := rfl
  induction s generalizing depth read read' q with
  | nil => rfl
  | cons c s ih =>
    by_cases hc : c = '\n'
    · subst hc
      have hnext : (q.next '\r').next '\n' = q.next '\n' := by cases q <;> rfl
      have hbreak : ('\n' :: '\r' :: read').reverse = crlf ('\n' :: read).reverse := by
        simp [hread]
      have hfeed : ∀ q, PlainIn q '\n' := fun q => .inr (by decide)
      rw [Text.crlf_break, objectsIn_plain (.inr (by decide)), objectsIn_plain (hfeed _),
        objectsIn_plain (hfeed _), objectsIn_plain (hfeed q), hnext]
      by_cases hd : depth = 0
      · rw [if_pos hd, if_pos rfl, if_pos hd]
        exact ih hnil 0 _
      · rw [if_neg hd, if_neg hd, if_neg hd]
        exact ih hbreak depth _
    · have hcons : (c :: read').reverse = crlf (c :: read).reverse := by
        rw [List.reverse_cons, List.reverse_cons, hread, Text.crlf_append, Text.crlf_cons hc]
        rfl
      rw [Text.crlf_cons hc, objectsIn_cons, objectsIn_cons]
      by_cases hopen : (!q.masks c && c == '{') = true
      · rw [if_pos hopen, if_pos hopen]
        exact ih hcons _ _
      · rw [if_neg hopen, if_neg hopen]
        by_cases hd : depth = 0
        · rw [if_pos hd, if_pos hd]
          exact ih hnil 0 _
        · rw [if_neg hd, if_neg hd]
          by_cases hclose : (!q.masks c && c == '}') = true
          · rw [if_pos hclose, if_pos hclose]
            by_cases hone : depth = 1
            · rw [if_pos hone, if_pos hone, hcons, ih hnil 0, List.map_cons]
            · rw [if_neg hone, if_neg hone]
              exact ih hcons _ _
          · rw [if_neg hclose, if_neg hclose]
            exact ih hcons _ _

theorem balancedObjects_crlf (s : Text) :
    balancedObjects s.crlf = (balancedObjects s).map crlf :=
  objectsIn_crlf rfl 0 .outside s

/-! ## The canonical form -/

theorem dropOpeningFence_crlf (s : Text) :
    dropOpeningFence s.crlf = (dropOpeningFence s).crlf := by
  unfold dropOpeningFence
  rw [afterFence_crlf]
  cases Text.after? fence s with
  | none => rfl
  | some rest =>
    have hline := Text.dropWhile_line (p := (· != '\n')) (by decide) (by decide) rest
    simp only [Option.map_some]
    rw [hline]
    cases rest.dropWhile (· != '\n') <;> rfl

/-- From the end of a text, the line feed of a break comes first. -/
theorem dropClosingFence_crlf (s : Text) :
    dropClosingFence s.crlf = (dropClosingFence s).crlf := by
  have hw : ∀ c ∈ ['\n', '\r'], isSpace c = true := Text.forall_of_all (by decide)
  have hrev : s.crlf.reverse = Text.withBreaks ['\n', '\r'] s.reverse :=
    Text.reverse_withBreaks _ s
  have hafter := Text.after?_withBreaks (w := ['\n', '\r']) Text.breakText_crlf.reverse
    fence_unbroken (s.reverse.dropWhile isSpace)
  unfold dropClosingFence
  rw [hrev, Text.dropWhile_withBreaks hw (by decide), hafter]
  cases Text.after? fence (s.reverse.dropWhile isSpace) with
  | none => rfl
  | some body => exact Text.reverse_withBreaks _ body

theorem dropFence_crlf (s : Text) : dropFence s.crlf = (dropFence s).crlf := by
  unfold dropFence
  rw [afterFence_crlf, Option.isSome_map, dropOpeningFence_crlf, dropClosingFence_crlf]
  split <;> rfl

/-- Escapes are decoded alike with either kind of line break: none of their characters is one. -/
theorem decodeEscape_returned {letter meaning : Char} (hl : ¬ IsBreak letter) (hm : meaning ≠ '\r')
    {s t : Text} (h : Text.Returned s t) :
    Text.Returned (decodeEscape letter meaning s) (decodeEscape letter meaning t) := by
  have hln : letter ≠ '\n' := fun h => hl (.inr h)
  have hlr : letter ≠ '\r' := fun h => hl (.inl h)
  fun_induction decodeEscape letter meaning t generalizing s with
  | case1 =>
    cases h
    exact .nil
  | case2 c =>
    cases h with
    | pair rest =>
      cases rest
      exact .pair .nil
    | same hc rest =>
      cases rest
      exact .same hc .nil
  | case3 c d rest hcd ih =>
    obtain ⟨rfl, rfl⟩ := hcd
    obtain ⟨_, rfl, h1⟩ := h.of_cons (by decide)
    obtain ⟨_, rfl, h2⟩ := h1.of_cons hln
    rw [decodeEscape, if_pos ⟨rfl, rfl⟩]
    exact .same hm (ih h2)
  | case4 c d rest hcd ih =>
    cases h with
    | pair hs =>
      rw [decodeEscape_cons (by simp), decodeEscape_cons (by simp)]
      exact .pair (ih hs)
    | @same _ s _ hc hs =>
      rw [decodeEscape_cons]
      · exact .same hc (ih hs)
      · rintro ⟨rfl, hd⟩
        obtain ⟨s, rfl⟩ := List.head?_eq_some_iff.1 hd
        obtain ⟨t, ht, -⟩ := hs.cons_of hlr
        exact hcd ⟨rfl, (List.cons.inj ht).1⟩

theorem decodeEscapedBreaks_returned {s t : Text} (h : Text.Returned s t) :
    Text.Returned (decodeEscapedBreaks s) (decodeEscapedBreaks t) := by
  fun_induction decodeEscapedBreaks t generalizing s with
  | case1 rest ih =>
    obtain ⟨_, rfl, h1⟩ := h.of_cons (by decide)
    obtain ⟨_, rfl, h2⟩ := h1.of_cons (by decide)
    obtain ⟨_, rfl, h3⟩ := h2.of_cons (by decide)
    obtain ⟨_, rfl, h4⟩ := h3.of_cons (by decide)
    exact .same (by decide) (ih h4)
  | case2 d rest hd ih =>
    cases h with
    | pair hs =>
      rw [decodeEscapedBreaks, decodeEscapedBreaks]
      · exact .pair (ih hs)
      · exact fun _ h _ => absurd h (by decide)
      · exact fun _ h _ => absurd h (by decide)
    | @same _ s _ hc hs =>
      rw [decodeEscapedBreaks]
      · exact .same hc (ih hs)
      · rintro s rfl rfl
        obtain ⟨_, rfl, h1⟩ := hs.cons_of (by decide)
        obtain ⟨_, rfl, h2⟩ := h1.cons_of (by decide)
        obtain ⟨_, rfl, -⟩ := h2.cons_of (by decide)
        exact hd _ rfl rfl
  | case3 =>
    cases h
    exact .nil

/-- Decoded and with every break written as a line feed, a text is the same with either kind of
line break. -/
theorem unifyBreaks_decodeEscapes_crlf {s : Text} (h : '\r' ∉ s) :
    Text.unifyBreaks (decodeEscapes s.crlf) = Text.unifyBreaks (decodeEscapes s) := by
  have hsame : Text.Returned (decodeEscapes s.crlf) (decodeEscapes s) :=
    decodeEscape_returned (by decide) (by decide)
      (decodeEscape_returned (by decide) (by decide)
        (decodeEscapedBreaks_returned (Text.returned_crlf h)))
  have hfree : '\r' ∉ decodeEscapes s := by
    intro hr
    rcases mem_decodeEscapes hr with hr | hr | hr
    · exact absurd hr (by decide)
    · exact absurd hr (by decide)
    · exact h hr
  rw [hsame.unifyBreaks_eq, unifyBreaks_eq_self hfree]

theorem canonical_crlf {s : Text} (h : '\r' ∉ s) : canonical s.crlf = canonical s := by
  have hvisible : s.crlf.filter (!isInvisible ·) = crlf (s.filter (!isInvisible ·)) :=
    Text.filter_withBreaks (Text.forall_of_all (by decide)) (by decide) s
  have hfree : '\r' ∉ dropFence (s.filter (!isInvisible ·)) := fun hr =>
    h (List.mem_of_mem_filter ((dropFence_isInfix _).subset hr))
  unfold canonical
  dsimp only
  rw [hvisible, dropFence_crlf, unifyBreaks_decodeEscapes_crlf hfree]

/-! ## Programs -/

theorem codeBlock?_isInfix {s body : Text} (h : codeBlock? s = some body) : body <:+: s := by
  obtain ⟨x, y, rfl, hy⟩ := findFirst_split h
  unfold codeBlockAt? at hy
  split at hy
  · cases hy
  · next info hf =>
    split at hy
    · next line hline =>
      have hinfo : '\n' :: line <:+ info := hline ▸ List.dropWhile_suffix _
      obtain ⟨⟨b, t⟩, hc, rfl⟩ := Option.map_eq_some_iff.1 hy
      have hbody : b <+: line := ⟨fence ++ t, (cut?_split hc).symm⟩
      have hy : info <:+ y := ⟨fence, (Text.after?_eq_some.1 hf).symm⟩
      have hline : line <:+ x ++ y :=
        ((List.suffix_cons _ _).trans hinfo).trans (hy.trans (List.suffix_append x y))
      exact hbody.isInfix.trans hline.isInfix
    · cases hy

theorem programOf_crlf {reply : Text} (h : '\r' ∉ reply) :
    programOf reply.crlf = programOf reply := by
  unfold programOf
  rw [codeBlock?_crlf]
  cases hb : codeBlock? reply with
  | none => exact canonical_crlf h
  | some body => exact canonical_crlf fun hr => h ((codeBlock?_isInfix hb).subset hr)

/-! ## Envelopes -/

theorem envelopeCandidates_crlf (s : Text) :
    envelopeCandidates s.crlf = (envelopeCandidates s).map crlf := by
  unfold envelopeCandidates
  rw [dataBlock?_crlf, balancedObjects_crlf]
  cases dataBlock? s with
  | none => rfl
  | some body =>
    have hempty : body.crlf.isEmpty = body.isEmpty :=
      Text.isEmpty_withBreaks Text.breakText_crlf body
    simp only [Option.map_some, hempty]
    cases body.isEmpty <;> rfl

theorem envelopeFields_crlf {s : Text} (h : '\r' ∉ s) (limits : Limits) :
    envelopeFields limits s.crlf.trim = envelopeFields limits s.trim := by
  have hfree : '\r' ∉ s.trim := fun hr => h ((Text.trimBoth_isInfix _ s).subset hr)
  unfold envelopeFields
  rw [Text.trim_crlf, Json.read_crlf hfree]

theorem firstEnvelope_crlf {candidates : List Text} (h : ∀ c ∈ candidates, '\r' ∉ c)
    (limits : Limits) :
    firstEnvelope limits (candidates.map crlf) = firstEnvelope limits candidates := by
  induction candidates with
  | nil => rfl
  | cons candidate rest ih =>
    obtain ⟨hfirst, hrest⟩ := List.forall_mem_cons.1 h
    rw [List.map_cons, firstEnvelope, firstEnvelope, envelopeFields_crlf hfirst, ih hrest]

theorem envelope_crlf {reply : Text} (h : '\r' ∉ reply) (limits : Limits) :
    envelope limits reply.crlf = envelope limits reply := by
  have hfree : ∀ c ∈ envelopeCandidates reply.trim, '\r' ∉ c := fun c hc hr =>
    h ((Text.trimBoth_isInfix _ reply).subset ((candidate_isInfix hc).subset hr))
  unfold envelope
  rw [Text.trim_crlf, envelopeCandidates_crlf, firstEnvelope_crlf hfree]

/-! ## Main result -/

/-- A reply is read alike with either kind of line break. -/
theorem ofText_crlf {reply : Text} (h : '\r' ∉ reply) (limits : Limits) :
    Reply.ofText limits reply.crlf = Reply.ofText limits reply := by
  unfold Reply.ofText
  rw [envelope_crlf h, programOf_crlf h]

/-- An envelope over two lines, in a fence, behind an object that is none. -/
def linedReply : Text :=
  "\x7b\n\x7d:\n```json\n\x7b \"feedback\": \"Done\",\n  \"code\": [\"basic.pause(1)\"] \x7d\n```\n"

theorem ofText_crlf_lined :
    '\r' ∉ linedReply ∧
      Reply.ofText .standard linedReply.crlf = .ok ⟨texts ["Done"], "basic.pause(1)"⟩ := by
  have hfree : '\r' ∉ linedReply := by decide
  have hread : Reply.ofText .standard linedReply = .ok ⟨texts ["Done"], "basic.pause(1)"⟩ := by
    decide +kernel
  exact ⟨hfree, (ofText_crlf hfree .standard).trans hread⟩

end BlockSafe
