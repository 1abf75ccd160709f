import MailMarkup.Document.Reader
import MailMarkup.Proofs.Text.Cursor
import MailMarkup.Proofs.Text.Search

/-!
# One round of reading

Whatever the markup, a round of the main loop does one of six things: it passes something over,
reads a text or a comment, reads an element whole, enters an element, closes the innermost element,
or leaves it for a closing tag of an outer one, which stays to be read. The facts about whole
readings follow from what each of these does.
-/
namespace MailMarkup

/-- What a text or a comment was read from, before `r`: the text with the blanks around it, or the
comment with its marks, of which the last is missing only at the end. -/
def Node.IsRead (u r : Text) : Node → Prop
  | .element _ _ => False
  | .text t _ => t ≠ [] ∧ Text.trim u = t
  | .comment t _ => u = '<' :: '!' :: '-' :: '-' :: (t ++ ['-', '-', '>']) ∨
      u = '<' :: '!' :: '-' :: '-' :: t ∧ r = []

section IsRead
variable {n : Node} {u r : Text}

theorem Node.IsRead.element?_eq_none (h : n.IsRead u r) : n.element? = none := by
  cases n with
  | element => exact h.elim
  | text => rfl
  | comment => rfl

theorem Node.IsRead.ne_nil (h : n.IsRead u r) : u ≠ [] := by
  rintro rfl
  cases n with
  | element => exact h
  | text => exact h.1 h.2.symm
  | comment =>
    rcases h with h | ⟨h, -⟩
    · cases h
    · cases h

end IsRead

namespace Reader
open Text

section Reaches
variable {c c' : Cursor}

theorem reaches_tagName (c : Cursor) : c.Reaches (tagName c).2 := ⟨_, rfl⟩

theorem reaches_recover (c : Cursor) : c.Reaches (recover c) := by
  have h := c.reaches_skipWhile fun x => x != '<' && x != '>'
  unfold recover
  dsimp only
  split
  · exact h.trans (Cursor.reaches_next _)
  · exact h

theorem reaches_bareValue (c : Cursor) : c.Reaches (bareValue c).2 := ⟨_, rfl⟩

theorem reaches_quotedValue (q : Char) (c : Cursor) : c.Reaches (quotedValue q c).2 := by
  unfold quotedValue
  dsimp only
  split
  · exact reaches_bareValue c
  · exact c.reaches_advance _

theorem reaches_attributeValue (c : Cursor) : c.Reaches (attributeValue c).2 := by
  unfold attributeValue
  split
  · split
    · exact c.reaches_next.trans (reaches_quotedValue _ _)
    · exact reaches_bareValue c
  · exact reaches_bareValue c

private theorem reaches_attribute? {a : Text × Text} (h : attribute? c = some (a, c')) :
    c.Reaches c' := by
  unfold attribute? at h
  dsimp only at h
  split at h
  · exact absurd h nofun
  · split at h
    · simp only [Option.some.injEq, Prod.mk.injEq] at h
      rw [← h.2]
      exact (c.reaches_advance _).trans <| (Cursor.reaches_skipBlanks _).trans <|
        (Cursor.reaches_next _).trans <| (Cursor.reaches_skipBlanks _).trans <|
        reaches_attributeValue _
    · simp only [Option.some.injEq, Prod.mk.injEq] at h
      rw [← h.2]
      exact c.reaches_advance _

end Reaches

/-! ### Rounds in a tag -/

/-- What a round in a tag comes to: the end of the tag, an attribute, or something passed over. -/
inductive TagStep where
  | ended (c : Cursor) (selfClosing : Bool)
  | found (a : Text × Text) (c : Cursor)
  | passed (c : Cursor) (forced : Nat)

namespace TagStep

def cursor : TagStep → Cursor
  | ended c _ | found _ c | passed c _ => c

/-- What is read of a tag from a round on. -/
def finish (l : Limits) (st : ReadStats) (round : Nat) (seen : List (Text × Text)) :
    TagStep → TagEnd
  | ended c closing => ⟨c, st, seen.reverse, closing⟩
  | found a c => attributes l c st (round + 1) (if seen.any (·.1 == a.1) then seen else a :: seen)
  | passed c n =>
    attributes l c { st with forcedAdvances := st.forcedAdvances + n } (round + 1) seen

end TagStep

/-- Neither the text nor the tag ends here. -/
structure Inside (c : Cursor) : Prop where
  more : c.rest ≠ []
  noClose : c.peek ≠ some '>'
  noSlash : c.peek ≠ some '/'
  noOpen : c.peek ≠ some '<'

/-- A round depends on the text alone, behind the blanks it starts with. -/
inductive TagRound (c : Cursor) : TagStep → Prop where
  | exhausted (all : c.skipBlanks.rest = []) : TagRound c (.ended c.skipBlanks false)
  | close (mark : c.skipBlanks.peek = some '>') : TagRound c (.ended c.skipBlanks.next false)
  | selfClose (mark : c.skipBlanks.peek = some '/') (close : c.skipBlanks.next.peek = some '>') :
      TagRound c (.ended c.skipBlanks.next.next true)
  | slash (mark : c.skipBlanks.peek = some '/') (noClose : c.skipBlanks.next.peek ≠ some '>') :
      TagRound c (.passed c.skipBlanks.next 0)
  | unclosed (mark : c.skipBlanks.peek = some '<') : TagRound c (.ended c.skipBlanks false)
  | entry {a : Text × Text} {c' : Cursor} (inside : Inside c.skipBlanks)
      (found : attribute? c.skipBlanks = some (a, c')) : TagRound c (.found a c')
  | blank (inside : Inside c.skipBlanks) (none : attribute? c.skipBlanks = none)
      (blank : c.peek.any isBlank = true) : TagRound c (.passed c.skipBlanks 0)
  | junk (inside : Inside c.skipBlanks) (none : attribute? c.skipBlanks = none)
      (solid : c.peek.any isBlank = false) : TagRound c (.passed c.skipBlanks.next 1)

section TagRound
variable {l : Limits} {c : Cursor} {st st' : ReadStats} {round : Nat} {seen : List (Text × Text)}
  {r : TagStep}

private theorem exists_tagRound (c : Cursor) : ∃ r, TagRound c r := by
  by_cases more : c.skipBlanks.rest = []
  · exact ⟨_, .exhausted more⟩
  by_cases hclose : c.skipBlanks.peek = some '>'
  · exact ⟨_, .close hclose⟩
  by_cases hslash : c.skipBlanks.peek = some '/'
  · by_cases hend : c.skipBlanks.next.peek = some '>'
    · exact ⟨_, .selfClose hslash hend⟩
    · exact ⟨_, .slash hslash hend⟩
  by_cases hopen : c.skipBlanks.peek = some '<'
  · exact ⟨_, .unclosed hopen⟩
  have inside : Inside c.skipBlanks := ⟨more, hclose, hslash, hopen⟩
  cases ha : attribute? c.skipBlanks with
  | some a => exact ⟨_, .entry inside ha⟩
  | none =>
    cases hblank : c.peek.any isBlank with
    | true => exact ⟨_, .blank inside ha hblank⟩
    | false => exact ⟨_, .junk inside ha hblank⟩

theorem rest_ne_nil_of_peek {x : Char} (h : c.peek = some x) : c.rest ≠ [] := by
  intro hnil
  rw [Cursor.peek, hnil] at h
  cases h

theorem attributes_spent (hr : l.maxAttributeIterations ≤ round) :
    attributes l c st round seen = bailOut c st seen := by
  rw [attributes, if_pos hr]

theorem attributes_stopped (hr : round < l.maxAttributeIterations)
    (ht : st.tick l = (st', false)) :
    attributes l c st round seen = bailOut c st' seen := by
  rw [attributes, if_neg (Nat.not_le.2 hr), ht]

theorem attributes_inside (hr : round < l.maxAttributeIterations) (ht : st.tick l = (st', true))
    (inside : Inside c.skipBlanks) :
    attributes l c st round seen =
      ((attribute? c.skipBlanks).elim
        (if c.peek.any isBlank then .passed c.skipBlanks 0 else .passed c.skipBlanks.next 1)
        fun p => .found p.1 p.2 : TagStep).finish l st' round seen := by
  rw [attributes.eq_def l c, if_neg (Nat.not_le.2 hr), ht]
  dsimp only
  rw [dif_neg inside.more, if_neg (mt beq_iff_eq.1 inside.noClose),
    if_neg (mt beq_iff_eq.1 inside.noSlash), if_neg (mt beq_iff_eq.1 inside.noOpen)]
  split
  · rename_i ha
    rw [ha]
    rfl
  · rename_i ha
    rw [ha, Option.elim_none]
    split <;> rfl

theorem attributes_round (hr : round < l.maxAttributeIterations) (ht : st.tick l = (st', true))
    (h : TagRound c r) : attributes l c st round seen = r.finish l st' round seen := by
  have start := attributes.eq_def l c st round seen
  rw [if_neg (Nat.not_le.2 hr), ht] at start
  cases h with
  | exhausted all => exact start.trans (dif_pos all)
  | close mark => simp [start, rest_ne_nil_of_peek mark, mark, TagStep.finish]
  | selfClose mark close => simp [start, rest_ne_nil_of_peek mark, mark, close, TagStep.finish]
  | slash mark noClose => simp [start, rest_ne_nil_of_peek mark, mark, noClose, TagStep.finish]
  | unclosed mark => simp [start, rest_ne_nil_of_peek mark, mark, TagStep.finish]
  | entry inside found =>
    rw [attributes_inside hr ht inside, found]
    rfl
  | blank inside none blank =>
    rw [attributes_inside hr ht inside, none, Option.elim_none, if_pos blank]
  | junk inside none solid =>
    rw [attributes_inside hr ht inside, none, Option.elim_none, if_neg (by simp [solid])]

namespace TagRound

theorem reaches (h : TagRound c r) : c.skipBlanks.Reaches r.cursor := by
  have hnext := c.skipBlanks.reaches_next
  cases h with
  | exhausted => exact .refl _
  | close => exact hnext
  | selfClose => exact hnext.trans (Cursor.reaches_next _)
  | slash => exact hnext
  | unclosed => exact .refl _
  | entry _ found => exact reaches_attribute? found
  | blank => exact .refl _
  | junk => exact hnext

theorem length_lt (h : TagRound c r) :
    (∃ c' closing, r = .ended c' closing) ∨ r.cursor.rest.length < c.rest.length := by
  have hblanks := skipBlanks_le c
  cases h with
  | exhausted => exact .inl ⟨_, _, rfl⟩
  | close => exact .inl ⟨_, _, rfl⟩
  | selfClose => exact .inl ⟨_, _, rfl⟩
  | slash mark =>
    exact .inr (Nat.lt_of_lt_of_le (next_lt (rest_ne_nil_of_peek mark)) hblanks)
  | unclosed => exact .inl ⟨_, _, rfl⟩
  | entry _ found => exact .inr (Nat.lt_of_lt_of_le (attribute?_lt found) hblanks)
  | blank _ _ blank => exact .inr (skipBlanks_lt blank)
  | junk inside => exact .inr (Nat.lt_of_lt_of_le (next_lt inside.more) hblanks)

end TagRound

/-- Induction along the rounds in a tag. -/
theorem attributes_induction {motive : Cursor → ReadStats → Nat → List (Text × Text) → Prop}
    (spent : ∀ c st round seen, l.maxAttributeIterations ≤ round → motive c st round seen)
    (stopped : ∀ c st round seen st', round < l.maxAttributeIterations →
      st.tick l = (st', false) → motive c st round seen)
    (ended : ∀ c st round seen st' c' closing, round < l.maxAttributeIterations →
      st.tick l = (st', true) → TagRound c (.ended c' closing) → motive c st round seen)
    (found : ∀ c st round seen st' a c', round < l.maxAttributeIterations →
      st.tick l = (st', true) → TagRound c (.found a c') →
      motive c' st' (round + 1) (if seen.any (·.1 == a.1) then seen else a :: seen) →
      motive c st round seen)
    (passed : ∀ c st round seen st' c' n, round < l.maxAttributeIterations →
      st.tick l = (st', true) → TagRound c (.passed c' n) →
      motive c' { st' with forcedAdvances := st'.forcedAdvances + n } (round + 1) seen →
      motive c st round seen)
    (c : Cursor) (st : ReadStats) (round : Nat) (seen : List (Text × Text)) :
    motive c st round seen := by
  induction hlen : c.rest.length using Nat.strongRecOn generalizing c st round seen with
  | ind k ih =>
    obtain hr | hr := Nat.lt_or_ge round l.maxAttributeIterations
    · obtain ⟨st', b, ht⟩ : ∃ st' b, st.tick l = (st', b) := ⟨_, _, rfl⟩
      cases b with
      | false => exact stopped c st round seen st' hr ht
      | true =>
        obtain ⟨r, h⟩ := exists_tagRound c
        cases r with
        | ended c' closing => exact ended c st round seen st' c' closing hr ht h
        | found a c' =>
          have hlt := hlen ▸ h.length_lt.resolve_left (by simp)
          exact found c st round seen st' a c' hr ht h (ih _ hlt c' _ _ _ rfl)
        | passed c' n =>
          have hlt := hlen ▸ h.length_lt.resolve_left (by simp)
          exact passed c st round seen st' c' n hr ht h (ih _ hlt c' _ _ _ rfl)
    · exact spent c st round seen hr

end TagRound

section Reaches

theorem reaches_attributes (l : Limits) (c : Cursor) (st : ReadStats) (round : Nat)
    (seen : List (Text × Text)) : c.Reaches (attributes l c st round seen).cursor := by
  induction c, st, round, seen using attributes_induction (l := l) with
  | spent c st round seen hr =>
    rw [attributes_spent hr]
    exact reaches_recover c
  | stopped c st round seen st' hr ht =>
    rw [attributes_stopped hr ht]
    exact reaches_recover c
  | ended c st round seen st' c' closing hr ht h =>
    rw [attributes_round hr ht h]
    exact c.reaches_skipBlanks.trans h.reaches
  | found c st round seen st' a c' hr ht h ih =>
    rw [attributes_round hr ht h]
    exact c.reaches_skipBlanks.trans (h.reaches.trans ih)
  | passed c st round seen st' c' n hr ht h ih =>
    rw [attributes_round hr ht h]
    exact c.reaches_skipBlanks.trans (h.reaches.trans ih)

theorem reaches_closingTag (c : Cursor) : c.Reaches (closingTag c).2 :=
  (c.reaches_advance 2).trans ((reaches_tagName _).trans (reaches_recover _))

theorem reaches_commentBody (c : Cursor) : c.Reaches (commentBody c).2 := by
  unfold commentBody
  split <;> exact c.reaches_advance _

theorem reaches_rawContent (tag : Text) (c : Cursor) : c.Reaches (rawContent tag c).2.2 := by
  simp only [rawContent]
  split
  · exact (c.reaches_advance _).trans (reaches_recover _)
  · exact c.reaches_advance _

end Reaches

/-- The content of a raw element is read as a text, which ends at `d`, before the closing tag if
there is one. -/
structure RawText (c d c' : Cursor) (closed : Bool) (t : Text) : Prop where
  reach : c.Reaches d
  behind : d.Reaches c'
  read : (Node.text t c.pos).IsRead (c.upTo d) d.rest
  apart : closed = true → c'.rest.length < d.rest.length

theorem rawContent_nodes (tag : Text) (c : Cursor) :
    (rawContent tag c).1 = [] ∨ ∃ t, (rawContent tag c).1 = [.text t c.pos] ∧
      ∃ d, RawText c d (rawContent tag c).2.2 (rawContent tag c).2.1 t := by
  have hread {n : Nat} (h : (trim (c.rest.take n)).isEmpty = false) :
      (Node.text (trim (c.rest.take n)) c.pos).IsRead (c.upTo (c.advance n))
        (c.advance n).rest := by
    refine ⟨fun hnil => ?_, by rw [Cursor.upTo_advance_eq_take]⟩
    rw [hnil] at h
    cases h
  cases hcut : cut? ('<' :: '/' :: tag) (lower c.rest) with
  | some r =>
    obtain ⟨hsplit, -⟩ := cut?_eq_some_iff.1 hcut
    simp only [rawContent, hcut]
    cases hne : (trim (c.rest.take r.1.length)).isEmpty with
    | true => exact .inl rfl
    | false =>
      have hreach : (c.advance r.1.length).Reaches
          (c.advance (r.1.length + ('<' :: '/' :: tag).length)) :=
        ⟨_, Cursor.advance_add _ _ c⟩
      refine .inr ⟨_, rfl, _, c.reaches_advance _, hreach.trans (reaches_recover _), hread hne,
        fun _ => Nat.lt_of_le_of_lt (recover_le _) ?_⟩
      have hlen := congrArg List.length hsplit
      rw [lower, List.length_map, List.length_append, List.length_append] at hlen
      simp only [Cursor.rest_advance, List.length_drop, List.length_cons] at hlen ⊢
      omega
  | none =>
    simp only [rawContent, hcut]
    cases hne : (trim (c.rest.take c.rest.length)).isEmpty with
    | true => exact .inl rfl
    | false =>
      exact .inr ⟨_, rfl, _, c.reaches_advance _, .refl _, hread hne, fun h => by cases h⟩

/-- At the cursor stands `<` and a tag's name, which ends at `d`. -/
structure Named (c : Cursor) (tag : Text) (d : Cursor) : Prop where
  spelled : ∃ name, c.rest = '<' :: (name ++ d.rest) ∧ lower name = tag
  nonempty : tag ≠ []
  reached : d = c.advance (tag.length + 1)

theorem Named.reaches {c d : Cursor} {tag : Text} (h : Named c tag d) : c.Reaches d :=
  ⟨_, h.reached⟩

theorem Named.length_eq {c d : Cursor} {tag : Text} (h : Named c tag d) :
    c.rest.length = d.rest.length + tag.length + 1 := by
  obtain ⟨name, hc, rfl⟩ := h.spelled
  have hlen : (lower name).length = name.length := List.length_map _
  rw [hc, List.length_cons, List.length_append]
  omega

theorem classify_element {t : Text} (h : classify t = .element) :
    ∃ x r, t = '<' :: x :: r ∧ isLetter x = true := by
  unfold classify at h
  split at h
  · exact absurd h nofun
  · exact absurd h nofun
  · exact absurd h nofun
  · exact absurd h nofun
  · rename_i x r _ _ _ _
    split at h
    · exact ⟨x, r, rfl, ‹_›⟩
    · exact absurd h nofun
  · exact absurd h nofun

theorem tagName_named {c : Cursor} (h : classify c.rest = .element) :
    Named c (tagName c.next).1 (tagName c.next).2 := by
  obtain ⟨x, r, hr, hx⟩ := classify_element h
  have hnext : c.next.rest = x :: r := by simp [hr]
  have htag : isTagChar x = true := by simp [isTagChar, hx]
  have hlen : ((c.next.rest.takeWhile isTagChar).map lowerChar).length =
      (c.next.rest.takeWhile isTagChar).length := List.length_map _
  refine ⟨⟨c.next.rest.takeWhile isTagChar, ?_, rfl⟩, ?_, ?_⟩
  · have hd : (tagName c.next).2.rest = c.next.rest.dropWhile isTagChar :=
      Cursor.rest_skipWhile isTagChar c.next
    rw [hd, List.takeWhile_append_dropWhile, hnext, hr]
  · rw [tagName, lower, hnext, List.takeWhile_cons_of_pos htag]
    exact List.cons_ne_nil _ _
  · simp only [tagName, lower, hlen]
    rfl

theorem State.leave_eq {s : State} {f : Frame} {fs : List Frame} (h : s.frames = f :: fs)
    (c : Cursor) (closed : Bool) :
    s.leave c closed =
      { s with cursor := c, nodes := f.close s.nodes c.pos closed :: f.earlier, frames := fs } := by
  rw [State.leave, h]

/-- What a round of the main loop does where no blank stands. -/
inductive Round (l : Limits) (s : State) : State → Prop where
  /-- Something is passed over. -/
  | pass {c : Cursor} (reach : s.cursor.Reaches c)
      (less : c.rest.length < s.cursor.rest.length) : Round l s { s with cursor := c }
  /-- A text or a comment is read. -/
  | leaf {n : Node} {c : Cursor} (start : n.start = s.cursor.pos) (reach : s.cursor.Reaches c)
      (less : c.rest.length < s.cursor.rest.length) (read : n.IsRead (s.cursor.upTo c) c.rest) :
      Round l s { s.push n with cursor := c }
  /-- An element is read with all that belongs to it, which is a text at most. -/
  | whole {tag : Text} {e : TagEnd} {st : ReadStats} {d c : Cursor} {children : Forest}
      {closed : Bool} (name : Named s.cursor tag d) (tagEnd : e = attributes l d s.stats 0 [])
      (iterations : st.iterations = e.stats.iterations)
      (hit : st.iterationLimitHit = e.stats.iterationLimitHit) (reach : e.cursor.Reaches c)
      (content : children = [] ∨ ∃ t, children = [.text t e.cursor.pos] ∧
        ∃ d, RawText e.cursor d c closed t) :
      Round l s { s with
        cursor := c, stats := st,
        nodes := .element ⟨tag, e.attributes, s.cursor.pos, c.pos, closed⟩ children :: s.nodes }
  /-- An element is entered. -/
  | enter {tag : Text} {e : TagEnd} {d : Cursor} (name : Named s.cursor tag d)
      (tagEnd : e = attributes l d s.stats 0 []) :
      Round l s ⟨e.cursor, e.stats, [], ⟨tag, e.attributes, s.cursor.pos, s.nodes⟩ :: s.frames⟩
  /-- The innermost element is closed. -/
  | close {f : Frame} {fs : List Frame} {c : Cursor} (frames : s.frames = f :: fs)
      (reach : s.cursor.Reaches c) (less : c.rest.length < s.cursor.rest.length) :
      Round l s (s.leave c true)
  /-- The innermost element is left, and nothing is read. -/
  | abandon {f : Frame} {fs : List Frame} (frames : s.frames = f :: fs) :
      Round l s (s.leave s.cursor false)

section Round
variable {l : Limits} {s s' : State}

theorem Round.reaches (h : Round l s s') : s.cursor.Reaches s'.cursor := by
  cases h with
  | pass reach => exact reach
  | leaf _ reach => exact reach
  | whole name tagEnd _ _ reach =>
    exact name.reaches.trans ((tagEnd ▸ reaches_attributes l _ s.stats 0 []).trans reach)
  | enter name tagEnd => exact name.reaches.trans (tagEnd ▸ reaches_attributes l _ s.stats 0 [])
  | close frames reach => rwa [State.leave_eq frames]
  | abandon frames =>
    rw [State.leave_eq frames]
    exact .refl _

private theorem openTag_round (h : classify s.cursor.rest = .element) :
    Round l s (openTag l s) := by
  have name := tagName_named h
  unfold openTag
  dsimp only
  split
  · exact .whole name rfl rfl rfl (.refl _) (.inl rfl)
  · split
    · exact .whole name rfl rfl rfl (reaches_rawContent _ _) (rawContent_nodes _ _)
    · split
      · exact .whole name rfl rfl rfl (.refl _) (.inl rfl)
      · exact .enter name rfl

/-- A text run ends before the first place where markup starts. -/
theorem exists_textRun (t acc : Text) : ∃ u r, t = u ++ r ∧ textRun t acc = acc.reverse ++ u ∧
    ∀ v w, u = v ++ w → w ≠ [] → classify (w ++ r) = .text := by
  have hnil (r : Text) : ∀ v w, [] = v ++ w → w ≠ [] → classify (w ++ r) = .text :=
    fun v w h hw => absurd (List.append_eq_nil_iff.1 h.symm).2 hw
  induction t generalizing acc with
  | nil => exact ⟨[], [], rfl, (List.append_nil _).symm, hnil []⟩
  | cons x t ih =>
    by_cases hx : classify (x :: t) = .text
    · obtain ⟨u, r, rfl, hrun, hu⟩ := ih (x :: acc)
      refine ⟨x :: u, r, rfl, ?_, fun v w h hw => ?_⟩
      · rw [textRun, if_pos hx, hrun, List.reverse_cons, List.append_assoc]
        rfl
      · cases v with
        | nil =>
          obtain rfl : x :: u = w := h
          exact hx
        | cons y v => exact hu v w (List.cons.inj h).2 hw
    · refine ⟨[], x :: t, rfl, ?_, hnil (x :: t)⟩
      rw [textRun, if_neg hx, List.append_nil]

private theorem textRun_isPrefix (t : Text) : textRun t [] <+: t := by
  obtain ⟨u, r, rfl, hrun, -⟩ := exists_textRun t []
  exact hrun ▸ List.prefix_append u r

private theorem commentBody_read {c : Cursor} (h : classify c.rest = .comment) :
    (Node.comment (commentBody c).1 c.pos).IsRead (c.upTo (commentBody c).2)
      (commentBody c).2.rest := by
  obtain ⟨r, hr⟩ : ∃ r, c.rest = '<' :: '!' :: '-' :: '-' :: r := by
    unfold classify at h
    split at h
    · exact ⟨_, ‹_›⟩
    · cases h
    · cases h
    · cases h
    · split at h <;> cases h
    · cases h
  unfold commentBody
  cases hcut : cut? ['-', '-', '>'] (c.rest.drop 4) with
  | some p =>
    obtain ⟨hsplit, -⟩ := cut?_eq_some_iff.1 hcut
    rw [hr] at hsplit
    have hr' : r = p.1 ++ (['-', '-', '>'] ++ p.2) := hsplit
    refine .inl ?_
    rw [Cursor.upTo_advance_eq_take, hr, hr']
    have hlen : 4 + p.1.length + 3 = (p.1 ++ ['-', '-', '>']).length + 4 := by
      simp
      omega
    rw [hlen, ← List.append_assoc]
    simp only [List.take_succ_cons, List.take_left]
  | none =>
    refine .inr ⟨?_, by simp⟩
    rw [Cursor.upTo_advance_eq_take, List.take_length, hr]
    rfl

theorem markup_round (h : s.cursor.rest ≠ []) : Round l s (markup l s) := by
  unfold markup
  split
  · exact .leaf rfl (reaches_commentBody _) (commentBody_lt h) (commentBody_read ‹_›)
  · exact .pass (Cursor.reaches_advance _ _) (afterDeclaration_lt h)
  · have reach := reaches_closingTag s.cursor
    have less := closingTag_lt h
    split
    · exact .pass reach less
    · rename_i f fs hf
      dsimp only
      split
      · exact .close hf reach less
      · split
        · exact .abandon hf
        · exact .pass reach less
  · exact openTag_round ‹_›
  · rename_i hm
    have less : (s.cursor.advance (textRun s.cursor.rest []).length).rest.length <
        s.cursor.rest.length := by
      have := textRun_pos h hm
      have := List.length_pos_iff.2 h
      rw [Cursor.rest_advance, List.length_drop]
      omega
    dsimp only
    split
    · exact .pass (Cursor.reaches_advance _ _) less
    · rename_i hne
      refine .leaf rfl (Cursor.reaches_advance _ _) less ⟨fun hnil => hne ?_, ?_⟩
      · rw [hnil]
        rfl
      · rw [Cursor.upTo_advance_eq_take, ← List.prefix_iff_eq_take.1 (textRun_isPrefix _)]

/-- The main loop goes on: a round was counted, and it was made behind the blanks. -/
theorem step_continues (h : step l s = (s', true)) :
    ∃ st, s.stats.tick l = (st, true) ∧ s.cursor.skipBlanks.rest ≠ [] ∧
      s' = markup l { s with cursor := s.cursor.skipBlanks, stats := st } := by
  unfold step at h
  split at h
  · cases h
  · split at h
    · cases h
    · rename_i st ht
      dsimp only at h
      split at h
      · cases h
      · rename_i hend
        refine ⟨st, ht, ?_, (Prod.mk.inj h).1.symm⟩
        intro hr
        exact hend (by rw [Cursor.atEnd, hr]; rfl)

/-- The main loop ends: nothing is left, or no more rounds may be made, or only blanks are left. -/
theorem step_stops (h : step l s = (s', false)) :
    s.cursor.rest = [] ∧ s' = s ∨
      (∃ st, s.cursor.rest ≠ [] ∧ s.stats.tick l = (st, false) ∧ s' = { s with stats := st }) ∨
      ∃ st, s.cursor.rest ≠ [] ∧ s.cursor.skipBlanks.rest = [] ∧ s.stats.tick l = (st, true) ∧
        s' = { s with cursor := s.cursor.skipBlanks, stats := st } := by
  unfold step at h
  split at h
  · rename_i hend
    exact .inl ⟨List.isEmpty_iff.1 hend, (Prod.mk.inj h).1.symm⟩
  · rename_i hend
    have hne : s.cursor.rest ≠ [] := fun hr => hend (by rw [Cursor.atEnd, hr]; rfl)
    split at h
    · rename_i st ht
      exact .inr (.inl ⟨st, hne, ht, (Prod.mk.inj h).1.symm⟩)
    · rename_i st ht
      dsimp only at h
      split at h
      · rename_i hb
        exact .inr (.inr ⟨st, hne, List.isEmpty_iff.1 hb, ht, (Prod.mk.inj h).1.symm⟩)
      · cases h

/-- What every round keeps, and what it comes to when the rounds end. -/
theorem run_induction {P Q : State → Prop}
    (round : ∀ s s', P s → step l s = (s', true) → P s')
    (stop : ∀ s s', P s → step l s = (s', false) → Q s') (h : P s) : Q (run l s) := by
  fun_induction run l s with
  | case1 s s' hs => exact stop s s' h hs
  | case2 s s' hs ih => exact ih (round s s' h hs)

end Round
end Reader
end MailMarkup
