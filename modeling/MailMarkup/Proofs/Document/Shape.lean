import MailMarkup.Proofs.Document.ClosingTags
import MailMarkup.Proofs.Document.Declarations

/-!
# The shape of trees that are read

Whatever the text and the ceilings, a tree has elements that are not too deep, with names and
attributes as a tag can have them, and texts and comments in which no markup is left. This is no
more than each reader gives to what it reads, wherever it stops, and the open elements carry it from
round to round: they are fewer than may be open, and the siblings before each have their shape one
level further out.
-/
namespace MailMarkup
open Text Reader

/-- No `<` in the text starts a comment, a closing tag, a declaration or an element. -/
def IsUnopened (t : Text) : Prop :=
  ∀ x, ['<', x] <:+: t → isLetter x = false ∧ x ∉ ['!', '/', '?']

theorem IsUnopened.mono {t u : Text} (h : IsUnopened t) (hu : u <:+: t) : IsUnopened u :=
  fun x hx => h x (hx.trans hu)

/-- Attributes as an element can have them, up to some number. -/
structure Attributes.Shaped (limit : Nat) (as : List (Text × Text)) : Prop where
  count : as.length ≤ limit
  names : ∀ a ∈ as, IsAttributeName a.1
  distinct : (as.map Prod.fst).Nodup

namespace Attributes.Shaped
variable {limit : Nat} {as : List (Text × Text)} {a : Text × Text}

theorem nil : Shaped limit [] := ⟨Nat.zero_le _, nofun, .nil⟩

theorem mono {limit' : Nat} (h : Shaped limit as) (hle : limit ≤ limit') : Shaped limit' as :=
  ⟨h.count.trans hle, h.names, h.distinct⟩

theorem reverse (h : Shaped limit as) : Shaped limit as.reverse := by
  refine ⟨?_, fun a ha => h.names a (List.mem_reverse.1 ha), ?_⟩
  · rw [List.length_reverse]
    exact h.count
  · rw [List.map_reverse]
    exact (List.reverse_perm _).nodup_iff.2 h.distinct

theorem add (h : Shaped limit as) (ha : IsAttributeName a.1) :
    Shaped (limit + 1) (if as.any (·.1 == a.1) then as else a :: as) := by
  split
  · exact h.mono (Nat.le_succ limit)
  · rename_i hnew
    refine ⟨Nat.succ_le_succ h.count, List.forall_mem_cons.2 ⟨ha, h.names⟩,
      List.nodup_cons.2 ⟨fun hmem => hnew ?_, h.distinct⟩⟩
    obtain ⟨b, hb, hname⟩ := List.mem_map.1 hmem
    exact List.any_eq_true.2 ⟨b, hb, beq_iff_eq.2 hname⟩

end Attributes.Shaped

/-- The name and the attributes of an element at some depth. -/
structure OpeningShape (l : Limits) (depth : Nat) (tag : Text) (as : List (Text × Text)) :
    Prop where
  depth_le : depth ≤ l.maxDepth
  tag : IsTag tag
  attributes : Attributes.Shaped l.maxAttributeIterations as

/-- The shape of a node that lies in as many elements as its depth says. -/
inductive Node.Shaped (l : Limits) : Nat → Node → Prop where
  | text {depth : Nat} {t : Text} {p : Position} (trimmed : IsTrimmed t) (content : IsUnopened t) :
      Shaped l depth (.text t p)
  | comment {depth : Nat} {t : Text} {p : Position} (content : ¬ "-->".toList <:+: t) :
      Shaped l depth (.comment t p)
  | void {depth : Nat} {h : Head} (opening : OpeningShape l depth h.tag h.attributes)
      (void : h.tag ∈ voidTags) (closed : h.closed = true) : Shaped l depth (.element h [])
  | raw {depth : Nat} {h : Head} {cs : Forest} (opening : OpeningShape l depth h.tag h.attributes)
      (raw : h.tag ∈ rawTags) (content : RawContent h.tag cs) : Shaped l depth (.element h cs)
  | element {depth : Nat} {h : Head} {cs : Forest}
      (opening : OpeningShape l depth h.tag h.attributes) (void : h.tag ∉ voidTags)
      (raw : h.tag ∉ rawTags) (children : ∀ n ∈ cs, n.Shaped l (depth + 1)) :
      Shaped l depth (.element h cs)

/-- All nodes of a forest have their shape. -/
def Forest.Shaped (l : Limits) (depth : Nat) (ns : Forest) : Prop := ∀ n ∈ ns, n.Shaped l depth

section Shaped
variable {l : Limits} {depth : Nat} {n : Node} {ns : Forest} {h : Head}

theorem Forest.shaped_nil : Forest.Shaped l depth [] := nofun

theorem Forest.Shaped.cons (hns : Forest.Shaped l depth ns) (hn : n.Shaped l depth) :
    Forest.Shaped l depth (n :: ns) := List.forall_mem_cons.2 ⟨hn, hns⟩

theorem Forest.Shaped.reverse (hns : Forest.Shaped l depth ns) :
    Forest.Shaped l depth ns.reverse := fun n hn => hns n (List.mem_reverse.1 hn)

theorem Node.Shaped.childless (opening : OpeningShape l depth h.tag h.attributes)
    (closed : h.tag ∈ voidTags → h.closed = true) : Node.Shaped l depth (.element h []) := by
  by_cases void : h.tag ∈ voidTags
  · exact .void opening void (closed void)
  by_cases raw : h.tag ∈ rawTags
  · exact .raw opening raw .empty
  · exact .element opening void raw Forest.shaped_nil

end Shaped

namespace Reader
variable {l : Limits} {c c' : Cursor} {s s' : State}

/-! ### What the readers of parts give -/

private theorem isTag_tagName (h : classify c.rest = .element) : IsTag (tagName c.next).1 := by
  obtain ⟨x, r, hr, hx⟩ := classify_element h
  have hname : (tagName c.next).1 = lowerChar x :: lower (r.takeWhile isTagChar) := by
    rw [tagName, Cursor.rest_next, hr, List.tail_cons, List.takeWhile_cons_of_pos]
    · rfl
    · simp [isTagChar, hx]
  rw [hname]
  refine ⟨isLower_lowerChar_of_isLetter hx, List.forall_mem_map.2 fun y hy => ?_⟩
  have hchar : isTagChar (lowerChar y) = true := by
    rw [isTagChar_lowerChar]
    exact List.mem_takeWhile_imp hy
  have hupper := isUpper_lowerChar y
  simp only [isTagChar, isLetter, hupper, Bool.or_false, Bool.or_eq_true, beq_iff_eq] at hchar
  simp only [List.mem_cons, List.not_mem_nil, or_false]
  rcases hchar with ((((hy | hy) | hy) | hy) | hy) | hy <;> simp only [hy, true_or, or_true]

private theorem attribute?_name {a : Text × Text} (h : attribute? c = some (a, c')) :
    a.1 = lower (c.rest.takeWhile isNameChar) := by
  unfold attribute? at h
  dsimp only at h
  split at h
  · cases h
  · split at h
    · obtain ⟨rfl, -⟩ := Prod.mk.inj (Option.some.inj h)
      rfl
    · obtain ⟨rfl, -⟩ := Prod.mk.inj (Option.some.inj h)
      rfl

private theorem isAttributeName_attribute? {a : Text × Text} (h : attribute? c = some (a, c')) :
    IsAttributeName a.1 := by
  obtain ⟨y, r, hr, hy⟩ := attribute?_head h
  rw [attribute?_name h]
  refine ⟨?_, List.forall_mem_map.2 fun x hx => ?_⟩
  · rw [hr, List.takeWhile_cons_of_pos hy]
    exact List.cons_ne_nil _ _
  · have hchar := List.mem_takeWhile_imp hx
    obtain ⟨hblank, hmark⟩ : isBlank x = false ∧ x ∉ ['=', '>', '/', '<', '"', '\''] := by
      simpa [isNameChar, and_assoc] using hchar
    rw [isBlank_lowerChar]
    exact ⟨isUpper_lowerChar x, hblank, Style.not_mem_lowerChar _ (by decide) x hmark⟩

/-- A round adds one attribute at most, so there are never more of them than rounds. -/
theorem attributes_shaped (c : Cursor) (st : ReadStats) (round : Nat) (seen : List (Text × Text))
    (hround : round ≤ l.maxAttributeIterations) (hseen : Attributes.Shaped round seen) :
    Attributes.Shaped l.maxAttributeIterations (attributes l c st round seen).attributes := by
  induction c, st, round, seen using attributes_induction (l := l) with
  | spent c st round seen hr =>
    rw [attributes_spent hr]
    exact hseen.reverse.mono hround
  | stopped c st round seen st' hr ht =>
    rw [attributes_stopped hr ht]
    exact hseen.reverse.mono hround
  | ended c st round seen st' c' closing hr ht h =>
    rw [attributes_round hr ht h]
    exact hseen.reverse.mono hround
  | found c st round seen st' a c' hr ht h ih =>
    rw [attributes_round hr ht h]
    cases h with
    | entry _ found => exact ih hr (hseen.add (isAttributeName_attribute? found))
  | passed c st round seen st' c' n hr ht h ih =>
    rw [attributes_round hr ht h]
    exact ih hr (hseen.mono (Nat.le_succ round))

private theorem not_infix_commentBody (c : Cursor) : ¬ "-->".toList <:+: (commentBody c).1 := by
  unfold commentBody
  split
  · exact not_infix_of_cut? (by decide) ‹_›
  · exact cut?_eq_none_iff.1 ‹_›

private theorem unopened_of_classify {x : Char} {r : Text} (h : classify ('<' :: x :: r) = .text) :
    isLetter x = false ∧ x ∉ ['!', '/', '?'] := by
  unfold classify at h
  split at h <;> simp_all

private theorem isUnopened_textRun (t : Text) : IsUnopened (textRun t []) := by
  obtain ⟨u, r, -, hrun, hu⟩ := exists_textRun t []
  rw [hrun]
  rintro x ⟨v, w, hin⟩
  refine unopened_of_classify (r := w ++ r) (hu v ('<' :: x :: w) ?_ (List.cons_ne_nil _ _))
  exact hin.symm.trans (List.append_assoc v ['<', x] w)

private theorem rawContent_shape (tag : Text) (c : Cursor) :
    RawContent tag (rawContent tag c).1 := by
  have htext {n : Nat} (hn : ¬ ('<' :: '/' :: tag) <:+: lower (c.rest.take n)) :
      RawContent tag (rawNodes (c.rest.take n) c.pos) := by
    unfold rawNodes
    split
    · exact .empty
    · rename_i hne
      refine .text (Style.isTrimmed_trim (Bool.not_eq_true _ ▸ hne)) fun hin => hn ?_
      exact hin.trans ((trim_isInfix _).map lowerChar)
  cases hcut : cut? ('<' :: '/' :: tag) (lower c.rest) with
  | none =>
    simp only [rawContent, hcut]
    refine htext ?_
    rw [List.take_length]
    exact cut?_eq_none_iff.1 hcut
  | some r =>
    obtain ⟨body, post⟩ := r
    simp only [rawContent, hcut]
    refine htext ?_
    obtain ⟨hsplit, -⟩ := cut?_eq_some_iff.1 hcut
    rw [lower, List.map_take, ← lower, hsplit, List.take_left]
    exact not_infix_of_cut? (List.cons_ne_nil _ _) hcut

/-! ### What the rounds keep -/

/-- The open elements, innermost first, with the siblings before each. -/
inductive FramesShaped (l : Limits) : List Frame → Prop where
  | nil : FramesShaped l []
  | cons {f : Frame} {fs : List Frame} (opening : OpeningShape l fs.length f.tag f.attributes)
      (room : fs.length < l.maxDepth) (void : f.tag ∉ voidTags) (raw : f.tag ∉ rawTags)
      (earlier : Forest.Shaped l fs.length f.earlier) (outer : FramesShaped l fs) :
      FramesShaped l (f :: fs)

/-- What has been read has its shape. -/
structure State.Shaped (l : Limits) (s : State) : Prop where
  frames : FramesShaped l s.frames
  nodes : Forest.Shaped l s.frames.length s.nodes

section Frames
variable {f : Frame} {fs : List Frame} {nodes : Forest}

theorem FramesShaped.length_le (h : FramesShaped l fs) : fs.length ≤ l.maxDepth := by
  cases h with
  | nil => exact Nat.zero_le _
  | cons _ room => exact room

theorem FramesShaped.close (h : FramesShaped l (f :: fs))
    (hn : Forest.Shaped l (f :: fs).length nodes) (stop : Position) (closed : Bool) :
    FramesShaped l fs ∧
      Forest.Shaped l fs.length (f.close nodes stop closed :: f.earlier) := by
  cases h with
  | cons opening _ void raw earlier outer =>
    exact ⟨outer, earlier.cons (.element opening void raw hn.reverse)⟩

private theorem finish_shaped (stop : Position) (h : FramesShaped l fs)
    (hn : Forest.Shaped l fs.length nodes) : Forest.Shaped l 0 (finish stop nodes fs) := by
  induction fs generalizing nodes with
  | nil => exact hn.reverse
  | cons f fs ih =>
    obtain ⟨outer, hnodes⟩ := h.close hn stop false
    exact ih outer hnodes

end Frames

theorem State.Shaped.moved (h : s.Shaped l) (c : Cursor) (st : ReadStats) :
    State.Shaped l { s with cursor := c, stats := st } := ⟨h.frames, h.nodes⟩

theorem State.Shaped.push {n : Node} (h : s.Shaped l) (hn : n.Shaped l s.frames.length)
    (c : Cursor) (st : ReadStats) :
    State.Shaped l { s with cursor := c, stats := st, nodes := n :: s.nodes } :=
  ⟨h.frames, h.nodes.cons hn⟩

theorem State.Shaped.leave (h : s.Shaped l) (c : Cursor) (closed : Bool) :
    (s.leave c closed).Shaped l := by
  unfold State.leave
  split
  · exact ⟨h.frames, h.nodes⟩
  · rename_i f fs hf
    obtain ⟨frames, nodes⟩ := h
    rw [hf] at frames nodes
    obtain ⟨outer, hnodes⟩ := frames.close nodes c.pos closed
    exact ⟨outer, hnodes⟩

private theorem openTag_shaped (h : s.Shaped l) (kind : classify s.cursor.rest = .element) :
    (openTag l s).Shaped l := by
  have opening : OpeningShape l s.frames.length (tagName s.cursor.next).1
      (attributes l (tagName s.cursor.next).2 s.stats 0 []).attributes :=
    ⟨h.frames.length_le, isTag_tagName kind, attributes_shaped _ _ _ _ (Nat.zero_le _) .nil⟩
  unfold openTag
  dsimp only
  split
  · exact h.push (.childless opening fun _ => rfl) _ _
  · rename_i more
    rw [Bool.or_eq_true, List.contains_iff_mem, not_or] at more
    split
    · rename_i raw
      exact h.push (.raw opening (List.contains_iff_mem.1 raw) (rawContent_shape _ _)) _ _
    · rename_i notRaw
      split
      · exact h.push (.childless opening fun void => absurd void more.2) _ _
      · rename_i room
        exact ⟨.cons opening (Nat.not_le.1 room) more.2 (mt List.contains_iff_mem.2 notRaw)
          h.nodes h.frames, Forest.shaped_nil⟩

private theorem markup_shaped (h : s.Shaped l) : (markup l s).Shaped l := by
  unfold markup
  cases kind : classify s.cursor.rest with
  | comment => exact h.push (.comment (not_infix_commentBody _)) _ _
  | declaration => exact h.moved _ _
  | closing =>
    dsimp only
    split
    · exact h.moved _ _
    · split
      · exact h.leave _ _
      · split
        · exact h.leave _ _
        · exact h.moved _ _
  | element => exact openTag_shaped h kind
  | text =>
    dsimp only
    split
    · exact h.moved _ _
    · rename_i hne
      refine h.push (.text (Style.isTrimmed_trim (Bool.not_eq_true _ ▸ hne)) ?_) _ _
      exact (isUnopened_textRun _).mono (trim_isInfix _)

theorem step_shaped {more : Bool} (h : s.Shaped l) (hstep : step l s = (s', more)) :
    s'.Shaped l := by
  cases more with
  | true =>
    obtain ⟨st, -, -, rfl⟩ := step_continues hstep
    exact markup_shaped (h.moved _ st)
  | false =>
    obtain ⟨-, rfl⟩ | ⟨st, -, -, rfl⟩ | ⟨st, -, -, -, rfl⟩ := step_stops hstep
    · exact h
    · exact h.moved _ st
    · exact h.moved _ st

private theorem run_shaped (h : s.Shaped l) : (run l s).Shaped l :=
  run_induction (fun _ _ => step_shaped) (fun _ _ => step_shaped) h

end Reader

/-- Whatever text is read under whatever ceilings, all nodes of the document have their shape. -/
theorem Document.read_shaped (l : Limits) (t : Text) : Forest.Shaped l 0 (read l t).nodes := by
  have h : (run l ⟨.start t, {}, [], []⟩).Shaped l := run_shaped ⟨.nil, Forest.shaped_nil⟩
  exact finish_shaped _ h.frames h.nodes

end MailMarkup
