import Mathlib.Data.List.Sort
import MailMarkup.Proofs.Document.Positions
import MailMarkup.Proofs.Rule.WrapperTables

/-!
# Ranges of wrapper tables

The repair of nested tables edits the text in place: from the last wrapper to the first, the range
of the wrapper in the text made so far is replaced by the range of the table inside in the text
given. Both are ranges of bytes, and each edit could fail. Main statement: `fix_splices`, no edit
fails, for every text and all settings; the wrappers are apart from each other, each reaches beyond
the table inside at both ends, and what goes is no part of a text or a comment.
-/
namespace MailMarkup

namespace Text

/-! ### Ranges of bytes -/

/-- The text before a byte offset and the text behind it. An offset in a character or past the end
has none. -/
def splitBytes? (n : Nat) : Text → Option (Text × Text)
  | [] => if n = 0 then some ([], []) else none
  | c :: t =>
    if n = 0 then some ([], c :: t)
    else if c.utf8Size ≤ n then (splitBytes? (n - c.utf8Size) t).map (Prod.map (List.cons c) id)
    else none

/-- The text in a range of bytes, if the range is one of the text. -/
def slice? (t : Text) (start stop : Nat) : Option Text :=
  if start ≤ stop then (splitBytes? stop t).bind fun p => (splitBytes? start p.1).map Prod.snd
  else none

/-- The text with another one in the place of a range of bytes, if the range is one of the text. -/
def replaceRange? (t : Text) (start stop : Nat) (new : Text) : Option Text :=
  if start ≤ stop then
    (splitBytes? start t).bind fun p => (splitBytes? stop t).map fun q => p.1 ++ (new ++ q.2)
  else none

theorem splitBytes?_eq_some_iff {n : Nat} {t u v : Text} :
    splitBytes? n t = some (u, v) ↔ t = u ++ v ∧ byteSize u = n := by
  induction t generalizing n u with
  | nil =>
    unfold splitBytes?
    constructor
    · intro h
      split at h
      · obtain ⟨rfl, rfl⟩ := Prod.mk.inj (Option.some.inj h)
        exact ⟨rfl, ‹n = 0›.symm⟩
      · cases h
    · rintro ⟨h, rfl⟩
      obtain ⟨rfl, rfl⟩ := List.append_eq_nil_iff.1 h.symm
      rfl
  | cons c t ih =>
    have hpos := c.utf8Size_pos
    unfold splitBytes?
    cases u with
    | nil =>
      constructor
      · intro h
        split at h
        · obtain ⟨-, rfl⟩ := Prod.mk.inj (Option.some.inj h)
          exact ⟨rfl, ‹n = 0›.symm⟩
        · split at h
          · obtain ⟨p, -, hp⟩ := Option.map_eq_some_iff.1 h
            cases hp
          · cases h
      · rintro ⟨rfl, rfl⟩
        rfl
    | cons d u =>
      rw [byteSize_cons]
      constructor
      · intro h
        split at h
        · cases h
        · split at h
          · obtain ⟨p, hp, heq⟩ := Option.map_eq_some_iff.1 h
            obtain ⟨p₁, p₂⟩ := p
            obtain ⟨hcons, rfl⟩ := Prod.mk.inj heq
            obtain ⟨rfl, rfl⟩ := List.cons.inj hcons
            obtain ⟨rfl, hsize⟩ := ih.1 hp
            exact ⟨rfl, by omega⟩
          · cases h
      · rintro ⟨heq, rfl⟩
        obtain ⟨rfl, rfl⟩ := List.cons.inj heq
        rw [if_neg (by omega), if_pos (by omega), Nat.add_sub_cancel_left, ih.2 ⟨rfl, rfl⟩]
        rfl

private theorem slice?_append (u v w : Text) :
    slice? (u ++ (v ++ w)) (byteSize u) (byteSize u + byteSize v) = some v := by
  have hstop : splitBytes? (byteSize u + byteSize v) (u ++ (v ++ w)) = some (u ++ v, w) :=
    splitBytes?_eq_some_iff.2 ⟨by simp, byteSize_append u v⟩
  have hstart : splitBytes? (byteSize u) (u ++ v) = some (u, v) :=
    splitBytes?_eq_some_iff.2 ⟨rfl, rfl⟩
  rw [slice?, if_pos (Nat.le_add_right _ _), hstop, Option.bind_some, hstart]
  rfl

private theorem replaceRange?_append (u v w new : Text) :
    replaceRange? (u ++ (v ++ w)) (byteSize u) (byteSize u + byteSize v) new =
      some (u ++ (new ++ w)) := by
  have hstop : splitBytes? (byteSize u + byteSize v) (u ++ (v ++ w)) = some (u ++ v, w) :=
    splitBytes?_eq_some_iff.2 ⟨by simp, byteSize_append u v⟩
  have hstart : splitBytes? (byteSize u) (u ++ (v ++ w)) = some (u, v ++ w) :=
    splitBytes?_eq_some_iff.2 ⟨rfl, rfl⟩
  rw [replaceRange?, if_pos (Nat.le_add_right _ _), hstop, hstart]
  rfl

end Text

namespace TableNesting
open Text

/-! ### Edits -/

/-- One edit: in the text made so far, a wrapper is replaced by the table inside. -/
def edit? (html t : Text) (w : Head × Head) : Option Text :=
  (slice? html w.2.start.offset w.2.stop.offset).bind
    (replaceRange? t w.1.start.offset w.1.stop.offset)

/-- All edits, in the order given. -/
def edits? (html : Text) (ws : List (Head × Head)) : Option Text := ws.foldlM (edit? html) html

/-- From a byte offset on, a text and the one with each wrapper replaced by the table inside. -/
inductive Exchanged : Nat → Text → List (Head × Head) → Text → Prop where
  | nil (i : Nat) (t : Text) : Exchanged i t [] t
  | cons {i : Nat} {w : Head × Head} {ws : List (Head × Head)} {gap pre inner post rest out : Text}
      (start : w.1.start.offset = i + byteSize gap)
      (innerStart : w.2.start.offset = w.1.start.offset + byteSize pre)
      (innerStop : w.2.stop.offset = w.2.start.offset + byteSize inner)
      (stop : w.1.stop.offset = w.2.stop.offset + byteSize post)
      (opening : pre ≠ []) (closing : post ≠ []) (more : Exchanged w.1.stop.offset rest ws out) :
      Exchanged i (gap ++ (pre ++ (inner ++ (post ++ rest)))) (w :: ws) (gap ++ (inner ++ out))

namespace Exchanged
variable {i : Nat} {t out : Text} {ws : List (Head × Head)}

theorem byteSize_pos {t : Text} (h : t ≠ []) : 0 < byteSize t :=
  Nat.lt_of_lt_of_le (List.length_pos_iff.2 h) (length_le_byteSize t)

/-- Each wrapper reaches beyond the table inside at both ends. -/
theorem contains (h : Exchanged i t ws out) : ∀ w ∈ ws, i ≤ w.1.start.offset ∧
    w.1.start.offset < w.2.start.offset ∧ w.2.start.offset ≤ w.2.stop.offset ∧
    w.2.stop.offset < w.1.stop.offset ∧ w.1.stop.offset ≤ i + byteSize t := by
  induction h with
  | nil => nofun
  | cons start innerStart innerStop stop opening closing _ ih =>
    have hpre := byteSize_pos opening
    have hpost := byteSize_pos closing
    simp only [byteSize_append]
    refine List.forall_mem_cons.2 ⟨by omega, fun w hw => ?_⟩
    obtain ⟨hlo, hopen, hinner, hclose, hhi⟩ := ih w hw
    omega

theorem apart (h : Exchanged i t ws out) :
    ws.Pairwise fun v w => v.1.stop.offset ≤ w.1.start.offset := by
  induction h with
  | nil => exact .nil
  | cons _ _ _ _ _ _ more ih => exact List.pairwise_cons.2 ⟨fun w hw => (more.contains w hw).1, ih⟩

theorem byteSize_le (h : Exchanged i t ws out) : byteSize out + ws.length ≤ byteSize t := by
  induction h with
  | nil => exact Nat.le_refl _
  | cons _ _ _ _ opening _ _ ih =>
    have hpre := byteSize_pos opening
    simp only [byteSize_append, List.length_cons]
    omega

/-- Made from the last wrapper to the first, no edit fails: what is before a wrapper is still as it
was given. -/
theorem foldlM_edit? (h : Exchanged i t ws out) (before : Text) (hi : byteSize before = i) :
    ws.reverse.foldlM (edit? (before ++ t)) (before ++ t) = some (before ++ out) := by
  induction h generalizing before with
  | nil => rfl
  | @cons i w ws gap pre inner post rest out start innerStart innerStop stop opening closing more
      ih =>
    subst hi
    have hmade := ih (before ++ (gap ++ (pre ++ (inner ++ post))))
      (by simp only [byteSize_append]; omega)
    have hslice := slice?_append (before ++ (gap ++ pre)) inner (post ++ rest)
    have hreplace := replaceRange?_append (before ++ gap) (pre ++ (inner ++ post)) out inner
    simp only [byteSize_append, List.append_assoc, ← Nat.add_assoc] at hmade hslice hreplace ⊢
    rw [List.reverse_cons, List.foldlM_append, hmade]
    simp only [Option.bind_eq_bind, Option.bind_some, List.foldlM_cons, List.foldlM_nil, edit?]
    rw [stop, innerStop, innerStart, start, hslice, Option.bind_some, hreplace]
    rfl

end Exchanged

/-! ### Where the wrappers are -/

/-- A wrapper and the table inside were read at places of the text, of which those of the wrapper
are farther out. -/
structure Wraps (t : Text) (w : Head × Head) : Prop where
  start : ∃ r, w.1.start.Marks t r
  innerStart : ∃ r, w.2.start.Marks t r
  innerStop : ∃ r, w.2.stop.Marks t r
  stop : ∃ r, w.1.stop.Marks t r
  opening : w.1.start.index < w.2.start.index
  inside : w.2.start.index ≤ w.2.stop.index
  closing : w.2.stop.index < w.1.stop.index

/-- Wrappers follow one another between two places of a text, given by how many characters are
before them. -/
inductive Ranges (t : Text) : Nat → Nat → List (Head × Head) → Prop where
  | nil {lo hi : Nat} (le : lo ≤ hi) : Ranges t lo hi []
  | cons {lo hi : Nat} {w : Head × Head} {ws : List (Head × Head)} (wraps : Wraps t w)
      (le : lo ≤ w.1.start.index) (more : Ranges t w.1.stop.index hi ws) : Ranges t lo hi (w :: ws)

/-- A stretch, given by how many characters are before its ends, is in the table inside the wrapper
or outside the wrapper. -/
def Keeps (w : Head × Head) (i j : Nat) : Prop :=
  j ≤ w.1.start.index ∨ w.1.stop.index ≤ i ∨ w.2.start.index ≤ i ∧ j ≤ w.2.stop.index

namespace Ranges
variable {t : Text} {lo lo' mid hi : Nat} {vs ws : List (Head × Head)}

theorem lo_le_hi (h : Ranges t lo hi ws) : lo ≤ hi := by
  induction h with
  | nil le => exact le
  | cons wraps le _ ih =>
    obtain ⟨-, -, -, -, opening, inside, closing⟩ := wraps
    omega

theorem weaken (h : Ranges t lo hi ws) (le : lo' ≤ lo) : Ranges t lo' hi ws := by
  cases h with
  | nil le' => exact .nil (le.trans le')
  | cons wraps le' more => exact .cons wraps (le.trans le') more

theorem append (h : Ranges t lo mid vs) (h' : Ranges t mid hi ws) : Ranges t lo hi (vs ++ ws) := by
  induction h with
  | nil le => exact h'.weaken le
  | cons wraps le _ ih => exact .cons wraps le (ih h')

theorem bounds (h : Ranges t lo hi ws) : ∀ w ∈ ws, Wraps t w ∧ lo ≤ w.1.start.index ∧
    w.1.stop.index ≤ hi := by
  induction h with
  | nil => nofun
  | cons wraps le more ih =>
    have hlt : _ < _ := wraps.opening.trans_le (wraps.inside.trans wraps.closing.le)
    refine List.forall_mem_cons.2 ⟨⟨wraps, le, more.lo_le_hi⟩, fun w hw => ?_⟩
    obtain ⟨hwraps, hlo, hhi⟩ := ih w hw
    exact ⟨hwraps, by omega, hhi⟩

theorem keeps_before (h : Ranges t lo hi ws) {i j : Nat} (le : j ≤ lo) : ∀ w ∈ ws, Keeps w i j :=
  fun w hw => .inl (le.trans (h.bounds w hw).2.1)

private theorem keeps_behind (h : Ranges t lo hi ws) {i j : Nat} (le : hi ≤ i) :
    ∀ w ∈ ws, Keeps w i j :=
  fun w hw => .inr (.inl ((h.bounds w hw).2.2.trans le))

private theorem splice_cons {i : Nat} {w : Head × Head} {gap pre inner post rest : Text}
    (start : w.1.start.index = i + gap.length)
    (innerStart : w.2.start.index = w.1.start.index + pre.length)
    (innerStop : w.2.stop.index = w.2.start.index + inner.length)
    (stop : w.1.stop.index = w.2.stop.index + post.length) :
    splice i (gap ++ (pre ++ (inner ++ (post ++ rest)))) (w :: ws) =
      gap ++ (inner ++ splice w.1.stop.index rest ws) := by
  have inside : w.2.start.index - i = (gap ++ pre).length := by
    rw [List.length_append]
    omega
  have behind : w.1.stop.index - i = (gap ++ (pre ++ (inner ++ post))).length := by
    simp only [List.length_append]
    omega
  have hsplit : gap ++ (pre ++ (inner ++ (post ++ rest))) =
      gap ++ (pre ++ (inner ++ post)) ++ rest := by simp only [List.append_assoc]
  rw [splice, inside, behind]
  congr 1
  · rw [start, Nat.add_sub_cancel_left, List.take_left]
  · congr 1
    · rw [← List.append_assoc gap, List.drop_left, innerStop, Nat.add_sub_cancel_left,
        List.take_left]
    · rw [hsplit, List.drop_left]

theorem exchanged (h : Ranges t lo hi ws) {p : Position} {r : Text} (hp : p.Marks t r)
    (hlo : p.index ≤ lo) : Exchanged p.offset r ws (splice p.index r ws) := by
  induction h generalizing p r with
  | nil => exact .nil _ _
  | @cons lo hi w ws wraps le more ih =>
    obtain ⟨⟨_, hstart⟩, ⟨_, hstart'⟩, ⟨_, hstop'⟩, ⟨r', hstop⟩, opening, inside, closing⟩ := wraps
    obtain ⟨gap, rfl, hgap⟩ := hp.between hstart (by omega)
    obtain ⟨pre, hpre, rfl, hpre'⟩ := hstart.ne_nil hstart' opening
    obtain ⟨inner, rfl, hinner⟩ := hstart'.between hstop' inside
    obtain ⟨post, hpost, rfl, hpost'⟩ := hstop'.ne_nil hstop closing
    have hmore := ih hstop (Nat.le_refl _)
    rw [splice_cons (hgap ▸ p.index_read gap) (hpre' ▸ Position.index_read _ pre)
      (hinner ▸ Position.index_read _ inner) (hpost' ▸ Position.index_read _ post)]
    refine .cons ?_ ?_ ?_ ?_ hpre hpost hmore
    · exact hgap ▸ p.offset_read gap
    · exact hpre' ▸ Position.offset_read _ pre
    · exact hinner ▸ Position.offset_read _ inner
    · exact hpost' ▸ Position.offset_read _ post

end Ranges

section Placed
variable {t : Text} {lo hi : Nat} {ns : Forest}

/-- What is in elements lies where they lie. -/
theorem Holds.placed {inner outer : Forest} (held : Holds inner outer)
    (h : Placed t lo hi outer) : ∃ lo' hi', lo ≤ lo' ∧ hi' ≤ hi ∧ Placed t lo' hi' inner := by
  induction held generalizing lo hi with
  | self => exact ⟨lo, hi, Nat.le_refl _, Nat.le_refl _, h⟩
  | child closed notRaw held ih =>
    cases h with
    | leaf read => exact read.elim
    | element names stop le children inside apart rest =>
      obtain ⟨lo', hi', hlo, hhi, h'⟩ := ih children
      have hrest := rest.lo_le_hi
      exact ⟨lo', hi', by omega, by omega, h'⟩

theorem Holds.ne_nil {inner outer : Forest} (held : Holds inner outer) (ne : inner ≠ []) :
    outer ≠ [] := by
  cases held with
  | self => exact ne
  | child => exact List.cons_ne_nil _ _

private theorem Holds.mem_family {inner outer : Forest} (held : Holds inner outer) {n : Node}
    (hn : n ∈ outer.family) (leaf : n.element? = none) : n ∈ inner.family := by
  induction held with
  | self => exact hn
  | child closed notRaw held ih =>
    rw [Forest.family, Forest.family, List.append_nil, Node.family] at hn
    rcases List.mem_cons.1 hn with rfl | hn
    · exact absurd leaf nofun
    · exact ih hn

theorem wraps_of_inner? {h h' : Head} {cs cs' : Forest} {r : Text} {mid : Nat}
    (hi : inner? h cs = some (h', cs')) (names : h.start.Names t h.tag) (stop : h.stop.Marks t r)
    (children : Placed t (h.start.index + h.tag.length + 1) mid cs)
    (apart : cs ≠ [] → h.closed = true → mid < h.stop.index) :
    Wraps t (h, h') ∧ Placed t h'.start.index h'.stop.index cs' := by
  obtain ⟨-, held⟩ := inner?_holds hi
  have hclosed : h.closed = true := by
    cases hc : h.closed with
    | true => rfl
    | false => rw [inner?_eq_none_of_open hc] at hi; cases hi
  have hmid := apart (held.ne_nil (List.cons_ne_nil _ _)) hclosed
  obtain ⟨name, _, hstart, -⟩ := names
  obtain ⟨lo', hi', hlo, hhi, hplaced⟩ := held.placed children
  cases hplaced with
  | leaf read => exact read.elim
  | element names' stop' le' children' inside' _ rest' =>
    obtain ⟨name', _, hstart', -⟩ := names'
    have := children'.lo_le_hi
    have := rest'.lo_le_hi
    refine ⟨⟨⟨_, hstart⟩, ⟨_, hstart'⟩, ⟨_, stop'⟩, ⟨_, stop⟩, ?_, ?_, ?_⟩,
      (children'.mono inside').weaken (by omega)⟩
    all_goals
      dsimp only
      omega

theorem found_of_isRead {n : Node} {u r : Text} (h : n.IsRead u r) : found [n] = [] := by
  cases n with
  | element => exact h.elim
  | text => rfl
  | comment => rfl

theorem ranges_found (h : Placed t lo hi ns) : Ranges t lo hi (found ns) := by
  induction h with
  | nil le => exact .nil le
  | @leaf lo mid hi n ns u r read marks le inside rest ih =>
    rw [found_cons, found_of_isRead read]
    exact ih.weaken (by omega)
  | @element lo mid hi h cs ns r names stop le children inside apart rest ihc ih =>
    rw [found_cons]
    cases hi : inner? h cs with
    | some inner =>
      rw [found_wrapper hi]
      exact .cons (wraps_of_inner? hi names stop children apart).1 le ih
    | none =>
      rw [found_element hi]
      exact (ihc.weaken (by omega)).append (ih.weaken inside)

private theorem exists_keeps_wrapper {h h' : Head} {cs cs' : Forest} {r : Text} {mid : Nat}
    (hi : inner? h cs = some (h', cs')) (names : h.start.Names t h.tag) (stop : h.stop.Marks t r)
    (children : Placed t (h.start.index + h.tag.length + 1) mid cs)
    (apart : cs ≠ [] → h.closed = true → mid < h.stop.index) {n : Node}
    (hn : n ∈ Forest.family cs) (leaf : n.element? = none) :
    ∃ u, n.Lies t h.start.index h.stop.index u ∧
      Keeps (h, h') n.start.index (n.start.index + u.length) := by
  obtain ⟨wraps, hplaced⟩ := wraps_of_inner? hi names stop children apart
  have hinner := (inner?_holds hi).2.mem_family hn leaf
  rw [Forest.family, Forest.family, List.append_nil, Node.family] at hinner
  have hcs : n ∈ Forest.family cs' := List.mem_of_ne_of_mem (by rintro rfl; cases leaf) hinner
  obtain ⟨u, hu⟩ := hplaced.source hcs leaf
  exact ⟨u, hu.mono wraps.opening.le wraps.closing.le, .inr (.inr ⟨hu.le, hu.inside⟩)⟩

/-- No wrapper has a text or a comment outside the table inside it. -/
theorem exists_keeps (h : Placed t lo hi ns) {n : Node} (hn : n ∈ ns.family)
    (leaf : n.element? = none) : ∃ u, n.Lies t lo hi u ∧
      ∀ w ∈ found ns, Keeps w n.start.index (n.start.index + u.length) := by
  induction h with
  | nil => exact absurd hn List.not_mem_nil
  | @leaf lo mid hi m ns u r read marks le inside rest ih =>
    rw [Forest.family, Node.family_of_leaf read.element?_eq_none, List.singleton_append] at hn
    rw [found_cons, found_of_isRead read, List.nil_append]
    have hr := rest.lo_le_hi
    rcases List.mem_cons.1 hn with rfl | hn
    · exact ⟨u, ⟨⟨r, marks, read⟩, le, by omega⟩, (ranges_found rest).keeps_before inside⟩
    · obtain ⟨v, hv, hkeeps⟩ := ih hn
      exact ⟨v, hv.mono (by omega) (Nat.le_refl _), hkeeps⟩
  | @element lo mid hi h cs ns r names stop le children inside apart rest ihc ih =>
    have hc := children.lo_le_hi
    have hr := rest.lo_le_hi
    have hself : Placed t lo h.stop.index [.element h cs] :=
      .element names stop le children inside apart (.nil (Nat.le_refl _))
    rw [Forest.family, Node.family, List.cons_append] at hn
    rw [found_cons]
    obtain rfl | hn | hn : n = .element h cs ∨ n ∈ Forest.family cs ∨ n ∈ Forest.family ns := by
      simpa only [List.mem_cons, List.mem_append] using hn
    · exact absurd leaf nofun
    · obtain ⟨v, hv, hkeeps⟩ : ∃ v, n.Lies t h.start.index h.stop.index v ∧
          ∀ w ∈ found [.element h cs], Keeps w n.start.index (n.start.index + v.length) := by
        cases hi : inner? h cs with
        | some inner =>
          obtain ⟨v, hv, hkeeps⟩ := exists_keeps_wrapper hi names stop children apart hn leaf
          exact ⟨v, hv, found_wrapper hi ▸ List.forall_mem_singleton.2 hkeeps⟩
        | none =>
          obtain ⟨v, hv, hkeeps⟩ := ihc hn
          exact ⟨v, hv.mono (by omega) inside, found_element hi ▸ hkeeps⟩
      exact ⟨v, hv.mono le hr, List.forall_mem_append.2
        ⟨hkeeps, (ranges_found rest).keeps_before hv.inside⟩⟩
    · obtain ⟨v, hv, hkeeps⟩ := ih hn
      exact ⟨v, hv.mono (by omega) (Nat.le_refl _), List.forall_mem_append.2
        ⟨(ranges_found hself).keeps_behind hv.le, hkeeps⟩⟩

end Placed

/-! ### The repair -/

/-- A byte of a wrapper that is not one of the table inside. -/
def Drops (w : Head × Head) (i : Nat) : Prop :=
  w.1.start.offset ≤ i ∧ i < w.1.stop.offset ∧ ¬ (w.2.start.offset ≤ i ∧ i < w.2.stop.offset)

private theorem Keeps.not_drops {t u r : Text} {w : Head × Head} {n : Node} (wraps : Wraps t w)
    (hn : n.start.Marks t (u ++ r)) (keeps : Keeps w n.start.index (n.start.index + u.length))
    {i : Nat} (hlo : n.start.offset ≤ i) (hhi : i < n.start.offset + byteSize u) :
    ¬ Drops w i := by
  obtain ⟨⟨_, hstart⟩, ⟨_, hstart'⟩, ⟨_, hstop'⟩, ⟨_, hstop⟩, -, -, -⟩ := wraps
  have hend : (n.start.read u).Marks t r := by
    obtain ⟨v, ht, hv⟩ := hn
    exact ⟨v ++ u, by rw [ht, List.append_assoc], by rw [hv, Position.read_append]⟩
  rw [← Position.index_read] at keeps
  rw [← Position.offset_read] at hhi
  rintro ⟨hin, hout, hnot⟩
  rcases keeps with h | h | ⟨h, h'⟩
  · have := hend.offset_le hstart h
    omega
  · have := hstop.offset_le hn h
    omega
  · have := hstart'.offset_le hn h
    have := hend.offset_le hstop' h'
    omega

/-- The repair of nested tables, for every text and all settings. What it edits are ranges of the
text made so far, so no edit fails. The wrappers do not overlap and each reaches beyond the table
inside at both ends; sorting them from the last to the first changes nothing, as they were found so.
The result is the text with each wrapper replaced by the table inside, and is shorter if there are
wrappers. No byte that a text or a comment was read from goes. -/
theorem fix_splices (s : Subject) :
    let forest := (Document.read s.settings.limits s.html).nodes
    let ws := wrappersIn [] forest
    ∃ out, fix s = .done out ∧
      (depth forest ≤ s.settings.thresholds.maxTableDepth → out = s.html) ∧
      (s.settings.thresholds.maxTableDepth < depth forest →
        (ws.Pairwise fun v w => w.1.stop.offset ≤ v.1.start.offset) ∧
        (∀ w ∈ ws, w.1.start.offset < w.2.start.offset ∧ w.2.start.offset ≤ w.2.stop.offset ∧
          w.2.stop.offset < w.1.stop.offset ∧ w.1.stop.offset ≤ byteSize s.html) ∧
        edits? s.html (ws.mergeSort fun v w => w.1.start.offset ≤ v.1.start.offset) = some out ∧
        Exchanged 0 s.html ws.reverse out ∧
        (ws ≠ [] → byteSize out < byteSize s.html) ∧
        ∀ n ∈ forest.family, n.element? = none → ∃ u r, n.start.Marks s.html (u ++ r) ∧
          n.IsRead u r ∧ ∀ i, n.start.offset ≤ i → i < n.start.offset + byteSize u →
            ∀ w ∈ ws, ¬ Drops w i) := by
  intro forest ws
  refine ⟨_, fix_eq s, fun hle => if_pos hle, fun hlt => ?_⟩
  rw [if_neg (Nat.not_le.2 hlt)]
  obtain ⟨hi, hplaced⟩ := Document.read_placed s.settings.limits s.html
  have hranges := ranges_found hplaced
  have hwhole : Position.Marks {} s.html s.html := ⟨[], rfl, rfl⟩
  have exchanged : Exchanged 0 s.html ws.reverse (splice 0 s.html ws.reverse) :=
    hranges.exchanged hwhole (Nat.le_refl _)
  have apart : ws.Pairwise fun v w => w.1.stop.offset ≤ v.1.start.offset :=
    List.pairwise_reverse.1 exchanged.apart
  have contains : ∀ w ∈ ws, _ := fun w hw => exchanged.contains w (List.mem_reverse.2 hw)
  have sorted : (ws.mergeSort fun v w => w.1.start.offset ≤ v.1.start.offset) = ws := by
    refine List.mergeSort_of_pairwise (apart.imp_of_mem fun {v w} hv hw h => ?_)
    have := contains v hv
    have := contains w hw
    rw [decide_eq_true_eq]
    omega
  refine ⟨apart, fun w hw => ?_, ?_, exchanged, fun hne => ?_, fun n hn leaf => ?_⟩
  · obtain ⟨-, opening, inside, closing, hend⟩ := contains w hw
    exact ⟨opening, inside, closing, by omega⟩
  · have hedits := exchanged.foldlM_edit? [] rfl
    rw [List.reverse_reverse] at hedits
    rw [sorted]
    exact hedits
  · have hle := exchanged.byteSize_le
    have hpos := List.length_pos_iff.2 hne
    rw [List.length_reverse] at hle
    exact Nat.lt_of_lt_of_le (Nat.lt_add_of_pos_right hpos) hle
  · obtain ⟨u, ⟨⟨r, marks, read⟩, -, -⟩, keeps⟩ := exists_keeps hplaced hn leaf
    refine ⟨u, r, marks, read, fun i hlo hhi w hw => ?_⟩
    have hw' := List.mem_reverse.2 hw
    exact (keeps w hw').not_drops (hranges.bounds w hw').1 marks hlo hhi

end TableNesting
end MailMarkup
