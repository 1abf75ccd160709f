import MailMarkup.Proofs.Document.Preorder
import MailMarkup.Proofs.Document.Round

/-!
# Positions of nodes

Each node of a document was read at a place of the text, and each element up to another one. Inside
a stretch of the text the nodes follow one another: a node starts where the one before it has ended
or later, and an element's children lie between its name and its end. This is kept by every round,
for the nodes under each open element.
-/
namespace MailMarkup
open Text Reader

/-- A tag's name stands at a position, after `<` and in any case. -/
def Position.Names (t : Text) (p : Position) (tag : Text) : Prop :=
  ∃ name rest, p.Marks t ('<' :: (name ++ rest)) ∧ lower name = tag

/-- The nodes of a forest follow one another between two places of a text, given by how many
characters are before them. What is in a closed element ends before the element's closing tag. -/
inductive Placed (t : Text) : Nat → Nat → Forest → Prop where
  | nil {lo hi : Nat} (le : lo ≤ hi) : Placed t lo hi []
  | leaf {lo mid hi : Nat} {n : Node} {ns : Forest} {u r : Text} (read : n.IsRead u r)
      (marks : n.start.Marks t (u ++ r)) (le : lo ≤ n.start.index)
      (inside : n.start.index + u.length ≤ mid) (rest : Placed t mid hi ns) :
      Placed t lo hi (n :: ns)
  | element {lo mid hi : Nat} {h : Head} {cs ns : Forest} {r : Text}
      (names : h.start.Names t h.tag) (stop : h.stop.Marks t r) (le : lo ≤ h.start.index)
      (children : Placed t (h.start.index + h.tag.length + 1) mid cs) (inside : mid ≤ h.stop.index)
      (apart : cs ≠ [] → h.closed = true → mid < h.stop.index)
      (rest : Placed t h.stop.index hi ns) : Placed t lo hi (.element h cs :: ns)

/-- A text or a comment was read from `u`, which lies between two places of a text. -/
structure Node.Lies (t : Text) (lo hi : Nat) (u : Text) (n : Node) : Prop where
  read : ∃ r, n.start.Marks t (u ++ r) ∧ n.IsRead u r
  le : lo ≤ n.start.index
  inside : n.start.index + u.length ≤ hi

theorem Node.Lies.mono {t u : Text} {lo lo' hi hi' : Nat} {n : Node} (h : n.Lies t lo hi u)
    (le : lo' ≤ lo) (le' : hi ≤ hi') : n.Lies t lo' hi' u :=
  ⟨h.read, Nat.le_trans le h.le, Nat.le_trans h.inside le'⟩

namespace Placed
variable {t : Text} {lo mid hi : Nat} {ms ns : Forest}

theorem lo_le_hi (h : Placed t lo hi ns) : lo ≤ hi := by
  induction h with
  | nil le => exact le
  | leaf _ _ le inside _ ih => omega
  | element _ _ le _ inside _ _ ihc ih => omega

theorem append (h : Placed t lo mid ms) (h' : Placed t mid hi ns) : Placed t lo hi (ms ++ ns) := by
  induction h with
  | nil le =>
    cases h' with
    | nil le' => exact .nil (Nat.le_trans le le')
    | leaf read marks le' inside rest =>
      exact .leaf read marks (Nat.le_trans le le') inside rest
    | element names stop le' children inside apart rest =>
      exact .element names stop (Nat.le_trans le le') children inside apart rest
  | leaf read marks le inside _ ih => exact .leaf read marks le inside (ih h')
  | element names stop le children inside apart _ _ ih =>
    exact .element names stop le children inside apart (ih h')

theorem mono (h : Placed t lo mid ns) (le : mid ≤ hi) : Placed t lo hi ns := by
  have := h.append (.nil le)
  rwa [List.append_nil] at this

theorem weaken {lo' : Nat} (h : Placed t lo hi ns) (le : lo' ≤ lo) : Placed t lo' hi ns := by
  have := (Placed.nil le).append h
  rwa [List.nil_append] at this

theorem snoc {n : Node} (h : Placed t lo mid ns.reverse) (h' : Placed t mid hi [n]) :
    Placed t lo hi (n :: ns).reverse := by
  rw [List.reverse_cons]
  exact h.append h'

end Placed

namespace Reader
variable {t : Text} {l : Limits} {s s' : State}

/-- Each open element was read at a place of the text, after the siblings before it; `lo` is where
the nodes inside the innermost one may start. -/
inductive Framed (t : Text) : List Frame → Nat → Prop where
  | nil : Framed t [] 0
  | cons {f : Frame} {fs : List Frame} {lo : Nat} (names : f.start.Names t f.tag)
      (earlier : Placed t lo f.start.index f.earlier.reverse) (outer : Framed t fs lo) :
      Framed t (f :: fs) (f.start.index + f.tag.length + 1)

/-- What has been read lies where it was read. -/
structure State.Placed (t : Text) (s : State) : Prop where
  cursor : s.cursor.In t
  nodes : ∃ lo, Framed t s.frames lo ∧ MailMarkup.Placed t lo s.cursor.pos.index s.nodes.reverse

theorem Named.names {c d : Cursor} {tag : Text} (h : Named c tag d) (hc : c.In t) :
    c.pos.Names t tag := by
  obtain ⟨name, hr, hname⟩ := h.spelled
  exact ⟨name, d.rest, hr ▸ hc, hname⟩

theorem Named.index_eq {c d : Cursor} {tag : Text} (h : Named c tag d) (hc : c.In t) :
    d.pos.index = c.pos.index + tag.length + 1 := by
  have := h.length_eq
  have := hc.index_eq
  have := (h.reaches.mem hc).index_eq
  omega

theorem Framed.close {f : Frame} {fs : List Frame} {lo mid : Nat} {nodes : Forest} {c : Cursor}
    (hf : Framed t (f :: fs) lo) (hn : MailMarkup.Placed t lo mid nodes.reverse) (hc : c.In t)
    (closed : Bool) (inside : mid ≤ c.pos.index) (apart : closed = true → mid < c.pos.index) :
    ∃ lo', Framed t fs lo' ∧ MailMarkup.Placed t lo' c.pos.index
      (f.close nodes c.pos closed :: f.earlier).reverse := by
  cases hf with
  | cons names earlier outer =>
    refine ⟨_, outer, earlier.snoc ?_⟩
    exact .element names hc (Nat.le_refl _) hn inside (fun _ => apart) (.nil (Nat.le_refl _))

theorem placed_leaf {n : Node} {c d : Cursor} (hc : c.In t) (start : n.start = c.pos)
    (reach : c.Reaches d) (read : n.IsRead (c.upTo d) d.rest) :
    MailMarkup.Placed t c.pos.index d.pos.index [n] := by
  obtain ⟨hrest, hindex⟩ := reach.upTo
  have marks : n.start.Marks t (c.upTo d ++ d.rest) := start ▸ hrest ▸ hc
  exact .leaf read marks (start ▸ Nat.le_refl _) (start ▸ Nat.le_of_eq hindex.symm)
    (.nil (Nat.le_refl _))

theorem Round.placed (h : Round l s s') (hs : s.Placed t) : s'.Placed t := by
  have hc := hs.cursor
  obtain ⟨lo, hf, hn⟩ := hs.nodes
  refine ⟨h.reaches.mem hc, ?_⟩
  cases h with
  | pass reach less => exact ⟨lo, hf, hn.mono reach.index_le⟩
  | @leaf n c start reach less read =>
    exact ⟨lo, hf, hn.snoc (placed_leaf hc start reach read)⟩
  | @whole tag e st d c children closed name tagEnd iterations hit reach content =>
    have hd := name.reaches.mem hc
    have htag : d.Reaches e.cursor := tagEnd ▸ reaches_attributes l d s.stats 0 []
    have he := htag.mem hd
    have hstart : s.cursor.pos.index + tag.length + 1 ≤ e.cursor.pos.index :=
      name.index_eq hc ▸ htag.index_le
    refine ⟨lo, hf, hn.snoc ?_⟩
    have hself : MailMarkup.Placed t c.pos.index c.pos.index [] := .nil (Nat.le_refl _)
    rcases content with rfl | ⟨text, rfl, b, hb, hcb, read, apart⟩
    · exact .element (name.names hc) (reach.mem he) (Nat.le_refl _)
        (.nil (Nat.le_trans hstart reach.index_le)) (Nat.le_refl _) (fun hne => (hne rfl).elim)
        hself
    · exact .element (name.names hc) (reach.mem he) (Nat.le_refl _)
        ((placed_leaf he rfl hb read).weaken hstart) hcb.index_le
        (fun _ hclosed => hcb.index_lt (apart hclosed)) hself
  | @enter tag e d name tagEnd =>
    have htag : d.Reaches e.cursor := tagEnd ▸ reaches_attributes l d s.stats 0 []
    refine ⟨_, .cons (name.names hc) hn hf, .nil ?_⟩
    exact name.index_eq hc ▸ htag.index_le
  | @close f fs c frames reach less =>
    rw [frames] at hf
    rw [State.leave_eq frames]
    exact hf.close hn (reach.mem hc) true reach.index_le fun _ => reach.index_lt less
  | @abandon f fs frames =>
    rw [frames] at hf
    rw [State.leave_eq frames]
    exact hf.close hn hc false (Nat.le_refl _) nofun

theorem State.Placed.skipBlanks (hs : s.Placed t) (st : ReadStats) :
    State.Placed t { s with cursor := s.cursor.skipBlanks, stats := st } := by
  have reach := s.cursor.reaches_skipBlanks
  obtain ⟨lo, hf, hn⟩ := hs.nodes
  exact ⟨reach.mem hs.cursor, lo, hf, hn.mono reach.index_le⟩

private theorem run_placed (hs : s.Placed t) : (run l s).Placed t := by
  refine run_induction (P := State.Placed t) (Q := State.Placed t) ?_ ?_ hs
  · intro s s' hs h
    obtain ⟨st, -, hne, rfl⟩ := step_continues h
    exact (markup_round hne).placed (hs.skipBlanks st)
  · intro s s' hs h
    obtain ⟨-, rfl⟩ | ⟨st, -, -, rfl⟩ | ⟨st, -, -, -, rfl⟩ := step_stops h
    · exact hs
    · exact ⟨hs.cursor, hs.nodes⟩
    · exact hs.skipBlanks st

private theorem finish_placed {c : Cursor} {nodes : Forest} {fs : List Frame} {lo : Nat}
    (hc : c.In t) (hf : Framed t fs lo) (hn : MailMarkup.Placed t lo c.pos.index nodes.reverse) :
    MailMarkup.Placed t 0 c.pos.index (finish c.pos nodes fs) := by
  induction fs generalizing nodes lo with
  | nil =>
    cases hf
    exact hn
  | cons f fs ih =>
    obtain ⟨lo', hf', hn'⟩ := hf.close hn hc false (Nat.le_refl _) nofun
    exact ih hf' hn'

end Reader

theorem Document.read_placed (l : Limits) (t : Text) :
    ∃ hi, Placed t 0 hi (Document.read l t).nodes := by
  have hstart : State.Placed t ⟨.start t, {}, [], []⟩ :=
    ⟨Cursor.in_start t, 0, .nil, .nil (Nat.le_refl _)⟩
  have hrun := run_placed (l := l) hstart
  obtain ⟨lo, hf, hn⟩ := hrun.nodes
  exact ⟨_, finish_placed hrun.cursor hf hn⟩

/-- The span of an element is a stretch of the text that starts with `<` and the element's name, and
the element's line and column are those of its start. -/
structure Head.Spans (t : Text) (h : Head) : Prop where
  start_lt_stop : h.start.offset < h.stop.offset
  stop_le : h.stop.offset ≤ byteSize t
  /-- Both ends stand between characters. -/
  stretch : ∃ before name inner after, t = before ++ ('<' :: name ++ inner) ++ after ∧
    lower name = h.tag ∧ byteSize before = h.start.offset ∧
    byteSize (before ++ ('<' :: name ++ inner)) = h.stop.offset
  place : lineColumn t h.start.offset = (h.start.line, h.start.column)

/-- Siblings do not overlap and come in the order of their spans. -/
def Element.Successive (es : List Element) : Prop :=
  es.Pairwise fun a b => a.stop.offset ≤ b.start.offset

namespace Placed
variable {t : Text} {lo hi : Nat} {ns : Forest}

theorem spans {h : Head} {cs : Forest} {r : Text} (names : h.start.Names t h.tag)
    (stop : h.stop.Marks t r)
    (children : Placed t (h.start.index + h.tag.length + 1) h.stop.index cs) : h.Spans t := by
  obtain ⟨name, rest, marks, hname⟩ := names
  have hle := children.lo_le_hi
  have hlen : name.length = h.tag.length := by rw [← hname]; exact (List.length_map _).symm
  obtain ⟨v, hv, hstop⟩ := marks.between stop (by omega)
  have hlt := marks.offset_lt stop (by omega)
  have hend := stop.offset_le_byteSize
  have hplace := lineColumn_of_marks marks
  obtain ⟨u, ht, hstart⟩ := marks
  have hvlen : ('<' :: name).length ≤ v.length := by
    have hindex := congrArg Position.index hstop
    rw [Position.index_read] at hindex
    rw [List.length_cons]
    omega
  have hprefix : '<' :: name <+: v :=
    List.prefix_of_prefix_length_le ⟨rest, rfl⟩ ⟨r, hv.symm⟩ hvlen
  obtain ⟨inner, rfl⟩ := hprefix
  refine ⟨hlt, hend, ⟨u, name, inner, r, ?_, hname, ?_, ?_⟩, hplace⟩
  · rw [ht, List.append_assoc, ← hv]
  · rw [hstart, Position.offset_read]
    exact (Nat.zero_add _).symm
  · rw [hstop, hstart, byteSize_append, Position.offset_read, Position.offset_read, Nat.zero_add]

theorem siblings (h : Placed t lo hi ns) :
    (∀ e ∈ ns.filterMap Node.element?, (∃ r, e.start.Marks t r) ∧ (∃ r, e.stop.Marks t r) ∧
      lo ≤ e.start.index ∧ e.stop.index ≤ hi) ∧
      Element.Successive (ns.filterMap Node.element?) := by
  induction h with
  | nil => exact ⟨nofun, .nil⟩
  | leaf read _ le inside _ ih =>
    rw [List.filterMap_cons_none read.element?_eq_none]
    refine ⟨fun e he => ?_, ih.2⟩
    obtain ⟨marks, stop, hlo, hhi⟩ := ih.1 e he
    exact ⟨marks, stop, by omega, hhi⟩
  | @element lo mid hi h cs ns r names stop le children inside _ rest _ ih =>
    have hhead : (Node.element h cs).element? = some ⟨h, cs⟩ := rfl
    rw [List.filterMap_cons_some hhead]
    obtain ⟨name, r', marks, -⟩ := names
    have hc := children.lo_le_hi
    have hr := rest.lo_le_hi
    refine ⟨fun e he => ?_, List.pairwise_cons.2 ⟨fun e he => ?_, ih.2⟩⟩
    · rcases List.mem_cons.1 he with rfl | he
      · exact ⟨⟨_, marks⟩, ⟨_, stop⟩, le, hr⟩
      · obtain ⟨marks', stop', hlo, hhi⟩ := ih.1 e he
        exact ⟨marks', stop', by omega, hhi⟩
    · obtain ⟨⟨_, marks'⟩, -, hlo, -⟩ := ih.1 e he
      exact stop.offset_le marks' hlo

private theorem of_mem (h : Placed t lo hi ns) {head : Head} {cs : Forest}
    (hm : .element head cs ∈ ns.family) :
    head.start.Names t head.tag ∧ (∃ r, head.stop.Marks t r) ∧
      Placed t (head.start.index + head.tag.length + 1) head.stop.index cs := by
  induction h with
  | nil => exact absurd hm List.not_mem_nil
  | leaf read _ _ _ _ ih =>
    rw [Forest.family, Node.family_of_leaf read.element?_eq_none] at hm
    rcases List.mem_cons.1 hm with rfl | hm
    · exact read.elim
    · exact ih hm
  | element names stop _ children inside _ _ ihc ih =>
    rw [Forest.family, Node.family, List.cons_append] at hm
    rcases List.mem_cons.1 hm with he | hm
    · cases he
      exact ⟨names, ⟨_, stop⟩, children.mono inside⟩
    · rcases List.mem_append.1 hm with hm | hm
      · exact ihc hm
      · exact ih hm

theorem source (h : Placed t lo hi ns) {n : Node} (hn : n ∈ ns.family) (leaf : n.element? = none) :
    ∃ u, n.Lies t lo hi u := by
  induction h with
  | nil => exact absurd hn List.not_mem_nil
  | @leaf lo mid hi m ns u r read marks le inside rest ih =>
    rw [Forest.family, Node.family_of_leaf read.element?_eq_none, List.singleton_append] at hn
    have hr := rest.lo_le_hi
    rcases List.mem_cons.1 hn with rfl | hn
    · exact ⟨u, ⟨r, marks, read⟩, le, by omega⟩
    · obtain ⟨v, hv⟩ := ih hn
      exact ⟨v, hv.mono (by omega) (Nat.le_refl _)⟩
  | @element lo mid hi h cs ns r names stop le children inside _ rest ihc ih =>
    have hc := children.lo_le_hi
    have hr := rest.lo_le_hi
    rw [Forest.family, Node.family, List.cons_append] at hn
    rcases List.mem_cons.1 hn with rfl | hn
    · exact absurd leaf nofun
    · rcases List.mem_append.1 hn with hn | hn
      · obtain ⟨v, hv⟩ := ihc hn
        exact ⟨v, hv.mono (by omega) (by omega)⟩
      · obtain ⟨v, hv⟩ := ih hn
        exact ⟨v, hv.mono (by omega) (Nat.le_refl _)⟩

private theorem family_precedes (h : Placed t lo hi ns) :
    (∀ n ∈ ns.family, (∃ r, n.start.Marks t r) ∧ lo ≤ n.start.index ∧ n.start.index < hi) ∧
      ns.family.Pairwise fun m n => m.start.Precedes n.start := by
  induction h with
  | nil => exact ⟨nofun, .nil⟩
  | @leaf lo mid hi m ns u r read marks le inside rest ih =>
    rw [Forest.family, Node.family_of_leaf read.element?_eq_none, List.singleton_append]
    have hu := List.length_pos_iff.2 read.ne_nil
    have hr := rest.lo_le_hi
    refine ⟨fun n hn => ?_, List.pairwise_cons.2 ⟨fun n hn => ?_, ih.2⟩⟩
    · rcases List.mem_cons.1 hn with rfl | hn
      · exact ⟨⟨_, marks⟩, le, by omega⟩
      · obtain ⟨marks', hlo, hhi⟩ := ih.1 n hn
        exact ⟨marks', by omega, hhi⟩
    · obtain ⟨⟨_, marks'⟩, hlo, -⟩ := ih.1 n hn
      exact marks.precedes marks' (by omega)
  | @element lo mid hi h cs ns r names stop le children inside _ rest ihc ih =>
    rw [Forest.family, Node.family, List.cons_append]
    obtain ⟨name, r', marks, -⟩ := names
    have hc := children.lo_le_hi
    have hr := rest.lo_le_hi
    have inner : ∀ n ∈ Forest.family cs ++ Forest.family ns, (∃ r, n.start.Marks t r) ∧
        h.start.index < n.start.index ∧ n.start.index < hi := by
      intro n hn
      rcases List.mem_append.1 hn with hn | hn
      · obtain ⟨marks', hlo, hhi⟩ := ihc.1 n hn
        exact ⟨marks', by omega, by omega⟩
      · obtain ⟨marks', hlo, hhi⟩ := ih.1 n hn
        exact ⟨marks', by omega, hhi⟩
    refine ⟨fun n hn => ?_, List.pairwise_cons.2 ⟨fun n hn => ?_,
      List.pairwise_append.2 ⟨ihc.2, ih.2, fun m hm n hn => ?_⟩⟩⟩
    · rcases List.mem_cons.1 hn with rfl | hn
      · exact ⟨⟨_, marks⟩, le, by dsimp only [Node.start]; omega⟩
      · obtain ⟨marks', hlo, hhi⟩ := inner n hn
        exact ⟨marks', by omega, hhi⟩
    · obtain ⟨⟨_, marks'⟩, hlo, -⟩ := inner n hn
      exact marks.precedes marks' hlo
    · obtain ⟨⟨_, hm'⟩, -, hhi⟩ := ihc.1 m hm
      obtain ⟨⟨_, hn'⟩, hlo, -⟩ := ih.1 n hn
      exact hm'.precedes hn' (by omega)

end Placed

/-- In every document, whatever its text and the limits it is read under: each element spans a
stretch of the text that starts with its tag, its position is the one counted from the text, its
children lie inside it and after its start, siblings follow one another, and all nodes come in the
order of their lines and columns. -/
theorem Document.read_positions (l : Limits) (t : Text) :
    let forest := (Document.read l t).nodes
    (∀ e ∈ forest.elements, e.toHead.Spans t ∧
      (∀ c ∈ e.childElements, e.start.offset < c.start.offset ∧ c.stop.offset ≤ e.stop.offset) ∧
      Element.Successive e.childElements) ∧
    Element.Successive (forest.filterMap Node.element?) ∧
    forest.preorder.Pairwise fun m n => m.2.start.Precedes n.2.start := by
  intro forest
  obtain ⟨hi, h⟩ := Document.read_placed l t
  refine ⟨fun e he => ?_, h.siblings.2, ?_⟩
  · rw [Forest.elements_eq] at he
    obtain ⟨n, hn, hen⟩ := List.mem_filterMap.1 he
    obtain rfl := Node.eq_of_element? hen
    obtain ⟨names, ⟨_, stop⟩, children⟩ := h.of_mem hn
    obtain ⟨inside, successive⟩ := children.siblings
    refine ⟨Placed.spans names stop children, fun c hc => ?_, successive⟩
    obtain ⟨⟨_, marks'⟩, ⟨_, stop'⟩, hlo, hhi⟩ := inside c hc
    obtain ⟨_, _, marks, -⟩ := names
    exact ⟨marks.offset_lt marks' (by omega), stop'.offset_le stop hhi⟩
  · have hp := h.family_precedes.2
    rw [← Forest.map_snd_preorder] at hp
    exact (List.pairwise_map (f := Prod.snd)).1 hp

end MailMarkup
