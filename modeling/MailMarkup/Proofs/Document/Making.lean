import MailMarkup.Proofs.Document.ClosingTags
import MailMarkup.Proofs.Document.Lineage
import MailMarkup.Proofs.Document.Nesting

/-!
# How elements are made

Every element starts with an opening tag. It may be whole with that tag, or with raw content behind
it; else it is entered and ends in one of three ways: by a closing tag with its name, before a
closing tag of an element around it, or with the reading. Every round keeps that all elements of the
tree were made in one of these ways and that those still open were entered one inside the other.
-/
namespace MailMarkup.Reader
open Text

variable {l : Limits} {t : Text} {st : ReadStats} {names : List Text}

/-- At a place of the text stands an opening tag, which is read after some rounds. -/
structure OpeningTag (l : Limits) (t : Text) (c : Cursor) (tag : Text) (e : TagEnd) : Prop where
  place : (Cursor.start t).Reaches c
  kind : classify c.rest = .element
  named : (tagName c.next).1 = tag
  read : ∃ st, e = attributes l (tagName c.next).2 st 0 []

/-- Such a tag is not all of its element. -/
structure EnteringTag (l : Limits) (t : Text) (c : Cursor) (tag : Text) (e : TagEnd) : Prop extends
    OpeningTag l t c tag e where
  more : e.selfClosing = false ∧ tag ∉ voidTags
  notRaw : tag ∉ rawTags

/-- How an element comes about in a reading that ends with the given counters, inside elements of
the given names. -/
inductive Made (l : Limits) (t : Text) (st : ReadStats) (names : List Text) : Element → Prop where
  /-- Its tag is all of it. -/
  | alone {c : Cursor} {tag : Text} {e : TagEnd} (opening : OpeningTag l t c tag e)
      (whole : e.selfClosing = true ∨ tag ∈ voidTags) :
      Made l t st names ⟨⟨tag, e.attributes, c.pos, e.cursor.pos, true⟩, []⟩
  /-- It has raw content. -/
  | raw {c : Cursor} {tag : Text} {e : TagEnd} (opening : OpeningTag l t c tag e)
      (notSelf : e.selfClosing = false) (raw : tag ∈ rawTags) :
      Made l t st names
        ⟨⟨tag, e.attributes, c.pos, (rawContent tag e.cursor).2.2.pos,
          (rawContent tag e.cursor).2.1⟩, (rawContent tag e.cursor).1⟩
  /-- It is too deep to be entered. -/
  | cut {c : Cursor} {tag : Text} {e : TagEnd} (entering : EnteringTag l t c tag e)
      (deep : l.maxDepth ≤ names.length) :
      Made l t st names ⟨⟨tag, e.attributes, c.pos, e.cursor.pos, false⟩, []⟩
  /-- A closing tag at `d` has its name, and its children lie before that. -/
  | closed {c d : Cursor} {tag : Text} {e : TagEnd} {cs : Forest}
      (entering : EnteringTag l t c tag e) (place : d.In t) (kind : classify d.rest = .closing)
      (own : (closingTag d).1 = tag)
      (inside : Placed t (c.pos.index + tag.length + 1) d.pos.index cs) :
      Made l t st names ⟨⟨tag, e.attributes, c.pos, (closingTag d).2.pos, true⟩, cs⟩
  /-- A closing tag at `d` has the name of an element around it. -/
  | left {c d : Cursor} {tag : Text} {e : TagEnd} {cs : Forest}
      (entering : EnteringTag l t c tag e) (place : d.In t) (kind : classify d.rest = .closing)
      (outer : (closingTag d).1 ∈ names) :
      Made l t st names ⟨⟨tag, e.attributes, c.pos, d.pos, false⟩, cs⟩
  /-- The reading ends at `d`. -/
  | ended {c d : Cursor} {tag : Text} {e : TagEnd} {cs : Forest}
      (entering : EnteringTag l t c tag e) (place : d.In t)
      (spent : d.rest = [] ∨ st.iterationLimitHit = true) :
      Made l t st names ⟨⟨tag, e.attributes, c.pos, d.pos, false⟩, cs⟩

/-- All elements of a forest inside elements of the given names are made. -/
def AllMade (l : Limits) (t : Text) (st : ReadStats) (names : List Text) (ns : Forest) : Prop :=
  ∀ p ∈ ns.lineages names, Made l t st p.1 p.2

section AllMade
variable {ns cs : Forest} {n : Node} {h : Head}

theorem allMade_nil : AllMade l t st names [] := nofun

theorem AllMade.leaf (hns : AllMade l t st names ns) (hn : n.element? = none) :
    AllMade l t st names (n :: ns) := by
  rw [AllMade, Forest.lineages, Node.lineages_of_leaf hn]
  exact hns

theorem AllMade.element (hns : AllMade l t st names ns) (made : Made l t st names ⟨h, cs⟩)
    (hcs : AllMade l t st (h.tag :: names) cs) :
    AllMade l t st names (.element h cs :: ns) := by
  rw [AllMade, Forest.lineages, Node.lineages, List.forall_mem_append, List.forall_mem_cons]
  exact ⟨⟨made, hcs⟩, hns⟩

theorem AllMade.reverse (hns : AllMade l t st names ns) : AllMade l t st names ns.reverse :=
  fun p hp => hns p (Forest.mem_lineages_reverse.1 hp)

private theorem allMade_rawContent (tag : Text) (c : Cursor) :
    AllMade l t st names (rawContent tag c).1 := by
  rcases rawContent_nodes tag c with h | ⟨content, h, -⟩
  · rw [h]
    exact allMade_nil
  · rw [h]
    exact allMade_nil.leaf rfl

end AllMade

/-- What has been read is made, where `nodes` are the last first, and the open elements were entered
one inside the other. -/
inductive Kept (l : Limits) (t : Text) (st : ReadStats) : Forest → List Frame → Prop where
  | top {nodes : Forest} (made : AllMade l t st [] nodes) : Kept l t st nodes []
  | inside {nodes earlier : Forest} {fs : List Frame} {c : Cursor} {tag : Text} {e : TagEnd}
      (entering : EnteringTag l t c tag e) (outer : Kept l t st earlier fs)
      (made : AllMade l t st (tag :: fs.map Frame.tag) nodes) :
      Kept l t st nodes (⟨tag, e.attributes, c.pos, earlier⟩ :: fs)

section Kept
variable {nodes : Forest} {fs : List Frame} {f : Frame}

theorem Kept.leaf {n : Node} (h : Kept l t st nodes fs) (hn : n.element? = none) :
    Kept l t st (n :: nodes) fs := by
  cases h with
  | top made => exact .top (made.leaf hn)
  | inside entering outer made => exact .inside entering outer (made.leaf hn)

theorem Kept.element {h : Head} {cs : Forest} (hs : Kept l t st nodes fs)
    (made : Made l t st (fs.map Frame.tag) ⟨h, cs⟩)
    (hcs : AllMade l t st (h.tag :: fs.map Frame.tag) cs) :
    Kept l t st (.element h cs :: nodes) fs := by
  cases hs with
  | top hn => exact .top (hn.element made hcs)
  | inside entering outer hn => exact .inside entering outer (hn.element made hcs)

theorem Kept.close {stop : Position} {closed : Bool} (hs : Kept l t st nodes (f :: fs))
    (made : ∀ c e, EnteringTag l t c f.tag e → c.pos = f.start → Made l t st (fs.map Frame.tag)
      ⟨⟨f.tag, e.attributes, c.pos, stop, closed⟩, nodes.reverse⟩) :
    Kept l t st (f.close nodes stop closed :: f.earlier) fs := by
  cases hs with
  | @inside _ earlier _ c tag e entering outer hn =>
    exact outer.element (made c e entering rfl) hn.reverse

end Kept

/-- All that was read of a text up to a place of it is made. -/
structure State.Made (l : Limits) (t : Text) (st : ReadStats) (s : State) : Prop where
  place : (Cursor.start t).Reaches s.cursor
  placed : s.Placed t
  kept : Kept l t st s.nodes s.frames

variable {s s' : State}

private theorem openTag_kept (place : (Cursor.start t).Reaches s.cursor)
    (kind : classify s.cursor.rest = .element) (h : Kept l t st s.nodes s.frames) :
    Kept l t st (openTag l s).nodes (openTag l s).frames := by
  have opening : OpeningTag l t s.cursor (tagName s.cursor.next).1
      (attributes l (tagName s.cursor.next).2 s.stats 0 []) := ⟨place, kind, rfl, s.stats, rfl⟩
  unfold openTag
  dsimp only
  split
  · rename_i whole
    rw [Bool.or_eq_true, List.contains_iff_mem] at whole
    exact h.element (.alone opening whole) allMade_nil
  · rename_i more
    rw [Bool.or_eq_true, List.contains_iff_mem, not_or, Bool.not_eq_true] at more
    split
    · rename_i raw
      exact h.element (.raw opening more.1 (List.contains_iff_mem.1 raw)) (allMade_rawContent _ _)
    · rename_i notRaw
      have entering : EnteringTag l t s.cursor _ _ :=
        ⟨opening, more, mt List.contains_iff_mem.2 notRaw⟩
      split
      · rename_i deep
        exact h.element (.cut entering (by rwa [List.length_map])) allMade_nil
      · exact .inside entering h allMade_nil

/-- A closing tag ends the innermost open element, or another one around it, or nothing. -/
theorem markup_kept (hs : s.Made l t st) :
    Kept l t st (markup l s).nodes (markup l s).frames := by
  have kept := hs.kept
  unfold markup
  cases kind : classify s.cursor.rest with
  | comment => exact kept.leaf rfl
  | declaration => exact kept
  | closing =>
    dsimp only
    split
    · exact kept
    · rename_i f fs hf
      obtain ⟨lo, framed, hnodes⟩ := hs.placed.nodes
      have inner := hf ▸ kept
      rw [hf] at framed
      split
      · rename_i own
        rw [State.leave_eq hf]
        cases framed with
        | cons _ _ _ =>
          refine inner.close fun c e entering start => ?_
          rw [← start] at hnodes
          exact .closed entering hs.placed.cursor kind (beq_iff_eq.1 own).symm hnodes
      · split
        · rename_i outer
          obtain ⟨g, hg, hname⟩ := List.any_eq_true.1 outer
          rw [State.leave_eq hf]
          refine inner.close fun c e entering _ => .left entering hs.placed.cursor kind ?_
          exact List.mem_map.2 ⟨g, hg, beq_iff_eq.1 hname⟩
        · exact kept
  | element => exact openTag_kept hs.place kind kept
  | text =>
    dsimp only
    split
    · exact kept
    · exact kept.leaf rfl

theorem State.Made.skipBlanks (hs : s.Made l t st) (su : ReadStats) :
    State.Made l t st { s with cursor := s.cursor.skipBlanks, stats := su } :=
  ⟨hs.place.trans s.cursor.reaches_skipBlanks, hs.placed.skipBlanks su, hs.kept⟩

private theorem step_made (hs : s.Made l t st) (h : step l s = (s', true)) : s'.Made l t st := by
  obtain ⟨su, -, hne, rfl⟩ := step_continues h
  have ready := hs.skipBlanks su
  have round := markup_round (l := l) (s := { s with
    cursor := s.cursor.skipBlanks, stats := su }) hne
  exact ⟨ready.place.trans round.reaches, round.placed ready.placed, markup_kept ready⟩

/-- A reading ends at the end of its text, or because no more rounds may be made. -/
theorem step_over (hs : s.Made l t st) (h : step l s = (s', false)) :
    s'.Made l t st ∧ (s'.cursor.rest = [] ∨ s'.stats.iterationLimitHit = true) := by
  obtain ⟨hr, rfl⟩ | ⟨su, -, ht, rfl⟩ | ⟨su, -, hr, -, rfl⟩ := step_stops h
  · exact ⟨hs, .inl hr⟩
  · exact ⟨⟨hs.place, ⟨hs.placed.cursor, hs.placed.nodes⟩, hs.kept⟩, .inr (ReadStats.tick_hit ht)⟩
  · exact ⟨hs.skipBlanks su, .inl hr⟩

private theorem run_made (hs : s.Made l t st) : (run l s).Made l t st ∧
    ((run l s).cursor.rest = [] ∨ (run l s).stats.iterationLimitHit = true) :=
  run_induction (P := State.Made l t st)
    (Q := fun s => s.Made l t st ∧ (s.cursor.rest = [] ∨ s.stats.iterationLimitHit = true))
    (fun _ _ => step_made) (fun _ _ => step_over) hs

private theorem finish_made {d : Cursor} {nodes : Forest} {fs : List Frame} (place : d.In t)
    (spent : d.rest = [] ∨ st.iterationLimitHit = true) (h : Kept l t st nodes fs) :
    AllMade l t st [] (finish d.pos nodes fs) := by
  induction fs generalizing nodes with
  | nil =>
    cases h with
    | top made => exact made.reverse
  | cons f fs ih => exact ih (h.close fun c e entering _ => .ended entering place spent)

end MailMarkup.Reader

namespace MailMarkup
open Reader

/-- Every element of a document was made in one of the ways in which elements are made. -/
theorem Document.read_made (l : Limits) (t : Text) :
    AllMade l t (Document.read l t).stats [] (Document.read l t).nodes := by
  have hstart : State.Made l t (Document.read l t).stats ⟨.start t, {}, [], []⟩ :=
    ⟨.refl _, ⟨Cursor.in_start t, 0, .nil, .nil (Nat.le_refl _)⟩, .top allMade_nil⟩
  obtain ⟨hrun, spent⟩ := run_made hstart
  exact finish_made hrun.placed.cursor spent hrun.kept

end MailMarkup
