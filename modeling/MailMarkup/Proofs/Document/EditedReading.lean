import MailMarkup.Proofs.Document.Edits
import MailMarkup.Proofs.Document.Plain
import MailMarkup.Proofs.Document.Preorder
import MailMarkup.Proofs.Document.Siblings

/-!
# Reading a text with other attributes in its tags

Where a text is edited, its document is read with the attributes of its elements changed, and is
otherwise the same up to positions. The reading of the edited text follows that of the first one
round by round.
-/
namespace MailMarkup
open Text Reader

/-- The head with its attributes changed. -/
def Head.changed (change : Reader.Change) (h : Head) : Head :=
  { h with attributes := change h.tag h.attributes }

abbrev Forest.changed (change : Reader.Change) (ns : Forest) : Forest :=
  Forest.mapHeads (Head.changed change) ns

/-- No bracket opens in a comment or in the content of a raw element. -/
def Node.Quiet : Node → Prop
  | .element h cs => h.tag ∈ rawTags → ∀ s p, .text s p ∈ cs → '<' ∉ s
  | .comment t _ => '<' ∉ t
  | .text _ _ => True

/-- No bracket opens in a text. -/
private def Node.isQuietText : Node → Bool
  | .text s _ => '<' ∉ s
  | _ => true

private def Node.isQuiet : Node → Bool
  | .element h cs => !rawTags.contains h.tag || cs.all Node.isQuietText
  | .comment t _ => '<' ∉ t
  | .text _ _ => true

private theorem Node.isQuiet_iff (n : Node) : n.isQuiet = true ↔ n.Quiet := by
  cases n with
  | element h cs =>
    rw [isQuiet, Bool.or_eq_true, Bool.not_eq_true', ← Bool.not_eq_true, List.contains_iff_mem,
      ← imp_iff_not_or, List.all_eq_true]
    refine forall_congr' fun _ => ⟨fun hq s p hs => of_decide_eq_true (hq _ hs), fun hq n hn => ?_⟩
    cases n with
    | text s p => exact decide_eq_true (hq s p hn)
    | _ => rfl
  | comment t p => exact decide_eq_true_iff
  | text s p => exact iff_of_true rfl trivial

instance : DecidablePred Node.Quiet := fun n => decidable_of_iff _ n.isQuiet_iff

/-- The node is quiet, and if it is an element, `opens` says so of the text that starts there. -/
structure Node.Follows (opens : Text → Prop) (html : Text) (n : Node) : Prop where
  quiet : n.Quiet
  opens : ∀ e ∈ n.element?, opens (html.drop e.start.index)

private theorem Forest.mapHeads_append (g : Head → Head) (ms ns : Forest) :
    Forest.mapHeads g (ms ++ ns) = Forest.mapHeads g ms ++ Forest.mapHeads g ns := by
  induction ms with
  | nil => rfl
  | cons m ms ih => simp only [List.cons_append, Forest.mapHeads, ih]

theorem Forest.unplaced_append (ms ns : Forest) :
    Forest.unplaced (ms ++ ns) = Forest.unplaced ms ++ Forest.unplaced ns := by simp

mutual

theorem Node.mapHeads_self {g : Head → Head} (hg : ∀ h, g h = h) : ∀ n : Node, n.mapHeads g = n
  | .element h cs => by rw [Node.mapHeads, hg, Forest.mapHeads_self hg cs]
  | .text _ _ => rfl
  | .comment _ _ => rfl

theorem Forest.mapHeads_self {g : Head → Head} (hg : ∀ h, g h = h) :
    ∀ ns : Forest, Forest.mapHeads g ns = ns
  | [] => rfl
  | n :: ns => by rw [Forest.mapHeads, Node.mapHeads_self hg n, Forest.mapHeads_self hg ns]

end

theorem Forest.changed_self (ns : Forest) : Forest.changed (fun _ as => as) ns = ns :=
  Forest.mapHeads_self (fun _ => rfl) ns

namespace Reader
variable {E : Editing} {html : Text} {l : Limits} {names : List Text}
  {c c' d : Cursor} {st st' su : ReadStats} {ns : Forest}

private theorem mapHeads_rawContent (g : Head → Head) (tag : Text) (c : Cursor) :
    Forest.mapHeads g (rawContent tag c).1 = (rawContent tag c).1 := by
  rcases rawContent_nodes tag c with h | ⟨t, h, -⟩ <;> rw [h] <;> rfl

theorem Token.edited (token : Token l names c st ns c' st')
    (h : Edited E c.rest d.rest) (hc : c.In html)
    (follows : ∀ n ∈ Forest.family ns, n.Follows E.opens html)
    (hu : classify d.rest = .element → (attributes l (tagName d.next).2 su 0 []).stats.Unmet) :
    ∃ ns' d' su', Token l names d su ns' d' su' ∧ Edited E c'.rest d'.rest ∧
      Forest.unplaced ns' = Forest.unplaced (Forest.changed E.change ns) := by
  have hkind := h.classify_eq
  cases token with
  | comment kind =>
    have hquiet := (follows _ List.mem_cons_self).quiet
    obtain ⟨hbody, hrest⟩ := h.commentBody kind hquiet
    refine ⟨_, _, su, .comment (hkind.trans kind), hrest, ?_⟩
    rw [hbody]
    rfl
  | declaration kind =>
    exact ⟨[], _, su, .declaration (hkind.trans kind), h.afterDeclaration, rfl⟩
  | stray kind unopened =>
    obtain ⟨hname, hrest⟩ := h.closingTag kind
    exact ⟨[], _, su, .stray (hkind.trans kind) (hname ▸ unopened), hrest, rfl⟩
  | text kind trimmed =>
    obtain ⟨hrun, hrest⟩ := h.textRun []
    rw [← hrun] at trimmed
    refine ⟨_, _, su, .text (hkind.trans kind) trimmed, ?_, ?_⟩
    · rw [Cursor.rest_advance, Cursor.rest_advance, hrun]
      exact hrest
    · split <;> rfl
  | alone kind name tagEnd unmet all =>
    subst name tagEnd
    have hstart := (follows _ List.mem_cons_self).opens _ rfl
    rw [hc.drop_index] at hstart
    obtain ⟨hname, he⟩ := h.openingTag kind hstart unmet (hu (hkind.trans kind))
    rw [← hname, ← he.selfClosing] at all
    refine ⟨_, _, _, .alone (hkind.trans kind) rfl rfl (hu (hkind.trans kind)) all, he.rest, ?_⟩
    rw [hname, he.attributes]
    rfl
  | raw kind name tagEnd unmet more raw =>
    subst name tagEnd
    obtain ⟨hquiet, hstart⟩ := follows _ List.mem_cons_self
    have hstart := hstart _ rfl
    rw [hc.drop_index] at hstart
    have hraw := List.contains_iff_mem.1 raw
    have hbracket : '<' ∉ (tagName c.next).1 := by
      have hall : ∀ tag ∈ rawTags, '<' ∉ tag := by decide
      exact hall _ hraw
    obtain ⟨hname, he⟩ := h.openingTag kind hstart unmet (hu (hkind.trans kind))
    obtain ⟨hnodes, hclosed, hrest⟩ := he.rest.rawContent hbracket (hquiet hraw)
    rw [← hname, ← he.selfClosing] at more
    rw [← hname] at raw
    refine ⟨_, _, _, .raw (hkind.trans kind) rfl rfl (hu (hkind.trans kind)) more raw, ?_, ?_⟩
    · rw [hname]
      exact hrest
    · rw [hname, he.attributes, hclosed]
      simp only [Forest.unplaced, Node.unplaced, hnodes, Forest.changed, Forest.mapHeads,
        Node.mapHeads, mapHeads_rawContent]
      rfl

theorem Opens.edited {tag : Text} {e : TagEnd} (o : Opens l names c st tag e)
    (h : Edited E c.rest d.rest) (ho : E.opens c.rest)
    (hu : (attributes l (tagName d.next).2 su 0 []).stats.Unmet) :
    ∃ e', Opens l names d su tag e' ∧ EditedEnd E tag e e' := by
  obtain ⟨kind, rfl, rfl, unmet, more, notRaw, room⟩ := o
  obtain ⟨hname, he⟩ := h.openingTag kind ho unmet hu
  refine ⟨_, ⟨h.classify_eq.trans kind, hname.symm, rfl, hu, ?_, notRaw, room⟩, he⟩
  rw [he.selfClosing]
  exact more

/-- From here on, with elements of the given names open, no ceiling is met. -/
def Free (l : Limits) (names : List Text) (c : Cursor) (st : ReadStats) : Prop :=
  ∃ nodes frames, frames.map Frame.tag = names ∧
    (outcome l ⟨c, st, nodes, frames⟩).stats.Unmet

theorem Free.tick (free : Free l names c st) (hc : c.rest ≠ []) :
    ∃ st₁, st.tick l = (st₁, true) := by
  obtain ⟨nodes, frames, -, hu⟩ := free
  exact tick_of_unmet hu hc

theorem Free.opening {st₁ : ReadStats} (free : Free l names c st) (tick : st.tick l = (st₁, true))
    (kind : classify c.skipBlanks.rest = .element) :
    (attributes l (tagName c.skipBlanks.next).2 st₁ 0 []).stats.Unmet := by
  obtain ⟨nodes, frames, -, hu⟩ := free
  rw [outcome_markup tick (ne_nil_of_classify kind nofun)] at hu
  have hmarkup := (run_unmet (.refl l) hu).1
  rw [markup, kind] at hmarkup
  exact openTag_attributes_unmet hmarkup

theorem Free.behind (free : Free l names c st) (siblings : Siblings l names c st ns c' st') :
    Free l names c' st' := by
  obtain ⟨nodes, frames, rfl, hu⟩ := free
  rw [siblings.outcome_eq rfl] at hu
  exact ⟨_, frames, rfl, hu⟩

theorem Free.enter {st₁ : ReadStats} {tag : Text} {e : TagEnd} (free : Free l names c st)
    (tick : st.tick l = (st₁, true)) (opens : Opens l names c.skipBlanks st₁ tag e) :
    Free l (tag :: names) e.cursor e.stats := by
  obtain ⟨nodes, frames, rfl, hu⟩ := free
  rw [outcome_markup tick (ne_nil_of_classify opens.kind nofun), opens.markup_eq] at hu
  exact ⟨_, _, rfl, hu⟩

theorem Free.close {st₁ : ReadStats} {tag : Text} (free : Free l (tag :: names) c st)
    (tick : st.tick l = (st₁, true)) (kind : classify c.skipBlanks.rest = .closing)
    (closer : (closingTag c.skipBlanks).1 = tag) :
    Free l names (closingTag c.skipBlanks).2 st₁ := by
  obtain ⟨nodes, frames, hf, hu⟩ := free
  obtain ⟨f, fs, rfl, rfl, rfl⟩ := List.map_eq_cons_iff.1 hf
  rw [outcome_markup tick (ne_nil_of_classify kind nofun), markup_close kind closer] at hu
  exact ⟨_, fs, rfl, hu⟩

theorem rest_ne_nil_of_skipBlanks (h : c.skipBlanks.rest ≠ []) : c.rest ≠ [] :=
  fun hr => h (List.suffix_nil.1 (hr ▸ c.reaches_skipBlanks.suffix))

theorem Opens.enter_edited {st₁ : ReadStats} {tag : Text} {e : TagEnd}
    (o : Opens l names c.skipBlanks st₁ tag e) (h : Edited E c.rest d.rest)
    (ho : E.opens c.skipBlanks.rest) (free : Free l names d su) :
    ∃ su₁ e', su.tick l = (su₁, true) ∧ Opens l names d.skipBlanks su₁ tag e' ∧
      EditedEnd E tag e e' ∧ Free l (tag :: names) e'.cursor e'.stats := by
  have hkind := h.skipBlanks.classify_eq.trans o.kind
  obtain ⟨su₁, tick⟩ := free.tick (rest_ne_nil_of_skipBlanks (ne_nil_of_classify hkind nofun))
  obtain ⟨e', o', he⟩ := o.edited h.skipBlanks ho (free.opening tick hkind)
  exact ⟨su₁, e', tick, o', he, free.enter tick o'⟩

theorem unplaced_element {e e' : TagEnd} {tag : Text} {p p' q q' : Position} {closed : Bool}
    {cs cs' ns ns' : Forest} (he : EditedEnd E tag e e')
    (hcs : Forest.unplaced cs' = Forest.unplaced (Forest.changed E.change cs))
    (hns : Forest.unplaced ns' = Forest.unplaced (Forest.changed E.change ns)) :
    Forest.unplaced (.element ⟨tag, e'.attributes, p', q', closed⟩ cs' :: ns') =
      Forest.unplaced
        (Forest.changed E.change (.element ⟨tag, e.attributes, p, q, closed⟩ cs :: ns)) := by
  rw [Forest.changed, Forest.mapHeads, Forest.unplaced, Forest.unplaced, hns]
  simp only [Node.mapHeads, Node.unplaced, he.attributes, hcs]
  rfl

theorem follows_cons {h : Head} {cs : Forest} (hc : c.In html) (start : h.start = c.pos)
    (follows : ∀ n ∈ Forest.family (.element h cs :: ns), n.Follows E.opens html) :
    E.opens c.rest ∧ (∀ n ∈ Forest.family cs, n.Follows E.opens html) ∧
      ∀ n ∈ Forest.family ns, n.Follows E.opens html := by
  rw [Forest.family, Node.family, List.cons_append, List.forall_mem_cons,
    List.forall_mem_append] at follows
  have hopens := follows.1.opens _ rfl
  rw [start, hc.drop_index] at hopens
  exact ⟨hopens, follows.2⟩

theorem Siblings.edited (siblings : Siblings l names c st ns c' st')
    (h : Edited E c.rest d.rest) (hc : c.In html)
    (follows : ∀ n ∈ Forest.family ns, n.Follows E.opens html) (free : Free l names d su) :
    ∃ ns' d' su', Siblings l names d su ns' d' su' ∧ Edited E c'.rest d'.rest ∧
      Forest.unplaced ns' = Forest.unplaced (Forest.changed E.change ns) := by
  induction siblings generalizing d su with
  | nil => exact ⟨[], d, su, .nil, h, rfl⟩
  | @token names c c₁ c' st st₁ st₂ st' ms ns tick more token rest ih =>
    have hblank := c.reaches_skipBlanks.mem hc
    have hmore := mt h.skipBlanks.nil_iff.1 more
    rw [Forest.family_append, List.forall_mem_append] at follows
    obtain ⟨su₁, tick'⟩ := free.tick (rest_ne_nil_of_skipBlanks hmore)
    obtain ⟨ms', d₁, su₂, token', h₁, hms⟩ :=
      token.edited h.skipBlanks hblank follows.1 (free.opening tick')
    obtain ⟨ns', d', su', rest', h', hns⟩ := ih h₁ (token.reaches.mem hblank) follows.2
      (free.behind (.token tick' hmore token' .nil))
    refine ⟨ms' ++ ns', d', su', .token tick' hmore token' rest', h', ?_⟩
    rw [Forest.changed, Forest.mapHeads_append, Forest.unplaced_append, Forest.unplaced_append,
      hms, hns]
  | @closed names c c₁ c' st st₁ st₂ st₃ st' tag e cs ns tick o children tick' kind closer rest
      ihc ih =>
    have hblank := c.reaches_skipBlanks.mem hc
    obtain ⟨ho, hcs, hns⟩ := follows_cons hblank rfl follows
    obtain ⟨su₁, e', tick₁, o', he, free₁⟩ := o.enter_edited h ho free
    obtain ⟨cs', d₁, su₂, children', h₁, hcs'⟩ := ihc he.rest (o.reaches.mem hblank) hcs free₁
    have free₂ := free₁.behind children'
    have hkind := h₁.skipBlanks.classify_eq.trans kind
    obtain ⟨hname, hrest⟩ := h₁.skipBlanks.closingTag kind
    have hcloser := hname.trans closer
    obtain ⟨su₃, tick₂⟩ := free₂.tick (rest_ne_nil_of_skipBlanks (ne_nil_of_classify hkind nofun))
    have hc₁ := (children.reaches.trans (c₁.reaches_skipBlanks.trans (reaches_closingTag _))).mem
      (o.reaches.mem hblank)
    obtain ⟨ns', d', su', rest', h', hns'⟩ := ih hrest hc₁ hns (free₂.close tick₂ hkind hcloser)
    exact ⟨_, d', su', .closed tick₁ o' children' tick₂ hkind hcloser rest', h',
      unplaced_element he hcs' hns'⟩
  | @left names c c₁ st st₁ st₂ st₃ tag e cs tick o children tick' kind other outer ihc =>
    have hblank := c.reaches_skipBlanks.mem hc
    obtain ⟨ho, hcs, -⟩ := follows_cons hblank rfl follows
    obtain ⟨su₁, e', tick₁, o', he, free₁⟩ := o.enter_edited h ho free
    obtain ⟨cs', d₁, su₂, children', h₁, hcs'⟩ := ihc he.rest (o.reaches.mem hblank) hcs free₁
    have hkind := h₁.skipBlanks.classify_eq.trans kind
    have hname := (h₁.skipBlanks.closingTag kind).1
    obtain ⟨su₃, tick₂⟩ := (free₁.behind children').tick
      (rest_ne_nil_of_skipBlanks (ne_nil_of_classify hkind nofun))
    exact ⟨_, _, su₃, .left tick₁ o' children' tick₂ hkind (hname ▸ other) (hname ▸ outer),
      h₁.skipBlanks, unplaced_element he hcs' rfl⟩
  | @ended names c c₁ st st₁ st₂ tag e cs tick o children ends last ihc =>
    have hblank := c.reaches_skipBlanks.mem hc
    obtain ⟨ho, hcs, -⟩ := follows_cons hblank rfl follows
    obtain ⟨su₁, e', tick₁, o', he, free₁⟩ := o.enter_edited h ho free
    obtain ⟨cs', d₁, su₂, children', h₁, hcs'⟩ := ihc he.rest (o.reaches.mem hblank) hcs free₁
    have hends := h₁.skipBlanks.nil_iff.2 ends
    refine ⟨_, d₁, su₂, .ended tick₁ o' children' hends fun hr => ?_, h₁,
      unplaced_element he hcs' rfl⟩
    obtain ⟨su₃, tick₂⟩ := (free₁.behind children').tick hr
    rw [tick₂]

/-- A text is one that starts where an element of the forest does. -/
def Begins (ns : Forest) (html t : Text) : Prop :=
  ∃ n ∈ Forest.family ns, ∃ e ∈ n.element?, html.drop e.start.index = t

end Reader

/-- Where a text is edited, its document is read with the attributes changed. -/
theorem Document.read_edited {E : Reader.Editing} {l : Limits} {html out : Text}
    (h : Edited E html out) (opens : E.opens = Begins (Document.read l html).nodes html)
    (quiet : ∀ n ∈ Forest.family (Document.read l html).nodes, n.Quiet)
    (limits : (Document.read l html).stats.Unmet) (limits' : (Document.read l out).stats.Unmet) :
    Forest.unplaced (Document.read l out).nodes =
      Forest.unplaced (Forest.changed E.change (Document.read l html).nodes) := by
  obtain ⟨c, st, siblings, ends, -⟩ := read_siblings limits
  have free : Free l [] (.start out) {} := ⟨[], [], rfl, limits'⟩
  obtain ⟨ns', d, su, siblings', h', hns⟩ := siblings.edited h (Cursor.in_start html)
    (fun n hn => ⟨quiet n hn, fun e he => opens ▸ ⟨n, hn, e, he, rfl⟩⟩) free
  have hread := siblings'.read_eq (h'.skipBlanks.nil_iff.2 ends) fun hr => by
    obtain ⟨su', tick⟩ := (free.behind siblings').tick hr
    rw [tick]
  rw [hread]
  exact hns

end MailMarkup
