import MailMarkup.Proofs.Document.Making

/-!
# Where elements end

An element that is said to be closed ends with a closing tag that has its name, unless its tag is
all of it; one that is not ends where the reading gave up, at the end of the text, or before a
closing tag of an element that it lies in. Raw content is different. It ends at the first closing
tag whose name starts with that of the element, so `</scripty>` ends a script.
-/
namespace MailMarkup
open Text Reader

/-- An element ends with its tag, which closes itself when it is read with no rounds made before. -/
def Head.ClosesItself (l : Limits) (t : Text) (h : Head) : Prop :=
  let c := (Cursor.start t).advance h.start.index
  let e := Reader.attributes l (tagName c.next).2 {} 0 []
  e.selfClosing = true ∧ e.cursor.pos = h.stop

instance (l : Limits) (t : Text) (h : Head) : Decidable (h.ClosesItself l t) :=
  inferInstanceAs (Decidable (_ ∧ _))

namespace Element

/-- An element ends with a closing tag that has its name, and all that is in it lies before that. -/
def EndsWithTag (t : Text) (e : Element) : Prop :=
  ∃ p : Position, p.Closes t e.stop e.tag ∧
    Placed t (e.start.index + e.tag.length + 1) p.index e.children

/-- An element ends where a closing tag with one of some names starts. -/
def EndsBefore (t : Text) (names : List Text) (e : Element) : Prop :=
  ∃ name ∈ names, ∃ p, e.stop.Closes t p name

/-- An element ends with the first closing tag from `b` on that has a name of a kind, and its
content is the text up to that. -/
def EndsAtFirst (t : Text) (b : Cursor) (kind : Text → Prop) (e : Element) : Prop :=
  ∃ d name, b.Reaches d ∧ d.pos.Closes t e.stop name ∧ kind name ∧
    e.children = rawNodes (b.upTo d) b.pos ∧
    ∀ (p q : Position) (other : Text), p.Closes t q other → b.pos.index ≤ p.index → kind other →
      d.pos.index ≤ p.index

end Element

namespace Reader
variable {l : Limits} {t tag : Text} {st : ReadStats} {names : List Text} {c : Cursor} {e : TagEnd}
  {elt : Element}

private theorem unhit_of_selfClosing (c : Cursor) (st : ReadStats) (round : Nat)
    (seen : List (Text × Text)) : (attributes l c st round seen).selfClosing = true →
      (attributes l c st round seen).stats.iterationLimitHit = false := by
  induction c, st, round, seen using attributes_induction (l := l) with
  | spent c st round seen hr =>
    rw [attributes_spent hr]
    exact nofun
  | stopped c st round seen st' hr ht =>
    rw [attributes_stopped hr ht]
    exact nofun
  | ended c st round seen st' c' closing hr ht h =>
    rw [attributes_round hr ht h]
    exact fun _ => ReadStats.tick_unhit ht
  | found c st round seen st' a c' hr ht h ih =>
    rw [attributes_round hr ht h]
    exact ih
  | passed c st round seen st' c' n hr ht h ih =>
    rw [attributes_round hr ht h]
    exact ih

theorem OpeningTag.closesItself {h : Head} (opening : OpeningTag l t c tag e)
    (start : h.start = c.pos) (stop : h.stop = e.cursor.pos) (self : e.selfClosing = true) :
    h.ClosesItself l t := by
  obtain ⟨st, rfl⟩ := opening.read
  have unhit := unhit_of_selfClosing _ _ _ _ self
  have agrees := attributes_roomier ⟨Nat.le_refl _, rfl⟩ _ _ _ _ unhit {} ⟨Nat.zero_le _, rfl⟩
  have hc : (Cursor.start t).advance h.start.index = c :=
    start ▸ opening.place.eq_advance_index.symm
  rw [Head.ClosesItself, hc, stop]
  exact ⟨agrees.selfClosing.trans self, congrArg Cursor.pos agrees.cursor⟩

theorem OpeningTag.content (opening : OpeningTag l t c tag e) : e.cursor.In t := by
  obtain ⟨st, rfl⟩ := opening.read
  have reach := (reaches_tagName c.next).trans (reaches_attributes l _ st 0 [])
  exact (opening.place.trans (c.reaches_next.trans reach)).mem (Cursor.in_start t)

theorem OpeningTag.isTagChar (opening : OpeningTag l t c tag e) :
    ∀ x ∈ tag, isTagChar x = true :=
  fun _ hx => isTagChar_of_mem_tagName (opening.named ▸ hx)

private theorem Made.endsWithTag (made : Made l t st names elt) (closed : elt.closed = true)
    (notVoid : elt.tag ∉ voidTags) (notRaw : elt.tag ∉ rawTags)
    (notSelf : ¬ elt.ClosesItself l t) : elt.EndsWithTag t := by
  cases made with
  | alone opening whole =>
    exact absurd (opening.closesItself rfl rfl (whole.resolve_right notVoid)) notSelf
  | raw _ _ raw => exact absurd raw notRaw
  | cut => exact absurd closed nofun
  | @closed c d _ _ _ entering place kind own inside =>
    exact ⟨d.pos, own ▸ closes_closingTag place kind, inside⟩
  | left => exact absurd closed nofun
  | ended => exact absurd closed nofun

private theorem rest_rawContent (h : (rawContent tag c).2.1 = false) :
    (rawContent tag c).2.2.rest = [] := by
  cases hcut : cut? ('<' :: '/' :: tag) (lower c.rest) with
  | some r =>
    rw [rawContent, hcut] at h
    cases h
  | none => simp [rawContent, hcut]

private theorem Made.endsOpen (made : Made l t st names elt) (notClosed : elt.closed = false) :
    (l.maxDepth ≤ names.length ∧ elt.children = []) ∨ st.iterationLimitHit = true ∨
      elt.stop.Marks t [] ∨ elt.EndsBefore t names := by
  cases made with
  | alone => exact absurd notClosed nofun
  | @raw c tag e opening _ _ =>
    have hend := (reaches_rawContent tag e.cursor).mem opening.content
    rw [Cursor.In, rest_rawContent notClosed] at hend
    exact .inr (.inr (.inl hend))
  | cut _ deep => exact .inl ⟨deep, rfl⟩
  | closed => exact absurd notClosed nofun
  | @left c d _ _ _ _ place kind outer =>
    exact .inr (.inr (.inr ⟨_, outer, _, closes_closingTag place kind⟩))
  | ended _ place spent =>
    rcases spent with spent | spent
    · exact .inr (.inr (.inl (spent ▸ place)))
    · exact .inr (.inl spent)

private theorem Made.endsAtFirst (made : Made l t st names elt) (raw : elt.tag ∈ rawTags)
    (closed : elt.closed = true) (notSelf : ¬ elt.ClosesItself l t) :
    ∃ c e, OpeningTag l t c elt.tag e ∧ c.pos = elt.start ∧
      elt.EndsAtFirst t e.cursor (elt.tag <+: ·) := by
  cases made with
  | alone opening whole =>
    have self := whole.resolve_right (not_void_of_raw raw)
    exact absurd (opening.closesItself rfl rfl self) notSelf
  | @raw c tag e opening _ _ =>
    obtain ⟨d, hd, hcontent⟩ := exists_rawEnd opening.isTagChar closed
    have he := opening.content
    refine ⟨c, e, opening, rfl, d, _, hd.reach, ?_, hd.named, ?_, fun p q other hp le hother =>
      hd.index_le he hp le hother⟩
    · rw [hcontent]
      exact closes_closingTag (hd.reach.mem he) hd.kind
    · rw [hcontent]
  | cut => exact absurd closed nofun
  | closed entering => exact absurd raw entering.notRaw
  | left => exact absurd closed nofun
  | ended => exact absurd closed nofun

end Reader

/-- Raw content that ends at the first closing tag whose name starts with that of the element ends
at its own one exactly if in no other the name goes on. -/
theorem Element.EndsAtFirst.own_iff {t : Text} {b : Cursor} {e : Element}
    (h : e.EndsAtFirst t b (e.tag <+: ·)) : e.EndsAtFirst t b (· = e.tag) ↔
      ∀ (p q : Position) (name : Text), p.Closes t q name → b.pos.index ≤ p.index →
        p.index < e.stop.index → e.tag <+: name → name = e.tag := by
  obtain ⟨d, name, reach, closes, named, content, first⟩ := h
  have same {p q : Position} {other : Text} (hp : p.Closes t q other)
      (le : b.pos.index ≤ p.index) (lt : p.index < e.stop.index) (hother : e.tag <+: other) :
      other = name :=
    closes.name_eq_of_lt hp (first p q other hp le hother) lt
  constructor
  · rintro ⟨d', _, reach', closes', rfl, -, -⟩ p q other hp le lt hother
    rw [same hp le lt hother]
    exact (same closes' reach'.index_le closes'.index_lt (List.prefix_refl _)).symm
  · intro own
    refine ⟨d, name, reach, closes, own _ _ _ closes reach.index_le closes.index_lt named, content,
      ?_⟩
    rintro p q _ hp le rfl
    exact first p q _ hp le (List.prefix_refl _)

namespace Document
variable {l : Limits} {t : Text} {names : List Text} {e : Element}

/-- An element that is closed, and not by its own tag alone, ends with a closing tag that has its
name, behind all its children. One that is not closed was cut off by the ceiling on nesting, or the
reading was cut short, or it ends with the text or before a closing tag of an element that it lies
in. -/
theorem read_endings (he : (names, e) ∈ (Document.read l t).nodes.lineages []) :
    (e.closed = true → e.tag ∉ voidTags → e.tag ∉ rawTags → ¬ e.ClosesItself l t →
      e.EndsWithTag t) ∧
    (e.closed = false → (l.maxDepth ≤ names.length ∧ e.children = []) ∨
      (Document.read l t).stats.iterationLimitHit = true ∨ e.stop.Marks t [] ∨
      e.EndsBefore t names) := by
  have made := read_made l t _ he
  exact ⟨made.endsWithTag, made.endsOpen⟩

/-- Of two elements that overlap in the text, the outer one ends with its closing tag and the inner
one before that. -/
theorem read_endings_overlapping :
    let t := "<a><b>x</a>y</b>".toList
    let elements := (Document.read {} t).nodes.lineages []
    (∃ p ∈ elements, p.2.tag = "a".toList ∧ p.2.EndsWithTag t) ∧
      ∃ p ∈ elements, p.2.tag = "b".toList ∧ p.2.EndsBefore t ["a".toList] := by
  intro t elements
  have outer : ∃ p ∈ elements, p.2.tag = "a".toList ∧ p.2.closed = true ∧
      p.2.tag ∉ voidTags ∧ p.2.tag ∉ rawTags ∧ ¬ p.2.ClosesItself {} t := by decide +kernel
  have inner : ∃ p ∈ elements, p.2.tag = "b".toList ∧ p.2.closed = false ∧
      p.1 = ["a".toList] ∧ p.2.stop.index = 7 := by decide +kernel
  obtain ⟨⟨_, a⟩, ha, tag, closed, notVoid, notRaw, notSelf⟩ := outer
  obtain ⟨⟨_, b⟩, hb, tag', notClosed, rfl, stop⟩ := inner
  refine ⟨⟨_, ha, tag, (read_endings ha).1 closed notVoid notRaw notSelf⟩, _, hb, tag', ?_⟩
  rcases (read_endings hb).2 notClosed with ⟨deep, -⟩ | hit | last | before
  · exact absurd deep (by decide)
  · exact absurd hit (by decide +kernel)
  · have := last.index_eq
    rw [stop] at this
    exact absurd this (by decide)
  · exact before

/-- The content of a raw element that is closed, and not by its own tag alone, ends at the first
closing tag whose name starts with that of the element. So it ends at the first closing tag with the
element's own name exactly if every closing tag in it whose name starts like that has that name. -/
theorem read_raw_endings (he : (names, e) ∈ (Document.read l t).nodes.lineages [])
    (raw : e.tag ∈ rawTags) (closed : e.closed = true)
    (notSelf : ¬ e.ClosesItself l t) :
    ∃ c front, OpeningTag l t c e.tag front ∧ c.pos = e.start ∧
      e.EndsAtFirst t front.cursor (e.tag <+: ·) ∧
      (e.EndsAtFirst t front.cursor (· = e.tag) ↔
        ∀ (p q : Position) (name : Text), p.Closes t q name → front.cursor.pos.index ≤ p.index →
          p.index < e.stop.index → e.tag <+: name → name = e.tag) := by
  obtain ⟨c, front, opening, start, ends⟩ := (read_made l t _ he).endsAtFirst raw closed notSelf
  exact ⟨c, front, opening, start, ends, ends.own_iff⟩

/-- What ends this script is not its closing tag. -/
theorem read_raw_endings_script :
    let t := "<script>a</scripty>b</script>".toList
    ∃ p ∈ (Document.read {} t).nodes.lineages [], p.2.tag = "script".toList ∧
      p.2.stop.index = 19 ∧ ∃ c front, OpeningTag {} t c p.2.tag front ∧ c.pos = p.2.start ∧
        p.2.EndsAtFirst t front.cursor (p.2.tag <+: ·) := by
  intro t
  have script : ∃ p ∈ (Document.read {} t).nodes.lineages [], p.2.tag = "script".toList ∧
      p.2.stop.index = 19 ∧ p.2.tag ∈ rawTags ∧ p.2.closed = true ∧ ¬ p.2.ClosesItself {} t := by
    decide +kernel
  obtain ⟨⟨_, e⟩, he, tag, stop, raw, closed, notSelf⟩ := script
  obtain ⟨c, front, opening, start, ends, -⟩ := read_raw_endings he raw closed notSelf
  exact ⟨_, he, tag, stop, c, front, opening, start, ends⟩

end Document
end MailMarkup
