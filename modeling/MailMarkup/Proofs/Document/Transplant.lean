import Mathlib.Data.List.Basic
import MailMarkup.Proofs.Document.Siblings
import MailMarkup.Proofs.Document.Twins

/-!
# Siblings in another place

A text that was read somewhere in a document reads the same in another place, if what follows there
has what ended it: the same kind of markup, or a closing tag of an element that is open there too.
`ReadsAs` says so of a text that stands for a stretch of the document, and it is built up as
siblings are. So a stretch may be copied, and a closed element may stand in the place of one that it
was in.
-/
namespace MailMarkup

theorem Cursor.Reaches.upTo_append {a b c : Cursor} (h : a.Reaches b) (h' : b.Reaches c) :
    a.upTo c = a.upTo b ++ b.upTo c := by
  have hrest := h.upTo.1
  rw [h'.upTo.1, (h.trans h').upTo.1, ← List.append_assoc] at hrest
  exact List.append_cancel_right hrest

theorem Cursor.Reaches.upTo_ne_nil {c d : Cursor} (h : c.Reaches d)
    (less : d.rest.length < c.rest.length) : c.upTo d ≠ [] := by
  intro hnil
  have hrest := h.upTo.1
  rw [hnil, List.nil_append] at hrest
  rw [hrest] at less
  exact Nat.lt_irrefl _ less

theorem ReadStats.Eases.tick_snd {l : Limits} {su st : ReadStats} (h : su.Eases st)
    (ht : (st.tick l).2 = true) : (su.tick l).2 = true := by
  have htick : st.tick l = ((st.tick l).1, true) := by rw [← ht]
  obtain ⟨su', htick', -⟩ := h.tick htick
  rw [htick']

namespace Reader
open Text
open Cursor (Twin Hides)

variable {l : Limits} {names names' : List Text} {u v : Text} {c c' d : Cursor}
  {st st' su : ReadStats} {ns : Forest}

theorem Twin.rest_eq (h : Twin c.rest v c d) : d.rest = v := by
  obtain ⟨x, hx, hd⟩ := h
  obtain rfl : x = [] := by simpa using hx
  exact hd

theorem Twin.classify_eq (h : Twin u v c d) (alike : Alike u v) :
    classify d.rest = classify c.rest := by
  obtain ⟨x, hx, hd⟩ := h
  rw [hx, hd]
  exact (alike.append x).classify

theorem Twin.two (h : Twin u v c d) (long : u.length + 2 ≤ c.rest.length) :
    ∃ a b x, c.rest = a :: b :: (x ++ u) ∧ d.rest = a :: b :: (x ++ v) := by
  obtain ⟨x, hx, hd⟩ := h
  rw [hx, List.length_append] at long
  match x with
  | [] => rw [List.length_nil] at long; omega
  | [a] => rw [List.length_singleton] at long; omega
  | a :: b :: x => exact ⟨a, b, x, hx, hd⟩

/-- The first two characters tell an element. -/
theorem Twin.element (h : Twin u v c d) (kind : classify c.rest = .element)
    (long : u.length + 2 ≤ c.rest.length) : classify d.rest = .element := by
  obtain ⟨a, b, x, hx, hd⟩ := Twin.two h long
  obtain ⟨y, r, hr, -⟩ := classify_element kind
  obtain ⟨rfl, -⟩ := List.cons.inj (hx.symm.trans hr)
  rw [hx, Reader.classify_eq] at kind
  rw [hd, Reader.classify_eq]
  split_ifs at kind ⊢
  rfl

theorem openingTag_two (kind : classify c.rest = .element) :
    (tagName c.next).2.rest.length + 2 ≤ c.rest.length := by
  have named := tagName_named kind
  have hlen := named.length_eq
  have htag := List.length_pos_iff.2 named.nonempty
  omega

theorem openingTag_twin (h : Twin u v c d) (sub : v ⊆ u) (eases : su.Eases st)
    (kind : classify c.rest = .element)
    (hu : (attributes l (tagName c.next).2 st 0 []).stats.Unmet)
    (stay : u <:+ (attributes l (tagName c.next).2 st 0 []).cursor.rest)
    (hides : (attributes l (tagName c.next).2 st 0 []).selfClosing = true ∨
      Hides u v (attributes l (tagName c.next).2 st 0 []).cursor) :
    classify d.rest = .element ∧ (tagName d.next).1 = (tagName c.next).1 ∧
      TagEnd.Twin u v (attributes l (tagName c.next).2 st 0 [])
        (attributes l (tagName d.next).2 su 0 []) := by
  obtain ⟨hstay, hhide⟩ := hides_behind stay hides (skipBlanks_reaches_attributes hu)
  have hblanks := (tagName c.next).2.reaches_skipBlanks
  have hname := hstay.trans hblanks.suffix
  have hle := hname.length_le
  have htwo := openingTag_two kind
  have hkind := Twin.element h kind (by omega)
  have hne : c.rest ≠ u := by
    rintro rfl
    omega
  obtain ⟨heq, htwin⟩ := tagName_twin (h.next hne) hname (.inl (hhide.of_reaches hblanks hstay))
  exact ⟨hkind, heq, attributes_twin htwin sub eases hu stay hides⟩

private theorem textRun_length_le (t acc : Text) :
    (textRun t acc).length ≤ t.length + acc.length := by
  induction t generalizing acc with
  | nil => simp [textRun]
  | cons x t ih =>
    rw [textRun]
    split
    · have := ih (x :: acc)
      simp only [List.length_cons] at this ⊢
      omega
    · simp

/-- Markup that is read at once is read alike before another text of the same kind, and where fewer
elements are open. -/
theorem Token.twin (t : Token l names c st ns c' st') (h : Twin u v c d) (sub : v ⊆ u)
    (alike : Alike u v) (stay : u <:+ c'.rest) (eases : su.Eases st) (fewer : names' ⊆ names) :
    ∃ ns' d' su', Token l names' d su ns' d' su' ∧ Twin u v c' d' ∧ su'.Eases st' ∧
      Forest.unplaced ns' = Forest.unplaced ns := by
  have hkind := Twin.classify_eq h alike
  cases t with
  | comment kind =>
    obtain ⟨hbody, htwin⟩ := commentBody_twin h sub stay
    refine ⟨_, _, su, .comment (hkind.trans kind), htwin, eases, ?_⟩
    rw [hbody]
    rfl
  | declaration kind =>
    exact ⟨[], _, su, .declaration (hkind.trans kind), afterDeclaration_twin h sub stay, eases, rfl⟩
  | stray kind unopened =>
    obtain ⟨hname, htwin⟩ := closingTag_twin h kind stay (.inl (alike.hides _))
    refine ⟨[], _, su, .stray (hkind.trans kind) fun hmem => unopened ?_, htwin, eases, rfl⟩
    rw [← hname]
    exact fewer hmem
  | text kind trimmed =>
    have hle := textRun_length_le c.rest []
    rw [List.length_nil, Nat.add_zero] at hle
    have hrun : textRun d.rest [] = textRun c.rest [] := by
      obtain ⟨x, hx, hd⟩ := h
      have := stay.length_le
      rw [Cursor.rest_advance, List.length_drop, hx, List.length_append] at this
      rw [hx, List.length_append] at hle
      rw [hx, hd]
      refine textRun_twin alike ?_
      rw [List.length_nil]
      omega
    rw [← hrun] at trimmed
    refine ⟨_, _, su, .text (hkind.trans kind) trimmed, ?_, eases, ?_⟩
    · rw [hrun]
      exact advance_twin h stay hle
    · split <;> rfl
  | alone kind name tagEnd unmet all =>
    subst name tagEnd
    obtain ⟨hd, hname, htag⟩ := openingTag_twin h sub eases kind unmet stay (.inr (alike.hides _))
    rw [← hname, ← htag.selfClosing] at all
    refine ⟨_, _, _, .alone hd rfl rfl htag.stats.unmet all, htag.cursor, htag.stats, ?_⟩
    rw [hname, htag.attributes]
    rfl
  | raw kind name tagEnd unmet more raw =>
    subst name tagEnd
    have hstay := stay.trans (reaches_rawContent _ _).suffix
    obtain ⟨hd, hname, htag⟩ := openingTag_twin h sub eases kind unmet hstay (.inr (alike.hides _))
    obtain ⟨hnodes, hclosed, htwin⟩ := rawContent_twin htag.cursor sub stay (alike.hides _)
    rw [← hname, ← htag.selfClosing] at more
    rw [← hname] at raw
    refine ⟨_, _, _, .raw hd rfl rfl htag.stats.unmet more raw, hname ▸ htwin, htag.stats, ?_⟩
    rw [hname, htag.attributes, hclosed]
    simp only [Forest.unplaced, Node.unplaced, hnodes]

theorem Opens.twin {tag : Text} {e : TagEnd} (o : Opens l names c st tag e) (h : Twin u v c d)
    (sub : v ⊆ u) (stay : u <:+ e.cursor.rest) (hides : Hides u v e.cursor) (eases : su.Eases st)
    (less : names'.length ≤ names.length) :
    ∃ e', Opens l names' d su tag e' ∧ TagEnd.Twin u v e e' := by
  obtain ⟨kind, rfl, rfl, unmet, more, notRaw, room⟩ := o
  obtain ⟨hd, hname, htag⟩ := openingTag_twin h sub eases kind unmet stay (.inr hides)
  have room' := Nat.lt_of_le_of_lt less room
  refine ⟨_, ⟨hd, hname.symm, rfl, htag.stats.unmet, ?_, notRaw, room'⟩, htag⟩
  rw [htag.selfClosing]
  exact more

/-! ### Transplanted siblings -/

theorem Twin.of_reaches (h : c.Reaches c') (hd : d.rest = c.upTo c' ++ v) : Twin c'.rest v c d :=
  ⟨_, h.upTo.1, hd⟩

/-- Blanks are passed over up to what stands behind them, if that starts with no other blank. -/
theorem rest_skipBlanks_of_upTo (hd : d.rest = c.upTo c.skipBlanks ++ v)
    (head : v.head? = c.skipBlanks.rest.head?) : d.skipBlanks.rest = v :=
  Twin.rest_eq (skipBlanks_twin (Twin.of_reaches c.reaches_skipBlanks hd) (List.suffix_refl _)
    (.inr head))

/-- Another text may stand where siblings end, with other elements open: it has what ended them. -/
structure Fits (names names' : List Text) (c : Cursor) (v : Text) : Prop where
  fewer : names' ⊆ names
  less : names'.length ≤ names.length
  closer : classify c.skipBlanks.rest = .closing → (closingTag c.skipBlanks).1 ∈ names →
    (closingTag c.skipBlanks).1 ∈ names'
  alike : Alike c.rest v
  sub : v ⊆ c.rest

/-- In the place of what is read from one place to another, the text `r` reads as `ms`. -/
structure ReadsAs (l : Limits) (names : List Text) (c : Cursor) (st : ReadStats) (c' : Cursor)
    (st' : ReadStats) (r : Text) (ms : Forest) : Prop where
  alike {v : Text} (h : Alike c'.rest v) : Alike c.rest (r ++ v)
  sub {v : Text} (h : v ⊆ c'.rest) : r ++ v ⊆ c.rest
  reads {names' : List Text} {v : Text} {d : Cursor} {su : ReadStats}
    (fits : Fits names names' c' v) (hd : d.rest = r ++ v) (eases : su.Eases st) :
    ∃ ns d' su', Siblings l names' d su ns d' su' ∧ d'.rest = v ∧ su'.Eases st' ∧
      Forest.unplaced ns = Forest.unplaced ms

private theorem Alike.eq_of_ends (h : Alike c.rest v) (ends : c.skipBlanks.rest = []) :
    v = c.rest := by
  rw [Cursor.skipBlanks, Cursor.rest_skipWhile, List.dropWhile_eq_nil_iff] at ends
  obtain ⟨x, u', v', hu, rfl, rfl | h'⟩ := h
  · exact hu.symm
  · obtain ⟨⟨r, rfl⟩, -, -, -⟩ := h'
    have hblank : isBlank '<' = true := ends '<' (by simp [hu])
    exact absurd hblank (by decide)

theorem rest_skipBlanks_congr (h : d.rest = c.rest) : d.skipBlanks.rest = c.skipBlanks.rest := by
  rw [Cursor.skipBlanks, Cursor.skipBlanks, Cursor.rest_skipWhile, Cursor.rest_skipWhile, h]

theorem alike_upTo (h : c.Reaches c') (alike : Alike c'.rest v) :
    Alike c.rest (c.upTo c' ++ v) := by
  rw [h.upTo.1]
  exact alike.append _

theorem subset_upTo (h : c.Reaches c') (sub : v ⊆ c'.rest) : c.upTo c' ++ v ⊆ c.rest := by
  rw [h.upTo.1]
  exact List.append_subset.2
    ⟨List.subset_append_left _ _, List.subset_append_of_subset_right _ sub⟩

namespace ReadsAs

theorem nil : ReadsAs l names c st c st [] [] where
  alike h := h
  sub h := h
  reads _ hd eases := ⟨[], _, _, .nil, hd, eases, rfl⟩

variable {c₁ : Cursor} {st₁ st₂ st₃ : ReadStats} {r r₁ : Text} {ms ms₁ : Forest}

theorem token (tick : st.tick l = (st₁, true)) (more : c.skipBlanks.rest ≠ [])
    (token : Token l names c.skipBlanks st₁ ns c₁ st₂) (rest : ReadsAs l names c₁ st₂ c' st' r ms) :
    ReadsAs l names c st c' st' (c.upTo c₁ ++ r) (ns ++ ms) where
  alike h := by
    rw [List.append_assoc]
    exact alike_upTo (c.reaches_skipBlanks.trans token.reaches) (rest.alike h)
  sub h := by
    rw [List.append_assoc]
    exact subset_upTo (c.reaches_skipBlanks.trans token.reaches) (rest.sub h)
  reads {names' v d su} fits hd eases := by
    have alike := rest.alike fits.alike
    rw [List.append_assoc] at hd
    have htwin := skipBlanks_twin
      (Twin.of_reaches (c.reaches_skipBlanks.trans token.reaches) hd) token.reaches.suffix
      (alike.hides _)
    obtain ⟨su₁, tick', eases₁⟩ := eases.tick tick
    obtain ⟨ns', d₁, su₂, token', htwin₁, eases₂, hns⟩ :=
      token.twin htwin (rest.sub fits.sub) alike (List.suffix_refl _) eases₁ fits.fewer
    obtain ⟨ms', d', su', rest', hd', eases', hms⟩ :=
      rest.reads fits (Twin.rest_eq htwin₁) eases₂
    have more' := mt (Cursor.rest_eq_nil_congr (htwin.peek (alike.hides _))).1 more
    refine ⟨ns' ++ ms', d', su', .token tick' more' token' rest', hd', eases', ?_⟩
    simp only [Forest.unplaced_eq_map, List.map_append] at hns hms ⊢
    rw [hns, hms]

end ReadsAs

section Element
variable {tag : Text} {e : TagEnd} {c₁ : Cursor} {st₁ st₂ st₃ : ReadStats} {r r₁ : Text}
  {cs ms ms₁ : Forest}

theorem Opens.enter (opens : Opens l names c.skipBlanks st₁ tag e) (tick : st.tick l = (st₁, true))
    (less : names'.length ≤ names.length) (alike : Alike e.cursor.rest v) (sub : v ⊆ e.cursor.rest)
    (hd : d.rest = c.upTo e.cursor ++ v) (eases : su.Eases st) :
    ∃ su₁ e', su.tick l = (su₁, true) ∧ Opens l names' d.skipBlanks su₁ tag e' ∧
      e'.cursor.rest = v ∧ e'.stats.Eases e.stats ∧ e'.attributes = e.attributes := by
  have htwin := skipBlanks_twin (Twin.of_reaches (c.reaches_skipBlanks.trans opens.reaches) hd)
    opens.reaches.suffix (alike.hides _)
  obtain ⟨su₁, tick', eases₁⟩ := eases.tick tick
  obtain ⟨e', opens', htag⟩ :=
    opens.twin htwin sub (List.suffix_refl _) (alike.hides _) eases₁ less
  exact ⟨su₁, e', tick', opens', Twin.rest_eq htag.cursor, htag.stats, htag.attributes⟩

private theorem closingTag_two (kind : classify c.rest = .closing) :
    (closingTag c).2.rest.length + 2 ≤ c.rest.length := by
  obtain ⟨r, hr⟩ := classify_closing kind
  have hle := ((reaches_tagName (c.advance 2)).trans (reaches_recover _)).length_le
  rw [Cursor.rest_advance, List.length_drop] at hle
  have htwo : 2 ≤ c.rest.length := by simp [hr]
  have : (closingTag c).2.rest.length ≤ c.rest.length - 2 := hle
  omega

theorem closingTag_same (h : Twin (closingTag c).2.rest v c d) (kind : classify c.rest = .closing)
    (lands : Lands (closingTag c).2.rest v (closerEnd c)) : SameMarkup c.rest d.rest := by
  obtain ⟨hname, -⟩ := closingTag_twin h kind (List.suffix_refl _) lands
  rw [closingTag_fst, closingTag_fst] at hname
  obtain ⟨a, b, x, hx, hd⟩ := Twin.two h (closingTag_two kind)
  obtain ⟨r, hr⟩ := classify_closing kind
  rw [hx, List.cons.injEq, List.cons.injEq] at hr
  obtain ⟨rfl, rfl, -⟩ := hr
  refine ⟨⟨_, hx⟩, ⟨_, hd⟩, ?_, fun _ => hname⟩
  rw [kind, hd]
  rfl

/-- Before a closing tag the text may be changed behind the tag. -/
theorem alike_of_closer (kind : classify c.skipBlanks.rest = .closing)
    (lands : Lands (closingTag c.skipBlanks).2.rest v (closerEnd c.skipBlanks)) :
    Alike c.rest (c.upTo (closingTag c.skipBlanks).2 ++ v) := by
  have hreach := reaches_closingTag c.skipBlanks
  rw [c.reaches_skipBlanks.upTo_append hreach, List.append_assoc]
  refine alike_upTo c.reaches_skipBlanks (.of_markup ?_)
  exact closingTag_same
    (d := .start (c.skipBlanks.upTo (closingTag c.skipBlanks).2 ++ v))
    (Twin.of_reaches hreach rfl) kind lands

/-- The content of an element is read alike up to behind the closing tag. -/
theorem ReadsAs.content (children : ReadsAs l (tag :: names) c st c₁ st₁ r ms)
    (tick : st₁.tick l = (st₂, true)) (kind : classify c₁.skipBlanks.rest = .closing)
    (closer : (closingTag c₁.skipBlanks).1 = tag) (fewer : names' ⊆ names)
    (less : names'.length ≤ names.length) (sub : v ⊆ (closingTag c₁.skipBlanks).2.rest)
    (lands : Lands (closingTag c₁.skipBlanks).2.rest v (closerEnd c₁.skipBlanks))
    (hd : d.rest = r ++ (c₁.upTo (closingTag c₁.skipBlanks).2 ++ v)) (eases : su.Eases st) :
    ∃ ns d' su', Content l names' tag d su ns d' su' ∧ d'.rest = v ∧ su'.Eases st₂ ∧
      Forest.unplaced ns = Forest.unplaced ms := by
  have hcloser := reaches_closingTag c₁.skipBlanks
  have hreach := c₁.reaches_skipBlanks.trans hcloser
  have fits : Fits (tag :: names) (tag :: names') c₁ (c₁.upTo (closingTag c₁.skipBlanks).2 ++ v) :=
    { fewer := List.cons_subset_cons tag fewer
      less := Nat.succ_le_succ less
      closer := fun _ _ => closer ▸ List.mem_cons_self
      alike := alike_of_closer kind lands
      sub := subset_upTo hreach sub }
  obtain ⟨ns, d₁, su₁, children', hd₁, eases₁, hns⟩ := children.reads fits hd eases
  obtain ⟨su₂, tick', eases₂⟩ := eases₁.tick tick
  have htwin := skipBlanks_twin (Twin.of_reaches hreach hd₁) hcloser.suffix
    (.of_lt (closingTag_lt (ne_nil_of_classify kind nofun)))
  obtain ⟨hname, htwin'⟩ := closingTag_twin htwin kind (List.suffix_refl _) lands
  have kind' := (closingTag_same htwin kind lands).kind.trans kind
  exact ⟨ns, _, su₂, .intro children' tick' kind' (hname.trans closer), Twin.rest_eq htwin', eases₂,
    hns⟩

namespace ReadsAs

theorem closed (tick : st.tick l = (st₁, true)) (opens : Opens l names c.skipBlanks st₁ tag e)
    (children : ReadsAs l (tag :: names) e.cursor e.stats c₁ st₂ r₁ ms₁)
    (tick' : st₂.tick l = (st₃, true)) (kind : classify c₁.skipBlanks.rest = .closing)
    (closer : (closingTag c₁.skipBlanks).1 = tag)
    (rest : ReadsAs l names (closingTag c₁.skipBlanks).2 st₃ c' st' r ms) {stop : Position} :
    ReadsAs l names c st c' st'
      (c.upTo e.cursor ++ (r₁ ++ (c₁.upTo (closingTag c₁.skipBlanks).2 ++ r)))
      (.element ⟨tag, e.attributes, c.skipBlanks.pos, stop, true⟩ ms₁ :: ms) where
  alike h := by
    simp only [List.append_assoc]
    refine alike_upTo (c.reaches_skipBlanks.trans opens.reaches) (children.alike ?_)
    exact alike_of_closer kind (.inl ((rest.alike h).hides _))
  sub h := by
    simp only [List.append_assoc]
    refine subset_upTo (c.reaches_skipBlanks.trans opens.reaches) (children.sub ?_)
    exact subset_upTo (c₁.reaches_skipBlanks.trans (reaches_closingTag _)) (rest.sub h)
  reads {names' v d su} fits hd eases := by
    simp only [List.append_assoc] at hd
    have hreach := c₁.reaches_skipBlanks.trans (reaches_closingTag c₁.skipBlanks)
    have lands : Lands (closingTag c₁.skipBlanks).2.rest (r ++ v) (closerEnd c₁.skipBlanks) :=
      .inl ((rest.alike fits.alike).hides _)
    have sub := rest.sub fits.sub
    obtain ⟨su₁, e', tick₁, opens', hrest, eases₁, hattrs⟩ :=
      opens.enter tick fits.less (children.alike (alike_of_closer kind lands))
        (children.sub (subset_upTo hreach sub)) hd eases
    obtain ⟨ns₁, d₁, su₂, content, hd₁, eases₂, hns₁⟩ :=
      children.content tick' kind closer fits.fewer fits.less sub lands hrest eases₁
    obtain ⟨ns, d', su', rest', hd', eases', hns⟩ := rest.reads fits hd₁ eases₂
    refine ⟨_, d', su', .of_content tick₁ opens' content rest', hd', eases', ?_⟩
    simp only [Forest.unplaced, Node.unplaced, hattrs, hns₁, hns]

theorem left (tick : st.tick l = (st₁, true)) (opens : Opens l names c.skipBlanks st₁ tag e)
    (children : ReadsAs l (tag :: names) e.cursor e.stats c₁ st₂ r ms)
    (tick' : st₂.tick l = (st₃, true)) (kind : classify c₁.skipBlanks.rest = .closing)
    (other : (closingTag c₁.skipBlanks).1 ≠ tag) (outer : (closingTag c₁.skipBlanks).1 ∈ names)
    {stop : Position} :
    ReadsAs l names c st c₁.skipBlanks st₃ (c.upTo e.cursor ++ (r ++ c₁.upTo c₁.skipBlanks))
      [.element ⟨tag, e.attributes, c.skipBlanks.pos, stop, false⟩ ms] where
  alike h := by
    simp only [List.append_assoc]
    exact alike_upTo (c.reaches_skipBlanks.trans opens.reaches)
      (children.alike (alike_upTo c₁.reaches_skipBlanks h))
  sub h := by
    simp only [List.append_assoc]
    exact subset_upTo (c.reaches_skipBlanks.trans opens.reaches)
      (children.sub (subset_upTo c₁.reaches_skipBlanks h))
  reads {names' v d su} fits hd eases := by
    simp only [List.append_assoc] at hd
    have alike := alike_upTo c₁.reaches_skipBlanks fits.alike
    have sub := subset_upTo c₁.reaches_skipBlanks fits.sub
    have hcloser := fits.closer
    rw [skipBlanks_idem] at hcloser
    obtain ⟨su₁, e', tick₁, opens', hrest, eases₁, hattrs⟩ :=
      opens.enter tick fits.less (children.alike alike) (children.sub sub) hd eases
    have fits' : Fits (tag :: names) (tag :: names') c₁ (c₁.upTo c₁.skipBlanks ++ v) :=
      ⟨List.cons_subset_cons tag fits.fewer, Nat.succ_le_succ fits.less,
        fun _ _ => List.mem_cons_of_mem _ (hcloser kind outer), alike, sub⟩
    obtain ⟨ns, d₁, su₂, children', hd₁, eases₂, hns⟩ := children.reads fits' hrest eases₁
    obtain ⟨su₃, tick₂, eases₃⟩ := eases₂.tick tick'
    have hv := rest_skipBlanks_of_upTo hd₁ fits.alike.head?
    have hname : (closingTag d₁.skipBlanks).1 = (closingTag c₁.skipBlanks).1 := by
      rw [closingTag_fst, closingTag_fst, hv]
      exact fits.alike.closer kind
    have kind' : classify d₁.skipBlanks.rest = .closing := by
      rw [hv, fits.alike.classify]
      exact kind
    refine ⟨_, _, su₃, .left tick₁ opens' children' tick₂ kind' (hname ▸ other)
      (hname ▸ hcloser kind outer), hv, eases₃, ?_⟩
    simp only [Forest.unplaced, Node.unplaced, hattrs, hns]

theorem ended (tick : st.tick l = (st₁, true)) (opens : Opens l names c.skipBlanks st₁ tag e)
    (children : ReadsAs l (tag :: names) e.cursor e.stats c₁ st₂ r ms)
    (ends : c₁.skipBlanks.rest = []) (last : c₁.rest ≠ [] → (st₂.tick l).2 = true)
    {stop : Position} :
    ReadsAs l names c st c₁ st₂ (c.upTo e.cursor ++ r)
      [.element ⟨tag, e.attributes, c.skipBlanks.pos, stop, false⟩ ms] where
  alike h := by
    rw [List.append_assoc]
    exact alike_upTo (c.reaches_skipBlanks.trans opens.reaches) (children.alike h)
  sub h := by
    rw [List.append_assoc]
    exact subset_upTo (c.reaches_skipBlanks.trans opens.reaches) (children.sub h)
  reads {names' v d su} fits hd eases := by
    rw [List.append_assoc] at hd
    obtain rfl := fits.alike.eq_of_ends ends
    obtain ⟨su₁, e', tick₁, opens', hrest, eases₁, hattrs⟩ :=
      opens.enter tick fits.less (children.alike fits.alike) (children.sub fits.sub) hd eases
    have noCloser : classify c₁.skipBlanks.rest ≠ .closing := by
      rw [ends]
      exact nofun
    have fits' : Fits (tag :: names) (tag :: names') c₁ c₁.rest :=
      ⟨List.cons_subset_cons tag fits.fewer, Nat.succ_le_succ fits.less,
        fun kind => absurd kind noCloser, fits.alike, fits.sub⟩
    obtain ⟨ns, d₁, su₂, children', hd₁, eases₂, hns⟩ := children.reads fits' hrest eases₁
    refine ⟨_, d₁, su₂, .ended tick₁ opens' children' (rest_skipBlanks_congr hd₁ ▸ ends)
      fun hne => eases₂.tick_snd (last (hd₁ ▸ hne)), hd₁, eases₂, ?_⟩
    simp only [Forest.unplaced, Node.unplaced, hattrs, hns]

end ReadsAs

end Element

/-- What was read between two places reads the same elsewhere. -/
theorem Siblings.readsAs (h : Siblings l names c st ns c' st') :
    ReadsAs l names c st c' st' (c.upTo c') ns := by
  induction h with
  | @nil names c st =>
    have hself : c.upTo c = [] := by simp [Cursor.upTo]
    rw [hself]
    exact .nil
  | @token names c c₁ c' st st₁ st₂ st' ms ns tick more token rest ih =>
    rw [(c.reaches_skipBlanks.trans token.reaches).upTo_append rest.reaches]
    exact .token tick more token ih
  | @closed names c c₁ c' st st₁ st₂ st₃ st' tag e cs ns tick opens children tick' kind closer rest
      ihc ih =>
    have hcloser := c₁.reaches_skipBlanks.trans (reaches_closingTag c₁.skipBlanks)
    rw [(c.reaches_skipBlanks.trans opens.reaches).upTo_append
        (children.reaches.trans (hcloser.trans rest.reaches)),
      children.reaches.upTo_append (hcloser.trans rest.reaches), hcloser.upTo_append rest.reaches]
    exact .closed tick opens ihc tick' kind closer ih
  | @left names c c₁ st st₁ st₂ st₃ tag e cs tick opens children tick' kind other outer ihc =>
    rw [(c.reaches_skipBlanks.trans opens.reaches).upTo_append
        (children.reaches.trans c₁.reaches_skipBlanks),
      children.reaches.upTo_append c₁.reaches_skipBlanks]
    exact .left tick opens ihc tick' kind other outer
  | @ended names c c₁ st st₁ st₂ tag e cs tick opens children ends last ihc =>
    rw [(c.reaches_skipBlanks.trans opens.reaches).upTo_append children.reaches]
    exact .ended tick opens ihc ends last

/-! ### An element in the place of another -/

theorem upTo_skipWhile (c : Cursor) (p : Char → Bool) :
    c.upTo (c.skipWhile p) = c.rest.takeWhile p := by
  have hrest := (c.reaches_skipWhile p).upTo.1
  rw [Cursor.rest_skipWhile] at hrest
  exact List.append_cancel_right (hrest.symm.trans List.takeWhile_append_dropWhile.symm)

private theorem not_mem_upTo_closerEnd (kind : classify c.rest = .closing) :
    '>' ∉ c.upTo (closerEnd c) := by
  have hjunk : (tagName (c.advance 2)).2.Reaches (closerEnd c) := Cursor.reaches_skipWhile _ _
  have htwo : c.upTo (c.advance 2) = ['<', '/'] := by
    obtain ⟨r, hr⟩ := classify_closing kind
    have hindex := Cursor.index_advance (c := c) (n := 2) (by simp [hr])
    simp [Cursor.upTo, hindex, hr]
  have hname : (c.advance 2).upTo (tagName (c.advance 2)).2 =
      (c.advance 2).rest.takeWhile isTagChar := upTo_skipWhile _ _
  rw [(c.reaches_advance 2).upTo_append ((reaches_tagName _).trans hjunk),
    (reaches_tagName _).upTo_append hjunk, htwo, hname, closerEnd, junkEnd, upTo_skipWhile]
  intro hmem
  rcases List.mem_append.1 hmem with h | h
  · simp at h
  · rcases List.mem_append.1 h with h | h
    · exact absurd (List.mem_takeWhile_imp h) (by decide)
    · exact absurd (List.mem_takeWhile_imp h) (by decide)

private theorem closerEnd_lt (kind : classify c.rest = .closing)
    (gt : (c.upTo (closingTag c).2).getLast? = some '>') :
    (closingTag c).2.rest.length < (closerEnd c).rest.length := by
  have hclose : (closingTag c).2 =
      if (closerEnd c).peek == some '>' then (closerEnd c).next else closerEnd c := recover_eq _
  by_cases hp : ((closerEnd c).peek == some '>') = true
  · rw [hclose, if_pos hp]
    refine next_lt ?_
    rw [ne_eq, Cursor.rest_eq_nil_iff, beq_iff_eq.1 hp]
    exact nofun
  · rw [hclose, if_neg hp] at gt
    exact absurd (List.mem_of_getLast? gt) (not_mem_upTo_closerEnd kind)

section Replace
variable {names₁ : List Text} {a b b' : Cursor} {sa sa' sb sb' : ReadStats} {h : Head}
  {cs ms : Forest} {r : Text}

theorem Entire.two (entire : Entire l names c st h cs c' st') :
    classify c.rest = .element ∧ c'.rest.length + 2 ≤ c.rest.length := by
  have htag (kind : classify c.rest = .element) :
      (attributes l (tagName c.next).2 st 0 []).cursor.rest.length + 2 ≤ c.rest.length := by
    have hle := attributes_le l (tagName c.next).2 st 0 []
    have htwo := openingTag_two kind
    omega
  cases entire with
  | alone kind name tagEnd unmet all => exact ⟨kind, tagEnd ▸ htag kind⟩
  | closed opens content =>
    obtain ⟨children, tick, kind, closer⟩ := content
    have hle := (children.onward.trans (onward_closingTag _ tick)).reaches.length_le
    have := htag opens.kind
    rw [← opens.tagEnd] at this
    exact ⟨opens.kind, by omega⟩

/-- The tag that ends an element ends with `>`, or what follows cannot be taken for a part of it. -/
def Shut (c c' : Cursor) (u : Text) : Prop :=
  (c.upTo c').getLast? = some '>' ∨ u.head?.all (· == '<') = true

theorem Shut.lands {u : Text} (shut : Shut c (closingTag c').2 u) (reaches : c.Reaches c')
    (kind : classify c'.rest = .closing) (head : v.head? = u.head?) :
    Lands (closingTag c').2.rest v (closerEnd c') := by
  rcases shut with gt | lt
  · refine .inl (.of_lt (closerEnd_lt kind ?_))
    have hlt := closingTag_lt (ne_nil_of_classify kind nofun)
    rwa [reaches.upTo_append (reaches_closingTag c'),
      List.getLast?_append_of_ne_nil _ ((reaches_closingTag c').upTo_ne_nil hlt)] at gt
  · exact .inr (head ▸ lt)

theorem Entire.reads (entire : Entire l names c st h cs c' st')
    (notVoid : voidTags.contains h.tag = false) (fewer : names' ⊆ names)
    (less : names'.length ≤ names.length) (sub : v ⊆ c'.rest)
    {u : Text} (shut : Shut c c' u) (head : v.head? = u.head?) (hd : d.rest = c.upTo c' ++ v)
    (eases : su.Eases st) :
    ∃ h' cs' d' su', Entire l names' d su h' cs' d' su' ∧ d'.rest = v ∧ su'.Eases st' ∧
      (Node.element h' cs').unplaced = (Node.element h cs).unplaced := by
  have htwin := Twin.of_reaches entire.onward.reaches hd
  cases entire with
  | alone kind name tagEnd unmet all =>
    subst name tagEnd
    have self : (attributes l (tagName c.next).2 st 0 []).selfClosing = true :=
      (Bool.or_eq_true_iff.1 all).resolve_right (by simpa using notVoid)
    obtain ⟨hkind, hname, htag⟩ :=
      openingTag_twin htwin sub eases kind unmet (List.suffix_refl _) (.inl self)
    refine ⟨_, _, _, _, .alone hkind hname.symm rfl htag.stats.unmet ?_, Twin.rest_eq htag.cursor,
      htag.stats, ?_⟩
    · rw [htag.selfClosing]
      exact all
    · simp only [Node.unplaced, htag.attributes]
  | @closed tag e cs c' st' opens content =>
    obtain @⟨c₁, st₁, st₂, children, tick, kind, closer⟩ := content
    have hclose := c₁.reaches_skipBlanks.trans (reaches_closingTag c₁.skipBlanks)
    have lands := shut.lands
      ((opens.reaches.trans children.reaches).trans c₁.reaches_skipBlanks) kind head
    have same := children.readsAs
    rw [opens.reaches.upTo_append (children.reaches.trans hclose),
      children.reaches.upTo_append hclose, List.append_assoc, List.append_assoc] at hd
    have alike := same.alike (alike_of_closer kind lands)
    obtain ⟨e', opens', htag⟩ := opens.twin (Twin.of_reaches opens.reaches hd)
      (same.sub (subset_upTo hclose sub)) (List.suffix_refl _) (alike.hides _) eases less
    obtain ⟨cs', d', su', content', hd', eases', hcs⟩ := same.content tick kind closer fewer less
      sub lands (Twin.rest_eq htag.cursor) htag.stats
    refine ⟨_, cs', d', su', .closed opens' content', hd', eases', ?_⟩
    simp only [Node.unplaced, htag.attributes, hcs]

private theorem Siblings.of_entire (tick : st.tick l = (sa, true))
    (entire : Entire l names c.skipBlanks sa h cs b sb) (rest : Siblings l names b sb ns c' st') :
    Siblings l names c st (.element h cs :: ns) c' st' := by
  cases entire with
  | alone kind name tagEnd unmet all =>
    exact .token tick (ne_nil_of_classify kind nofun) (.alone kind name tagEnd unmet all) rest
  | closed opens content => exact .of_content tick opens content rest

theorem Entire.same {u : Text} (entire : Entire l names c st h cs c' st')
    (kind : classify u = .element) : SameMarkup u (c.upTo c' ++ v) := by
  have kind' := Twin.element (d := .start (c.upTo c' ++ v))
    (Twin.of_reaches entire.onward.reaches rfl) entire.two.1 entire.two.2
  obtain ⟨x, r, hu, -⟩ := classify_element kind
  obtain ⟨y, r', hv, -⟩ := classify_element kind'
  refine ⟨⟨_, hu⟩, ⟨_, hv⟩, kind'.trans kind.symm, fun hc => ?_⟩
  exact absurd (kind.symm.trans hc) nofun

/-- An element may stand in the place of another one that it was in. -/
theorem ReadsAs.replace (kind : classify c.skipBlanks.rest = .element)
    (before : Onward c.skipBlanks st a sa) (tick : sa.tick l = (sa', true))
    (entire : Entire l names₁ a.skipBlanks sa' h cs b sb) (behind : Onward b sb b' sb')
    (fewer : names ⊆ names₁) (less : names.length ≤ names₁.length)
    (notVoid : voidTags.contains h.tag = false) (shut : Shut a.skipBlanks b b'.rest)
    (rest : ReadsAs l names b' sb' c' st' r ms) :
    ReadsAs l names c st c' st' (c.upTo c.skipBlanks ++ (a.skipBlanks.upTo b ++ r))
      (.element h cs :: ms) where
  alike {v} hv := by
    simp only [List.append_assoc]
    exact alike_upTo c.reaches_skipBlanks (.of_markup (entire.same kind))
  sub {v} hv := by
    simp only [List.append_assoc]
    have hsub := List.Subset.trans (rest.sub hv) behind.reaches.suffix.subset
    have hreach := before.reaches.trans a.reaches_skipBlanks
    exact subset_upTo c.reaches_skipBlanks
      (List.Subset.trans (subset_upTo entire.onward.reaches hsub) hreach.suffix.subset)
  reads {names' v d su} fits hd eases := by
    simp only [List.append_assoc] at hd
    have hrest := rest_skipBlanks_of_upTo hd (Alike.of_markup (entire.same kind)).head?
    obtain ⟨su₁, tick', eases₁⟩ :=
      ReadStats.Eases.tick ⟨Nat.le_trans eases.le before.rounds, eases.unmet⟩ tick
    obtain ⟨h', cs', d₁, su₂, entire', hd₁, eases₂, hnode⟩ :=
      entire.reads notVoid (List.Subset.trans fits.fewer fewer) (Nat.le_trans fits.less less)
        (List.Subset.trans (rest.sub fits.sub) behind.reaches.suffix.subset) shut
        (rest.alike fits.alike).head? hrest eases₁
    obtain ⟨ns, d', su', rest', hd', eases', hns⟩ :=
      rest.reads fits hd₁ ⟨Nat.le_trans eases₂.le behind.rounds, eases₂.unmet⟩
    refine ⟨_, d', su', .of_entire tick' entire' rest', hd', eases', ?_⟩
    simp only [Forest.unplaced, hnode, hns]

end Replace

/-! ### Whole documents -/

private theorem lastStats_unmet (h : st.Unmet) (last : c.rest ≠ [] → (st.tick l).2 = true) :
    (lastStats l c st).Unmet := by
  unfold lastStats
  split
  · exact h
  · rename_i hne
    have htick : st.tick l = ((st.tick l).1, true) := by rw [← last hne]
    have eases : st.Eases st := ⟨Nat.le_refl _, h⟩
    obtain ⟨st', htick', eases'⟩ := eases.tick htick
    rw [htick']
    exact eases'.unmet

/-- A text that stands for all of a document but the blanks at its end is read to its end. -/
theorem ReadsAs.read {t r : Text} {ms : Forest} (reads : ReadsAs l [] (.start t) {} c st r ms)
    (ends : c.skipBlanks.rest = []) (last : c.rest ≠ [] → (st.tick l).2 = true) :
    (Document.read l (r ++ c.rest)).stats.Unmet ∧
      Forest.unplaced (Document.read l (r ++ c.rest)).nodes = Forest.unplaced ms := by
  have fits : Fits [] [] c c.rest :=
    ⟨List.Subset.refl _, Nat.le_refl _, fun _ hmem => hmem, .refl _, List.Subset.refl _⟩
  obtain ⟨ns, d, su, siblings, hd, eases, hns⟩ :=
    reads.reads (d := .start (r ++ c.rest)) fits rfl ⟨Nat.le_refl _, rfl, rfl, rfl⟩
  have last' (hne : d.rest ≠ []) : (su.tick l).2 = true := eases.tick_snd (last (hd ▸ hne))
  rw [siblings.read_eq (rest_skipBlanks_congr hd ▸ ends) last']
  exact ⟨lastStats_unmet eases.unmet last', hns⟩

end Reader
end MailMarkup
