import MailMarkup.Proofs.Document.Parts
import MailMarkup.Proofs.Rule.AddressPattern
import MailMarkup.Proofs.Rule.Sanitizing

/-!
# Replacing script addresses

A replacement brings two quotes with it. An address in double quotes that was opened before it and
closed nowhere gets closed by the replacement, and is then a match. Nothing else in the result is
one: no match starts in a replacement, none goes from a gap into a replacement before its scheme is
complete, and no word edge is lost or made where a gap starts. After two rounds no match is left.
-/
namespace MailMarkup.Script
open Pattern

section replacement
open Expr Forbidden
variable {c d : Cursor} {m : Match} {name h r g u v : Text} {q : Option Char}

/-- What stands in place of a match. -/
def harmless (m : Match) : Text := Text.lower (m.group 1) ++ "=\"#\"".toList

theorem harmless_eq (hr : addressExpr.Reads ⟨m.start, []⟩ ⟨m.stop, m.notes⟩) :
    ∃ name, name.map Text.fold ∈ addressed ∧ harmless m = name ++ ['=', '"', '#', '"'] := by
  refine ⟨Text.lower (m.group 1), ?_, rfl⟩
  rw [Text.lower, List.map_map, show Text.fold ∘ Text.lowerChar = Text.fold from
    funext Text.fold_lowerChar]
  exact (name_of_reads hr).1

/-- One character can follow another in the start of an attribute with a script address: no word
starts there but the scheme. -/
def Follows (x y : Char) : Prop := Text.isWord y → Text.isWord x ∨ Text.fold y = 'j'

private theorem chain_scheme (hw : u.map Text.fold = scheme) : u.IsChain Follows := by
  have hchain : scheme.IsChain fun x _ => IsFolded x ∧ Text.isWord x := by decide
  rw [← hw] at hchain
  exact List.isChain_of_isChain_map Text.fold (fun x _ h _ => .inl (isWord_of_fold h.1 h.2)) hchain

theorem chain_append (hu : u.IsChain Follows) (hv : v.IsChain Follows)
    (hj : ∀ y ∈ v.head?, Text.isWord y → Text.fold y = 'j') : (u ++ v).IsChain Follows :=
  List.isChain_append.2 ⟨hu, hv, fun _ _ y hy hw => .inr (hj y hy hw)⟩

private theorem head_parts (hq : q ∈ quotes) (hh : h ∈ heads q) : ∃ name mid w : Text,
    name.map Text.fold ∈ addressed ∧ '=' ∈ mid ∧ (∀ x ∈ mid, Text.isWord x = false) ∧
    w.map Text.fold = scheme ∧ h = name ++ (mid ++ w) := by
  obtain ⟨_, hl, _, hop, rfl⟩ := Language.mem_mul.1 hh
  obtain ⟨name, s, s', hn, hs, hs', rfl⟩ := mem_leads.1 hl
  obtain ⟨b, w, hb, -, hw, rfl⟩ := (mem_openings hq).1 hop
  have hquote : ∀ x ∈ q.toList, Text.isWord x = false := by
    simp only [quotes, List.mem_cons, List.not_mem_nil, or_false] at hq
    rcases hq with rfl | rfl | rfl
    · exact List.forall_mem_nil _
    · exact List.forall_mem_singleton.2 (by decide)
    · exact List.forall_mem_singleton.2 (by decide)
  refine ⟨name, s ++ '=' :: (s' ++ (q.toList ++ b)), w, hn, by simp, ?_, hw, by simp⟩
  simp only [List.forall_mem_append, List.forall_mem_cons]
  exact ⟨fun x hx => (has_blank (hs x hx)).2, by decide, fun x hx => (has_blank (hs' x hx)).2,
    hquote, fun x hx => (has_blank (hb x hx)).2⟩

private theorem chain_head (hq : q ∈ quotes) (hh : h ∈ heads q) : h.IsChain Follows := by
  obtain ⟨name, mid, w, hn, he, hmid, hw, rfl⟩ := head_parts hq hh
  have hname : name.IsChain Follows := List.Pairwise.isChain <|
    List.pairwise_of_forall_mem_list fun x hx y _ _ => .inl (isWord_name hn x hx)
  have hmid' : mid.IsChain Follows := List.Pairwise.isChain <|
    List.pairwise_of_forall_mem_list fun x _ y hy h => absurd h (by simp [hmid y hy])
  refine chain_append hname (chain_append hmid' (chain_scheme hw) fun y hy _ => ?_) ?_
  · obtain ⟨v, rfl⟩ := List.head?_eq_some_iff.1 hy
    exact (List.cons.inj hw).1
  · intro y hy h
    rw [List.head?_append_of_ne_nil _ (List.ne_nil_of_mem he)] at hy
    exact absurd h (by simp [hmid y (List.mem_of_mem_head? hy)])

/-- A name that starts where no word goes on. -/
structure NameAfter (g u : Text) : Prop where
  ne_nil : g ≠ []
  edge : ∀ x ∈ g.getLast?, Text.isWord x = false
  name : ∃ x t, u = x :: t ∧ Text.isWord x ∧ Text.fold x ∈ initials

/-- The start of an attribute does not go on where another name starts. -/
theorem head_within (hq : q ∈ quotes) (hh : h ∈ heads q) (hn : NameAfter g u)
    (heq : h ++ r = g ++ u) : ∃ g', g = h ++ g' ∧ r = g' ++ u := by
  obtain ⟨x, t, rfl, hx, hi⟩ := hn.name
  rcases List.append_eq_append_iff.1 heq with ⟨g', rfl, hr⟩ | ⟨z, rfl, hz⟩
  · exact ⟨g', rfl, hr⟩
  · cases z with
    | nil => exact ⟨[], by simp, by simpa using hz.symm⟩
    | cons y z =>
      obtain ⟨rfl, -⟩ := List.cons.inj hz
      obtain ⟨front, z', rfl⟩ := List.eq_nil_or_concat g |>.resolve_left hn.ne_nil
      have hlast := hn.edge z' (by simp)
      have hchain := chain_head hq hh
      rw [List.concat_eq_append, List.append_assoc, List.singleton_append,
        List.isChain_append_cons_cons] at hchain
      rcases hchain.2.1 hx with hw | hj
      · rw [hlast] at hw
        cases hw
      · rw [hj] at hi
        exact absurd hi (by decide)

private theorem not_head_harmless (hn : name.map Text.fold ∈ addressed) (hq : q ∈ quotes)
    (hh : h ∈ heads q) : h ++ r ≠ name ++ '=' :: '"' :: '#' :: u := by
  intro heq
  obtain ⟨_, hl, _, hop, rfl⟩ := Language.mem_mul.1 hh
  obtain ⟨name', s, s', hn', hs, hs', rfl⟩ := mem_leads.1 hl
  obtain ⟨b, w, hb, hnone, hw, rfl⟩ := (mem_openings hq).1 hop
  obtain ⟨y, w, rfl, hy⟩ : ∃ y v, w = y :: v ∧ Text.fold y = 'j' := by
    obtain ⟨y, v, rfl, hy, -⟩ := List.map_eq_cons_iff.1 hw
    exact ⟨y, v, rfl, hy⟩
  simp only [List.append_assoc, List.cons_append] at heq
  have hstop : (s ++ '=' :: (s' ++ (q.toList ++ (b ++ y :: (w ++ r))))).head?.any
      Text.isWord = false := by
    cases s with
    | nil => rfl
    | cons x s => exact (has_blank (hs x List.mem_cons_self)).2
  obtain ⟨-, heq⟩ := Text.append_stop_inj (isWord_name hn') (isWord_name hn) hstop rfl heq
  have hblank (x : Char) (hx : x = '=' ∨ x = '"' ∨ x = '#') :
      (Source.blankSet .wide).has x = false := by
    rcases hx with rfl | rfl | rfl <;> decide
  have hempty {s v t : Text} {x : Char} (hx : x = '=' ∨ x = '"' ∨ x = '#')
      (hs : ∀ x ∈ s, (Source.blankSet .wide).has x) (heq : s ++ v = x :: t) : s = [] := by
    cases s with
    | nil => rfl
    | cons y s =>
      obtain ⟨rfl, -⟩ := List.cons.inj heq
      have := hs y List.mem_cons_self
      rw [hblank y hx] at this
      cases this
  obtain rfl := hempty (.inl rfl) hs heq
  have heq := (List.cons.inj heq).2
  obtain rfl := hempty (.inr (.inl rfl)) hs' heq
  simp only [quotes, List.mem_cons, List.not_mem_nil, or_false] at hq
  rcases hq with rfl | rfl | rfl
  · obtain rfl := hnone rfl
    obtain ⟨rfl, -⟩ := List.cons.inj heq
    exact absurd hy (by decide)
  · have heq := (List.cons.inj heq).2
    obtain rfl := hempty (.inr (.inr rfl)) hb heq
    obtain ⟨rfl, -⟩ := List.cons.inj heq
    exact absurd hy (by decide)
  · exact absurd (List.cons.inj heq).1 (by decide)

private theorem not_opens_harmless (hn : name.map Text.fold ∈ addressed)
    (hv : name ++ ['=', '"', '#', '"'] = g ++ v) (hne : v ≠ []) (hd : d.rest = v ++ u)
    (hb : g ≠ [] → d.before = g.getLast?) : ¬ Opens q d h r := by
  intro ho
  by_cases hg : g = []
  · subst hg
    refine not_head_harmless (r := r) (u := '"' :: u) hn ho.quote ho.head ?_
    rw [← ho.rest, hd, ← List.nil_append v, ← hv]
    simp
  · obtain ⟨x, t, hx, hword, -⟩ := head_eq_cons ho.head
    obtain ⟨v', rfl⟩ : ∃ v', v = x :: v' := by
      obtain ⟨y, v', rfl⟩ := List.exists_cons_of_ne_nil hne
      have heq := hd.symm.trans ho.rest
      rw [hx] at heq
      obtain ⟨rfl, -⟩ := List.cons.inj heq
      exact ⟨v', rfl⟩
    rcases List.append_eq_append_iff.1 hv with ⟨g', rfl, htail⟩ | ⟨g', hname, -⟩
    · have hmem : x ∈ ['=', '"', '#', '"'] := by rw [htail]; simp
      have hall : (['=', '"', '#', '"'] : Text).all fun x => !Text.isWord x := by decide
      have hnot := List.all_eq_true.1 hall x hmem
      rw [hword] at hnot
      cases hnot
    · have hlast := List.getLast?_eq_some_getLast hg
      have hedge := ho.edge _ ((hb hg).trans hlast)
      have hmem : g.getLast hg ∈ name := by
        rw [hname]
        exact List.mem_append_left _ (List.getLast_mem hg)
      rw [isWord_name hn _ hmem] at hedge
      cases hedge

end replacement
section rounds
open Expr Forbidden
variable {c d s : Cursor} {m : Match} {ms : List Match} {h r g u v w : Text} {q : Option Char}
  {n : Nat}

/-- If a word can start at the second place, then at the first no word goes on exactly if none does
at the second. -/
def SameEdge (d c : Cursor) : Prop := (∃ x ∈ c.peek, Text.isWord x) → (AtEdge d ↔ AtEdge c)

theorem SameEdge.advance (he : SameEdge d c) (hd : d.rest = w ++ u) (hc : c.rest = w ++ v) :
    SameEdge (d.advance w.length) (c.advance w.length) := by
  by_cases hw : w = []
  · subst hw
    exact he
  · intro _
    rw [AtEdge, AtEdge, Cursor.before_advance hd hw, Cursor.before_advance hc hw]

theorem SameEdge.advance_same (he : SameEdge d c) (hr : d.rest = c.rest) (n : Nat) :
    SameEdge (d.advance n) (c.advance n) := by
  rintro ⟨x, hx, hw⟩
  have hlen : (c.rest.take n).length = n := by
    obtain ⟨t, ht⟩ := List.head?_eq_some_iff.1 hx
    have hne := congrArg List.length ht
    rw [Cursor.rest_advance, List.length_drop, List.length_cons] at hne
    rw [List.length_take]
    omega
  have hc : c.rest = c.rest.take n ++ c.rest.drop n := (List.take_append_drop n c.rest).symm
  have hadv := he.advance (hr.trans hc) hc
  rw [hlen] at hadv
  exact hadv ⟨x, hx, hw⟩

/-- Two places with the same text after them, and the same before as far as it matters. -/
theorem SameEdge.opens (he : SameEdge d c) (hr : d.rest = c.rest) (ho : Opens q d h r) :
    Opens q c h r := by
  obtain ⟨x, t, hx, hw, -⟩ := head_eq_cons ho.head
  have hrest := hr.symm.trans ho.rest
  have hpeek : c.peek = some x := by rw [Cursor.peek, hrest, hx]; rfl
  exact ⟨(he ⟨x, hpeek, hw⟩).1 ho.edge, ho.quote, ho.head, hrest⟩

theorem SameEdge.matchesAt (he : SameEdge d c) (hr : d.rest = c.rest)
    (hm : addressExpr.MatchesAt d) : addressExpr.MatchesAt c := by
  obtain ⟨q, h, r, ho, hq⟩ := opens_of_matchesAt hm
  exact matchesAt_of_opens (he.opens hr ho) hq

/-- An attribute that starts before another name starts there whatever follows that name. -/
theorem Opens.transfer (ho : Opens q d h r) (hd : d.rest = g ++ u) (hc : c.rest = g ++ v)
    (hn : NameAfter g u) (he : AtEdge d → AtEdge c) :
    ∃ g', r = g' ++ u ∧ Opens q c h (g' ++ v) := by
  obtain ⟨g', rfl, hr⟩ := head_within ho.quote ho.head hn (ho.rest.symm.trans hd)
  exact ⟨g', hr, he ho.edge, ho.quote, ho.head, by rw [hc, List.append_assoc]⟩

/-- In the gap before some match an address in double quotes is opened that is closed nowhere. -/
def Completes (c : Cursor) : List Match → Prop
  | [] => False
  | m :: ms =>
    (∃ s h r, c.Reaches s ∧ s.pos.index < m.start.pos.index ∧ Opens (some '"') s h r ∧ '"' ∉ r) ∨
      Completes m.stop ms

/-- A place in the gap before a match, in the text and in what it becomes. -/
structure InGap (c d : Cursor) (m : Match) (u : Text) (n : Nat) (g : Text) : Prop where
  rest : (c.advance n).rest = g ++ m.start.rest
  rest' : (d.advance n).rest = g ++ u
  edge : SameEdge (d.advance n) (c.advance n)
  name : NameAfter g m.start.rest

theorem inGap (hs : c.Reaches m.start) (hr : addressExpr.Reads ⟨m.start, []⟩ ⟨m.stop, m.notes⟩)
    (hd : d.rest = c.upTo m.start ++ u) (he : SameEdge d c) (hn : n < (c.upTo m.start).length) :
    ∃ g, InGap c d m u n g := by
  obtain ⟨hc, -⟩ := hs.upTo
  obtain ⟨hname, hedge, t, ht⟩ := name_of_reads hr
  have hstart := hs.eq_advance hc
  generalize c.upTo m.start = gap at *
  have hne : gap ≠ [] := List.ne_nil_of_length_pos (by omega)
  have hg : gap.drop n ≠ [] := by simpa using hn
  have hlen : (gap.take n).length = n := by simp; omega
  have hc' : c.rest = gap.take n ++ (gap.drop n ++ m.start.rest) := by
    rw [← List.append_assoc, List.take_append_drop, ← hc]
  have hd' : d.rest = gap.take n ++ (gap.drop n ++ u) := by
    rw [← List.append_assoc, List.take_append_drop, ← hd]
  have hadv := he.advance hd' hc'
  refine ⟨gap.drop n, ?_, ?_, hlen ▸ hadv, hg, ?_, ?_⟩
  · have h := Cursor.rest_advance_append hc'
    rwa [hlen] at h
  · have h := Cursor.rest_advance_append hd'
    rwa [hlen] at h
  · intro x hx
    have hbefore : m.start.before = gap.getLast? := by
      rw [hstart]
      exact Cursor.before_advance hc hne
    have hlast : (gap.drop n).getLast? = gap.getLast? := by
      rw [List.getLast?_drop, if_neg (by omega)]
    exact hedge x (by rw [hbefore, ← hlast]; exact hx)
  · obtain ⟨x, v, hx, hi⟩ := name_eq_cons hname
    refine ⟨x, v ++ t, by rw [ht, hx]; rfl, ?_, hi⟩
    exact isWord_name hname x (by rw [hx]; exact List.mem_cons_self)

theorem InGap.sameEdge (hg : InGap c d m u n g) (ho : h ∈ heads q)
    (hr : (d.advance n).rest = h ++ r ∨ (c.advance n).rest = h ++ r) :
    AtEdge (d.advance n) ↔ AtEdge (c.advance n) := by
  obtain ⟨x, t, rfl, hw, -⟩ := head_eq_cons ho
  obtain ⟨y, g', rfl⟩ := List.exists_cons_of_ne_nil hg.name.ne_nil
  refine hg.edge ⟨x, ?_, hw⟩
  rw [Cursor.peek]
  rcases hr with hr | hr
  · have hy := hg.rest'.symm.trans hr
    rw [hg.rest, (List.cons.inj hy).1]
    rfl
  · rw [hr]
    rfl

theorem NameAfter.harmless {t : Text} (hn : NameAfter g u)
    (hr : addressExpr.Reads ⟨m.start, []⟩ ⟨m.stop, m.notes⟩) : NameAfter g (harmless m ++ t) := by
  obtain ⟨name, hname, heq⟩ := harmless_eq hr
  obtain ⟨x, v, rfl, hi⟩ := name_eq_cons hname
  refine ⟨hn.ne_nil, hn.edge, x, _, by rw [heq]; rfl, ?_, hi⟩
  exact isWord_name hname x List.mem_cons_self

theorem mem_harmless (hr : addressExpr.Reads ⟨m.start, []⟩ ⟨m.stop, m.notes⟩) :
    '"' ∈ harmless m ∧ '\'' ∉ harmless m := by
  obtain ⟨name, hname, heq⟩ := harmless_eq hr
  rw [heq]
  refine ⟨by simp, fun hm => ?_⟩
  rcases List.mem_append.1 hm with hm | hm
  · exact absurd (isWord_name hname _ hm) (by decide)
  · exact absurd hm (by decide)

/-- A match of what a text becomes, in a gap of the text: an address in double quotes that is opened
there and closed nowhere. -/
theorem matchesAt_gap {t : Text} (hg : InGap c d m (harmless m ++ t) n g)
    (hr : addressExpr.Reads ⟨m.start, []⟩ ⟨m.stop, m.notes⟩)
    (ht : ∀ x ∈ t, x ≠ '\'' ∨ x ∈ m.stop.rest)
    (hno : ¬ addressExpr.MatchesAt (c.advance n)) :
    addressExpr.MatchesAt (d.advance n) ↔
      ∃ h r, Opens (some '"') (c.advance n) h r ∧ '"' ∉ r := by
  obtain ⟨hdouble, hsingle⟩ := mem_harmless hr
  constructor
  · intro hm
    obtain ⟨q, h, r, ho, hq⟩ := opens_of_matchesAt hm
    obtain ⟨g', rfl, ho'⟩ := ho.transfer hg.rest' hg.rest (hg.name.harmless hr)
      (hg.sameEdge ho.head (.inl ho.rest)).1
    have hopen : ¬ ∀ x ∈ q, x ∈ g' ++ m.start.rest := fun hx => hno (matchesAt_of_opens ho' hx)
    have hmem := ho.quote
    simp only [quotes, List.mem_cons, List.not_mem_nil, or_false] at hmem
    rcases hmem with rfl | rfl | rfl
    · exact absurd (fun x hx => by cases hx) hopen
    · exact ⟨h, _, ho', fun hx => hopen (by rintro _ ⟨⟩; exact hx)⟩
    · refine absurd ?_ hopen
      rintro _ ⟨⟩
      have hx := hq '\'' rfl
      rw [List.mem_append, List.mem_append] at hx
      rw [List.mem_append]
      refine hx.imp_right fun hx => ?_
      rw [hr.text_eq.1]
      refine List.mem_append_right _ ((ht _ (hx.resolve_left hsingle)).resolve_left (by simp))
  · rintro ⟨h, r, ho, -⟩
    obtain ⟨g', rfl, ho'⟩ := ho.transfer hg.rest hg.rest' hg.name
      (hg.sameEdge ho.head (.inr ho.rest)).2
    refine matchesAt_of_opens ho' ?_
    rintro _ ⟨⟩
    simp [hdouble]

theorem not_opens_replaced {t : Text} (hr : addressExpr.Reads ⟨m.start, []⟩ ⟨m.stop, m.notes⟩)
    (hd : d.rest = w ++ (harmless m ++ t)) (hn : n < (harmless m).length) :
    ¬ Opens q (d.advance (w.length + n)) h r := by
  obtain ⟨name, hname, heq⟩ := harmless_eq hr
  have hlen : ((harmless m).take n).length = n := by simp; omega
  have hd' : d.rest = (w ++ (harmless m).take n) ++ ((harmless m).drop n ++ t) := by
    rw [hd, List.append_assoc, ← List.append_assoc (List.take _ _), List.take_append_drop]
  have hadv : d.advance (w.length + n) = d.advance (w ++ (harmless m).take n).length := by
    rw [List.length_append, hlen]
  rw [hadv]
  refine not_opens_harmless hname (g := (harmless m).take n) (v := (harmless m).drop n)
    (by rw [List.take_append_drop, heq]) (by simpa using hn) (Cursor.rest_advance_append hd') ?_
  intro hne
  rw [Cursor.before_advance hd' (by simp [hne]), List.getLast?_append_of_ne_nil _ hne]

private theorem sameEdge_replaced {t : Text}
    (hr : addressExpr.Reads ⟨m.start, []⟩ ⟨m.stop, m.notes⟩) (hd : d.rest = (w ++ harmless m) ++ t)
    (hstop : AtEdge m.stop ∨ ∀ x ∈ m.stop.peek, Text.isWord x = false) :
    SameEdge (d.advance (w ++ harmless m).length) m.stop := by
  obtain ⟨name, -, heq⟩ := harmless_eq hr
  have hbefore : (d.advance (w ++ harmless m).length).before = some '"' := by
    rw [Cursor.before_advance hd (by simp [heq]), heq]
    simp
  have hedge : AtEdge (d.advance (w ++ harmless m).length) := by
    intro x hx
    obtain rfl := Option.some.inj (hbefore.symm.trans hx)
    decide
  rintro ⟨x, hx, hw⟩
  rcases hstop with hstop | hstop
  · exact ⟨fun _ => hstop, fun _ => hedge⟩
  · rw [hstop x hx] at hw
    cases hw

theorem place_cases (i j k : Nat) :
    k < i ∨ (∃ n < j, k = i + n) ∨ ∃ n, k = i + j + n := by
  rcases Nat.lt_or_ge k i with h | h
  · exact .inl h
  · rcases Nat.lt_or_ge k (i + j) with h' | h'
    · exact .inr (.inl ⟨k - i, by omega, by omega⟩)
    · exact .inr (.inr ⟨k - (i + j), by omega⟩)

/-- No word goes on where the matches end. -/
def EndWords (ms : List Match) : Prop :=
  ∀ m ∈ ms, AtEdge m.stop ∨ ∀ x ∈ m.stop.peek, Text.isWord x = false

/-- The text from a place on after its first match is replaced, and the matches after it. -/
structure Replaced (c d : Cursor) (m : Match) (ms : List Match) : Prop where
  rest : d.rest = c.upTo m.start ++ (harmless m ++ rebuild harmless m.stop ms)
  next : (d.advance ((c.upTo m.start).length + (harmless m).length)).rest =
    rebuild harmless m.stop ms
  edge : SameEdge (d.advance ((c.upTo m.start).length + (harmless m).length)) m.stop

theorem replaced (hr : addressExpr.Reads ⟨m.start, []⟩ ⟨m.stop, m.notes⟩)
    (hstop : AtEdge m.stop ∨ ∀ x ∈ m.stop.peek, Text.isWord x = false)
    (hd : d.rest = rebuild harmless c (m :: ms)) : Replaced c d m ms := by
  have hd' : d.rest = (c.upTo m.start ++ harmless m) ++ rebuild harmless m.stop ms := hd
  have hedge := sameEdge_replaced hr hd' hstop
  have hnext := Cursor.rest_advance_append hd'
  rw [List.length_append] at hedge hnext
  exact ⟨by rw [hd', List.append_assoc], hnext, hedge⟩

/-- After its matches are replaced a text has a match exactly if a replacement closed an address. -/
theorem matches_rebuild (hms : Successive addressExpr c ms) (hstop : EndWords ms)
    (hd : d.rest = rebuild harmless c ms) (he : SameEdge d c) :
    (∃ k, addressExpr.MatchesAt (d.advance k)) ↔ Completes c ms := by
  induction hms generalizing d with
  | @done c hn =>
    refine iff_of_false ?_ id
    rintro ⟨k, hm⟩
    have hrest : (d.advance k).rest = (c.advance k).rest := by
      rw [Cursor.rest_advance, Cursor.rest_advance, hd]
      rfl
    exact hn _ (c.reaches_advance k) ((he.advance_same hd k).matchesAt hrest hm)
  | @found c m ms hs hr hf h ih =>
    obtain ⟨hstop, hrest⟩ := List.forall_mem_cons.1 hstop
    have hrep := replaced hr hstop hd
    have ih := ih hrest hrep.next hrep.edge
    have hquote : ∀ x ∈ rebuild harmless m.stop ms, x ≠ '\'' ∨ x ∈ m.stop.rest := by
      intro x hx
      rcases mem_rebuild h hx with hx | ⟨m', hm', hx⟩
      · exact .inr hx
      · exact .inl fun heq => (mem_harmless (h.reads hm')).2 (heq ▸ hx)
    have hgap {n : Nat} (hn : n < (c.upTo m.start).length) :
        addressExpr.MatchesAt (d.advance n) ↔
          ∃ h r, Opens (some '"') (c.advance n) h r ∧ '"' ∉ r := by
      obtain ⟨g, hg⟩ := inGap hs hr hrep.rest he hn
      exact matchesAt_gap hg hr hquote
        (hf _ (c.reaches_advance n) (hs.index_advance_lt_iff.2 hn))
    constructor
    · rintro ⟨k, hm⟩
      rcases place_cases (c.upTo m.start).length (harmless m).length k with
        hk | ⟨n, hn, rfl⟩ | ⟨n, rfl⟩
      · obtain ⟨h, r, ho, hr⟩ := (hgap hk).1 hm
        exact .inl ⟨_, h, r, c.reaches_advance k, hs.index_advance_lt_iff.2 hk, ho, hr⟩
      · obtain ⟨q, h, r, ho, -⟩ := opens_of_matchesAt hm
        exact absurd ho (not_opens_replaced hr hrep.rest hn)
      · exact .inr (ih.1 ⟨n, by rwa [← Cursor.advance_add]⟩)
    · rintro (⟨_, h, r, ⟨n, rfl⟩, hlt, ho, hq⟩ | hc)
      · exact ⟨n, (hgap (hs.index_advance_lt_iff.1 hlt)).2 ⟨h, r, ho, hq⟩⟩
      · obtain ⟨n, hm⟩ := ih.2 hc
        exact ⟨_, by rwa [← Cursor.advance_add] at hm⟩

private theorem not_matches_after (hms : Successive addressExpr c ms) (hstop : EndWords ms)
    (hd : d.rest = rebuild harmless c ms) (he : SameEdge d c)
    (ho : Opens (some '"') (d.advance n) h r) (hq : '"' ∉ r) (k : Nat) :
    ¬ addressExpr.MatchesAt ((d.advance n).advance k) := by
  induction hms generalizing d n with
  | @done c hn =>
    intro hm
    rw [← Cursor.advance_add] at hm
    have hrest : (d.advance (n + k)).rest = (c.advance (n + k)).rest := by
      rw [Cursor.rest_advance, Cursor.rest_advance, hd]
      rfl
    exact hn _ (c.reaches_advance _) ((he.advance_same hd _).matchesAt hrest hm)
  | @found c m ms hs hr hf h ih =>
    obtain ⟨hstop, hrest⟩ := List.forall_mem_cons.1 hstop
    have hrep := replaced hr hstop hd
    rcases place_cases (c.upTo m.start).length (harmless m).length n with
      hk | ⟨n, hn, rfl⟩ | ⟨n, rfl⟩
    · obtain ⟨g, hg⟩ := inGap hs hr hrep.rest he hk
      obtain ⟨g', -, rfl⟩ := head_within ho.quote ho.head (hg.name.harmless hr)
        (ho.rest.symm.trans hg.rest')
      exact absurd (by simp [(mem_harmless hr).1]) hq
    · exact absurd ho (not_opens_replaced hr hrep.rest hn)
    · rw [Cursor.advance_add] at ho ⊢
      exact ih hrest hrep.next hrep.edge ho

private theorem Completes.exists_opens (hms : Successive addressExpr c ms) (hc : Completes c ms) :
    ∃ n k h r, Opens (some '"') (c.advance n) h r ∧ '"' ∉ r ∧
      addressExpr.MatchesAt ((c.advance n).advance k) := by
  induction hms with
  | done => exact hc.elim
  | @found c m ms hs hr hf h ih =>
    rcases hc with ⟨_, h, r, ⟨n, rfl⟩, hlt, ho, hq⟩ | hc
    · have hn := hs.index_advance_lt_iff.1 hlt
      refine ⟨n, (c.upTo m.start).length - n, h, r, ho, hq, ?_⟩
      rw [← Cursor.advance_add, Nat.add_sub_cancel' hn.le, ← hs.eq_advance hs.upTo.1]
      exact ⟨_, hr⟩
    · obtain ⟨j, hj⟩ := hs.trans hr.reaches
      obtain ⟨n, k, h, r, ho, hq, hm⟩ := ih hc
      have hadd : m.stop.advance n = c.advance (j + n) := by
        rw [Cursor.advance_add, ← hj]
      rw [hadd] at ho hm
      exact ⟨j + n, k, h, r, ho, hq, hm⟩

end rounds
section task
variable {p : Pattern} {t : Text} {c : Cursor} {m : Match} {ms : List Match}

theorem successive_address (hp : p.Means addressExpr) (t : Text) :
    Successive addressExpr (.start t) (p.occurrences t) ∧ EndWords (p.occurrences t) :=
  ⟨hp.occurrences_successive rfl t, fun _ hm => stop_of_occurrence hp hm⟩

/-- There are matches in a text exactly if there is a place where one starts. -/
theorem occurrences_eq_nil (hp : p.Means addressExpr) :
    p.occurrences t = [] ↔ ¬ ∃ k, addressExpr.MatchesAt ((Cursor.start t).advance k) := by
  have hms := (successive_address hp t).1
  constructor
  · rintro hnil ⟨k, hm⟩
    rw [hnil] at hms
    cases hms with
    | done hn => exact hn _ (Cursor.reaches_advance _ k) hm
  · intro hno
    generalize p.occurrences t = ms at hms
    cases hms with
    | done => rfl
    | found hs hr hf h =>
      obtain ⟨k, hk⟩ := hs
      exact absurd ⟨k, hk ▸ ⟨_, hr⟩⟩ hno

end task

/-- Replacing the script addresses always gives a result. A script address is left in it exactly if
in the text some address in double quotes was opened before a match and closed nowhere; doing it
again leaves none. -/
theorem fixAddresses_clean (s : Subject) (info : RuleInfo) (ix : Index) :
    ∃ p, Pattern.compile ⟨address, .anyCase⟩ = .ok p ∧ ∃ once twice,
      (fixAddresses s).eval ix = .ok once ∧
      (fixAddresses { s with html := once }).eval ix = .ok twice ∧
      ((checkAddresses { s with html := once } info).eval ix = .ok [] ↔
        ¬ Completes (.start s.html) (p.occurrences s.html)) ∧
      (checkAddresses { s with html := twice } info).eval ix = .ok [] := by
  obtain ⟨p, hp, hc⟩ := Forbidden.exists_compile read_address ordered_addressExpr
  let result (t : Text) : Text := rebuild harmless (.start t) (p.occurrences t)
  have hfix (t : Text) : (fixAddresses { s with html := t }).eval ix = .ok (result t) := by
    have heval : (fixAddresses { s with html := t }).eval ix = .ok (p.replace harmless t) :=
      Forbidden.eval_compiled hc _ ix
    rw [heval, replace_eq]
  have hcheck (t : Text) : (checkAddresses { s with html := t } info).eval ix = .ok [] ↔
      ¬ ∃ k, addressExpr.MatchesAt ((Cursor.start t).advance k) := by
    have heval : (checkAddresses { s with html := t } info).eval ix =
        .ok ((p.occurrences t).map fun m =>
          Tags.finding info m ("'" ++ Tags.nameOf m ++ "' uses a javascript: URL")
            "Link to a real https:// destination") := Forbidden.eval_compiled hc _ ix
    rw [heval, Except.ok.injEq, List.map_eq_nil_iff, occurrences_eq_nil hp]
  have hround (t : Text) : (∃ k, addressExpr.MatchesAt ((Cursor.start (result t)).advance k)) ↔
      Completes (.start t) (p.occurrences t) := by
    obtain ⟨hms, hstop⟩ := successive_address hp t
    exact matches_rebuild hms hstop rfl fun _ => Iff.rfl
  refine ⟨p, hc, result s.html, result (result s.html), hfix s.html, hfix _, ?_, ?_⟩
  · rw [hcheck, hround]
  · rw [hcheck, hround]
    intro hcomp
    obtain ⟨hms, hstop⟩ := successive_address hp s.html
    obtain ⟨n, k, h, r, ho, hq, hm⟩ := hcomp.exists_opens (successive_address hp _).1
    exact not_matches_after (d := .start (result s.html)) hms hstop rfl (fun _ => Iff.rfl) ho hq k
      hm

end MailMarkup.Script
