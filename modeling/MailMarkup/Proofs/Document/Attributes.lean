import Mathlib.Data.List.TakeWhile
import MailMarkup.Attribute
import MailMarkup.Proofs.Document.Ceilings

/-!
# The two readings of attributes

The attribute text of a tag is read in two ways: the document reader takes it from its cursor, a
round at a time and under its ceilings, and the scanner cuts it off a text that stands alone. Up to
the end of the tag both pass over the same characters and find the same names and values.
-/
namespace MailMarkup
open Text Reader

namespace Text
variable {p q : Char → Bool} {t r : Text}

theorem span_append_of_imp (h : ∀ x ∈ t.takeWhile p, q x = true)
    (himp : ∀ x, q x = true → p x = true) (hr : t.dropWhile p = [] → r.head?.any q = false) :
    (t ++ r).takeWhile q = t.takeWhile p ∧ (t ++ r).dropWhile q = t.dropWhile p ++ r := by
  induction t with
  | nil =>
    cases r with
    | nil => exact ⟨rfl, rfl⟩
    | cons x r =>
      have hx : q x = false := by simpa using hr rfl
      simp [hx]
  | cons x t ih =>
    simp only [List.cons_append, List.takeWhile_cons, List.dropWhile_cons] at h hr ⊢
    cases hx : p x with
    | false => simp [Bool.eq_false_iff.2 fun hq => Bool.eq_false_iff.1 hx (himp x hq)]
    | true =>
      rw [if_pos hx] at h hr
      obtain ⟨hq, h⟩ := List.forall_mem_cons.1 h
      obtain ⟨htake, hdrop⟩ := ih h hr
      simp [hq, htake, hdrop]

theorem span_append (hr : t.dropWhile p = [] → r.head?.any p = false) :
    (t ++ r).takeWhile p = t.takeWhile p ∧ (t ++ r).dropWhile p = t.dropWhile p ++ r :=
  span_append_of_imp (fun _ hx => List.mem_takeWhile_imp hx) (fun _ => id) hr

theorem trimStart_suffix (t : Text) : trimStart t <:+ t := List.dropWhile_suffix _

theorem trimEnd_isPrefix (t : Text) : trimEnd t <+: t := by
  have h := List.reverse_prefix.2 (List.dropWhile_suffix (l := t.reverse) isBlank)
  rwa [List.reverse_reverse] at h

theorem trim_isInfix (t : Text) : trim t <:+: t :=
  (trimEnd_isPrefix _).isInfix.trans (trimStart_suffix t).isInfix

theorem trimStart_head (t : Text) : (trimStart t).head?.any isBlank = false := by
  have h := List.head?_dropWhile_not isBlank t
  rw [trimStart]
  cases hd : (t.dropWhile isBlank).head? with
  | none => rfl
  | some x => simpa [hd] using h

theorem trimStart_trimStart (t : Text) : trimStart (trimStart t) = trimStart t := by
  have h := trimStart_head t
  generalize trimStart t = u at h
  cases u with
  | nil => rfl
  | cons x u => simp_all [trimStart]

end Text

namespace Attribute

theorem scanFrom_eq (t : Text) (acc : List Attribute) :
    scanFrom t acc = acc.reverse ++ scan t := by
  rw [scan, scanFrom, scanFrom.eq_def t []]
  split
  · simp
  · have ih := fun acc => scanFrom_eq (scanOne (trimStart t)).2 acc
    cases hone : (scanOne (trimStart t)).1 <;> simp [ih, hone]
termination_by t.length
decreasing_by exact Nat.lt_of_lt_of_le (scanOne_lt (by assumption)) (length_dropWhile_le _ _)

theorem scan_blank {t : Text} (h : trimStart t = []) : scan t = [] := by
  rw [scan, scanFrom, dif_pos h, List.reverse_nil]

/-- The first attribute of a text, if one starts there, and those of what follows. -/
theorem scan_eq {t : Text} (h : trimStart t ≠ []) :
    scan t = (scanOne (trimStart t)).1.toList ++ scan (scanOne (trimStart t)).2 := by
  rw [scan, scanFrom, dif_neg h]
  cases hone : (scanOne (trimStart t)).1 <;> simp [hone, scanFrom_eq]

theorem scan_trimStart (t : Text) : scan (trimStart t) = scan t := by
  have hs := trimStart_trimStart t
  by_cases h : trimStart t = []
  · rw [scan_blank h, scan_blank (hs.trans h)]
  · have h' : trimStart (trimStart t) ≠ [] := by rwa [hs]
    rw [scan_eq h, scan_eq h', hs]

private theorem scanValue_suffix (t : Text) : (scanValue t).2 <:+ t := by
  unfold scanValue
  split
  · exact List.suffix_refl _
  · rename_i q inner
    dsimp only
    split
    · split
      · rename_i x rest hx
        have hr : rest <:+ inner := (List.suffix_cons x rest).trans (hx ▸ List.dropWhile_suffix _)
        exact hr.trans (List.suffix_cons q inner)
      · exact (List.dropWhile_suffix _).trans (List.suffix_cons q inner)
    · exact List.dropWhile_suffix _

theorem scanOne_suffix (t : Text) : (scanOne t).2 <:+ t := by
  unfold scanOne
  split
  · exact List.drop_suffix 1 t
  · dsimp only
    have hrest : t.dropWhile isNameChar <:+ t := List.dropWhile_suffix _
    split
    · rename_i afterEq heq
      have hafter : afterEq <:+ t :=
        (List.suffix_cons '=' afterEq).trans (heq ▸ (trimStart_suffix _).trans hrest)
      exact (scanValue_suffix _).trans ((trimStart_suffix _).trans hafter)
    · exact hrest

/-- The text ends with a slash that is not part of a value. -/
def slashLast (t : Text) : Bool :=
  if _ : trimStart t = [] then false
  else trimStart t == ['/'] || slashLast (scanOne (trimStart t)).2
termination_by t.length
decreasing_by exact Nat.lt_of_lt_of_le (scanOne_lt (by assumption)) (length_dropWhile_le _ _)

theorem slashLast_blank {t : Text} (h : trimStart t = []) : slashLast t = false := by
  rw [slashLast, dif_pos h]

theorem slashLast_eq {t : Text} (h : trimStart t ≠ []) :
    slashLast t = (trimStart t == ['/'] || slashLast (scanOne (trimStart t)).2) := by
  rw [slashLast, dif_neg h]

private theorem slashLast_trimStart (t : Text) : slashLast (trimStart t) = slashLast t := by
  have hs := trimStart_trimStart t
  by_cases h : trimStart t = []
  · rw [slashLast_blank h, slashLast_blank (hs.trans h)]
  · have h' : trimStart (trimStart t) ≠ [] := by rwa [hs]
    rw [slashLast_eq h, slashLast_eq h', hs]

theorem getLast?_of_suffix {t u : Text} (h : u <:+ t) (hu : u ≠ []) : u.getLast? = t.getLast? := by
  obtain ⟨v, rfl⟩ := h
  rw [List.getLast?_append, List.getLast?_eq_some_getLast hu, Option.some_or]

theorem getLast?_of_slashLast {t : Text} (h : slashLast t = true) : t.getLast? = some '/' := by
  induction hk : t.length using Nat.strongRecOn generalizing t with
  | ind k ih =>
    subst hk
    by_cases ht : trimStart t = []
    · rw [slashLast_blank ht] at h
      cases h
    · have hlast := getLast?_of_suffix (trimStart_suffix t) ht
      rw [slashLast_eq ht, Bool.or_eq_true, beq_iff_eq] at h
      rcases h with h | h
      · rw [← hlast, h]
        rfl
      · have hlt := Nat.lt_of_lt_of_le (scanOne_lt ht) (length_dropWhile_le isBlank t)
        have hne : (scanOne (trimStart t)).2 ≠ [] := by
          intro hnil
          rw [hnil, slashLast_blank rfl] at h
          cases h
        rw [← hlast, ← getLast?_of_suffix (scanOne_suffix _) hne]
        exact ih _ hlt h rfl

/-- The name and value an attribute has in a document. -/
def entry (a : Attribute) : Text × Text := (lower a.name, a.value.getD [])

/-- The attributes that an element has when these are written in its tag: of those with one name,
the first. -/
def table (as : List Attribute) : List (Text × Text) :=
  (as.map entry).eraseDupsBy fun a b => a.1 == b.1

section provenance
variable {t s w : Text} {o : Option Attribute} {a : Attribute}

theorem takeWhile_isNameChar (h : scanOne t = (o, w)) :
    t.takeWhile isNameChar = o.elim [] (·.name) := by
  unfold scanOne at h
  split at h
  · rename_i hname
    obtain ⟨rfl, -⟩ := Prod.mk.inj h
    exact hname
  · rename_i c cs hname
    dsimp only at h
    split at h
    · obtain ⟨rfl, -⟩ := Prod.mk.inj h
      exact hname
    · obtain ⟨rfl, -⟩ := Prod.mk.inj h
      exact hname

theorem scanOne_snd_lt (h : trimStart t ≠ []) : (scanOne (trimStart t)).2.length < t.length :=
  Nat.lt_of_lt_of_le (scanOne_lt h) (length_dropWhile_le _ _)

/-- An attribute with a name, made of characters of a text. -/
structure IsFrom (t : Text) (a : Attribute) : Prop where
  name_ne : a.name ≠ []
  isNameChar : ∀ x ∈ a.name, isNameChar x = true
  name : a.name ⊆ t
  value : ∀ v ∈ a.value, v ⊆ t

theorem IsFrom.mono (h : a.IsFrom s) (hs : s ⊆ t) : a.IsFrom t :=
  ⟨h.name_ne, h.isNameChar, List.Subset.trans h.name hs,
    fun v hv => List.Subset.trans (h.value v hv) hs⟩

private theorem scanValue_subset (t : Text) : (scanValue t).1.1 ⊆ t := by
  unfold scanValue
  split
  · exact List.Subset.refl _
  · rename_i q inner
    have hinner : inner ⊆ q :: inner := List.subset_cons_self q inner
    dsimp only
    split
    · split
      · exact List.Subset.trans (List.takeWhile_prefix _).subset hinner
      · exact List.Subset.trans (List.takeWhile_prefix _).subset hinner
    · exact (List.takeWhile_prefix _).subset

private theorem isFrom_scanOne (h : scanOne t = (some a, w)) : a.IsFrom t := by
  have htake := (List.takeWhile_prefix (l := t) Attribute.isNameChar).subset
  have hall : ∀ x ∈ t.takeWhile Attribute.isNameChar, Attribute.isNameChar x = true :=
    fun x hx => List.mem_takeWhile_imp hx
  unfold scanOne at h
  split at h
  · cases h
  · rename_i c cs hname
    rw [hname] at htake hall
    dsimp only at h
    split at h
    · rename_i aft haft
      obtain ⟨ha, -⟩ := Prod.mk.inj h
      obtain rfl := Option.some.inj ha
      refine ⟨List.cons_ne_nil c cs, hall, htake, fun v hv => ?_⟩
      obtain rfl := Option.some.inj hv
      have hsuffix : trimStart aft <:+ t :=
        (trimStart_suffix aft).trans <| (List.suffix_cons '=' aft).trans <|
          haft ▸ (trimStart_suffix _).trans (List.dropWhile_suffix _)
      exact List.Subset.trans (scanValue_subset _) hsuffix.subset
    · obtain ⟨ha, -⟩ := Prod.mk.inj h
      obtain rfl := Option.some.inj ha
      exact ⟨List.cons_ne_nil c cs, hall, htake, nofun⟩

/-- Each attribute that is scanned has a name and is made of the characters of the text. -/
theorem isFrom_scan (h : a ∈ scan t) : a.IsFrom t := by
  induction hk : t.length using Nat.strongRecOn generalizing t with
  | ind k ih =>
    subst hk
    by_cases hblank : trimStart t = []
    · rw [scan_blank hblank] at h
      cases h
    · rw [scan_eq hblank, List.mem_append, Option.mem_toList] at h
      have htrim := (trimStart_suffix t).subset
      rcases h with h | h
      · exact (isFrom_scanOne (Prod.ext h rfl)).mono htrim
      · exact (ih _ (scanOne_snd_lt hblank) h rfl).mono
          (List.Subset.trans (scanOne_suffix _).subset htrim)

end provenance
end Attribute

/-- The quotes of an attribute are closed, and a bracket stands only between them. -/
structure Attribute.IsEnclosed (a : Attribute) : Prop where
  terminated : a.unterminated = false
  name : ∀ x ∈ a.name, x ≠ '<' ∧ x ≠ '>'
  bare : a.isUnquoted → ∀ v ∈ a.value, ∀ x ∈ v, x ≠ '<' ∧ x ≠ '>'

/-- Attribute text as it can stand in a tag that it does not end. -/
def Attribute.Enclosed (t : Text) : Prop := ∀ a ∈ Attribute.scan t, a.IsEnclosed

namespace Attribute.Enclosed
variable {t u : Text}

theorem of_unbracketed (h : ∀ x ∈ t, x ≠ '<' ∧ x ≠ '>')
    (terminated : ∀ a ∈ scan t, a.unterminated = false) : Enclosed t := by
  intro a ha
  have hfrom := isFrom_scan ha
  exact ⟨terminated a ha, fun x hx => h x (hfrom.name hx), fun _ v hv x hx =>
    h x (hfrom.value v hv hx)⟩

theorem trimStart (h : Enclosed t) : Enclosed (trimStart t) := by
  rwa [Enclosed, scan_trimStart]

theorem parts (h : Enclosed t) (ht : Text.trimStart t ≠ []) :
    (∀ a ∈ (scanOne (Text.trimStart t)).1, a.IsEnclosed) ∧
      Enclosed (scanOne (Text.trimStart t)).2 := by
  rw [Enclosed, scan_eq ht, List.forall_mem_append] at h
  exact ⟨fun a ha => h.1 a (Option.mem_toList.2 ha), h.2⟩

theorem head (h : Enclosed t) {x : Char} (ht : Text.trimStart t = x :: u) : x ≠ '<' ∧ x ≠ '>' := by
  have hmark : Attribute.isNameChar '<' = true ∧ Attribute.isNameChar '>' = true := by decide
  have hall := (h.parts (by simp [ht])).1
  have hno (hx : Attribute.isNameChar x = true) : x ≠ '<' ∧ x ≠ '>' := by
    cases hone : scanOne (Text.trimStart t) with
    | mk o w =>
      rw [hone] at hall
      have hname := takeWhile_isNameChar hone
      rw [ht, List.takeWhile_cons, if_pos hx] at hname
      cases o with
      | none => cases hname
      | some a =>
        have hname : x :: u.takeWhile Attribute.isNameChar = a.name := hname
        exact (hall a rfl).name x (hname ▸ List.mem_cons_self)
  constructor <;> rintro rfl
  · exact (hno hmark.1).1 rfl
  · exact (hno hmark.2).2 rfl

end Attribute.Enclosed

namespace Reader
variable {c c' : Cursor} {t r : Text}

/-- What follows the attribute text of a tag: a bracket, or nothing. -/
def TagStop (r : Text) : Prop := ∀ x ∈ r.head?, x = '<' ∨ x = '>'

/-- What follows a tag, given what follows its attribute text. -/
def afterTag (r : Text) : Text := if r.head? = some '>' then r.tail else r

theorem TagStop.any {p : Char → Bool} (h : TagStop r) (hlt : p '<' = false) (hgt : p '>' = false) :
    r.head?.any p = false := by
  cases r with
  | nil => rfl
  | cons x r =>
    rcases h x rfl with rfl | rfl
    · exact hlt
    · exact hgt

private theorem isNameChar_of_unbracketed {x : Char} (hx : x ≠ '<' ∧ x ≠ '>')
    (h : Attribute.isNameChar x = true) : isNameChar x = true := by
  have h1 : (x == '<') = false := beq_false_of_ne hx.1
  have h2 : (x == '>') = false := beq_false_of_ne hx.2
  simp only [isNameChar, Attribute.isNameChar, h1, h2] at h ⊢
  grind

theorem isNameChar_scanned {x : Char} (h : isNameChar x = true) :
    Attribute.isNameChar x = true := by
  simp only [isNameChar, Attribute.isNameChar] at h ⊢
  grind

theorem rest_skipBlanks (hr : TagStop r) (hc : c.rest = t ++ r) :
    c.skipBlanks.rest = trimStart t ++ r := by
  rw [Cursor.skipBlanks, Cursor.rest_skipWhile, hc]
  exact (span_append fun _ => hr.any (by decide) (by decide)).2

theorem bareValue_scan (hr : TagStop r) (h : ∀ x ∈ t.takeWhile (!isBlank ·), x ≠ '<' ∧ x ≠ '>')
    (hc : c.rest = t ++ r) :
    (bareValue c).1 = t.takeWhile (!isBlank ·) ∧
      (bareValue c).2.rest = t.dropWhile (!isBlank ·) ++ r := by
  have hd : (bareValue c).2.rest = c.rest.dropWhile isBareChar := Cursor.rest_skipWhile isBareChar c
  rw [hd, bareValue, hc]
  refine span_append_of_imp (fun x hx => ?_) (fun x hx => ?_) fun _ =>
    hr.any (by decide) (by decide)
  · have hsolid : (!isBlank x) = true := List.mem_takeWhile_imp (p := (!isBlank ·)) hx
    simpa [isBareChar, h x hx] using hsolid
  · simp only [isBareChar] at hx
    grind

private theorem quotedValue_scan {q x : Char} {u : Text}
    (hu : t.dropWhile (· != q) = x :: u) (hc : c.rest = t ++ r) :
    (quotedValue q c).1 = t.takeWhile (· != q) ∧ (quotedValue q c).2.rest = u ++ r := by
  obtain ⟨htake, hdrop⟩ := span_append (p := (· != q)) (r := r) fun hd =>
     absurd (hu.symm.trans hd) (List.cons_ne_nil x u)
  have hd : c.rest.drop (t.takeWhile (· != q)).length = x :: (u ++ r) := by
    rw [← htake, ← Cursor.rest_advance, ← hc]
    have hskip : (c.skipWhile (· != q)).rest = c.rest.dropWhile (· != q) :=
      Cursor.rest_skipWhile _ c
    rw [Cursor.skipWhile] at hskip
    rw [hskip, hc, hdrop, hu, List.cons_append]
  rw [← hc] at htake
  simp [quotedValue, htake, hd, ← List.drop_drop]

private theorem attributeValue_scan (hr : TagStop r) (hc : c.rest = t ++ r)
    (h : (Attribute.scanValue t).1.2.1 = none →
      ∀ x ∈ (Attribute.scanValue t).1.1, x ≠ '<' ∧ x ≠ '>')
    (hu : (Attribute.scanValue t).1.2.2 = false) :
    (attributeValue c).1 = (Attribute.scanValue t).1.1 ∧
      (attributeValue c).2.rest = (Attribute.scanValue t).2 ++ r := by
  cases t with
  | nil =>
    have hp : c.peek = r.head? := by rw [Cursor.peek, hc]; rfl
    have hq := hr.any (p := fun q => q == '"' || q == '\'') (by decide) (by decide)
    have hv : attributeValue c = bareValue c := by
      rw [attributeValue, hp]
      cases hh : r.head? with
      | none => rfl
      | some x =>
        rw [hh, Option.any_some] at hq
        exact if_neg (by simp [hq])
    rw [hv]
    exact bareValue_scan hr (by simp) hc
  | cons q inner =>
    have hp : c.peek = some q := by rw [Cursor.peek, hc]; rfl
    have hn : c.next.rest = inner ++ r := by simp [hc]
    simp only [attributeValue, hp]
    simp only [Attribute.scanValue] at h hu ⊢
    by_cases hq : (q == '"' || q == '\'') = true
    · rw [if_pos hq] at hu ⊢
      rw [if_pos hq]
      split at hu
      · rename_i hd
        exact quotedValue_scan hd hn
      · exact absurd hu Bool.false_ne_true.symm
    · rw [if_neg hq] at h
      rw [if_neg hq, if_neg hq]
      exact bareValue_scan hr (h rfl) hc

theorem attribute?_scan {a : Attribute} {u : Text} (hr : TagStop r) (hc : c.rest = t ++ r)
    (hone : Attribute.scanOne t = (some a, u)) (ha : a.IsEnclosed) :
    ∃ c', attribute? c = some (a.entry, c') ∧ c'.rest = u ++ r := by
  have hscanned : t.takeWhile Attribute.isNameChar = a.name := Attribute.takeWhile_isNameChar hone
  obtain ⟨hname, hafter⟩ := span_append_of_imp (r := r) (fun x hx => isNameChar_of_unbracketed
    (ha.name x (hscanned ▸ hx)) (List.mem_takeWhile_imp hx)) (fun _ => isNameChar_scanned)
    fun _ => hr.any (by decide) (by decide)
  rw [← hc] at hname hafter
  rw [← Cursor.rest_skipWhile, Cursor.skipWhile, hname] at hafter
  simp only [attribute?, hname]
  unfold Attribute.scanOne at hone
  split at hone
  · cases hone
  · rename_i x xs hx
    rw [hx] at hafter
    simp only [hx, List.isEmpty_cons, Bool.false_eq_true, if_false]
    generalize c.advance (x :: xs).length = d at hafter
    have heq := rest_skipBlanks hr hafter
    dsimp only at hone
    split at hone
    · rename_i afterEq hs
      rw [hs] at heq
      have hp : d.skipBlanks.peek = some '=' := by rw [Cursor.peek, heq]; rfl
      have hnext : d.skipBlanks.next.rest = afterEq ++ r := by simp [heq]
      simp only [Prod.mk.injEq, Option.some.injEq] at hone
      obtain ⟨rfl, rfl⟩ := hone
      obtain ⟨h1, h2⟩ := attributeValue_scan hr (rest_skipBlanks hr hnext)
        (fun hq => ha.bare (by simp [Attribute.isUnquoted, hq]) _ rfl) ha.terminated
      rw [if_pos (by rw [hp]; rfl), h1]
      exact ⟨_, rfl, h2⟩
    · rename_i hs
      simp only [Prod.mk.injEq, Option.some.injEq] at hone
      obtain ⟨rfl, rfl⟩ := hone
      have hp : d.skipBlanks.peek ≠ some '=' := by
        rw [Cursor.peek, heq]
        cases ht : trimStart (t.dropWhile Attribute.isNameChar) with
        | nil =>
          intro hy
          rcases hr '=' hy with hy | hy <;> exact absurd hy (by decide)
        | cons y ys =>
          intro hy
          obtain rfl : y = '=' := by simpa using hy
          exact hs ys ht
      rw [if_neg (by simpa using hp)]
      exact ⟨_, rfl, hafter⟩

/-- Where no attribute is scanned, none is read, and both readings go on after one character. -/
theorem attribute?_none {u : Text} (hr : TagStop r) (hc : c.rest = t ++ r)
    (hone : Attribute.scanOne t = (none, u)) : attribute? c = none ∧ u = t.tail := by
  have hx : t.takeWhile Attribute.isNameChar = [] := Attribute.takeWhile_isNameChar hone
  have hname : c.rest.takeWhile isNameChar = [] := by
    rw [hc, ← hx]
    exact (span_append_of_imp (by simp [hx]) (fun _ => isNameChar_scanned) fun _ =>
      hr.any (by decide) (by decide)).1
  refine ⟨by simp [attribute?, hname], ?_⟩
  unfold Attribute.scanOne at hone
  rw [hx] at hone
  obtain ⟨-, rfl⟩ := Prod.mk.inj hone
  exact List.drop_one

/-! ### Rounds in a tag and the scan of its attribute text -/

theorem peek_skipBlanks {x : Char} (hr : TagStop r) (h : Attribute.Enclosed t)
    (hc : c.rest = t ++ r) (hp : c.skipBlanks.peek = some x) :
    if x = '<' ∨ x = '>' then trimStart t = [] ∧ r.head? = some x
    else ∃ u, trimStart t = x :: u := by
  rw [Cursor.peek, rest_skipBlanks hr hc] at hp
  cases hs : trimStart t with
  | nil =>
    rw [hs] at hp
    rw [if_pos (hr x hp)]
    exact ⟨rfl, hp⟩
  | cons y u =>
    obtain rfl : y = x := by simpa [hs] using hp
    rw [if_neg (not_or.2 (h.head hs))]
    exact ⟨u, rfl⟩

/-- A tag with this attribute text, which another text follows, closes itself. -/
def closes (t r : Text) : Bool := r.head? == some '>' && Attribute.slashLast t

private theorem TagRound.ended_scan {closing : Bool} (hround : TagRound c (.ended c' closing))
    (hr : TagStop r) (h : Attribute.Enclosed t) (hc : c.rest = t ++ r) :
    Attribute.scan t = [] ∧ closing = closes t r ∧ c'.rest = afterTag r := by
  have hrest := rest_skipBlanks hr hc
  have hpeek {x : Char} := peek_skipBlanks (x := x) hr h hc
  have hblank (ht : trimStart t = []) : Attribute.scan t = [] ∧ false = closes t r := by
    rw [closes, Attribute.slashLast_blank ht, Bool.and_false]
    exact ⟨Attribute.scan_blank ht, rfl⟩
  cases hround with
  | exhausted all =>
    rw [hrest, List.append_eq_nil_iff] at all
    obtain ⟨ht, rfl⟩ := all
    exact ⟨(hblank ht).1, (hblank ht).2, by rw [hrest, ht]; rfl⟩
  | close mark =>
    obtain ⟨ht, hhead⟩ := hpeek mark
    refine ⟨(hblank ht).1, (hblank ht).2, ?_⟩
    rw [Cursor.rest_next, hrest, ht, afterTag, if_pos hhead]
    rfl
  | selfClose mark close =>
    obtain ⟨u, hu⟩ := hpeek mark
    rw [Cursor.peek, Cursor.rest_next, hrest, hu, List.cons_append, List.tail_cons] at close
    cases u with
    | cons x u =>
      obtain rfl : x = '>' := by simpa using close
      have hnext := (h.parts (by simp [hu])).2
      rw [hu] at hnext
      exact absurd rfl (hnext.head (u := u) rfl).2
    | nil =>
      have hne : trimStart t ≠ [] := by simp [hu]
      have hhead : r.head? = some '>' := close
      refine ⟨?_, ?_, ?_⟩
      · rw [Attribute.scan_eq hne, hu]
        exact Attribute.scan_blank rfl
      · rw [closes, Attribute.slashLast_eq hne, hu, hhead]
        rfl
      · rw [Cursor.rest_next, Cursor.rest_next, hrest, hu, afterTag, if_pos hhead]
        rfl
  | unclosed mark =>
    obtain ⟨ht, hhead⟩ := hpeek mark
    refine ⟨(hblank ht).1, (hblank ht).2, ?_⟩
    rw [hrest, ht, afterTag, if_neg (by simp [hhead])]
    rfl

theorem Inside.trimStart_ne (inside : Inside c.skipBlanks) (hr : TagStop r) (hc : c.rest = t ++ r) :
    trimStart t ≠ [] ∧ trimStart t ≠ ['/'] := by
  have hrest := rest_skipBlanks hr hc
  constructor
  · intro ht
    rw [ht, List.nil_append] at hrest
    obtain ⟨x, r', rfl⟩ := List.exists_cons_of_ne_nil (hrest ▸ inside.more)
    have hpeek : c.skipBlanks.peek = some x := by rw [Cursor.peek, hrest]; rfl
    rcases hr x rfl with rfl | rfl
    · exact inside.noOpen hpeek
    · exact inside.noClose hpeek
  · intro ht
    exact inside.noSlash (by rw [Cursor.peek, hrest, ht]; rfl)

/-- In front of `r` a tag with the one attribute text reads as one with the other, but for an
attribute that only the one has. -/
structure ScansTo (r : Text) (a : Option Attribute) (t u : Text) : Prop where
  enclosed : Attribute.Enclosed u
  scan : Attribute.scan t = a.toList ++ Attribute.scan u
  closes : closes t r = closes u r

theorem Inside.scansTo (inside : Inside c.skipBlanks) (hr : TagStop r) (h : Attribute.Enclosed t)
    (hc : c.rest = t ++ r) :
    ScansTo r (Attribute.scanOne (trimStart t)).1 t (Attribute.scanOne (trimStart t)).2 := by
  obtain ⟨hne, hslash⟩ := inside.trimStart_ne hr hc
  refine ⟨(h.parts hne).2, Attribute.scan_eq hne, ?_⟩
  rw [closes, closes, Attribute.slashLast_eq hne, beq_false_of_ne hslash, Bool.false_or]

private theorem TagRound.passed_scan {n : Nat} (hround : TagRound c (.passed c' n)) (hr : TagStop r)
    (h : Attribute.Enclosed t) (hc : c.rest = t ++ r) :
    ∃ u, ScansTo r none t u ∧ c'.rest = u ++ r := by
  have hrest := rest_skipBlanks hr hc
  cases hround with
  | slash mark noClose =>
    obtain ⟨u, hu⟩ := peek_skipBlanks hr h hc mark
    have hne : trimStart t ≠ [] := by simp [hu]
    have hone : Attribute.scanOne (trimStart t) = (none, u) := by
      rw [hu]
      rfl
    have hnext := (h.parts hne).2
    have hscan := Attribute.scan_eq hne
    have hslash := Attribute.slashLast_eq hne
    rw [hone] at hnext hscan hslash
    have hc' : c.skipBlanks.next.rest = u ++ r := by
      rw [Cursor.rest_next, hrest, hu]
      rfl
    refine ⟨u, ⟨hnext, hscan, ?_⟩, hc'⟩
    rw [closes, closes, hslash, hu]
    cases u with
    | nil =>
      have hhead : r.head? ≠ some '>' := by
        rw [Cursor.peek, hc'] at noClose
        exact noClose
      simp [hhead]
    | cons x u => simp
  | blank inside none blank =>
    refine ⟨trimStart t, ⟨h.trimStart, (Attribute.scan_trimStart t).symm, ?_⟩, hrest⟩
    rw [closes, closes, Attribute.slashLast_trimStart]
  | junk inside none solid =>
    have hne := (inside.trimStart_ne hr hc).1
    have hto := inside.scansTo hr h hc
    cases hone : Attribute.scanOne (trimStart t) with
    | mk o u =>
      rw [hone] at hto
      cases o with
      | none =>
        obtain ⟨-, hu⟩ := attribute?_none hr hrest hone
        refine ⟨u, hto, ?_⟩
        rw [Cursor.rest_next, hrest, hu]
        exact List.tail_append_of_ne_nil hne
      | some b =>
        obtain ⟨d, hd, -⟩ := attribute?_scan hr hrest hone
          (h b (by rw [hto.scan]; exact List.mem_cons_self))
        exact absurd (none.symm.trans hd) (Option.some_ne_none _).symm

private theorem TagRound.found_scan {a : Text × Text} (hround : TagRound c (.found a c'))
    (hr : TagStop r) (h : Attribute.Enclosed t) (hc : c.rest = t ++ r) :
    ∃ b u, a = b.entry ∧ ScansTo r (some b) t u ∧ c'.rest = u ++ r := by
  have hrest := rest_skipBlanks hr hc
  cases hround with
  | entry inside found =>
    have hto := inside.scansTo hr h hc
    cases hone : Attribute.scanOne (trimStart t) with
    | mk o u =>
      rw [hone] at hto
      cases o with
      | none =>
        have hnone := (attribute?_none hr hrest hone).1
        exact absurd (found.symm.trans hnone) (Option.some_ne_none _)
      | some b =>
        obtain ⟨d, hd, hrest'⟩ := attribute?_scan hr hrest hone
          (h b (by rw [hto.scan]; exact List.mem_cons_self))
        obtain ⟨rfl, rfl⟩ := Prod.mk.inj (Option.some.inj (found.symm.trans hd))
        exact ⟨b, u, rfl, hto, hrest'⟩

/-- A tag is read to its end with the attributes that are scanned in it, after those already seen,
which stand last first. -/
structure TagEnd.Scanned (e : TagEnd) (t r : Text) (seen : List (Text × Text)) : Prop where
  attributes : e.attributes =
    List.eraseDupsBy.loop (fun a b => a.1 == b.1) ((Attribute.scan t).map Attribute.entry) seen
  selfClosing : e.selfClosing = closes t r
  rest : e.cursor.rest = afterTag r

theorem loop_cons (a : Text × Text) (as seen : List (Text × Text)) :
    List.eraseDupsBy.loop (fun a b => a.1 == b.1) (a :: as) seen =
      List.eraseDupsBy.loop (fun a b => a.1 == b.1) as
        (if seen.any (·.1 == a.1) then seen else a :: seen) := by
  have hsymm : seen.any (fun b => a.1 == b.1) = seen.any (·.1 == a.1) := by
    simp only [Bool.beq_comm]
  rw [List.eraseDupsBy.loop, hsymm]
  cases seen.any (·.1 == a.1) <;> rfl

private theorem attributes_scan {l : Limits} {st : ReadStats} {round : Nat}
    {seen : List (Text × Text)} (hr : TagStop r) (h : Attribute.Enclosed t) (hc : c.rest = t ++ r)
    (hu : (attributes l c st round seen).stats.Unmet) :
    (attributes l c st round seen).Scanned t r seen := by
  induction c, st, round, seen using attributes_induction (l := l) generalizing t with
  | spent c st round seen hlim =>
    rw [attributes_spent hlim] at hu
    exact absurd hu.attributes (Nat.succ_ne_zero _)
  | stopped c st round seen st' hlim htick =>
    rw [attributes_stopped hlim htick] at hu
    exact absurd hu.attributes (Nat.succ_ne_zero _)
  | ended c st round seen st' c' closing hlim htick hround =>
    obtain ⟨hscan, hclosing, hrest⟩ := hround.ended_scan hr h hc
    rw [attributes_round hlim htick hround]
    exact ⟨by rw [hscan]; rfl, hclosing, hrest⟩
  | found c st round seen st' a c' hlim htick hround ih =>
    obtain ⟨b, u, rfl, hto, hc'⟩ := hround.found_scan hr h hc
    rw [attributes_round hlim htick hround] at hu ⊢
    have hread := ih hto.enclosed hc' hu
    refine ⟨hread.attributes.trans ?_, hread.selfClosing.trans hto.closes.symm, hread.rest⟩
    rw [hto.scan]
    exact (loop_cons b.entry _ seen).symm
  | passed c st round seen st' c' n hlim htick hround ih =>
    obtain ⟨u, hto, hc'⟩ := hround.passed_scan hr h hc
    rw [attributes_round hlim htick hround] at hu ⊢
    have hread := ih hto.enclosed hc' hu
    refine ⟨hread.attributes.trans ?_, hread.selfClosing.trans hto.closes.symm, hread.rest⟩
    rw [hto.scan]
    rfl

theorem isTagChar_of_isBlank {x : Char} (h : isBlank x = true) : isTagChar x = false := by
  rw [Bool.eq_false_iff]
  intro hx
  simp only [isBlank, isTagChar, isLetter, isLower, isUpper, isDigit, Bool.or_eq_true,
    Bool.and_eq_true, decide_eq_true_eq, beq_iff_eq, Char.le_def, UInt32.le_iff_toNat_le,
    ← UInt32.toNat_inj, Char.ext_iff] at h hx
  simp at h hx
  omega

section Tag
variable {l : Limits} {s : State} {name : Text}

/-- A tag is read as it is scanned. -/
theorem tag_scan {st : ReadStats} (letters : ∀ x ∈ name, isTagChar x = true)
    (gap : t.head?.any isTagChar = false) (hr : TagStop r) (h : Attribute.Enclosed t)
    (hc : c.rest = '<' :: (name ++ (t ++ r)))
    (hu : (attributes l (tagName c.next).2 st 0 []).stats.Unmet) :
    (tagName c.next).1 = lower name ∧
      (attributes l (tagName c.next).2 st 0 []).Scanned t r [] := by
  have hstop : (t ++ r).head?.any isTagChar = false := by
    cases t with
    | nil => exact hr.any (by decide) (by decide)
    | cons x t => exact gap
  have hn : (name ++ (t ++ r)).takeWhile isTagChar = name := takeWhile_append_stop letters hstop
  have hrest : (tagName c.next).2.rest = t ++ r := by simp [tagName, hc, hn]
  exact ⟨by simp [tagName, hc, hn], attributes_scan hr h hrest hu⟩

private theorem rawContent_end {c : Cursor} (tag : Text) (hc : c.rest = []) :
    rawContent tag c = ([], false, c) := by
  simp [rawContent, hc, lower, cut?, cutAt, trim, trimStart, trimEnd, Cursor.advance]

/-- Nothing stands behind the tag: its element ends with it, whether it is left open or not. -/
theorem openTag_alone {e : TagEnd} (nodes : s.nodes = []) (frames : s.frames = [])
    (he : attributes l (tagName s.cursor.next).2 s.stats 0 [] = e) (self : e.selfClosing = false)
    (hr : e.cursor.rest = []) :
    (openTag l s).cursor = e.cursor ∧
      finish e.cursor.pos (openTag l s).nodes (openTag l s).frames =
        [.element ⟨(tagName s.cursor.next).1, e.attributes, s.cursor.pos, e.cursor.pos,
          voidTags.contains (tagName s.cursor.next).1⟩ []] := by
  have hraw := rawContent_end (tagName s.cursor.next).1 hr
  by_cases hv : (tagName s.cursor.next).1 ∈ voidTags
  · simp [openTag, he, hv, nodes, frames, finish]
  · by_cases ht : (tagName s.cursor.next).1 ∈ rawTags
    · simp [openTag, he, self, hv, ht, hraw, nodes, frames, finish]
    · by_cases hd : l.maxDepth = 0 <;>
        simp [openTag, he, self, hv, ht, hd, nodes, frames, finish, Frame.close]

private theorem pos_at_end {html : Text} {c : Cursor} (h : c.In html) (hc : c.rest = []) :
    c.pos = ({} : Position).read html := by
  obtain ⟨u, hu, hp⟩ := h
  rw [hc, List.append_nil] at hu
  rw [hp, hu]

end Tag
end Reader

/-- A tag that stands alone is read as one element, with the attributes that are scanned in it. -/
theorem Document.read_tag {l : Limits} {name t : Text} (letter : name.head?.any isLetter = true)
    (letters : ∀ x ∈ name, isLetter x = true ∨ isDigit x = true)
    (gap : t.head?.all isBlank = true) (angles : '<' ∉ t ∧ '>' ∉ t)
    (slash : t.getLast? ≠ some '/') (quotes : ∀ a ∈ Attribute.scan t, a.unterminated = false)
    (limits : (Document.read l ('<' :: name ++ t ++ ['>'])).stats.Unmet) :
    (Document.read l ('<' :: name ++ t ++ ['>'])).nodes =
      [.element ⟨lower name, Attribute.table (Attribute.scan t), {},
        ({} : Position).read ('<' :: name ++ t ++ ['>']), voidTags.contains (lower name)⟩ []] := by
  let html := '<' :: name ++ t ++ ['>']
  let start : State := ⟨.start html, {}, [], []⟩
  have hc : start.cursor.rest = '<' :: (name ++ (t ++ ['>'])) := by
    simp [start, html, Cursor.start]
  have hm : classify start.cursor.rest = .element := by
    rw [hc]
    exact classify_letter letter _
  have hp : start.cursor.peek = some '<' := by rw [Cursor.peek, hc]; rfl
  obtain ⟨st, hrun⟩ := run_markup_unmet hp (by decide) limits
  have hmark : markup l { start with stats := st } = openTag l { start with stats := st } := by
    simp [markup, hm]
  rw [hmark] at hrun
  have hopen : (openTag l { start with stats := st }).stats.Unmet :=
    (run_unmet (.refl l) (hrun ▸ limits)).1
  have hend := openTag_attributes_unmet hopen
  have hchars : ∀ x ∈ name, isTagChar x = true := fun x hx => by
    rcases letters x hx with hx | hx <;> simp [isTagChar, hx]
  have hgap : t.head?.any isTagChar = false := by
    cases t with
    | nil => rfl
    | cons x t => simpa using isTagChar_of_isBlank (by simpa using gap)
  have hself : closes t ['>'] = false := by
    rw [closes, Bool.eq_false_iff.2 (mt Attribute.getLast?_of_slashLast slash), Bool.and_false]
  obtain ⟨htag, he⟩ := tag_scan (c := start.cursor) hchars hgap (by simp [TagStop])
    (.of_unbracketed (fun x hx => ⟨fun h => angles.1 (h ▸ hx), fun h => angles.2 (h ▸ hx)⟩) quotes)
    hc hend
  obtain ⟨hcursor, hfinish⟩ := openTag_alone (s := { start with stats := st }) rfl rfl rfl
    (he.selfClosing.trans hself) he.rest
  have hfinal := hrun.trans (run_at_end (by rw [hcursor]; exact he.rest))
  have hread : (Document.read l html).nodes =
      finish (run l start).cursor.pos (run l start).nodes (run l start).frames := rfl
  have hpos := pos_at_end (((reaches_tagName _).trans (reaches_attributes l _ st 0 [])).mem
    (Cursor.in_start html).next) he.rest
  refine hread.trans ?_
  rw [hfinal, hcursor, hfinish, htag, he.attributes, hpos]
  rfl

/-- A spaced sign, a stray sign, quote and slash, a bare value, a repeated name in other letters and
a name without a value. -/
theorem Document.read_tag_lenient :
    let t := " HREF = 'a b' = \" x=1/2 / Href=c on".toList
    (Document.read {} ('<' :: "A1".toList ++ t ++ ['>'])).nodes =
        [.element ⟨"a1".toList, Attribute.table (Attribute.scan t), {},
          ({} : Position).read ('<' :: "A1".toList ++ t ++ ['>']), false⟩ []] ∧
      Attribute.table (Attribute.scan t) =
        [("href".toList, "a b".toList), ("x".toList, "1/2".toList), ("on".toList, [])] := by
  intro t
  have hscan : Attribute.table (Attribute.scan t) =
      [("href".toList, "a b".toList), ("x".toList, "1/2".toList), ("on".toList, [])] := by
    decide +kernel
  have hquotes : (Attribute.scan t).all (!·.unterminated) = true := by decide +kernel
  have hstats : (Document.read {} ('<' :: "A1".toList ++ t ++ ['>'])).stats.Unmet := by
    decide +kernel
  have hname : ("A1".toList.all fun x => isLetter x || isDigit x) = true := by decide
  refine ⟨?_, hscan⟩
  exact Document.read_tag (by decide) (by simpa using hname) (by decide) (by decide +kernel)
    (by decide) (by simpa using hquotes) hstats

end MailMarkup
