import MailMarkup.Proofs.Document.AttributeTable
import MailMarkup.Proofs.Document.EditedReading
import MailMarkup.Proofs.Rule.Sanitizing
import MailMarkup.Proofs.Rule.TagEdits
import MailMarkup.Proofs.Rule.TagPatterns
import MailMarkup.Rule.Missing

/-!
# Missing attributes filled in

The rules that fill in attributes write them at the end of the tags that lack them. The text that
they make reads as the document in which the elements have those attributes behind their own, and
nothing else is changed, as long as the pattern finds the tags that the reader of documents finds,
and no value is open where the attributes are written.
-/
namespace MailMarkup.Missing
open Text Reader Pattern Tags

/-- An attribute as it is filled in. -/
def filled (x : Default) : Attribute := .of x.1.toList x.2.toList

/-- The attributes of an element, and behind them those that it lacks. -/
def Demand.fill (d : Demand) : Reader.Change := fun tag as =>
  if tag = d.tag.toList then
    as ++ (d.missing (Attribute.reread as)).map fun x => (x.1.toList, x.2.toList)
  else as

/-- A default that is written plainly: small letters, and a value without quotes and brackets. -/
structure IsFilling (x : Default) : Prop where
  name_ne : x.1.toList ≠ []
  name : ∀ c ∈ x.1.toList, isLower c = true
  value : ∀ c ∈ x.2.toList, c ∉ ['"', '\'', '<', '>']

/-- What the repair relies on: the defaults that a demand may find missing, and that it does not
tell attributes apart that a document does not. -/
structure Demand.Sound (d : Demand) (defaults : List Default) : Prop where
  listed : Listed [d.tag]
  spelled : ∀ name : Text, name.map fold = d.tag.toList ↔ lower name = d.tag.toList
  letters : ∀ c ∈ d.tag.toList, isLetter c = true
  sublist : ∀ as, (d.missing as).Sublist defaults
  nodup : (defaults.map (·.1.toList)).Nodup
  fillings : ∀ x ∈ defaults, IsFilling x
  lacking : ∀ as, ∀ x ∈ d.missing as, Attribute.has as x.1.toList = false
  reread : ∀ as, d.missing (Attribute.reread (Attribute.table as)) = d.missing as

section written
variable {x : Default} {xs : List Default} {as : List Attribute}

theorem lower_of_isLower {t : Text} (h : ∀ c ∈ t, isLower c = true) : lower t = t :=
  lower_eq_self fun c hc => isUpper_eq_false_of_isLower (h c hc)

theorem IsFilling.quotes (h : IsFilling x) : '"' ∉ x.2.toList ∧ '\'' ∉ x.2.toList :=
  ⟨fun hc => h.value _ hc (by decide), fun hc => h.value _ hc (by decide)⟩

theorem IsFilling.render_eq (h : IsFilling x) : (filled x).render = (written x).toList := by
  have hquote : Attribute.quoteFor x.2.toList = '"' := by
    rw [Attribute.quoteFor, if_neg]
    simp [h.quotes.1]
  rw [Attribute.render_eq, filled, Attribute.of, Attribute.written, Option.elim,
    lower_of_isLower h.name, hquote, Attribute.escaped_eq fun hq => h.quotes.1 hq.1]
  simp [written]

private theorem renderAll_eq (hne : xs ≠ []) (h : ∀ x ∈ xs, IsFilling x) :
    ' ' :: (String.intercalate " " (xs.map written)).toList =
      Attribute.renderAll (xs.map filled) := by
  obtain ⟨x, xs, rfl⟩ := List.exists_cons_of_ne_nil hne
  obtain ⟨hx, hxs⟩ := List.forall_mem_cons.1 h
  rw [String.toList_intercalate]
  clear hne h
  induction xs generalizing x with
  | nil => simp [Attribute.renderAll, hx.render_eq]
  | cons y xs ih =>
    obtain ⟨hy, hxs⟩ := List.forall_mem_cons.1 hxs
    have hcons : Attribute.renderAll ((x :: y :: xs).map filled) =
        ' ' :: (written x).toList ++ Attribute.renderAll ((y :: xs).map filled) := by
      rw [← hx.render_eq]
      rfl
    rw [hcons, ← ih y hy hxs]
    simp only [List.map_cons, List.intercalate_cons_cons]
    simp

private theorem IsFilling.isFrom (h : IsFilling x) :
    (filled x).IsFrom (x.1.toList ++ x.2.toList) where
  name_ne := h.name_ne
  isNameChar c hc := Attribute.isNameChar_of_isTagChar (by simp [isTagChar, isLetter, h.name c hc])
  name := List.subset_append_left _ _
  value := by
    rintro _ ⟨⟩
    exact List.subset_append_right _ _

theorem IsFilling.unbracketed (h : IsFilling x) :
    ∀ c ∈ x.1.toList ++ x.2.toList, c ≠ '<' ∧ c ≠ '>' := by
  refine List.forall_mem_append.2 ⟨fun c hc => ?_, fun c hc => ?_⟩
  · have hlower := h.name c hc
    constructor <;> (rintro rfl; exact absurd hlower (by decide))
  · have hvalue := h.value c hc
    constructor <;> (rintro rfl; exact hvalue (by decide))

private theorem IsFilling.entry_eq (h : IsFilling x) :
    (filled x).rendered.entry = (x.1.toList, x.2.toList) := by
  have hvalue := Attribute.escaped_eq (v := x.2.toList) fun hq => h.quotes.1 hq.1
  have hname := lower_of_isLower h.name
  simp [Attribute.entry, Attribute.rendered, filled, Attribute.of, hvalue, hname]

end written
section front
variable {d : Demand} {defaults xs : List Default} {name body slash : Text}

/-- An attribute text with defaults behind it. -/
def filledText (body : Text) (xs : List Default) : Text :=
  trimEnd body ++ Attribute.renderAll (xs.map filled)

theorem exists_isFrom (h : ∀ x ∈ xs, IsFilling x) :
    ∃ t : Text, (∀ a ∈ xs.map filled, a.IsFrom t) ∧ ∀ c ∈ t, c ≠ '<' ∧ c ≠ '>' := by
  refine ⟨xs.flatMap fun x => x.1.toList ++ x.2.toList, List.forall_mem_map.2 fun x hx => ?_,
    fun c hc => ?_⟩
  · exact (h x hx).isFrom.mono fun c hc => List.mem_flatMap.2 ⟨x, hx, hc⟩
  · obtain ⟨x, hx, hc⟩ := List.mem_flatMap.1 hc
    exact (h x hx).unbracketed c hc

theorem isFront_filled (h : ∀ x ∈ xs, IsFilling x) (gap : body.head?.any isTagChar = false)
    (free : ∀ c ∈ body, c ≠ '<' ∧ c ≠ '>') : IsFront (filledText body xs) := by
  obtain ⟨t, hfrom, hfree⟩ := exists_isFrom h
  obtain ⟨b, hb, -⟩ := Attribute.exists_trimEnd body
  refine ⟨?_, List.forall_mem_append.2 ⟨fun c hc => free c ?_, ?_⟩⟩
  · rw [filledText]
    cases ht : trimEnd body with
    | nil =>
      cases xs with
      | nil => rfl
      | cons x xs => exact (by decide : isTagChar ' ' = false)
    | cons c r =>
      rw [hb, ht] at gap
      exact gap
  · rw [hb]
    exact List.mem_append_left _ hc
  · exact Attribute.unbracketed_renderAll hfrom hfree

theorem scan_filled (h : ∀ x ∈ xs, IsFilling x)
    (complete : ∀ a ∈ Attribute.scan (trimEnd body), a.IsComplete) :
    Attribute.scan (filledText body xs) =
      Attribute.scan body ++ (xs.map filled).map Attribute.rendered := by
  obtain ⟨t, hfrom, -⟩ := exists_isFrom h
  have hblank := Attribute.renderAll_follows (s := []) hfrom rfl nofun
  rw [List.append_nil] at hblank
  rw [filledText, Attribute.scan_append complete hblank.1 hblank.2, Attribute.scan_trimEnd complete,
    Attribute.scan_renderAll_alone hfrom]

private theorem complete_filled (h : ∀ x ∈ xs, IsFilling x)
    (complete : ∀ a ∈ Attribute.scan (trimEnd body), a.IsComplete) :
    ∀ a ∈ Attribute.scan (filledText body xs), a.IsComplete := by
  rw [scan_filled h complete, List.forall_mem_append]
  rw [Attribute.scan_trimEnd complete] at complete
  exact ⟨complete, List.forall_mem_map.2 fun a _ => Attribute.isComplete_rendered a⟩

private theorem getLast?_filled (hne : xs ≠ []) (h : ∀ x ∈ xs, IsFilling x) :
    (filledText body xs).getLast? ≠ some '/' := by
  obtain ⟨t, hfrom, -⟩ := exists_isFrom h
  have hne' : Attribute.renderAll (xs.map filled) ≠ [] := by
    obtain ⟨x, xs, rfl⟩ := List.exists_cons_of_ne_nil hne
    exact List.cons_ne_nil _ _
  rw [filledText, List.getLast?_append_of_ne_nil _ hne']
  exact Attribute.getLast?_renderAll hfrom

private theorem table_filled (sound : d.Sound defaults)
    (complete : ∀ a ∈ Attribute.scan (trimEnd body), a.IsComplete) :
    Attribute.table (Attribute.scan (filledText body (d.missing (Attribute.scan body)))) =
      d.fill d.tag.toList (Attribute.table (Attribute.scan body)) := by
  generalize has : Attribute.scan body = as
  have hsub := sound.sublist as
  have hfill : ∀ x ∈ d.missing as, IsFilling x := fun x hx => sound.fillings x (hsub.subset hx)
  have hentries : (((d.missing as).map filled).map Attribute.rendered).map Attribute.entry =
      (d.missing as).map fun x => (x.1.toList, x.2.toList) := by
    rw [List.map_map, List.map_map]
    exact List.map_congr_left fun x hx => (hfill x hx).entry_eq
  rw [scan_filled hfill complete, has, Attribute.table_append, hentries, Demand.fill, if_pos rfl,
    sound.reread]
  · rw [hentries, List.map_map]
    exact sound.nodup.sublist (hsub.map _)
  · refine List.forall_mem_map.2 (List.forall_mem_map.2 fun x hx hmem => ?_)
    obtain ⟨a, ha, hname⟩ := Attribute.mem_names_table.1 hmem
    have hsame : a.is x.1.toList = true := beq_iff_eq.2 (hname.trans (lower_lower _))
    have hhas : Attribute.has as x.1.toList = true := List.any_eq_true.2 ⟨a, ha, hsame⟩
    rw [sound.lacking as x hx] at hhas
    cases hhas

private theorem getLast?_name (hname : ∀ c ∈ name, isTagChar c = true) :
    ∀ c ∈ ('<' :: name).getLast?, isBlank c = false ∧ c ≠ '/' := by
  have hmark : isTagChar '/' = false := by decide
  intro c hc
  rcases List.mem_cons.1 (List.mem_of_getLast? hc) with rfl | hc
  · decide
  · have htag := hname c hc
    refine ⟨Bool.eq_false_iff.2 fun hblank => ?_, ?_⟩
    · rw [isTagChar_of_isBlank hblank] at htag
      cases htag
    · rintro rfl
      rw [hmark] at htag
      cases htag

private theorem insertInto_eq (hname : ∀ c ∈ name, isTagChar c = true)
    (hs : slash = [] ∨ slash = ['/']) (settled : slash = [] → body.getLast? ≠ some '/')
    (hne : xs ≠ []) (h : ∀ x ∈ xs, IsFilling x) :
    Attribute.insertInto ('<' :: (name ++ (body ++ (slash ++ ['>']))))
        (String.intercalate " " (xs.map written)).toList =
      '<' :: (name ++ ((filledText body xs ++ ending slash) ++ ['>'])) := by
  have hlast := getLast?_name hname
  have htrim : trimEnd ('<' :: (name ++ body)) = '<' :: (name ++ trimEnd body) := by
    refine Attribute.trimEnd_append (t := '<' :: name) ?_ (List.cons_ne_nil _ _) body
    rw [List.getLast?_eq_some_getLast (List.cons_ne_nil _ _)] at hlast ⊢
    exact (hlast _ rfl).1
  rw [filledText, ← renderAll_eq hne h]
  rcases hs with rfl | rfl
  · have hrev : ('<' :: (name ++ (body ++ ([] ++ ['>'])))).reverse =
        '>' :: ('<' :: (name ++ body)).reverse := by simp
    have hslash (r : Text) : ('<' :: (name ++ body)).reverse ≠ '/' :: r := by
      intro hr
      have hend : ('<' :: (name ++ body)).getLast? = some '/' := by
        rw [← List.head?_reverse, hr]
        rfl
      by_cases hb : body = []
      · rw [hb, List.append_nil] at hend
        exact (hlast '/' hend).2 rfl
      · rw [← List.cons_append, List.getLast?_append_of_ne_nil _ hb] at hend
        exact settled rfl hend
    unfold Attribute.insertInto
    rw [hrev]
    split
    · rename_i r hr
      exact absurd (List.cons.inj hr).2 (hslash r)
    · rename_i r _ hr
      obtain rfl := (List.cons.inj hr).2
      rw [List.reverse_reverse, htrim, ending]
      simp
    · rename_i hno
      exact absurd rfl (hno _)
  · have hrev : ('<' :: (name ++ (body ++ (['/'] ++ ['>'])))).reverse =
        '>' :: '/' :: ('<' :: (name ++ body)).reverse := by simp
    unfold Attribute.insertInto
    rw [hrev]
    split
    · rename_i r hr
      obtain rfl := (List.cons.inj (List.cons.inj hr).2).2
      rw [List.reverse_reverse, htrim, ending]
      simp
    · rename_i r hno hr
      exact absurd (List.cons.inj hr).2.symm (hno _)
    · rename_i hno _
      exact absurd rfl (hno _)

end front
section tag
variable {d : Demand} {defaults : List Default} {name body slash t w r : Text}

/-- A tag in which the pattern or the reader of documents finds attributes missing, where a slash
before the closing bracket is a part of its own. -/
structure Demand.Lacks (d : Demand) (n b s : Text) : Prop
    extends Tags.IsTag (nameForms [d.tag]) n b s where
  settled : s = [] → b.getLast? ≠ some '/'
  lacking : d.missing (Attribute.scan b) ≠ [] ∨ d.missing (Attribute.scan (b ++ s)) ≠ []

/-- Such a tag starts here. -/
def Demand.Starts (d : Demand) (t : Text) : Prop :=
  ∃ name body slash r, d.Lacks name body slash ∧
    t = '<' :: (name ++ (body ++ (slash ++ '>' :: r)))

/-- Attributes may be written between an attribute text and the slash of a tag: the text starts
behind the name of the tag, no value is open where it ends, and the slash belongs to none. -/
structure Fillable (body slash : Text) : Prop where
  gap : body.head?.any isTagChar = false
  slash : Attribute.scan (body ++ slash) = Attribute.scan body
  complete : ∀ a ∈ Attribute.scan (trimEnd body), a.IsComplete

/-- The pattern finds the tag of the element that starts here, if attributes are missing in it, and
none within the attribute text. -/
structure Demand.Finds (d : Demand) (t w r : Text) : Prop extends IsTagAt t w r where
  found : lower (writtenName t) = d.tag.toList → d.missing (Attribute.scan w) ≠ [] → d.Starts t
  apart : ∀ s, s <:+ w → s ≠ [] → ¬ d.Starts (s ++ r)

theorem Demand.Finds.of_unbracketed (split : t = '<' :: (writtenName t ++ (w ++ r)))
    (stop : TagStop r) (free : ∀ x ∈ w, x ≠ '<' ∧ x ≠ '>')
    (terminated : ∀ a ∈ Attribute.scan w, a.unterminated = false)
    (found : lower (writtenName t) = d.tag.toList → d.missing (Attribute.scan w) ≠ [] →
      d.Starts t) : d.Finds t w r where
  split := split
  stop := stop
  enclosed := .of_unbracketed free terminated
  found := found
  apart := by
    rintro s hs hne ⟨_, _, _, _, -, hr⟩
    obtain ⟨x, s, rfl⟩ := List.exists_cons_of_ne_nil hne
    exact (free x (hs.subset List.mem_cons_self)).1 (List.cons.inj hr).1

/-- What a demand fills in, wherever attributes are missing. -/
abbrev Demand.editing (d : Demand) (opens : Text → Prop) : Editing where
  change := d.fill
  opens := opens
  edits := d.Starts

theorem Demand.Sound.mem_nameForms (sound : d.Sound defaults) :
    name ∈ nameForms [d.tag] ↔ lower name = d.tag.toList := by
  rw [Tags.mem_nameForms, ← sound.spelled]
  simp

theorem Demand.Sound.isLetter (sound : d.Sound defaults) (h : name ∈ nameForms [d.tag]) :
    name ≠ [] ∧ ∀ x ∈ name, isLetter x = true := by
  have hlower := sound.mem_nameForms.1 h
  refine ⟨?_, fun x hx => ?_⟩
  · rintro rfl
    exact (sound.listed.names d.tag List.mem_cons_self).ne_nil hlower.symm
  · have hletter := sound.letters (lowerChar x) (hlower ▸ List.mem_map_of_mem hx)
    cases hupper : isUpper x with
    | true => simp [Text.isLetter, hupper]
    | false => rwa [lowerChar_of_not_isUpper hupper] at hletter

theorem Demand.Sound.aligned (sound : d.Sound defaults) (h : name ∈ nameForms [d.tag])
    (hf : Fillable body slash) : Aligned name body slash := by
  obtain ⟨hne, hletter⟩ := sound.isLetter h
  refine ⟨?_, fun x hx => by simp [isTagChar, hletter x hx], hf.gap, hf.slash⟩
  obtain ⟨x, name, rfl⟩ := List.exists_cons_of_ne_nil hne
  exact hletter x List.mem_cons_self

/-- Where no attributes are found missing, none are. -/
theorem Demand.stays (sound : d.Sound defaults) {opens : Text → Prop}
    (finds : opens t → ∃ w r, d.Finds t w r) (no : ¬ d.Starts t) : Stays (d.editing opens) t := by
  intro kind ho
  obtain ⟨w, r, htag⟩ := finds ho
  refine ⟨w, r, htag.toIsTagAt, ?_, htag.apart⟩
  change d.fill _ _ = _
  rw [Demand.fill]
  split
  · rename_i hname
    have hnone : d.missing (Attribute.scan w) = [] := by
      by_contra h
      exact no (htag.found hname h)
    rw [sound.reread, hnone, List.map_nil, List.append_nil]
  · rfl

private theorem Demand.changes_filled (sound : d.Sound defaults) (h : d.Lacks name body slash)
    (hf : Fillable body slash) (hne : d.missing (Attribute.scan body) ≠ []) :
    Changes d.fill name (body ++ slash)
      (filledText body (d.missing (Attribute.scan body)) ++ ending slash) := by
  have hfill : ∀ x ∈ d.missing (Attribute.scan body), IsFilling x := fun x hx =>
    sound.fillings x ((sound.sublist _).subset hx)
  have hcomplete := hf.complete
  rw [Attribute.scan_trimEnd hf.complete] at hcomplete
  refine changes_ending h.toIsTag (sound.aligned h.name hf) h.settled ?_
    (isFront_filled hfill hf.gap h.body) (complete_filled hfill hf.complete)
    (getLast?_filled hne hfill) ?_
  · rw [hf.slash]
    exact fun a ha => (hcomplete a ha).1
  · rw [sound.mem_nameForms.1 h.name]
    exact table_filled sound hf.complete

end tag
section document
variable {d : Demand} {defaults : List Default} {opens : Text → Prop} {m : Match} {r : Text}

/-- The tag with what it lacks filled in, if it lacks anything. -/
def Demand.fills? (d : Demand) (m : Match) : Option Text :=
  match d.missing (attributesOf m) with
  | [] => none
  | missing => some
      (Attribute.insertInto m.text (String.intercalate " " (missing.map written)).toList)

theorem Demand.fills?_eq_none (h : d.missing (attributesOf m) = []) : d.fills? m = none := by
  rw [Demand.fills?, h]

private theorem Demand.fills?_eq_some (h : d.missing (attributesOf m) ≠ []) :
    d.fills? m = some (Attribute.insertInto m.text
      (String.intercalate " " ((d.missing (attributesOf m)).map written)).toList) := by
  unfold Demand.fills?
  split
  · exact absurd ‹_› h
  · rfl

/-- What stands in the place of a tag that is found. -/
def Demand.supplied (d : Demand) (m : Match) : Text := (d.fills? m).getD m.text

/-- The parts of a tag that is found, where a slash before the closing bracket is a part of its
own; the pattern may have left it with the attribute text. -/
structure Demand.Cut (d : Demand) (m : Match) (b s : Text) : Prop
    extends Tags.IsTag (nameForms [d.tag]) (m.group 1) b s where
  word : ∀ x ∈ m.group 1, isWord x
  settled : s = [] → b.getLast? ≠ some '/'
  attributes : attributesOf m = Attribute.scan b ∨ attributesOf m = Attribute.scan (b ++ s)
  text : m.text = '<' :: (m.group 1 ++ (b ++ (s ++ ['>'])))
  start : m.start.rest = '<' :: (m.group 1 ++ (b ++ (s ++ '>' :: m.stop.rest)))

private theorem Demand.Sound.exists_cut (sound : d.Sound defaults)
    (hm : (Forbidden.opened (openingParts [d.tag])).Reads ⟨m.start, []⟩ ⟨m.stop, m.notes⟩) :
    ∃ body slash, d.Cut m body slash := by
  have hpart := namePart sound.listed
  obtain ⟨htag, hstart⟩ := hpart.sound hm
  have htext := hpart.text_eq hm
  by_cases hsettled : m.group 3 = [] → (m.group 2).getLast? ≠ some '/'
  · exact ⟨_, _, htag, hpart.word _ htag.name, hsettled, .inl rfl, htext, hstart⟩
  · rw [Classical.not_imp, not_not] at hsettled
    obtain ⟨hnil, hlast⟩ := hsettled
    obtain ⟨u, hu⟩ := List.getLast?_eq_some_iff.1 hlast
    rw [hnil, hu] at htag hstart htext
    refine ⟨u, ['/'], ⟨htag.name, fun x hx => htag.edge x ?_, fun x hx => htag.body x ?_, .inr rfl⟩,
      hpart.word _ htag.name, nofun, .inr (by rw [attributesOf, hu]), ?_, ?_⟩
    · rw [List.head?_append_of_ne_nil _ (by rintro rfl; exact absurd hx nofun)]
      exact hx
    · exact List.mem_append_left _ hx
    · rw [htext]
      simp
    · rw [hstart]
      simp

section cut
variable {body slash : Text}

private theorem Demand.Cut.lacks (h : d.Cut m body slash) (hne : d.missing (attributesOf m) ≠ []) :
    d.Lacks (m.group 1) body slash := by
  refine ⟨h.toIsTag, h.settled, ?_⟩
  rcases h.attributes with has | has
  · exact .inl (has ▸ hne)
  · exact .inr (has ▸ hne)

theorem Demand.Cut.scan_eq (h : d.Cut m body slash) (hf : Fillable body slash) :
    attributesOf m = Attribute.scan body :=
  h.attributes.elim id fun has => has.trans hf.slash

/-- A tag in which the pattern finds nothing missing lacks nothing. -/
theorem Demand.Cut.not_starts (sound : d.Sound defaults) (h : d.Cut m body slash)
    (fillable : d.Lacks (m.group 1) body slash → Fillable body slash)
    (hnil : d.missing (attributesOf m) = []) : ¬ d.Starts m.start.rest := by
  rintro ⟨name, body', slash', r, hl, hr⟩
  have heq := (List.cons.inj (hr.symm.trans h.start)).2
  obtain ⟨rfl, rfl, rfl, -⟩ := hl.toIsTag.unique h.toIsTag ((namePart sound.listed).word _ hl.name)
    h.word hl.settled h.settled heq
  have hf := fillable hl
  rw [h.scan_eq hf] at hnil
  rcases hl.lacking with hlack | hlack
  · exact hlack hnil
  · rw [hf.slash] at hlack
    exact hlack hnil

/-- A tag that is found is edited with what stands behind it. -/
theorem Demand.Cut.edited (sound : d.Sound defaults) (h : d.Cut m body slash)
    (fillable : d.Lacks (m.group 1) body slash → Fillable body slash)
    (finds : opens m.start.rest → ∃ w r, d.Finds m.start.rest w r)
    (hr : Edited (d.editing opens) m.stop.rest r) :
    Edited (d.editing opens) m.start.rest (d.supplied m ++ r) := by
  by_cases hnil : d.missing (attributesOf m) = []
  · have hstays := Demand.stays sound finds (h.not_starts sound fillable hnil)
    have hkeep := h.toIsTag.keep h.word hr (h.start ▸ hstays)
    rw [Demand.supplied, Demand.fills?_eq_none hnil, Option.getD_none, h.text, h.start]
    simpa using hkeep
  · have hl := h.lacks hnil
    have hf := fillable hl
    have ha := sound.aligned h.name hf
    have hfill : ∀ x ∈ d.missing (attributesOf m), IsFilling x := fun x hx =>
      sound.fillings x ((sound.sublist _).subset hx)
    have hsource : m.start.rest =
        '<' :: (m.group 1 ++ ((body ++ slash) ++ '>' :: m.stop.rest)) := by
      rw [h.start, List.append_assoc]
    have htarget : d.supplied m ++ r = '<' :: (m.group 1 ++
        ((filledText body (d.missing (attributesOf m)) ++ ending slash) ++ '>' :: r)) := by
      rw [Demand.supplied, Demand.fills?_eq_some hnil, Option.getD_some, h.text,
        insertInto_eq ha.name h.slash h.settled hnil hfill]
      simp
    have hedit : d.Starts m.start.rest := ⟨_, _, _, _, hl, h.start⟩
    rw [htarget]
    rw [hsource] at hedit ⊢
    refine .tag (h.toIsTag.startTag ha _) ((isFront_filled hfill hf.gap h.body).startTag ha r) hedit
      (fun _ => ?_) hr
    rw [h.scan_eq hf] at hnil ⊢
    exact Demand.changes_filled sound hl hf hnil

end cut
end document
section demands
variable {d : Demand} {defaults : List Default} {tag : String}

/-- Only the letter itself and its upper case fold to the letter. -/
def IsSpelled (c : Char) : Prop :=
  isLetter c = true ∧ c.toNat < 128 ∧ fold c = c ∧ lowerChar c = c ∧
    ∀ p ∈ asciiFoldPairs, p.2 = c → lowerChar p.1 = c

instance (c : Char) : Decidable (IsSpelled c) :=
  inferInstanceAs (Decidable (_ ∧ _))

theorem IsSpelled.fold_eq_iff {c x : Char} (h : IsSpelled c) : fold x = c ↔ lowerChar x = c := by
  obtain ⟨-, hascii, hfold, hlower, hpairs⟩ := h
  refine ⟨fun hx => ?_, fun hx => by rw [← fold_lowerChar, hx, hfold]⟩
  rcases (Text.fold_eq_iff hascii hfold).1 hx with rfl | hp
  · exact hlower
  · exact hpairs _ hp rfl

private theorem map_fold_eq_iff {t : Text} (h : ∀ c ∈ t, IsSpelled c) (name : Text) :
    name.map fold = t ↔ lower name = t := by
  induction t generalizing name with
  | nil => rw [lower, List.map_eq_nil_iff, List.map_eq_nil_iff]
  | cons c t ih =>
    obtain ⟨hc, h⟩ := List.forall_mem_cons.1 h
    cases name with
    | nil => exact iff_of_false (List.cons_ne_nil c t).symm (List.cons_ne_nil c t).symm
    | cons x name =>
      rw [lower, List.map_cons, List.map_cons, List.cons.injEq, List.cons.injEq, hc.fold_eq_iff,
        ih h name, lower]

/-- A tag and defaults for it that are written plainly. -/
def isPlain (tag : String) (defaults : List Default) : Bool :=
  Forbidden.isName tag.toList && tag.toList.all (decide <| IsSpelled ·) &&
    decide (defaults.map (·.1.toList)).Nodup &&
    defaults.all fun x => !x.1.toList.isEmpty && x.1.toList.all isLower &&
      x.2.toList.all (decide <| · ∉ ['"', '\'', '<', '>'])

theorem Demand.Sound.of_isPlain (h : isPlain d.tag defaults = true)
    (sublist : ∀ as, (d.missing as).Sublist defaults)
    (lacking : ∀ as, ∀ x ∈ d.missing as, Attribute.has as x.1.toList = false)
    (reread : ∀ as, d.missing (Attribute.reread (Attribute.table as)) = d.missing as) :
    d.Sound defaults := by
  simp only [isPlain, Bool.and_eq_true, List.all_eq_true, decide_eq_true_eq] at h
  obtain ⟨⟨⟨hname, hspelled⟩, hnodup⟩, hfill⟩ := h
  refine ⟨⟨List.cons_ne_nil _ _, by simp, .of_all (by simpa using hname)⟩,
    map_fold_eq_iff hspelled, fun c hc => (hspelled c hc).1, sublist, hnodup, fun x hx => ?_,
    lacking, reread⟩
  obtain ⟨⟨hne, hlower⟩, hvalue⟩ := hfill x hx
  exact ⟨by simpa using hne, hlower, hvalue⟩

theorem sound_all (h : isPlain tag defaults = true) : (Demand.all tag defaults).Sound defaults :=
  .of_isPlain h (fun _ => List.filter_sublist)
    (fun as x hx => by simpa using (List.mem_filter.1 hx).2)
    fun as => List.filter_congr fun x _ => by rw [Attribute.has_reread]

private theorem opensWindow_reread (as : List Attribute) :
    opensWindow (Attribute.reread (Attribute.table as)) = opensWindow as := by
  unfold opensWindow
  rw [Attribute.find?_reread]
  cases Attribute.find? as "target".toList with
  | none => rfl
  | some a =>
    cases hv : a.value with
    | none => simp [hv, Attribute.of]; decide
    | some v => simp [hv, Attribute.of]

theorem sound_link : link.Sound [("href", "#"), ("rel", "noopener noreferrer")] := by
  refine .of_isPlain (by decide +kernel) (fun as => ?_) (fun as x hx => ?_) fun as => ?_
  · have hhref : (if Attribute.has as "href".toList then [] else [("href", "#")]).Sublist
        [("href", "#")] := by split <;> simp
    exact hhref.append (by split <;> simp)
  · rcases List.mem_append.1 hx with hx | hx
    · split at hx
      · cases hx
      · rename_i hno
        obtain rfl := List.mem_singleton.1 hx
        exact Bool.eq_false_iff.2 hno
    · split at hx
      · rename_i hno
        obtain rfl := List.mem_singleton.1 hx
        rw [Bool.and_eq_true, Bool.not_eq_true'] at hno
        exact hno.2
      · cases hx
  · unfold link
    dsimp only
    rw [Attribute.has_reread, Attribute.has_reread, opensWindow_reread]

/-- The rules that fill in attributes, and what they demand. -/
def filling : List (Rule × Demand) :=
  [(imageAltText, altText), (tableAttributes, layoutTable), (htmlLang, language),
    (linkAttributes, link), (imageAttributes, border)]

/-- Each of the rules fills in what it demands. -/
theorem filling_sound {r : Rule} {d : Demand} (h : (r, d) ∈ filling) :
    (∃ defaults, d.Sound defaults) ∧ r.repaired = d.fix := by
  simp only [filling, List.mem_cons, List.not_mem_nil, or_false, Prod.mk.injEq] at h
  rcases h with ⟨rfl, rfl⟩ | ⟨rfl, rfl⟩ | ⟨rfl, rfl⟩ | ⟨rfl, rfl⟩ | ⟨rfl, rfl⟩
  · exact ⟨⟨_, sound_all (by decide +kernel)⟩, rfl⟩
  · exact ⟨⟨_, sound_all (by decide +kernel)⟩, rfl⟩
  · exact ⟨⟨_, sound_all (by decide +kernel)⟩, rfl⟩
  · exact ⟨⟨_, sound_link⟩, rfl⟩
  · exact ⟨⟨_, sound_all (by decide +kernel)⟩, rfl⟩

theorem exists_eval_repaired {r : Rule} (h : (r, d) ∈ filling) :
    ∃ p : Pattern, p.Means (Forbidden.opened (openingParts [d.tag])) ∧
      ∀ s ix, (r.repaired s).eval ix = .ok (p.replace d.supplied s.html) := by
  obtain ⟨⟨_, sound⟩, hrule⟩ := filling_sound h
  obtain ⟨p, hp, hc⟩ :=
    Forbidden.exists_compile (read_opening sound.listed) (ordered_opening [d.tag])
  exact ⟨p, hp, fun s ix => hrule ▸ Forbidden.eval_compiled hc _ ix⟩

end demands

/-- What is filled in stands behind the other attributes of the elements that lack it, and nothing
else is changed. In the tag of each element the quotes are to be closed, and no bracket is to open
in a comment, a script or a style. Where an element lacks attributes, the pattern must find that of
its tag, and of nothing within a tag. In each tag that is written anew, the pattern must find the
name that the reader finds, no value may be missing behind the last attribute or be cut off there,
and the slash before the closing bracket may not end a value without quotes. -/
theorem repaired_fills {rule : Rule} {d : Demand} (hd : (rule, d) ∈ filling) (s : Subject)
    (ix : Index) (l : Limits) (limits : (Document.read l s.html).stats.Unmet)
    (quiet : ∀ n ∈ Forest.family (Document.read l s.html).nodes, n.Quiet)
    (finds : ∀ n ∈ Forest.family (Document.read l s.html).nodes, ∀ e ∈ n.element?,
      ∃ w r, d.Finds (s.html.drop e.start.index) w r)
    (fillable : ∀ name body slash, d.Lacks name body slash →
      '<' :: (name ++ (body ++ (slash ++ ['>']))) <:+: s.html → Fillable body slash) :
    ∃ out, (rule.repaired s).eval ix = .ok out ∧
      ((Document.read l out).stats.Unmet →
        Forest.unplaced (Document.read l out).nodes =
          Forest.unplaced (Forest.changed d.fill (Document.read l s.html).nodes)) := by
  obtain ⟨⟨defaults, sound⟩, -⟩ := filling_sound hd
  obtain ⟨p, hp, heval⟩ := exists_eval_repaired hd
  have hms := hp.occurrences_successive rfl s.html
  have hfinds (t : Text) (ht : Begins (Document.read l s.html).nodes s.html t) :
      ∃ w r, d.Finds t w r := by
    obtain ⟨n, hn, e, he, rfl⟩ := ht
    exact finds n hn e he
  have hedited : Edited (d.editing (Begins (Document.read l s.html).nodes s.html)) s.html
      (rebuild d.supplied (.start s.html) (p.occurrences s.html)) := by
    refine hms.edited (fun k _ hk => Demand.stays sound (hfinds _) fun hs => ?_) fun m hm r hr => ?_
    · obtain ⟨name, body, slash, r, hl, hrest⟩ := hs
      exact hk ((namePart sound.listed).complete hl.toIsTag hrest)
    · obtain ⟨body, slash, hcut⟩ := sound.exists_cut (hms.reads hm)
      have hinfix : '<' :: (m.group 1 ++ (body ++ (slash ++ ['>']))) <:+: s.html :=
        hcut.text ▸ hms.infix_text hm
      exact hcut.edited sound (fun hl => fillable _ _ _ hl hinfix) (hfinds _) hr
  rw [← replace_eq] at hedited
  exact ⟨_, heval s ix, fun limits' => Document.read_edited hedited rfl quiet limits limits'⟩

section links

/-- The attribute text of a link that opens a window. -/
private abbrev windowText : Text :=
  [' ', 'T', 'A', 'R', 'G', 'E', 'T', '=', '_', 'b', 'l', 'a', 'n', 'k']

/-- The attribute text of a link with an address. -/
private abbrev addressText : Text := [' ', 'h', 'r', 'e', 'f', '=', '"', '/', '"']

private theorem scan_windowText : Attribute.scan windowText =
    [{ name := ['T', 'A', 'R', 'G', 'E', 'T'], value := some ['_', 'b', 'l', 'a', 'n', 'k'] }] := by
  cbv

private theorem scan_addressText : Attribute.scan addressText =
    [{ name := ['h', 'r', 'e', 'f'], value := some ['/'], quote := some '"' }] := by
  cbv

private theorem missing_windowText : link.missing (Attribute.scan windowText) =
    [("href", "#"), ("rel", "noopener noreferrer")] := by
  rw [scan_windowText]
  decide

private theorem missing_addressText : link.missing (Attribute.scan addressText) = [] := by
  rw [scan_addressText]
  decide

private theorem lacks_windowText : link.Lacks ['A'] windowText [] := by
  have hblank : isWord ' ' = false := by decide
  refine ⟨⟨sound_link.mem_nameForms.2 (by decide), by simp [hblank], by simp, .inl rfl⟩, by simp,
    .inl ?_⟩
  rw [missing_windowText]
  exact List.cons_ne_nil _ _

private theorem isTag_addressText : Tags.IsTag (nameForms [link.tag]) ['a'] addressText [] := by
  have hblank : isWord ' ' = false := by decide
  exact ⟨sound_link.mem_nameForms.2 (by decide), by simp [hblank], by simp, .inl rfl⟩

private theorem fillable_windowText : Fillable windowText [] := by
  have htrim : trimEnd windowText = windowText := by decide
  refine ⟨by decide, by rw [List.append_nil], ?_⟩
  rw [htrim, scan_windowText]
  exact List.forall_mem_singleton.2 ⟨rfl, fun _ => by simp⟩

private theorem finds_links :
    let html := "<p>go<A TARGET=_blank>on</A><a href=\"/\">up</a></p>".toList
    ∀ k ∈ [0, 5, 28], ∃ w r, link.Finds (html.drop k) w r := by
  intro html
  have hstop (r : Text) : TagStop ('>' :: r) := by
    rintro _ ⟨⟩
    exact .inr rfl
  have hempty : ∀ a ∈ Attribute.scan [], a.unterminated = false := by
    simp [Attribute.scan_blank (t := []) rfl]
  simp only [List.forall_mem_cons]
  refine ⟨⟨[], html.drop 2, .of_unbracketed (by decide) (hstop _) (by simp) hempty
      fun h => absurd h (by decide)⟩,
    ⟨windowText, html.drop 21, .of_unbracketed (by decide) (hstop _) lacks_windowText.body
      (by simp [scan_windowText])
      fun _ _ => ⟨['A'], windowText, [], html.drop 22, lacks_windowText, by decide⟩⟩,
    ⟨addressText, html.drop 39, .of_unbracketed (by decide) (hstop _) isTag_addressText.body
      (by simp [scan_addressText]) fun _ h => absurd missing_addressText h⟩, List.forall_mem_nil _⟩

private theorem supplied_windowText :
    Rewrites (Forbidden.opened (openingParts [link.tag])) link.supplied
      ('<' :: (['A'] ++ (windowText ++ ['>'])))
      "<A TARGET=_blank href=\"#\" rel=\"noopener noreferrer\">".toList := by
  refine (namePart sound_link.listed).rewrites lacks_windowText.toIsTag (by decide)
    fun m _ h₂ _ htext => ?_
  rw [Demand.supplied, Demand.fills?, attributesOf, h₂, missing_windowText, htext]
  decide

private theorem supplied_addressText :
    Rewrites (Forbidden.opened (openingParts [link.tag])) link.supplied
      ('<' :: (['a'] ++ (addressText ++ ['>']))) ('<' :: (['a'] ++ (addressText ++ ['>']))) := by
  refine (namePart sound_link.listed).rewrites isTag_addressText (by decide)
    fun m _ h₂ _ htext => ?_
  rw [Demand.supplied, Demand.fills?_eq_none (by rw [attributesOf, h₂, missing_addressText]),
    Option.getD_none, htext]

/-- A link that opens a window and has no address, between a paragraph and a link that has one. -/
theorem repaired_fills_link :
    let html := "<p>go<A TARGET=_blank>on</A><a href=\"/\">up</a></p>".toList
    let out := ("<p>go<A TARGET=_blank href=\"#\" rel=\"noopener noreferrer\">on</A>" ++
      "<a href=\"/\">up</a></p>").toList
    (linkAttributes.repaired ⟨html, {}⟩).eval (.new [] 1) = .ok out ∧
      Forest.unplaced (Document.read {} out).nodes =
        Forest.unplaced (Forest.changed link.fill (Document.read {} html).nodes) := by
  intro html out
  have hd : (linkAttributes, link) ∈ filling := by simp [filling]
  have hpart := namePart sound_link.listed
  let close₁ : Text := '<' :: '/' :: ['A', '>']
  let close₂ : Text := '<' :: '/' :: (['a', '>'] ++ '<' :: '/' :: ['p', '>'])
  have hparts : html = '<' :: (['p'] ++ ([] ++ ([] ++ '>' :: (['g', 'o'] ++
      '<' :: (['A'] ++ (windowText ++ ([] ++ '>' :: (['o', 'n'] ++ (close₁ ++
        '<' :: (['a'] ++ (addressText ++ ([] ++ '>' :: (['u', 'p'] ++ close₂))))))))))))) := by
    decide
  have hp : Tags.IsTag (⊤ : Language Char) ['p'] [] [] := ⟨trivial, by simp, by simp, .inl rfl⟩
  have hother : ['p'] ∉ nameForms [link.tag] := fun h =>
    absurd (sound_link.mem_nameForms.1 h) (by decide)
  have hword (x : Char) (h : isWord x = true) : ∀ y ∈ [x], isWord y :=
    List.forall_mem_singleton.2 h
  have hstarts : ∀ n ∈ Forest.family (Document.read {} html).nodes, ∀ e ∈ n.element?,
      e.start.index ∈ [0, 5, 28] := by decide +kernel
  obtain ⟨out', heval, hread⟩ := repaired_fills hd ⟨html, {}⟩ (.new [] 1) {} (by decide +kernel)
    (by decide +kernel) (fun n hn e he => finds_links _ (hstarts n hn e he))
    fun name b slash hl hin => by
      have hw := hpart.word name hl.name
      have hne := hpart.ne_nil name hl.name
      have hin' : '<' :: (name ++ (b ++ (slash ++ ['>']))) <:+: _ := hparts ▸ hin
      rcases hp.eq_or_infix hl.toIsTag (hword _ (by decide)) hw (by simp) hl.settled hin' with
        ⟨rfl, -⟩ | hin
      · exact absurd hl.name hother
      rcases lacks_windowText.toIsTag.eq_or_infix hl.toIsTag (hword _ (by decide)) hw
        lacks_windowText.settled hl.settled
        (infix_of_infix_append (u := ['g', 'o']) (by decide) hin) with ⟨rfl, rfl, rfl⟩ | hin
      · exact fillable_windowText
      have hin := infix_of_closing hne hw (infix_of_infix_append (u := ['o', 'n']) (by decide) hin)
      have hin := infix_of_infix_append (u := ['A', '>']) (by decide) hin
      rcases isTag_addressText.eq_or_infix hl.toIsTag (hword _ (by decide)) hw (by simp) hl.settled
        hin with ⟨rfl, rfl, rfl⟩ | hin
      · exact absurd missing_addressText
          (hl.lacking.elim id fun h => by rwa [List.append_nil] at h)
      have hin := infix_of_closing hne hw (infix_of_infix_append (u := ['u', 'p']) (by decide) hin)
      have hin := infix_of_closing hne hw (infix_of_infix_append (u := ['a', '>']) (by decide) hin)
      have hin := infix_of_infix_append (u := ['p', '>']) (t := []) (by decide) hin
      exact absurd (List.infix_nil.1 hin) (List.cons_ne_nil _ _)
  obtain ⟨p, hm, heval'⟩ := exists_eval_repaired hd
  have hclosed (name : Text) (hn : '<' ∉ name) :
      Rewrites (Forbidden.opened (openingParts [link.tag])) link.supplied
        ('<' :: '/' :: name) ('<' :: '/' :: name) :=
    hpart.rewrites_closing hn
  have hout : p.replace link.supplied html = out :=
    ((hpart.rewrites_other hp (hword _ (by decide)) hother).append <|
      (rewrites_text (t := ['g', 'o']) (by decide)).append <| supplied_windowText.append <|
      (rewrites_text (t := ['o', 'n']) (by decide)).append <|
      (hclosed ['A', '>'] (by decide)).append <| supplied_addressText.append <|
      (rewrites_text (t := ['u', 'p']) (by decide)).append <|
        (hclosed ['a', '>'] (by decide)).append (hclosed ['p', '>'] (by decide))).replace_eq hm rfl
  obtain rfl : out' = out := by
    have h := heval.symm.trans (heval' _ _)
    rw [hout] at h
    exact Except.ok.inj h
  exact ⟨heval, hread (by decide +kernel)⟩

end links

end MailMarkup.Missing
