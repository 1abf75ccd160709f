import Mathlib.Data.List.Induction
import MailMarkup.Proofs.Document.Declarations

/-!
# The algebra of styles

Declarations that are merged keep two things: the order in which their properties occur first, and
the value that each property is given last. Neither changes when some of the declarations have been
merged before, so merging is associative. A base style that attribute text gets comes before all
that the text declares, so it never overrides its author.
-/
namespace MailMarkup
open Text

namespace Style
variable {ds es : List Declaration} {d : Declaration} {p v : Text}

/-- The properties that are declared, in the order in which they occur first. -/
def properties (ds : List Declaration) : List Text := (ds.map Prod.fst).eraseDups

/-- The value that a property is given last. -/
def declared? (ds : List Declaration) (p : Text) : Option Text := ds.reverse.lookup p

/-! ### Properties -/

theorem eraseDups_concat (ps : List Text) (p : Text) :
    (ps ++ [p]).eraseDups = if p ∈ ps then ps.eraseDups else ps.eraseDups ++ [p] := by
  rw [List.eraseDups_append, List.removeAll, List.filter_singleton, List.elem_eq_mem]
  by_cases h : p ∈ ps <;> simp [h, List.eraseDups_cons]

private theorem eraseDups_append_eraseDups (ps qs : List Text) :
    (ps ++ qs.eraseDups).eraseDups = (ps ++ qs).eraseDups := by
  induction qs using List.reverseRecOn with
  | nil => rfl
  | append_singleton qs q ih =>
    rw [eraseDups_concat, ← List.append_assoc, eraseDups_concat, ← ih]
    by_cases h : q ∈ qs
    · rw [if_pos h, if_pos (List.mem_append_right ps h)]
    · rw [if_neg h, ← List.append_assoc, eraseDups_concat]
      simp only [List.mem_append, List.mem_eraseDups]

theorem dedupe_concat (ds : List Declaration) (d : Declaration) :
    dedupe (ds ++ [d]) = set (dedupe ds) d := List.foldl_concat set [] d ds

private theorem map_fst_set (ds : List Declaration) (d : Declaration) : (set ds d).map Prod.fst =
    if d.1 ∈ ds.map Prod.fst then ds.map Prod.fst else ds.map Prod.fst ++ [d.1] := by
  have hany : (ds.any (·.1 == d.1)) = true ↔ d.1 ∈ ds.map Prod.fst := by
    simp [List.any_eq_true, List.mem_map]
  unfold set
  simp only [hany]
  split
  · rw [List.map_map]
    refine List.map_congr_left fun e _ => ?_
    dsimp only [Function.comp]
    split <;> rfl
  · exact List.map_append

theorem map_fst_dedupe (ds : List Declaration) : (dedupe ds).map Prod.fst = properties ds := by
  induction ds using List.reverseRecOn with
  | nil => rfl
  | append_singleton ds d ih =>
    rw [dedupe_concat, map_fst_set, ih, properties, properties, List.map_append, List.map_singleton,
      eraseDups_concat]
    simp only [List.mem_eraseDups]

/-! ### Values -/

theorem declared?_append (ds es : List Declaration) (p : Text) :
    declared? (ds ++ es) p = (declared? es p).or (declared? ds p) := by
  rw [declared?, List.reverse_append, List.lookup_append]
  rfl

theorem declared?_singleton (d : Declaration) (p : Text) :
    declared? [d] p = if p = d.1 then some d.2 else none := by
  rw [declared?, List.reverse_singleton, List.lookup_cons]
  by_cases h : p = d.1
  · rw [if_pos h, h, beq_self_eq_true]
  · rw [if_neg h, beq_false_of_ne h]
    rfl

theorem declared?_eq_some_iff : declared? ds p = some v ↔
    ∃ front back, ds = front ++ (p, v) :: back ∧ p ∉ back.map Prod.fst := by
  have hne (es : List Declaration) :
      (∀ e ∈ es.reverse, (p != e.1) = true) ↔ p ∉ es.map Prod.fst := by
    simp only [List.mem_reverse, bne_iff_ne, List.mem_map, not_exists, not_and, ne_eq]
    exact forall₂_congr fun e _ => not_congr eq_comm
  rw [declared?, List.lookup_eq_some_iff]
  constructor
  · rintro ⟨back, front, h, hback⟩
    refine ⟨front.reverse, back.reverse, ?_, (hne _).1 (by rwa [List.reverse_reverse])⟩
    rw [← List.reverse_reverse ds, h]
    simp
  · rintro ⟨front, back, rfl, hback⟩
    exact ⟨back.reverse, front.reverse, by simp, (hne _).2 hback⟩

private theorem lookup_set (es : List Declaration) (d : Declaration) (p : Text) :
    (es.map fun e => if e.1 == d.1 then (e.1, d.2) else e).lookup p =
      if p = d.1 ∧ d.1 ∈ es.map Prod.fst then some d.2 else es.lookup p := by
  induction es with
  | nil => simp
  | cons e es ih =>
    rw [List.map_cons, List.lookup_cons, ih, List.lookup_cons]
    grind

private theorem declared?_set (ds : List Declaration) (d : Declaration) (p : Text) :
    declared? (set ds d) p = if p = d.1 then some d.2 else declared? ds p := by
  unfold set
  split
  · rename_i h
    have hmem : d.1 ∈ ds.reverse.map Prod.fst := by simpa [List.any_eq_true] using h
    rw [declared?, ← List.map_reverse, lookup_set, declared?]
    simp only [hmem, and_true]
  · rw [declared?_append, declared?_singleton]
    split <;> rfl

theorem declared?_dedupe (ds : List Declaration) (p : Text) :
    declared? (dedupe ds) p = declared? ds p := by
  induction ds using List.reverseRecOn with
  | nil => rfl
  | append_singleton ds d ih =>
    rw [dedupe_concat, declared?_set, ih, declared?_append, declared?_singleton]
    split <;> rfl

/-! ### Merging -/

theorem mem_iff_declared? (h : (ds.map Prod.fst).Nodup) :
    (p, v) ∈ ds ↔ declared? ds p = some v := by
  rw [declared?_eq_some_iff]
  constructor
  · intro hmem
    obtain ⟨front, back, rfl⟩ := List.append_of_mem hmem
    rw [List.map_append, List.map_cons] at h
    exact ⟨front, back, rfl, (List.nodup_cons.1 (List.nodup_append.1 h).2.1).1⟩
  · rintro ⟨front, back, rfl, -⟩
    simp

theorem eq_map_properties (h : (ds.map Prod.fst).Nodup) :
    ds = (ds.map Prod.fst).map fun p => (p, (declared? ds p).getD []) := by
  rw [List.map_map]
  refine ((List.map_congr_left fun d hd => ?_).trans (List.map_id ds)).symm
  rw [Function.comp, (mem_iff_declared? h).1 hd]
  rfl

/-- What is merged depends on the order of the properties and on their last values alone. -/
theorem dedupe_congr (hp : properties ds = properties es)
    (hd : ∀ p, declared? ds p = declared? es p) : dedupe ds = dedupe es := by
  rw [eq_map_properties (nodup_dedupe ds), eq_map_properties (nodup_dedupe es)]
  simp only [map_fst_dedupe, declared?_dedupe, hp, hd]

theorem dedupe_append_dedupe (ds es : List Declaration) :
    dedupe (ds ++ dedupe es) = dedupe (ds ++ es) := by
  refine dedupe_congr ?_ fun p => ?_
  · rw [properties, List.map_append, map_fst_dedupe, properties, eraseDups_append_eraseDups,
      properties, List.map_append]
  · rw [declared?_append, declared?_dedupe, declared?_append]

private theorem dedupe_dedupe_append (ds es : List Declaration) :
    dedupe (dedupe ds ++ es) = dedupe (ds ++ es) := by
  have hagain : dedupe (dedupe ds) = dedupe ds := dedupe_append_dedupe [] ds
  calc dedupe (dedupe ds ++ es) = es.foldl set (dedupe (dedupe ds)) := List.foldl_append
    _ = es.foldl set (dedupe ds) := by rw [hagain]
    _ = dedupe (ds ++ es) := List.foldl_append.symm

private theorem dedupe_append_self (ds : List Declaration) : dedupe (ds ++ ds) = dedupe ds := by
  refine dedupe_congr ?_ fun p => ?_
  · have hnone : (ds.map Prod.fst).removeAll (ds.map Prod.fst) = [] :=
      List.filter_eq_nil_iff.2 fun p hp => by simpa using hp
    rw [properties, List.map_append, List.eraseDups_append, hnone, List.eraseDups_nil,
      List.append_nil, properties]
  · rw [declared?_append, Option.or_self]

theorem parse_merge (a b : Text) : parse (merge a b) = dedupe (parse a ++ parse b) :=
  parse_render <| forall_dedupe <|
    List.forall_mem_append.2 ⟨isProperty_parse a, isProperty_parse b⟩

/-- A merged style declares what both styles declare: each property once, in the order in which they
occur first, and with the last of its values. Merging is associative, and a style that is merged
with itself is put into the form that it has when it is merged with nothing. -/
theorem merge_laws (a b c : Text) :
    parse (merge a b) = dedupe (parse a ++ parse b) ∧
      ((parse (merge a b)).map Prod.fst).Nodup ∧
      (parse (merge a b)).map Prod.fst = ((parse a ++ parse b).map Prod.fst).eraseDups ∧
      (∀ p v, (p, v) ∈ parse (merge a b) ↔
        ∃ front back, parse a ++ parse b = front ++ (p, v) :: back ∧ p ∉ back.map Prod.fst) ∧
      merge (merge a b) c = merge a (merge b c) ∧
      merge a a = merge a [] := by
  have hnodup := nodup_dedupe (parse a ++ parse b)
  have hassoc : merge (merge a b) c = merge a (merge b c) := by
    rw [merge, parse_merge, dedupe_dedupe_append, merge, parse_merge, dedupe_append_dedupe,
      List.append_assoc]
  have hself : merge a a = merge a [] := by
    have hnil : parse [] = [] := rfl
    rw [merge, dedupe_append_self, merge, hnil, List.append_nil]
  refine ⟨parse_merge a b, ?_, ?_, fun p v => ?_, hassoc, hself⟩
  · rwa [parse_merge]
  · rw [parse_merge, map_fst_dedupe, properties]
  · rw [parse_merge, mem_iff_declared? hnodup, declared?_dedupe, declared?_eq_some_iff]

/-! ### Base styles -/

section base
variable {t base : Text}

/-- The styles that are set in attribute text. -/
def authored (t : Text) : List Text :=
  ((Attribute.scan t).filter (·.is attributeName)).filterMap (·.value)

/-- The style that attribute text has when a base style is put under its own. -/
def based (t base : Text) : Text := merge base (join [';'] (authored t))

private theorem parse_join (ts : List Text) : parse (join [';'] ts) = ts.flatMap parse := by
  induction ts with
  | nil => rfl
  | cons t ts ih =>
    cases ts with
    | nil => simp [join]
    | cons u us =>
      have hcons : join [';'] (t :: u :: us) = t ++ ';' :: join [';'] (u :: us) := by simp [join]
      have hsplit : parse (t ++ ';' :: join [';'] (u :: us)) =
          parse t ++ parse (join [';'] (u :: us)) := by
        simp only [parse, splitOn_eq, List.splitOn_append_cons_self, List.filterMap_append]
      rw [hcons, hsplit, ih]
      rfl

theorem parse_based (t base : Text) :
    parse (based t base) = dedupe (parse base ++ (authored t).flatMap parse) := by
  rw [based, parse_merge, parse_join]

/-- Attribute text with a base style is read back as its other attributes in normal form, and one
style behind them. -/
theorem scan_withBase_eq (t base : Text) : Attribute.scan (withBase t base) =
    ((Attribute.scan t).filter (!·.is attributeName)).map Attribute.normal ++
      [(Attribute.of attributeName (based t base)).normal] := by
  have hfrom : ∀ a ∈ (Attribute.scan t).filter (!·.is attributeName) ++
      [Attribute.of attributeName (based t base)],
      a.IsFrom (t ++ (attributeName ++ based t base)) := by
    refine List.forall_mem_append.2 ⟨fun a ha => ?_, List.forall_mem_singleton.2 ?_⟩
    · exact (Attribute.isFrom_scan (List.mem_filter.1 ha).1).mono (List.subset_append_left _ _)
    · exact (isFrom_of _).mono (List.subset_append_right _ _)
  have hscan := Attribute.scan_renderAll_alone hfrom
  rw [funext Attribute.rendered_eq_normal, List.map_append] at hscan
  exact hscan

private theorem is_normal_eq_false {a : Attribute}
    (h : a ∈ ((Attribute.scan t).filter (!·.is attributeName)).map Attribute.normal) :
    a.is attributeName = false := by
  obtain ⟨b, hb, rfl⟩ := List.mem_map.1 h
  rw [← Attribute.rendered_eq_normal, Attribute.is_rendered]
  simpa using (List.mem_filter.1 hb).2

/-- A base style goes under the author's styles. If the style that results does not have both kinds
of quotes in it, the attribute text is read back as its other attributes and one style, which
declares each property once: with the author's last value if there is one, or else with that of the
base style. -/
theorem scan_withBase (t base : Text)
    (quotes : ¬ ('"' ∈ based t base ∧ '\'' ∈ based t base)) :
    ∃ others style value, Attribute.scan (withBase t base) = others ++ [style] ∧
      others = ((Attribute.scan t).filter (!·.is attributeName)).map Attribute.normal ∧
      (∀ a ∈ others, a.is attributeName = false) ∧
      style.name = attributeName ∧ style.value = some value ∧
      ((parse value).map Prod.fst).Nodup ∧
      ∀ p v, (p, v) ∈ parse value ↔
        (declared? ((authored t).flatMap parse) p).or (declared? (parse base) p) = some v := by
  have hvalue : (Attribute.of attributeName (based t base)).normal.value =
      some (based t base) := congrArg some (if_neg quotes)
  have hnodup := nodup_dedupe (parse base ++ (authored t).flatMap parse)
  refine ⟨_, _, based t base, scan_withBase_eq t base, rfl, fun a ha => is_normal_eq_false ha,
    rfl, hvalue, ?_, fun p v => ?_⟩
  · rwa [parse_based]
  · rw [parse_based, mem_iff_declared? hnodup, declared?_dedupe, declared?_append]

/-- Of two styles the second one has the last word, and both have it over the base style. -/
theorem scan_withBase_twice :
    let t := " STYLE=color:red;top:0 id=x style='Color:blue'".toList
    let base := "color:black;left:1px".toList
    ¬ ('"' ∈ based t base ∧ '\'' ∈ based t base) ∧
      ∃ others style value, Attribute.scan (withBase t base) = others ++ [style] ∧
        others = [.of "id".toList "x".toList] ∧ style.name = attributeName ∧
        style.value = some value ∧ ("color".toList, "blue".toList) ∈ parse value ∧
        ("left".toList, "1px".toList) ∈ parse value ∧ ("top".toList, "0".toList) ∈ parse value := by
  intro t base
  have quotes : ¬ ('"' ∈ based t base ∧ '\'' ∈ based t base) := by decide +kernel
  obtain ⟨others, style, value, hscan, hothers, -, hname, hvalue, -, hmem⟩ :=
    scan_withBase t base quotes
  refine ⟨quotes, others, style, value, hscan, hothers.trans (by decide +kernel), hname, hvalue,
    (hmem _ _).2 ?_, (hmem _ _).2 ?_, (hmem _ _).2 ?_⟩
  · decide +kernel
  · decide +kernel
  · decide +kernel

end base
end Style
end MailMarkup
