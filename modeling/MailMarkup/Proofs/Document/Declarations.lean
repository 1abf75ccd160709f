import MailMarkup.Proofs.Document.Styles

/-!
# Declarations read back

A style is cut into declarations at every semicolon. What is cut has the form in which declarations
are rendered, and declarations of that form are read back from what is rendered. Merging keeps the
form and leaves each property once.
-/
namespace MailMarkup
open Text

namespace Text
variable {t u : Text}

theorem isBlank_lowerChar (x : Char) : isBlank (lowerChar x) = isBlank x := by
  have hletter {y : Char} (hy : isLetter y = true) : isBlank y = false := by
    rw [Bool.eq_false_iff]
    intro hb
    have htag : Reader.isTagChar y = true := by simp [Reader.isTagChar, hy]
    rw [Reader.isTagChar_of_isBlank hb] at htag
    cases htag
  cases hx : isUpper x with
  | false => rw [lowerChar_of_not_isUpper hx]
  | true =>
    rw [hletter (y := x) (by rw [isLetter, hx, Bool.or_true]),
      hletter (by rw [isLetter, isLower_lowerChar hx, Bool.true_or])]

theorem trim_lower (t : Text) : trim (lower t) = lower (trim t) := by
  have hblank : isBlank ∘ lowerChar = isBlank := funext isBlank_lowerChar
  simp only [trim, trimStart, trimEnd, lower, List.dropWhile_map, ← List.map_reverse, hblank]

private theorem trim_trim (t : Text) : trim (trim t) = trim t := by
  have hstart : trimStart (trim t) = trim t := by
    cases h : trim t with
    | nil => rfl
    | cons x u =>
      obtain ⟨v, hv⟩ := trimEnd_isPrefix (trimStart t)
      have hx := trimStart_head t
      rw [← hv, ← trim, h] at hx
      exact List.dropWhile_cons_of_neg (by simpa using hx)
  rw [trim, hstart, trim, trimEnd, trimEnd, List.reverse_reverse]
  exact congrArg List.reverse (trimStart_trimStart (trimStart t).reverse)

private theorem unbordered_singleton (c : Char) : Unbordered [c] := by
  intro b hb _ hpre
  rcases List.prefix_cons_iff.1 hpre with rfl | ⟨w, rfl, hw⟩
  · exact absurd rfl hb
  · rw [List.prefix_nil.1 hw]

private theorem cut?_singleton_append {c : Char} (h : c ∉ t) (u : Text) :
    cut? [c] (t ++ c :: u) = some (t, u) :=
  cut?_append (unbordered_singleton c) (fun hin => h (hin.subset List.mem_cons_self)) u

private theorem not_mem_of_cut? {c : Char} {p v : Text} (h : cut? [c] t = some (p, v)) : c ∉ p := by
  intro hc
  obtain ⟨a, b, rfl⟩ := List.append_of_mem hc
  exact not_infix_of_cut? (List.cons_ne_nil c []) h ⟨a, b, by simp⟩

end Text

namespace Style
variable {t p v : Text} {ds : List Declaration} {d : Declaration}

/-- A property in the form in which it is kept. -/
structure IsProperty (p : Text) : Prop where
  trimmed : IsTrimmed p
  lower : lower p = p
  uncut : ':' ∉ p ∧ ';' ∉ p

/-- A value in the form in which it is kept. -/
structure IsValue (v : Text) : Prop where
  trimmed : IsTrimmed v
  uncut : ';' ∉ v

theorem isTrimmed_trim (h : (trim t).isEmpty = false) : IsTrimmed (trim t) := by
  refine ⟨fun hnil => ?_, trim_trim t⟩
  rw [hnil] at h
  cases h

private theorem isProperty_declaration? (ht : ';' ∉ t) (h : declaration? t = some d) :
    IsProperty d.1 ∧ IsValue d.2 := by
  unfold declaration? at h
  split at h
  · cases h
  · rename_i p v hcut
    obtain ⟨rfl, -⟩ := cut?_eq_some_iff.1 hcut
    have hcolon := not_mem_of_cut? hcut
    dsimp only at h
    split at h
    · cases h
    · rename_i hne
      cases h
      rw [Bool.not_eq_true, Bool.or_eq_false_iff, ← trim_lower] at hne
      have hp : lower (trim p) ⊆ lower p := List.map_subset _ (trim_subset p)
      have hmark := not_mem_lowerChar [':', ';'] (by decide)
      have hfree : ∀ x ∈ lower p, x ∉ [':', ';'] := List.forall_mem_map.2 fun x hx =>
        hmark x fun hm => by
          rcases List.mem_pair.1 hm with rfl | rfl
          · exact hcolon hx
          · exact ht (List.mem_append_left _ hx)
      refine ⟨⟨?_, lower_lower _, fun hx => hfree _ (hp hx) (by simp),
        fun hx => hfree _ (hp hx) (by simp)⟩, isTrimmed_trim hne.2, fun hx => ht ?_⟩
      · rw [← trim_lower]
        exact isTrimmed_trim hne.1
      · simp [trim_subset v hx]

private theorem declaration?_append (hp : IsProperty p) (hv : IsValue v) :
    declaration? (p ++ ':' :: v) = some (p, v) := by
  have hempty {u : Text} (hu : IsTrimmed u) : u.isEmpty = false := by
    cases u with
    | nil => exact absurd rfl hu.1
    | cons x u => rfl
  rw [declaration?, cut?_singleton_append hp.uncut.1]
  simp only [hp.trimmed.2, hp.lower, hv.trimmed.2, hempty hp.trimmed, hempty hv.trimmed]
  rfl

theorem isProperty_parse (t : Text) : ∀ d ∈ parse t, IsProperty d.1 ∧ IsValue d.2 := by
  intro d hd
  obtain ⟨u, hu, hd⟩ := List.mem_filterMap.1 hd
  exact isProperty_declaration? (not_mem_of_mem_splitOn hu) hd

theorem parse_render (h : ∀ d ∈ ds, IsProperty d.1 ∧ IsValue d.2) : parse (render ds) = ds := by
  induction ds with
  | nil => rfl
  | cons d ds ih =>
    obtain ⟨⟨hp, hv⟩, h⟩ := List.forall_mem_cons.1 h
    have hcons : render (d :: ds) = (d.1 ++ ':' :: d.2) ++ ';' :: render ds := by simp [render]
    have hno : ';' ∉ d.1 ++ ':' :: d.2 := by simp [hp.uncut.2, hv.uncut]
    rw [parse, hcons, splitOn_eq, List.splitOn_append_cons_self_of_not_mem hno,
      List.filterMap_cons_some (declaration?_append hp hv), ← splitOn_eq]
    exact congrArg _ (ih h)

private theorem nodup_set (h : (ds.map Prod.fst).Nodup) : ((set ds d).map Prod.fst).Nodup := by
  unfold set
  split
  · have hkeys : (ds.map fun e => if e.1 == d.1 then (e.1, d.2) else e).map Prod.fst =
        ds.map Prod.fst := by
      rw [List.map_map]
      refine List.map_congr_left fun e _ => ?_
      dsimp only [Function.comp]
      split <;> rfl
    rwa [hkeys]
  · rename_i hno
    have hd : d.1 ∉ ds.map Prod.fst := by
      intro hmem
      obtain ⟨e, he, heq⟩ := List.mem_map.1 hmem
      exact hno (List.any_eq_true.2 ⟨e, he, beq_iff_eq.2 heq⟩)
    rw [List.map_append, List.nodup_append]
    refine ⟨h, List.pairwise_singleton _ _, fun p hp q hq heq => hd ?_⟩
    rwa [← List.mem_singleton.1 hq, ← heq]

theorem nodup_dedupe (ds : List Declaration) : ((dedupe ds).map Prod.fst).Nodup := by
  have hfold (es : List Declaration) (he : (es.map Prod.fst).Nodup) :
      ((ds.foldl set es).map Prod.fst).Nodup := by
    induction ds generalizing es with
    | nil => exact he
    | cons d ds ih => exact ih _ (nodup_set he)
  exact hfold [] .nil

end Style
end MailMarkup
