import MailMarkup.Proofs.Rule.RewrittenTags
import MailMarkup.Rule.Malformed

/-!
# Malformed attributes repaired

The check and the repair say in their own ways what is wrong with the attributes of a tag, and agree
on it. A tag that is written anew is matched again in the same place and falls into the same parts,
and nothing is wrong with its attributes. So a repaired text is left as it is by another repair, and
a text with nothing to report is left as it is by the first.
-/
namespace MailMarkup.Malformed
open Text Pattern Tags

section attributes
variable {a b : Attribute} {as kept : List Attribute} {seen : List Text} {tag : String}

/-- The second attribute, which stands behind the first, does not repeat it. -/
def Differ (a b : Attribute) : Prop := b.is Style.attributeName = true ∨ a.is b.name = false

/-- There is nothing to report on the attributes of a tag. -/
structure IsClean (as : List Attribute) : Prop where
  wellFormed : ∀ a ∈ as, a.isMalformed = false
  distinct : as.Pairwise Differ

theorem is_iff {n : Text} : a.is n = true ↔ lower a.name = lower n := beq_iff_eq

private theorem differ_iff :
    Differ a b ↔ b.is Style.attributeName = true ∨ lower b.name ≠ lower a.name := by
  refine or_congr_right ?_
  rw [← Bool.not_eq_true, is_iff, eq_comm]

private theorem problem?_eq_none : problem? seen tag a = none ↔
    a.isMalformed = false ∧ (a.is Style.attributeName = true ∨ lower a.name ∉ seen) := by
  have hstyle : lower Style.attributeName = Style.attributeName := by decide
  unfold problem? Attribute.isMalformed
  rw [is_iff, hstyle]
  cases a.unterminated <;> cases a.spacedEquals <;> cases a.isUnquoted <;> simp
  exact or_iff_not_imp_left.symm

private theorem problems_eq_nil : problems tag seen as = [] ↔
    IsClean as ∧ ∀ a ∈ as, a.is Style.attributeName = true ∨ lower a.name ∉ seen := by
  induction as generalizing seen with
  | nil => exact ⟨fun _ => ⟨⟨nofun, .nil⟩, nofun⟩, fun _ => rfl⟩
  | cons a as ih =>
    have hdiffer (b : Attribute) :
        (b.is Style.attributeName = true ∨ lower b.name ∉ lower a.name :: seen) ↔
          Differ a b ∧ (b.is Style.attributeName = true ∨ lower b.name ∉ seen) := by
      rw [differ_iff, List.mem_cons, not_or, or_and_left]
    rw [problems, List.append_eq_nil_iff, Option.toList_eq_nil_iff, problem?_eq_none, ih]
    simp only [hdiffer, List.forall_mem_cons]
    constructor
    · rintro ⟨⟨ha, hseen⟩, ⟨has, hpair⟩, hrest⟩
      exact ⟨⟨List.forall_mem_cons.2 ⟨ha, has⟩, .cons (fun b hb => (hrest b hb).1) hpair⟩, hseen,
        fun b hb => (hrest b hb).2⟩
    · rintro ⟨⟨has, hpair⟩, hseen, hrest⟩
      obtain ⟨ha, has⟩ := List.forall_mem_cons.1 has
      obtain ⟨hfirst, hpair⟩ := List.pairwise_cons.1 hpair
      exact ⟨⟨ha, hseen⟩, ⟨has, hpair⟩, fun b hb => ⟨hfirst b hb, hrest b hb⟩⟩

theorem not_repeated_iff : (!a.is Style.attributeName && kept.any (·.is a.name)) = false ↔
    ∀ k ∈ kept, Differ k a := by
  cases h : a.is Style.attributeName <;> simp [Differ, h]

private theorem length_distinct_le (kept as : List Attribute) :
    (distinct kept as).length ≤ kept.length + as.length := by
  fun_induction distinct kept as with
  | case1 kept => simp
  | case2 kept a as hrep ih =>
    rw [List.length_cons]
    omega
  | case3 kept a as hrep ih =>
    rw [List.length_cons] at ih ⊢
    omega

private theorem length_distinct_eq : (distinct kept as).length = kept.length + as.length ↔
    as.Pairwise Differ ∧ ∀ a ∈ as, ∀ k ∈ kept, Differ k a := by
  fun_induction distinct kept as with
  | case1 kept => simp
  | case2 kept a as hrep ih =>
    have hle := length_distinct_le kept as
    refine ⟨fun h => ?_, fun h => ?_⟩
    · rw [List.length_cons] at h
      omega
    · rw [not_repeated_iff.2 (h.2 a List.mem_cons_self)] at hrep
      cases hrep
  | case3 kept a as hrep ih =>
    have hkept := not_repeated_iff.1 (Bool.not_eq_true _ ▸ hrep)
    rw [List.length_cons, show kept.length + (as.length + 1) = (a :: kept).length + as.length by
      rw [List.length_cons]; omega, ih, List.pairwise_cons]
    simp only [List.forall_mem_cons]
    exact ⟨fun ⟨hpair, h⟩ => ⟨⟨fun b hb => (h b hb).1, hpair⟩, hkept, fun b hb => (h b hb).2⟩,
      fun ⟨⟨ha, hpair⟩, _, h⟩ => ⟨hpair, fun b hb => ⟨ha b hb, h b hb⟩⟩⟩

private theorem pairwise_distinct (h : kept.reverse.Pairwise Differ) :
    (distinct kept as).Pairwise Differ := by
  fun_induction distinct kept as with
  | case1 kept => exact h
  | case2 kept a as hrep ih => exact ih h
  | case3 kept a as hrep ih =>
    have hkept := not_repeated_iff.1 (Bool.not_eq_true _ ▸ hrep)
    refine ih ?_
    rw [List.reverse_cons, List.pairwise_append]
    refine ⟨h, List.pairwise_singleton _ _, fun k hk b hb => ?_⟩
    rw [List.mem_singleton.1 hb]
    exact hkept k (List.mem_reverse.1 hk)

theorem mem_of_mem_distinct (h : a ∈ distinct kept as) : a ∈ kept ∨ a ∈ as := by
  fun_induction distinct kept as with
  | case1 kept => exact .inl (List.mem_reverse.1 h)
  | case2 kept b as hrep ih => exact (ih h).imp_right (List.mem_cons_of_mem b)
  | case3 kept b as hrep ih =>
    rcases ih h with h | h
    · exact (List.mem_cons.1 h).elim (fun h => .inr (h ▸ List.mem_cons_self)) .inl
    · exact .inr (List.mem_cons_of_mem b h)

/-- What is rendered has nothing wrong with it but repetitions. -/
theorem isClean_rendered (h : as.Pairwise Differ) : IsClean (as.map Attribute.rendered) := by
  constructor
  · refine List.forall_mem_map.2 fun a _ => ?_
    unfold Attribute.rendered Attribute.isMalformed Attribute.isUnquoted
    cases a.value <;> rfl
  · refine List.pairwise_map.2 (h.imp fun {a b} hab => ?_)
    simpa only [Differ, Attribute.is, sameLetters, Attribute.rendered, lower_lower] using hab

end attributes
section repair
variable {p : Pattern} {t v r body slash name : Text} {c : Cursor} {m : Match} {ms : List Match}
  {as : List Attribute}

private theorem isClean_iff : IsClean as ↔
    (as.any (·.isMalformed) || (distinct [] as).length != as.length) = false := by
  have hlength : (distinct [] as).length = [].length + as.length ↔ _ := length_distinct_eq
  rw [List.length_nil, Nat.zero_add] at hlength
  rw [Bool.or_eq_false_iff, bne_eq_false_iff_eq, hlength]
  simp only [List.any_eq_false, Bool.not_eq_true]
  exact ⟨fun h => ⟨h.wellFormed, h.distinct, fun _ _ => nofun⟩, fun h => ⟨h.1, h.2.1⟩⟩

/-- A tag is left alone exactly if there is nothing to report on it. -/
theorem repair?_eq_none : repair? m = none ↔ IsClean (attributesOf m) := by
  rw [isClean_iff, repair?]
  split
  · rename_i h
    exact iff_of_false (Option.some_ne_none _) (by simp [h])
  · rename_i h
    exact iff_of_true rfl (Bool.not_eq_true _ ▸ h)

theorem repair?_eq_some {u : Text} (h : repair? m = some u) :
    u = withAttributes m (distinct [] (attributesOf m)) := by
  unfold repair? at h
  dsimp only at h
  split at h
  · exact (Option.some.inj h).symm
  · cases h

/-- What stands in the place of a tag. -/
def repaired (m : Match) : Text := (repair? m).getD m.text

private theorem repaired_parts (h : IsParted (m.group 1) (m.group 2) (m.group 3))
    (ht : m.text = '<' :: (m.group 1 ++ (m.group 2 ++ (m.group 3 ++ ['>'])))) :
    Becomes IsClean repaired m := by
  cases hrep : repair? m with
  | none => exact ⟨m.group 2, h, repair?_eq_none.1 hrep, by rw [repaired, hrep]; exact ht⟩
  | some u =>
    have hfrom : ∀ a ∈ distinct [] (attributesOf m), a.IsFrom (m.group 2) := fun a ha =>
      Attribute.isFrom_scan ((mem_of_mem_distinct ha).resolve_left nofun)
    obtain ⟨body, hparted, hscan, hbody⟩ := h.withAttributes hfrom h.body
    refine ⟨body, hparted, ?_, ?_⟩
    · rw [hscan]
      exact isClean_rendered (pairwise_distinct .nil)
    · rw [repaired, hrep, Option.getD_some, repair?_eq_some hrep, hbody]

/-- On no tag of a repaired text is there anything to report, wherever it stands. -/
theorem isClean_of_rebuild (hms : Successive anyExpr c ms)
    (hparts : ∀ m ∈ ms, IsParted (m.group 1) (m.group 2) (m.group 3) ∧
      m.text = '<' :: (m.group 1 ++ (m.group 2 ++ (m.group 3 ++ ['>']))))
    (ho : IsParted name body slash)
    (h : rebuild repaired c ms = v ++ '<' :: (name ++ (body ++ (slash ++ '>' :: r)))) :
    IsClean (Attribute.scan body) :=
  holds_of_rebuild hms (fun m hm => repaired_parts (hparts m hm).1 (hparts m hm).2) ho h

private theorem rebuild_repaired_eq (hms : Successive anyExpr c ms)
    (hclean : ∀ m ∈ ms, IsClean (attributesOf m)) : rebuild repaired c ms = c.rest := by
  refine rebuild_self hms fun m hm => ?_
  rw [repaired, repair?_eq_none.2 (hclean m hm)]
  rfl

end repair

/-- The check and the repair agree. The repair gives a text on which there is nothing to report and
which another repair leaves as it is, and it leaves those texts as they are on which there was
nothing to report. -/
theorem fix_settles (s : Subject) (info : RuleInfo) (ix : Index) :
    ∃ out, (fix s).eval ix = .ok out ∧
      (check { s with html := out } info).eval ix = .ok [] ∧
      (out = s.html ↔ (check s info).eval ix = .ok []) ∧
      (fix { s with html := out }).eval ix = .ok out := by
  obtain ⟨p, hp, hc⟩ := Forbidden.exists_compile read_anyOpen ordered_anyExpr
  let result (t : Text) : Text := rebuild repaired (.start t) (p.occurrences t)
  have hfix (t : Text) : (fix { s with html := t }).eval ix = .ok (result t) := by
    have heval : (fix { s with html := t }).eval ix = .ok (p.replaceSome repair? t) :=
      Forbidden.eval_compiled hc _ ix
    rw [heval, replaceSome, replace_eq]
    rfl
  have hcheck (t : Text) : (check { s with html := t } info).eval ix = .ok [] ↔
      ∀ m ∈ p.occurrences t, IsClean (attributesOf m) := by
    have heval : (check { s with html := t } info).eval ix =
        .ok ((p.occurrences t).flatMap fun m => (problems (nameOf m) [] (attributesOf m)).map
          fun message => finding info m message
            "Write attributes as name=\"value\" exactly once") := Forbidden.eval_compiled hc _ ix
    rw [heval, Except.ok.injEq, List.flatMap_eq_nil_iff]
    simp [problems_eq_nil]
  have hunchanged {t : Text} (h : ∀ m ∈ p.occurrences t, IsClean (attributesOf m)) :
      result t = t := rebuild_repaired_eq (hp.occurrences_successive rfl t) h
  have hclean (t : Text) : ∀ m ∈ p.occurrences (result t), IsClean (attributesOf m) := by
    intro m hm
    have hms := hp.occurrences_successive rfl (result t)
    obtain ⟨hparted, htext⟩ := parted_of_occurrence hp hm
    have hplace := (hms.reaches hm).upTo.1
    rw [(hms.reads hm).text_eq.1, htext] at hplace
    simp only [List.cons_append, List.append_assoc, List.nil_append] at hplace
    exact isClean_of_rebuild (hp.occurrences_successive rfl t)
      (fun _ hm => parted_of_occurrence hp hm) hparted hplace
  refine ⟨result s.html, hfix s.html, (hcheck _).2 (hclean s.html), ?_, ?_⟩
  · rw [hcheck s.html]
    constructor
    · intro heq
      have h := hclean s.html
      rwa [heq] at h
    · exact hunchanged
  · rw [hfix, hunchanged (hclean s.html)]

end MailMarkup.Malformed
