import MailMarkup.Proofs.Rule.RewrittenTags
import MailMarkup.Proofs.Text.CharSet
import MailMarkup.Proofs.Text.Cursor
import MailMarkup.Rule.Script

/-!
# Event handlers removed

The check for event handlers and their removal look at the first two bytes of attribute names, and
end without a result where these are not whole characters: one such name in a tag is enough. In all
other texts every event handler is removed, and only tags that have one are written anew.
-/
namespace MailMarkup.Script
open Text Pattern Tags

/-! ### Names by their bytes -/

/-- The name has more than two bytes, and the second of them ends inside a character. -/
def IsSplit (name : Text) : Prop := 2 < byteSize name ∧ ∀ v, v <+: name → byteSize v ≠ 2

/-- The name is that of an event handler: `on` and more letters, in any case. -/
def IsHandlerName (name : Text) : Prop :=
  2 < name.length ∧ lower (name.take 2) = ['o', 'n'] ∧ ∀ x ∈ name, isLetter x = true

instance (name : Text) : Decidable (IsHandlerName name) :=
  inferInstanceAs (Decidable (_ ∧ _ ∧ _))

/-- What the work on a split name ends with. -/
def boundary : Failure := .crashed "<char boundary panic>"

section names
variable {name v : Text}

theorem utf8Size_of_isLetter {x : Char} (h : isLetter x = true) : x.utf8Size = 1 := by
  have hle : x.val ≤ 'z'.val := by
    simp only [isLetter, isLower, isUpper, Bool.or_eq_true, Bool.and_eq_true,
      decide_eq_true_eq] at h
    rcases h with h | h
    · exact h.2
    · exact UInt32.le_trans h.2 (by decide)
  exact Char.utf8Size_eq_one_iff.2 (UInt32.le_trans hle (by decide))

theorem isLetter_lowerChar (x : Char) : isLetter (lowerChar x) = isLetter x := by
  cases hx : isUpper x with
  | false => rw [lowerChar_of_not_isUpper hx]
  | true => rw [isLetter, isLetter, isLower_lowerChar hx, hx, Bool.true_or, Bool.or_true]

private theorem utf8Size_lowerChar (x : Char) : (lowerChar x).utf8Size = x.utf8Size := by
  cases hx : isUpper x with
  | false => rw [lowerChar_of_not_isUpper hx]
  | true =>
    have hletter : isLetter x = true := by rw [isLetter, hx, Bool.or_true]
    rw [utf8Size_of_isLetter hletter,
      utf8Size_of_isLetter ((isLetter_lowerChar x).trans hletter)]

theorem byteSize_lower (t : Text) : byteSize (lower t) = byteSize t := by
  induction t with
  | nil => rfl
  | cons x t ih => rw [lower, List.map_cons, byteSize_cons, byteSize_cons, utf8Size_lowerChar, ← ih,
      lower]

theorem byteSize_of_letters (h : ∀ x ∈ name, isLetter x = true) :
    byteSize name = name.length := by
  induction name with
  | nil => rfl
  | cons x name ih =>
    obtain ⟨hx, h⟩ := List.forall_mem_cons.1 h
    rw [byteSize_cons, utf8Size_of_isLetter hx, ih h, List.length_cons, Nat.add_comm]

/-- The first two bytes of a longer name are read, if they are whole characters. -/
theorem twoBytes?_cases (h : 2 < byteSize name) :
    IsSplit name ∧ twoBytes? name = none ∨
      ∃ v, v <+: name ∧ byteSize v = 2 ∧ twoBytes? name = some v := by
  match name with
  | [] => exact absurd h (by decide)
  | [a] =>
    rw [byteSize_cons] at h
    refine .inl ⟨⟨by rwa [byteSize_cons], fun v hv => ?_⟩, if_neg (Nat.not_le.2 h)⟩
    rcases List.prefix_cons_iff.1 hv with rfl | ⟨w, rfl, hw⟩
    · decide
    · rw [List.prefix_nil.1 hw, byteSize_cons]
      exact Nat.ne_of_gt h
  | a :: b :: t =>
    have ha := a.utf8Size_pos
    have hb := b.utf8Size_pos
    have hnil : byteSize [] = 0 := rfl
    rw [twoBytes?]
    split
    · rename_i htwo
      exact .inr ⟨[a], ⟨b :: t, rfl⟩, by rw [byteSize_cons, htwo, hnil], rfl⟩
    · rename_i htwo
      split
      · rename_i hone
        rw [Bool.and_eq_true, decide_eq_true_eq, decide_eq_true_eq] at hone
        refine .inr ⟨[a, b], ⟨t, rfl⟩, ?_, rfl⟩
        rw [byteSize_cons, byteSize_cons, hone.1, hone.2, hnil]
      · rename_i hone
        rw [Bool.and_eq_true, decide_eq_true_eq, decide_eq_true_eq] at hone
        refine .inl ⟨⟨h, fun v hv => ?_⟩, rfl⟩
        rcases List.prefix_cons_iff.1 hv with rfl | ⟨w, rfl, hw⟩
        · decide
        rcases List.prefix_cons_iff.1 hw with rfl | ⟨w, rfl, -⟩
        · rwa [byteSize_cons, hnil]
        · rw [byteSize_cons, byteSize_cons]
          omega

theorem isHandler_of_isSplit (h : IsSplit name) : isHandler name = .error boundary := by
  rw [isHandler, if_neg (Nat.not_le.2 h.1)]
  rcases twoBytes?_cases h.1 with ⟨-, hnone⟩ | ⟨v, hv, htwo, -⟩
  · rw [hnone]
    rfl
  · exact absurd htwo (h.2 v hv)

theorem isHandler_eq (h : ¬ IsSplit name) : isHandler name = .ok (decide (IsHandlerName name)) := by
  rw [isHandler]
  split
  · rename_i hle
    refine congrArg _ (Eq.symm (decide_eq_false fun hn => ?_))
    rw [byteSize_of_letters hn.2.2] at hle
    exact absurd hn.1 (Nat.not_lt.2 hle)
  · rename_i hlt
    rcases twoBytes?_cases (Nat.not_le.1 hlt) with ⟨hsplit, -⟩ | ⟨v, hv, htwo, hsome⟩
    · exact absurd hsplit h
    · rw [hsome]
      refine congrArg _ (Bool.eq_iff_iff.2 ?_)
      have hon : lower ['o', 'n'] = ['o', 'n'] := by decide
      rw [decide_eq_true_eq, Bool.and_eq_true, sameLetters, beq_iff_eq, hon, List.all_eq_true]
      constructor
      · rintro ⟨hsame, hall⟩
        have hlen : v.length = 2 := by simpa [lower] using congrArg List.length hsame
        rw [byteSize_of_letters hall] at hlt
        refine ⟨Nat.not_le.1 hlt, ?_, hall⟩
        rw [← hlen, ← List.prefix_iff_eq_take.1 hv, hsame]
      · rintro ⟨-, hsame, hall⟩
        have hletters : ∀ x ∈ v, isLetter x = true := fun x hx => hall x (hv.subset hx)
        have hlen : v.length = 2 := byteSize_of_letters hletters ▸ htwo
        refine ⟨?_, hall⟩
        rw [List.prefix_iff_eq_take.1 hv, hlen, hsame]

private theorem isSplit_lower : IsSplit (lower name) ↔ IsSplit name := by
  rw [IsSplit, IsSplit, byteSize_lower]
  refine and_congr_right fun _ => ⟨fun h v hv => ?_, fun h v hv => ?_⟩
  · have hlower := h (lower v) (hv.map lowerChar)
    rwa [byteSize_lower] at hlower
  · rw [List.prefix_iff_eq_take.1 hv, lower, ← List.map_take, ← lower, byteSize_lower]
    exact h _ (List.take_prefix _ _)

private theorem isHandlerName_lower : IsHandlerName (lower name) ↔ IsHandlerName name := by
  have htake : (lower name).take 2 = lower (name.take 2) := (List.map_take).symm
  have hall : (∀ x ∈ lower name, isLetter x = true) ↔ ∀ x ∈ name, isLetter x = true := by
    rw [lower, List.forall_mem_map]
    exact forall₂_congr fun x _ => by rw [isLetter_lowerChar]
  rw [IsHandlerName, IsHandlerName, length_lower, htake, lower_lower, hall]

end names

/-! ### The handlers among attributes -/

section results
variable {α β ε : Type} {f : α → Except ε β} {g : α → β} {as : List α} {e : ε}

theorem mapM_ok (h : ∀ a ∈ as, f a = .ok (g a)) : as.mapM f = .ok (as.map g) := by
  induction as with
  | nil => rfl
  | cons a as ih =>
    obtain ⟨ha, h⟩ := List.forall_mem_cons.1 h
    rw [List.mapM_cons, ha, ih h]
    rfl

theorem mapM_error (h : ∀ a ∈ as, (∃ b, f a = .ok b) ∨ f a = .error e)
    (some : ∃ a ∈ as, f a = .error e) : as.mapM f = .error e := by
  induction as with
  | nil =>
    obtain ⟨a, ha, -⟩ := some
    nomatch ha
  | cons a as ih =>
    obtain ⟨ha, h⟩ := List.forall_mem_cons.1 h
    rw [List.mapM_cons]
    rcases ha with ⟨b, hb⟩ | he
    · have hrest : ∃ a ∈ as, f a = .error e := by
        obtain ⟨x, hx, hxe⟩ := some
        rcases List.mem_cons.1 hx with rfl | hx
        · cases hb.symm.trans hxe
        · exact ⟨x, hx, hxe⟩
      rw [hb, ih h hrest]
      rfl
    · rw [he]
      rfl

end results

/-- A name among the attributes is split. -/
def HasSplit (as : List Attribute) : Prop := ∃ a ∈ as, IsSplit a.name

/-- The event handlers among attributes. -/
def handlers (as : List Attribute) : List Attribute :=
  as.filter fun a => decide (IsHandlerName a.name)

/-- The attributes that are no event handlers. -/
def others (as : List Attribute) : List Attribute :=
  as.filter fun a => !decide (IsHandlerName a.name)

section attributes
variable {as : List Attribute}

theorem split_ok (h : ¬ HasSplit as) : split as = .ok (handlers as, others as) := by
  have hmarked : as.mapM (fun a => (isHandler a.name).map (a, ·)) =
      .ok (as.map fun a => (a, decide (IsHandlerName a.name))) := by
    refine mapM_ok fun a ha => ?_
    rw [isHandler_eq fun hs => h ⟨a, ha, hs⟩]
    rfl
  rw [split, hmarked]
  have hfilter (q : Attribute × Bool → Bool) :
      ((as.map fun a => (a, decide (IsHandlerName a.name))).filter q).map Prod.fst =
        as.filter fun a => q (a, decide (IsHandlerName a.name)) := by
    rw [List.filter_map, List.map_map]
    exact List.map_id _
  exact congrArg Except.ok (congrArg₂ Prod.mk (hfilter _) (hfilter _))

theorem split_error (h : HasSplit as) : split as = .error boundary := by
  obtain ⟨a, ha, hs⟩ := h
  have hmarked : as.mapM (fun a => (isHandler a.name).map (a, ·)) = .error boundary := by
    refine mapM_error (fun b _ => ?_) ⟨a, ha, by rw [isHandler_of_isSplit hs]; rfl⟩
    by_cases hb : IsSplit b.name
    · exact .inr (by rw [isHandler_of_isSplit hb]; rfl)
    · exact .inl ⟨_, by rw [isHandler_eq hb]; rfl⟩
  rw [split, hmarked]
  rfl

private theorem handlers_eq_nil : handlers as = [] ↔ ∀ a ∈ as, ¬ IsHandlerName a.name := by
  simp [handlers]

/-- Nothing is reported on the attributes of a tag, and nothing breaks down on them. -/
structure IsCalm (as : List Attribute) : Prop where
  whole : ¬ HasSplit as
  silent : handlers as = []

private theorem isCalm_rendered (h : ¬ HasSplit as) :
    IsCalm ((others as).map Attribute.rendered) := by
  constructor
  · rintro ⟨_, hb, hs⟩
    obtain ⟨a, ha, rfl⟩ := List.mem_map.1 hb
    exact h ⟨a, (List.mem_filter.1 ha).1, isSplit_lower.1 hs⟩
  · refine handlers_eq_nil.2 (List.forall_mem_map.2 fun a ha hn => ?_)
    have hno := (List.mem_filter.1 ha).2
    rw [Bool.not_eq_true', decide_eq_false_iff_not] at hno
    exact hno (isHandlerName_lower.1 hn)

end attributes
section task
variable {p : Pattern} {m : Match} {t : Text} {ms : List Match}

/-- What stands in the place of a tag. -/
def disarmed (m : Match) : Text :=
  if (handlers (attributesOf m)).isEmpty then m.text else withAttributes m (others (attributesOf m))

private theorem becomes_disarmed (h : IsParted (m.group 1) (m.group 2) (m.group 3))
    (ht : m.text = '<' :: (m.group 1 ++ (m.group 2 ++ (m.group 3 ++ ['>']))))
    (hs : ¬ HasSplit (attributesOf m)) : Becomes IsCalm disarmed m := by
  unfold Becomes disarmed
  split
  · rename_i hnil
    exact ⟨_, h, ⟨hs, List.isEmpty_iff.1 hnil⟩, ht⟩
  · have hfrom : ∀ a ∈ others (attributesOf m), a.IsFrom (m.group 2) := fun a ha =>
      Attribute.isFrom_scan (List.mem_filter.1 ha).1
    obtain ⟨body, hparted, hscan, hbody⟩ := h.withAttributes hfrom h.body
    exact ⟨body, hparted, hscan ▸ isCalm_rendered hs, hbody⟩

/-- The report on a tag. -/
def report (info : RuleInfo) (m : Match) (as : List Attribute) : List Finding :=
  as.map fun a =>
    finding info m
      ("Event handler '" ++ String.ofList (lower a.name) ++ "' on <" ++ nameOf m ++
        "> will not run in email")
      "Remove the attribute"

theorem eval_ofExcept {α β : Type} (x : Except Failure α) (f : α → β) (ix : Index) :
    (Task.ofExcept x >>= fun a => pure (f a)).eval ix = x.map f := by
  cases x <;> rfl

theorem eval_check (hc : Pattern.compile ⟨anyOpen, .anyCase⟩ = .ok p) (s : Subject)
    (info : RuleInfo) (ix : Index) : (checkHandlers s info).eval ix =
      ((p.occurrences s.html).mapM fun m =>
        (split (attributesOf m)).map fun r => report info m r.1).map List.flatten := by
  refine (Forbidden.eval_compiled hc _ ix).trans ((eval_ofExcept _ _ ix).trans ?_)
  refine congrArg (Except.map _) (congrArg (List.mapM · _) (funext fun m => ?_))
  cases split (attributesOf m) <;> rfl

theorem eval_fix (hc : Pattern.compile ⟨anyOpen, .anyCase⟩ = .ok p) (s : Subject) (ix : Index) :
    let cut := withGaps (.start s.html) (p.occurrences s.html) []
    (fixHandlers s).eval ix =
      (cut.1.mapM fun piece => (split (attributesOf piece.2)).map fun r =>
        piece.1 ++ if r.1.isEmpty then piece.2.text else withAttributes piece.2 r.2).map
        (List.flatten · ++ cut.2.rest) := by
  intro cut
  refine (Forbidden.eval_compiled hc _ ix).trans ((eval_ofExcept _ _ ix).trans ?_)
  refine congrArg (Except.map _) (congrArg (List.mapM · _) (funext fun piece => ?_))
  obtain ⟨gap, m⟩ := piece
  dsimp only
  cases split (attributesOf m) <;> rfl

theorem withGaps_matches (c : Cursor) (ms : List Match) :
    (withGaps c ms []).1.map Prod.snd = ms := by
  have hacc (acc : List (Text × Match)) :
      (withGaps c ms acc).1.map Prod.snd = acc.reverse.map Prod.snd ++ ms := by
    induction ms generalizing c acc with
    | nil => rw [withGaps, List.append_nil]
    | cons m ms ih => simp [withGaps, ih]
  exact hacc []

/-- Where no name is split, the check and the removal have a result. -/
theorem eval_whole (hc : Pattern.compile ⟨anyOpen, .anyCase⟩ = .ok p) (s : Subject)
    (info : RuleInfo) (ix : Index) (h : ∀ m ∈ p.occurrences s.html, ¬ HasSplit (attributesOf m)) :
    (checkHandlers s info).eval ix =
        .ok ((p.occurrences s.html).flatMap fun m => report info m (handlers (attributesOf m))) ∧
      (fixHandlers s).eval ix = .ok (p.replace disarmed s.html) := by
  constructor
  · rw [eval_check hc, mapM_ok fun m hm => by rw [split_ok (h m hm)]; rfl]
    rfl
  · have hpieces : ∀ piece ∈ (withGaps (.start s.html) (p.occurrences s.html) []).1,
        piece.2 ∈ p.occurrences s.html := by
      intro piece hpiece
      have hmem := List.mem_map_of_mem (f := Prod.snd) hpiece
      rwa [withGaps_matches] at hmem
    rw [eval_fix hc, mapM_ok fun piece hp => by rw [split_ok (h _ (hpieces piece hp))]; rfl]
    rfl

/-- Where a name is split, they have none. -/
theorem eval_broken (hc : Pattern.compile ⟨anyOpen, .anyCase⟩ = .ok p) (s : Subject)
    (info : RuleInfo) (ix : Index) (hm : m ∈ p.occurrences s.html) (h : HasSplit (attributesOf m)) :
    (checkHandlers s info).eval ix = .error boundary ∧
      (fixHandlers s).eval ix = .error boundary := by
  have hsplit {β : Type} (as : List Attribute) (f : List Attribute × List Attribute → β) :
      (∃ b, (split as).map f = .ok b) ∨ (split as).map f = .error boundary := by
    by_cases hs : HasSplit as
    · exact .inr (by rw [split_error hs]; rfl)
    · exact .inl ⟨_, by rw [split_ok hs]; rfl⟩
  constructor
  · rw [eval_check hc, mapM_error (fun m _ => hsplit _ _) ⟨m, hm, by rw [split_error h]; rfl⟩]
    rfl
  · rw [← withGaps_matches (.start s.html) (p.occurrences s.html)] at hm
    obtain ⟨piece, hp, rfl⟩ := List.mem_map.1 hm
    rw [eval_fix hc, mapM_error (fun piece _ => hsplit _ _) ⟨piece, hp, by rw [split_error h]; rfl⟩]
    rfl

end task

/-- The check for event handlers and their removal break down exactly if a name in some tag is
split. Otherwise the removal gives a text on which the check reports nothing, and it leaves those
texts as they are on which the check reported nothing. -/
theorem fixHandlers_removes (s : Subject) (info : RuleInfo) (ix : Index) :
    ((∃ as, Carries s.html as ∧ HasSplit as) →
      (checkHandlers s info).eval ix = .error boundary ∧
        (fixHandlers s).eval ix = .error boundary) ∧
    ((∀ as, Carries s.html as → ¬ HasSplit as) →
      ∃ found out, (checkHandlers s info).eval ix = .ok found ∧
        (fixHandlers s).eval ix = .ok out ∧
        (checkHandlers { s with html := out } info).eval ix = .ok [] ∧
        (out = s.html ↔ found = [])) := by
  obtain ⟨p, hp, hc⟩ := Forbidden.exists_compile read_anyOpen ordered_anyExpr
  constructor
  · rintro ⟨as, has, hs⟩
    by_contra hno
    refine (forall_occurrences_iff (P := (¬ HasSplit ·)) hp).1 (fun m hm h => hno ?_) as has hs
    exact eval_broken hc s info ix hm h
  · intro h
    have hwhole := (forall_occurrences_iff hp).2 h
    obtain ⟨hcheck, hfix⟩ := eval_whole hc s info ix hwhole
    have hcalm : ∀ as, Carries (p.replace disarmed s.html) as → IsCalm as :=
      forall_carries_replace hp fun m hm => by
        obtain ⟨hparted, htext⟩ := parted_of_occurrence hp hm
        exact becomes_disarmed hparted htext (hwhole m hm)
    have hcheck' := (eval_whole hc { s with html := p.replace disarmed s.html } info ix
      ((forall_occurrences_iff hp).2 fun as has => (hcalm as has).whole)).1
    have hnil {t : Text} (ht : ∀ as, Carries t as → IsCalm as) :
        (p.occurrences t).flatMap (fun m => report info m (handlers (attributesOf m))) = [] :=
      List.flatMap_eq_nil_iff.2 fun m hm => by
        rw [(ht _ (carries_of_occurrence hp hm)).silent]
        rfl
    refine ⟨_, _, hcheck, hfix, hcheck'.trans (congrArg _ (hnil hcalm)), fun heq => ?_, fun h => ?_⟩
    · exact hnil (heq ▸ hcalm)
    · rw [replace_eq, rebuild_self (hp.occurrences_successive rfl _) fun m hm => ?_]
      · rfl
      · have hm := List.map_eq_nil_iff.1 (List.flatMap_eq_nil_iff.1 h m hm)
        rw [disarmed, hm]
        rfl

/-- One split name is enough for both to break down; a tag with a handler loses it. -/
theorem fixHandlers_removes_forms :
    (checkHandlers ⟨"<a €>".toList, {}⟩ noEventHandlers.info).eval (.new [] 1) =
        .error boundary ∧
      ∃ out, (fixHandlers ⟨"<a OnX=y id>".toList, {}⟩).eval (.new [] 1) = .ok out ∧
        (checkHandlers ⟨out, {}⟩ noEventHandlers.info).eval (.new [] 1) = .ok [] := by
  have hname : ['a'] ∈ anyNames := ⟨'a', [], rfl, by decide, List.forall_mem_nil _⟩
  have hblank : isWord ' ' = false := by decide
  constructor
  · have hparted : IsParted ['a'] [' ', '€'] [] :=
      ⟨⟨hname, by simp [hblank], by simp, .inl rfl⟩, by simp⟩
    have hscan : Attribute.scan [' ', '€'] = [{ name := ['€'] }] := by cbv
    refine ((fixHandlers_removes _ _ _).1 ⟨_, (carries_cons hparted).2 (.inl rfl), ?_⟩).1
    rw [hscan]
    refine ⟨_, List.mem_singleton_self _, by decide, fun v hv => ?_⟩
    rcases List.prefix_cons_iff.1 hv with rfl | ⟨w, rfl, hw⟩
    · decide
    · rw [List.prefix_nil.1 hw]
      decide
  · have hparted : IsParted ['a'] [' ', 'O', 'n', 'X', '=', 'y', ' ', 'i', 'd'] [] :=
      ⟨⟨hname, by simp [hblank], by simp, .inl rfl⟩, by simp⟩
    have hscan : Attribute.scan [' ', 'O', 'n', 'X', '=', 'y', ' ', 'i', 'd'] =
        [{ name := ['O', 'n', 'X'], value := some ['y'] }, { name := ['i', 'd'] }] := by cbv
    obtain ⟨found, out, -, hfix, hcheck, -⟩ :=
      (fixHandlers_removes ⟨"<a OnX=y id>".toList, {}⟩ noEventHandlers.info (.new [] 1)).2
        fun as has => by
          rcases (carries_cons hparted (t := [])).1 has with rfl | h
          · rw [hscan]
            rintro ⟨a, ha, hs⟩
            rcases List.mem_pair.1 ha with rfl | rfl
            · exact hs.2 ['O', 'n'] (by decide) (by decide)
            · exact absurd hs.1 (by decide)
          · exact absurd h (not_carries List.not_mem_nil)
    exact ⟨out, hfix, hcheck⟩

end MailMarkup.Script
