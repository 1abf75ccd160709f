import MailMarkup.Proofs.Pattern.Replace
import MailMarkup.Proofs.Rule.DangerousTags

/-!
# Removing dangerous tags

Removing a tag joins what stood on both sides of it, and that can make a new tag: `<scr<script>ipt>`
becomes `<script>`. So one removal need not leave a text clean. It does unless the text has a
dangerous tag that is broken off by the start of another. In any case it changes a text exactly if
there is a dangerous tag in it, and makes it shorter then, so removing again and again ends with a
clean text.
-/
namespace MailMarkup.Forbidden
open Pattern

/-- A dangerous tag that breaks off before its end. -/
def IsCut (p : Text) : Prop := p ≠ [] ∧ ∃ q, q ≠ [] ∧ IsDangerousTag (p ++ q)

/-- No dangerous tag is broken off by an opening bracket. -/
def Unbroken (t : Text) : Prop := ∀ p, IsCut p → ¬ (p ++ ['<']) <:+: t

section unbroken
variable {a b p q r s t : Text}

theorem IsCut.left (h : IsCut (p ++ q)) (hp : p ≠ []) : IsCut p := by
  obtain ⟨-, r, hr, h⟩ := h
  exact ⟨hp, q ++ r, by simp [hr], by rwa [← List.append_assoc]⟩

theorem Unbroken.of_infix (h : Unbroken t) (hs : s <:+: t) : Unbroken s :=
  fun p hp hin => h p hp (hin.trans hs)

theorem Unbroken.not_suffix (h : Unbroken (a ++ '<' :: r)) (hp : IsCut p) : ¬ p <:+ a := by
  rintro ⟨s, rfl⟩
  exact h p hp ⟨s, r, by simp⟩

/-- A dangerous tag in what is joined is on one side, if none on the left is broken off. -/
theorem Unbroken.hasDangerousTag (h : Unbroken (a ++ '<' :: r)) (hd : HasDangerousTag (a ++ b)) :
    HasDangerousTag a ∨ HasDangerousTag b := by
  obtain ⟨u, hu, hin⟩ := hd
  rcases List.infix_append_iff.1 hin with hin | hin | ⟨p, q, rfl, hp, hq⟩
  · exact .inl ⟨u, hu, hin⟩
  · exact .inr ⟨u, hu, hin⟩
  · by_cases hpn : p = []
    · exact .inr ⟨_, hu, by simpa [hpn] using hq.isInfix⟩
    by_cases hqn : q = []
    · exact .inl ⟨_, hu, by simpa [hqn] using hp.isInfix⟩
    exact absurd hp (h.not_suffix ⟨hpn, q, hqn, hu⟩)

theorem Unbroken.join (h : Unbroken (a ++ '<' :: r)) (hb : Unbroken b) : Unbroken (a ++ b) := by
  intro p hp hin
  have ha : Unbroken a := h.of_infix (List.prefix_append a _).isInfix
  rcases List.infix_append_iff.1 hin with hin | hin | ⟨v, w, heq, hv, hw⟩
  · exact ha p hp hin
  · exact hb p hp hin
  · by_cases hvn : v = []
    · exact hb p hp (by simpa [heq, hvn] using hw.isInfix)
    rcases List.eq_nil_or_concat w with rfl | ⟨w, x, rfl⟩
    · exact ha p hp (by simpa [heq] using hv.isInfix)
    · have hpv : p = v ++ w := by
        rw [List.concat_eq_append, ← List.append_assoc] at heq
        exact (List.append_inj' heq rfl).1
      exact h.not_suffix ((hpv ▸ hp).left hvn) hv

end unbroken

/-- No `<` stands where a tag is open; `o` says whether one is at the start. -/
def isDelimited : (o : Bool) → Text → Bool
  | _, [] => true
  | o, x :: t => !(o && x == '<') && isDelimited (x == '<' || o && x != '>') t

private theorem isDelimited_eq_false {w b : Text} (hw : '>' ∉ w) (o : Bool) (a : Text) :
    isDelimited o (a ++ '<' :: (w ++ '<' :: b)) = false := by
  have hopen : isDelimited true (w ++ '<' :: b) = false := by
    induction w with
    | nil => rfl
    | cons x w ih =>
      obtain ⟨hx, hw⟩ := not_or.1 (mt List.mem_cons.2 hw)
      have hx : (x == '<' || true && x != '>') = true := by simp [Ne.symm hx]
      rw [List.cons_append, isDelimited, hx, ih hw, Bool.and_false]
  induction a generalizing o with
  | nil => simp [isDelimited, hopen]
  | cons x a ih => simp [isDelimited, ih]

private theorem unbroken_of_isDelimited {t : Text} (h : isDelimited false t) : Unbroken t := by
  rintro p ⟨hp, q, hq, hd⟩ ⟨a, b, rfl⟩
  obtain ⟨w, hw, heq⟩ := hd.bracketed
  obtain _ | ⟨x, v⟩ := p
  · exact hp rfl
  rw [List.cons_append] at heq
  obtain ⟨rfl, hvq⟩ := List.cons_eq_cons.1 heq
  have hv : '>' ∉ v := by
    rcases List.eq_nil_or_concat q with rfl | ⟨q, y, rfl⟩
    · exact absurd rfl hq
    · rw [List.concat_eq_append, ← List.append_assoc] at hvq
      rw [← (List.append_inj' hvq rfl).1] at hw
      exact fun hm => hw (List.mem_append_left q hm)
  have hfalse := isDelimited_eq_false (b := b) hv false a
  simp only [List.cons_append, List.append_assoc, List.nil_append] at h
  rw [hfalse] at h
  cases h

/-- A text from a place on without some matches. -/
def removed (c : Cursor) (ms : List Match) : Text := rebuild (fun _ => []) c ms

section removed
variable {e : Expr} {as : List Expr} {c : Cursor} {m : Match} {ms : List Match}

private theorem removed_nil : removed c [] = c.rest := rfl

theorem removed_cons : removed c (m :: ms) = c.upTo m.start ++ removed m.stop ms := by
  rw [removed, rebuild, List.append_nil]
  rfl

theorem removed_sublist (h : Successive e c ms) : (removed c ms).Sublist c.rest := by
  induction h with
  | done => exact .refl _
  | found hs hr hf h ih =>
    rw [hr.rest_eq hs, removed_cons]
    exact (List.Sublist.refl _).append (ih.trans (List.sublist_append_right _ _))

private theorem removed_eq_iff (he : e.readsSome) (h : Successive e c ms) :
    removed c ms = c.rest ↔ ∀ s, c.Reaches s → ¬ e.MatchesAt s := by
  cases h with
  | done hd => exact ⟨fun _ => hd, fun _ => rfl⟩
  | @found _ m ms hs hr hf h =>
    have hne : removed c (m :: ms) ≠ c.rest := by
      intro heq
      have hlen := congrArg List.length heq
      have hle := (removed_sublist h).length_le
      have hpos := hr.text_pos he
      rw [hr.rest_eq hs, removed_cons] at hlen
      simp only [List.length_append] at hlen
      omega
    exact ⟨fun heq => absurd heq hne, fun hn => absurd ⟨_, hr⟩ (hn _ hs)⟩

private theorem rest_opened (hs : c.Reaches m.start)
    (h : (opened as).Reads ⟨m.start, []⟩ ⟨m.stop, m.notes⟩) :
    ∃ v, c.rest = c.upTo m.start ++ '<' :: v := by
  obtain ⟨v, hv⟩ := reads_opened h
  exact ⟨v, by rw [← hv, ← hs.upTo.1]⟩

private theorem removed_unbroken (h : Successive (opened as) c ms) (hu : Unbroken c.rest) :
    Unbroken (removed c ms) := by
  induction h with
  | done => exact hu
  | found hs hr hf h ih =>
    have hstop := hu.of_infix (hs.trans hr.reaches).suffix.isInfix
    obtain ⟨v, hv⟩ := rest_opened hs hr
    rw [hv] at hu
    rw [removed_cons]
    exact hu.join (ih hstop)

private theorem gap_clean {d : Cursor} (hd : c.Reaches d)
    (hf : ∀ s, c.Reaches s → s.pos.index < d.pos.index → ¬ (opened leftoverParts).MatchesAt s) :
    ¬ HasDangerousTag (c.upTo d) := by
  rintro ⟨u, hu, p, q, h⟩
  have hp : c.rest = p ++ (u ++ (q ++ d.rest)) := by
    rw [hd.upTo.1, ← h]
    simp
  refine hf (c.advance p.length) (c.reaches_advance _) ?_ (matchesAt_leftover.2 ⟨u, hu, ?_⟩)
  · obtain ⟨w, -, rfl⟩ := hu.bracketed
    rw [hd.index_advance_lt_iff, ← h]
    simp
  · exact ⟨_, (Cursor.rest_advance_append hp).symm⟩

/-- Without its dangerous tags, a text in which none is broken off is clean. -/
theorem removed_leftover (h : Successive (opened leftoverParts) c ms) (hu : Unbroken c.rest) :
    ¬ HasDangerousTag (removed c ms) := by
  induction h with
  | done hn =>
    rw [removed_nil, hasDangerousTag_iff]
    rintro ⟨s, hs, hm⟩
    exact hn s hs hm
  | @found c m ms hs hr hf h ih =>
    have hstop := hu.of_infix (hs.trans hr.reaches).suffix.isInfix
    obtain ⟨v, hv⟩ := rest_opened hs hr
    rw [hv] at hu
    rw [removed_cons]
    intro hd
    rcases hu.hasDangerousTag hd with hgap | hd
    · exact gap_clean hs hf hgap
    · exact ih hstop hd

end removed

section task
variable {p : Pattern} {as : List Expr} {tags : List String}

/-- What removing the matches of a pattern does to a text. -/
structure Removal (e : Expr) (t out : Text) : Prop where
  sublist : out.Sublist t
  unbroken (h : Unbroken t) : Unbroken out
  eq_iff : out = t ↔ ∀ c, (Cursor.start t).Reaches c → ¬ e.MatchesAt c

theorem readsSome_opened (as : List Expr) : (opened as).readsSome := by
  cases as <;> rfl

theorem removal_replace (hp : p.Means (opened as)) (t : Text) :
    Removal (opened as) t (p.replace (fun _ => []) t) := by
  have h := hp.occurrences_successive (readsSome_opened as) t
  rw [replace_eq]
  exact ⟨removed_sublist h, removed_unbroken h, removed_eq_iff (readsSome_opened as) h⟩

section task
variable {α : Type} {e : Expr} {source : String} {flags : Flags}

theorem compile_eq (h : Source.read source.toList flags = .ok e) :
    Pattern.compile ⟨source, flags⟩ = .ok ⟨⟨source, flags⟩, .ofExpr e⟩ := by
  rw [Pattern.compile, h]

/-- A source that can be read is compiled to a pattern that means what it says. -/
theorem exists_compile (h : Source.read source.toList flags = .ok e) (ho : e.Ordered) :
    ∃ p : Pattern, p.Means e ∧ Pattern.compile ⟨source, flags⟩ = .ok p :=
  ⟨_, ⟨rfl, ho⟩, compile_eq h⟩

/-- A task that asks for a pattern goes on with what its source is compiled to. -/
theorem eval_compiled {p : Pattern} (hc : Pattern.compile ⟨source, flags⟩ = .ok p)
    (f : Pattern → Task α) (ix : Index) :
    (Task.askWith source flags >>= f).eval ix = (f p).eval ix := by
  have hb : Task.askWith source flags >>= f = .pattern ⟨source, flags⟩ f := rfl
  rw [hb, Task.eval, Task.compile, hc]

/-- A task that asks for a pattern gets one that means what its source says. -/
theorem eval_askWith (h : Source.read source.toList flags = .ok e) (ho : e.Ordered) (ix : Index) :
    ∃ p : Pattern, p.Means e ∧ ∀ f : Pattern → Task α,
      (Task.askWith source flags >>= f).eval ix = (f p).eval ix := by
  obtain ⟨p, hp, hc⟩ := exists_compile h ho
  exact ⟨p, hp, fun f => eval_compiled hc f ix⟩

end task

private theorem eval_strip (h : ∀ tag ∈ tags, tag ∈ Tags.dangerous) (t : Text) (ix : Index) :
    ∃ out, (∀ f : Text → Task Text, (strip t tags >>= f).eval ix = (f out).eval ix) ∧
      out.Sublist t ∧ (Unbroken t → Unbroken out) ∧ (¬ HasDangerousTag t → out = t) := by
  induction tags generalizing t with
  | nil => exact ⟨t, fun f => rfl, .refl t, id, fun _ => rfl⟩
  | cons tag tags ih =>
    obtain ⟨htag, h⟩ := List.forall_mem_cons.1 h
    have hn := isName_of_mem htag
    obtain ⟨p, hp, heval⟩ := eval_askWith (read_wholeElement hn) (ordered_whole hn) ix
    have hr := removal_replace hp t
    obtain ⟨out, hout, hs, hu, heq⟩ := ih h (p.replace (fun _ => []) t)
    refine ⟨out, fun f => (heval _).trans (hout f), hs.trans hr.sublist,
      fun ht => hu (hr.unbroken ht), fun hno => ?_⟩
    have hsame : p.replace (fun _ => []) t = t := by
      rw [hr.eq_iff]
      rintro c hc ⟨u, hu⟩
      obtain ⟨v, w, hw, hrest⟩ := reads_whole htag hu
      have hin : w <:+: c.rest := ⟨v, u.place.rest, by rw [hrest, List.append_assoc]⟩
      exact hno ⟨w, hw, hin.trans hc.suffix.isInfix⟩
    rw [hsame] at heq
    exact heq hno

end task

/-- Removing dangerous tags always gives a result. It is part of the text, and is the text itself
exactly if there is no dangerous tag in it. Unless the text has a dangerous tag that is broken off,
the result is clean. -/
theorem fixDangerous_clean (s : Subject) (ix : Index) :
    ∃ out, (fixDangerous s).eval ix = .ok out ∧ out.Sublist s.html ∧
      (out = s.html ↔ ¬ HasDangerousTag s.html) ∧
      (Unbroken s.html → ¬ HasDangerousTag out) := by
  have htags : ∀ tag ∈ strippedWhole, tag ∈ Tags.dangerous := by decide
  obtain ⟨t, hstrip, hs, hu, hsame⟩ := eval_strip htags s.html ix
  obtain ⟨p, hp, hleft⟩ := eval_askWith read_leftover ordered_leftover ix
  have hr := removal_replace hp t
  have hclean : p.replace (fun _ => []) t = t ↔ ¬ HasDangerousTag t := by
    have htag : HasDangerousTag t ↔ _ := hasDangerousTag_iff (c := .start t)
    rw [hr.eq_iff, htag]
    simp only [not_exists, not_and]
  refine ⟨p.replace (fun _ => []) t, (hstrip _).trans (hleft _), hr.sublist.trans hs, ?_, ?_⟩
  · constructor
    · intro heq
      have ht : t = s.html := hs.antisymm (heq ▸ hr.sublist)
      rw [ht] at hclean heq
      exact hclean.1 heq
    · intro hno
      rw [hsame hno] at hclean ⊢
      exact hclean.2 hno
  · intro hun
    rw [replace_eq]
    exact removed_leftover (hp.occurrences_successive (readsSome_opened _) t) (hu hun)

theorem fixDangerous_clean_form :
    HasDangerousTag "<p>1</p><SCRIPT>2</script ><input>".toList ∧
      ∃ out, (fixDangerous ⟨"<p>1</p><SCRIPT>2</script ><input>".toList, {}⟩).eval (.new [] 1) =
          .ok out ∧
        out.length < 34 ∧ ¬ HasDangerousTag out := by
  have hd : HasDangerousTag "<p>1</p><SCRIPT>2</script ><input>".toList :=
    ⟨"<input>".toList, ⟨[], "input".toList, [], .inl rfl, ⟨"input", by decide, by decide⟩, nofun,
      nofun, rfl⟩, by decide⟩
  obtain ⟨out, heval, hs, hsame, hclean⟩ :=
    fixDangerous_clean ⟨"<p>1</p><SCRIPT>2</script ><input>".toList, {}⟩ (.new [] 1)
  refine ⟨hd, out, heval, ?_, hclean (unbroken_of_isDelimited (by decide))⟩
  exact Nat.lt_of_le_of_ne hs.length_le fun h => hsame.1 (hs.eq_of_length h) hd

end MailMarkup.Forbidden
