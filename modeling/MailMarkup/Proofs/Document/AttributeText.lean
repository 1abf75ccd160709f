import Mathlib.Data.List.Basic
import Mathlib.Data.List.TakeWhile
import MailMarkup.Proofs.Document.Attributes
import MailMarkup.Proofs.Text.CharSet

/-!
# Attribute text put together

What is scanned of a text is scanned in front of other text as well, unless its last attribute goes
on there. So attributes that are rendered one behind the other are read back one by one, in the form
in which they are rendered. This is a normal form: rendered again, it stays as it is.
-/
namespace MailMarkup
open Text

namespace Attribute
variable {t s v w z name : Text} {o : Option Attribute} {a : Attribute} {as : List Attribute}

/-! ### Other text behind -/

theorem trimStart_append (t s : Text) :
    trimStart (t ++ s) = if trimStart t = [] then trimStart s else trimStart t ++ s := by
  rw [trimStart, List.dropWhile_append, ← trimStart]
  cases trimStart t <;> rfl

theorem trimEnd_append (ht : t.getLast?.any isBlank = false) (hne : t ≠ []) (s : Text) :
    trimEnd (t ++ s) = t ++ trimEnd s := by
  have hrev : t.reverse.dropWhile isBlank = t.reverse := by
    cases hr : t.reverse with
    | nil => rfl
    | cons x r =>
      have hx : isBlank x = false := by
        rw [← List.head?_reverse, hr] at ht
        simpa using ht
      exact List.dropWhile_cons_of_neg (by simp [hx])
  have hne' : (t ++ trimEnd s).reverse ≠ [] := by simp [hne]
  rw [trimEnd, List.reverse_append, List.dropWhile_append, hrev, trimEnd]
  cases s.reverse.dropWhile isBlank <;> simp

/-- Only blanks stand behind what is left of a text when it is trimmed at its end. -/
theorem exists_trimEnd (t : Text) : ∃ b, t = trimEnd t ++ b ∧ ∀ x ∈ b, isBlank x = true := by
  refine ⟨(t.reverse.takeWhile isBlank).reverse, ?_, fun x hx => ?_⟩
  · rw [trimEnd, ← List.reverse_append, List.takeWhile_append_dropWhile, List.reverse_reverse]
  · exact List.mem_takeWhile_imp (List.mem_reverse.1 hx)

/-- A value ends in front of other text, unless its quote has no partner, or it is without quotes
and ends with no blank behind it. -/
theorem scanValue_append (hz : z ≠ []) (hterm : (scanValue z).1.2.2 = false)
    (hopen : (scanValue z).1.2.1 = none → (scanValue z).2 = [] → s.head?.all isBlank) :
    scanValue (z ++ s) = ((scanValue z).1, (scanValue z).2 ++ s) := by
  obtain ⟨q, inner, rfl⟩ := List.exists_cons_of_ne_nil hz
  simp only [scanValue, List.cons_append] at hterm hopen ⊢
  by_cases hq : (q == '"' || q == '\'') = true
  · simp only [if_pos hq] at hterm ⊢
    cases hd : inner.dropWhile (· != q) with
    | nil =>
      rw [hd] at hterm
      cases hterm
    | cons x rest =>
      obtain ⟨htake, hdrop⟩ := span_append (p := (· != q)) (r := s) fun hnil =>
        absurd (hd.symm.trans hnil) (List.cons_ne_nil x rest)
      rw [htake, hdrop, hd]
      rfl
  · simp only [if_neg hq] at hopen ⊢
    obtain ⟨htake, hdrop⟩ := span_append (t := q :: inner) (p := (!isBlank ·)) (r := s)
      fun hnil => by
        have hall := hopen trivial hnil
        cases s with
        | nil => rfl
        | cons x s => simpa using hall
    rw [List.cons_append] at htake hdrop
    rw [htake, hdrop]

theorem scanOne_append (hv : v ≠ []) (hone : scanOne v = (o, w))
    (hs : s.head?.any isNameChar = false) (heq : (trimStart s).head? ≠ some '=')
    (hterm : ∀ a ∈ o, a.unterminated = false)
    (hopen : ∀ a ∈ o, a.isUnquoted → w = [] → a.value ≠ some [] ∧ s.head?.all isBlank) :
    scanOne (v ++ s) = (o, w ++ s) := by
  obtain ⟨htake, hdrop⟩ := span_append (t := v) (p := isNameChar) fun _ => hs
  unfold scanOne at hone ⊢
  rw [htake, hdrop]
  split at hone
  · obtain ⟨rfl, rfl⟩ := Prod.mk.inj hone
    obtain ⟨x, v, rfl⟩ := List.exists_cons_of_ne_nil hv
    rfl
  · rename_i x xs hx
    dsimp only at hone ⊢
    generalize v.dropWhile isNameChar = rest at hone ⊢
    split at hone
    · rename_i aft haft
      obtain ⟨rfl, rfl⟩ := Prod.mk.inj hone
      rw [trimStart_append, haft, if_neg (List.cons_ne_nil _ _)]
      simp only [List.cons_append]
      have hterm := hterm _ rfl
      have hopen := hopen _ rfl
      simp only [isUnquoted, Option.isSome_some, Bool.true_and, Option.isNone_iff_eq_none]
        at hterm hopen
      have hz : trimStart aft ≠ [] := by
        intro hz
        rw [hz] at hopen
        exact (hopen rfl rfl).1 rfl
      have haft' : aft ≠ [] := by
        rintro rfl
        exact hz rfl
      have hrest : rest ≠ [] := by
        rintro rfl
        cases haft
      have hval := scanValue_append hz hterm (s := s) fun hq hw => (hopen hq hw).2
      have hhead {u : Text} (hu : u ≠ []) : (u ++ s).head? = u.head? :=
        List.head?_append_of_ne_nil u hu
      rw [trimStart_append aft, if_neg hz, hval, hhead hrest, hhead haft']
    · rename_i hno
      obtain ⟨rfl, rfl⟩ := Prod.mk.inj hone
      split
      · rename_i aft haft
        exfalso
        rw [trimStart_append] at haft
        split at haft
        · exact heq (by rw [haft]; rfl)
        · rename_i hne
          obtain ⟨y, u, hu⟩ := List.exists_cons_of_ne_nil hne
          rw [hu] at haft
          obtain ⟨rfl, -⟩ := List.cons.inj haft
          exact hno u hu
      · rfl

/-- The quotes of an attribute are closed, and its value is written. -/
def IsComplete (a : Attribute) : Prop :=
  a.unterminated = false ∧ (a.isUnquoted → a.value ≠ some [])

/-- Behind a blank the scan starts anew, unless what stands there is an equals sign. -/
theorem scan_append (ht : ∀ a ∈ scan t, a.IsComplete) (hs : s.head?.all isBlank)
    (heq : (trimStart s).head? ≠ some '=') : scan (t ++ s) = scan t ++ scan s := by
  induction hk : t.length using Nat.strongRecOn generalizing t with
  | ind k ih =>
    subst hk
    by_cases hblank : trimStart t = []
    · rw [scan_blank hblank, ← scan_trimStart, trimStart_append, if_pos hblank, scan_trimStart,
        List.nil_append]
    · have hname : s.head?.any isNameChar = false := by
        cases s with
        | nil => rfl
        | cons x s =>
          have hx : isBlank x = true := by simpa using hs
          simp [isNameChar, hx]
      cases hone : scanOne (trimStart t) with
      | mk o w =>
        have hscan := scan_eq hblank
        have hlt := scanOne_snd_lt hblank
        rw [hone] at hscan hlt
        rw [hscan, List.forall_mem_append] at ht
        have hcomplete : ∀ a ∈ o, a.IsComplete := fun a ha => ht.1 a (by simpa using ha)
        have happ := scanOne_append hblank hone hname heq (fun a ha => (hcomplete a ha).1)
          fun a ha hu _ => ⟨(hcomplete a ha).2 hu, hs⟩
        have htrim : trimStart (t ++ s) = trimStart t ++ s := by
          rw [trimStart_append, if_neg hblank]
        have hne : trimStart (t ++ s) ≠ [] := by simp [htrim, hblank]
        rw [scan_eq hne, htrim, happ, hscan, ih _ hlt ht.2 rfl, List.append_assoc]

theorem scan_trimEnd (ht : ∀ a ∈ scan (trimEnd t), a.IsComplete) : scan (trimEnd t) = scan t := by
  obtain ⟨b, hb, hblank⟩ := exists_trimEnd t
  have htrim : trimStart b = [] := List.dropWhile_eq_nil_iff.2 hblank
  have hhead : b.head?.all isBlank := by
    cases b with
    | nil => rfl
    | cons x b => exact hblank x List.mem_cons_self
  have happ := scan_append ht hhead (by rw [htrim]; exact nofun)
  rw [← hb, scan_blank htrim, List.append_nil] at happ
  exact happ.symm

private theorem scanOne_slash (hone : scanOne v = (some a, [])) (ha : a.isUnquoted) :
    ∃ x b, a.value = some x ∧ (scanOne (v ++ ['/'])).1 = some b ∧ b.value = some (x ++ ['/']) := by
  obtain ⟨htake, hdrop⟩ := span_append (t := v) (p := isNameChar) (r := ['/']) fun _ => by
    decide
  unfold scanOne at hone ⊢
  rw [htake, hdrop]
  split at hone
  · cases hone
  · dsimp only at hone ⊢
    generalize v.dropWhile isNameChar = rest at hone ⊢
    split at hone
    · rename_i aft haft
      obtain ⟨ha', hw⟩ := Prod.mk.inj hone
      obtain rfl := Option.some.inj ha'
      simp only [isUnquoted, Option.isSome_some, Bool.true_and, Option.isNone_iff_eq_none] at ha
      rw [trimStart_append rest, haft, if_neg (List.cons_ne_nil _ _)]
      simp only [List.cons_append]
      refine ⟨_, _, rfl, rfl, congrArg some ?_⟩
      have htrim : trimStart (aft ++ ['/']) = trimStart aft ++ ['/'] := by
        rw [trimStart_append]
        split
        · rename_i h
          rw [h]
          rfl
        · rfl
      rw [htrim]
      cases hz : trimStart aft with
      | nil => decide
      | cons q inner =>
        rw [hz] at ha hw
        simp only [scanValue, List.cons_append] at ha hw ⊢
        by_cases hq : (q == '"' || q == '\'') = true
        · simp only [if_pos hq] at ha
          split at ha <;> cases ha
        · simp only [if_neg hq] at hw ⊢
          have hall := List.dropWhile_eq_nil_iff.1 hw
          have hall' : ∀ x ∈ q :: inner ++ ['/'], (!isBlank x) = true :=
            List.forall_mem_append.2 ⟨hall, List.forall_mem_singleton.2 (by decide)⟩
          rw [← List.cons_append, List.takeWhile_eq_self_iff.2 hall,
            List.takeWhile_eq_self_iff.2 hall']
    · obtain ⟨ha', -⟩ := Prod.mk.inj hone
      obtain rfl := Option.some.inj ha'
      cases ha

theorem slashLast_of_scan_eq (ht : ∀ a ∈ scan t, a.unterminated = false)
    (h : scan (t ++ ['/']) = scan t) : slashLast (t ++ ['/']) = true := by
  induction hk : t.length using Nat.strongRecOn generalizing t with
  | ind k ih =>
    subst hk
    by_cases hblank : trimStart t = []
    · have htrim : trimStart (t ++ ['/']) = ['/'] := by
        rw [trimStart_append, if_pos hblank]
        decide
      rw [slashLast_eq (by simp [htrim]), htrim]
      rfl
    · have htrim : trimStart (t ++ ['/']) = trimStart t ++ ['/'] := by
        rw [trimStart_append, if_neg hblank]
      have hne : trimStart (t ++ ['/']) ≠ [] := by simp [htrim]
      have hscan := scan_eq hblank
      have hscan' := scan_eq hne
      have hlt := scanOne_snd_lt hblank
      rw [htrim] at hscan'
      cases hone : scanOne (trimStart t) with
      | mk o w =>
        rw [hone] at hscan hlt
        rw [hscan, List.forall_mem_append] at ht
        by_cases hopen : ∃ a ∈ o, a.isUnquoted ∧ w = []
        · obtain ⟨a, ha, hu, rfl⟩ := hopen
          obtain rfl : o = some a := ha
          obtain ⟨x, b, hx, hb, hbx⟩ := scanOne_slash hone hu
          rw [h, hscan, hb] at hscan'
          obtain ⟨rfl, -⟩ := List.cons.inj hscan'
          rw [hx] at hbx
          simp at hbx
        · have happ := scanOne_append hblank hone (s := ['/']) (by decide) (by decide)
            (fun a ha => ht.1 a (by simpa using ha))
            fun a ha hu hw => absurd ⟨a, ha, hu, hw⟩ hopen
          rw [happ, h, hscan] at hscan'
          rw [slashLast_eq hne, htrim, happ,
            ih _ hlt ht.2 (List.append_cancel_left hscan').symm rfl, Bool.or_true]

/-! ### Attributes as they are rendered -/

/-- The quote that a value is rendered with. -/
def quoteFor (v : Text) : Char := if v.any (· == '"') && !v.any (· == '\'') then '\'' else '"'

/-- A value as it is rendered between its quotes. -/
def escaped (v : Text) : Text :=
  if v.any (· == '"') && !v.any (· == '\'') then v else replaceChar '"' "&quot;".toList v

/-- What an attribute is read back as after it is rendered. -/
def rendered (a : Attribute) : Attribute where
  name := lower a.name
  value := a.value.map escaped
  quote := a.value.map quoteFor

/-- What stands behind the name of an attribute when it is rendered. -/
def written (a : Attribute) : Text :=
  a.value.elim [] fun v => '=' :: quoteFor v :: (escaped v ++ [quoteFor v])

theorem render_eq (a : Attribute) : a.render = lower a.name ++ a.written := by
  unfold render written quoteFor escaped
  cases a.value with
  | none => exact (List.append_nil _).symm
  | some v =>
    dsimp only [Option.elim]
    split <;> simp

theorem quoteFor_eq (v : Text) : quoteFor v = '"' ∨ quoteFor v = '\'' := by
  unfold quoteFor
  split
  · exact .inr rfl
  · exact .inl rfl

theorem quoteFor_not_mem (v : Text) : quoteFor v ∉ escaped v := by
  unfold quoteFor escaped
  split
  · rename_i h
    simp only [Bool.and_eq_true, Bool.not_eq_true', List.any_eq_false, beq_iff_eq] at h
    exact fun hm => h.2 '\'' hm rfl
  · simp only [replaceChar, List.mem_flatMap, not_exists, not_and]
    intro x _
    split
    · decide
    · rename_i hx
      exact fun hm => hx (beq_iff_eq.2 (List.mem_singleton.1 hm).symm)

theorem replaceChar_of_not_mem {c : Char} {by_ t : Text} (h : c ∉ t) : replaceChar c by_ t = t := by
  induction t with
  | nil => rfl
  | cons x t ih =>
    obtain ⟨hx, ht⟩ := not_or.1 (mt List.mem_cons.2 h)
    have hx : (x == c) = false := beq_false_of_ne (Ne.symm hx)
    have ih := ih ht
    simp only [replaceChar, List.flatMap_cons, hx] at ih ⊢
    rw [ih]
    rfl

theorem escaped_eq {v : Text} (h : ¬ ('"' ∈ v ∧ '\'' ∈ v)) : escaped v = v := by
  unfold escaped
  split
  · rfl
  · rename_i hne
    have hfree : '"' ∉ v := by
      intro hd
      have hdouble : v.any (· == '"') = true := List.any_eq_true.2 ⟨'"', hd, beq_self_eq_true _⟩
      have hsingle : v.any (· == '\'') = false :=
        List.any_eq_false.2 fun x hx hq => h ⟨hd, beq_iff_eq.1 hq ▸ hx⟩
      exact hne (by rw [hdouble, hsingle]; rfl)
    exact replaceChar_of_not_mem hfree

theorem isNameChar_of_isTagChar {x : Char} (h : Reader.isTagChar x = true) :
    isNameChar x = true := by
  have hblank : isBlank x = false := by
    rw [Bool.eq_false_iff]
    intro hb
    rw [Reader.isTagChar_of_isBlank hb] at h
    cases h
  have hall : ['=', '"', '\'', '/'].all (fun y => !Reader.isTagChar y) := by decide
  have hmark : ∀ y ∈ ['=', '"', '\'', '/'], (x == y) = false := by
    refine fun y hy => beq_false_of_ne ?_
    rintro rfl
    have hx := List.all_eq_true.1 hall x hy
    rw [h] at hx
    cases hx
  simp only [List.forall_mem_cons] at hmark
  simp [isNameChar, hblank, hmark]

theorem isNameChar_lowerChar {x : Char} (h : isNameChar x = true) :
    isNameChar (lowerChar x) = true := by
  cases hx : isLower (lowerChar x) with
  | true => exact isNameChar_of_isTagChar (by simp [Reader.isTagChar, isLetter, hx])
  | false => rwa [lowerChar_eq_self hx]

private theorem scanValue_write {q : Char} {rest : Text} (hq : q = '"' ∨ q = '\'') (hv : q ∉ v) :
    scanValue (q :: (v ++ q :: rest)) = ((v, some q, false), rest) := by
  have hv' : ∀ x ∈ v, (x != q) = true := fun x hx => by
    rw [bne_iff_ne]
    rintro rfl
    exact hv hx
  have hquote : (q == '"' || q == '\'') = true := by simpa using hq
  have ht : (v ++ q :: rest).takeWhile (· != q) = v := takeWhile_append_stop hv' (by simp)
  have hd : (v ++ q :: rest).dropWhile (· != q) = q :: rest := by
    rw [List.dropWhile_append_of_pos hv']
    exact List.dropWhile_cons_of_neg (by simp)
  simp [scanValue, ht, hd, hquote]

theorem scanOne_write {q : Char} {rest : Text} (hne : name ≠ [])
    (hname : ∀ x ∈ name, isNameChar x = true) (hq : q = '"' ∨ q = '\'') (hv : q ∉ v) :
    scanOne (name ++ '=' :: q :: (v ++ q :: rest)) =
      (some { name, value := some v, quote := some q }, rest) := by
  have ht : (name ++ '=' :: q :: (v ++ q :: rest)).takeWhile isNameChar = name :=
    takeWhile_append_stop hname rfl
  have hd : (name ++ '=' :: q :: (v ++ q :: rest)).dropWhile isNameChar =
      '=' :: q :: (v ++ q :: rest) := by
    rw [List.dropWhile_append_of_pos hname]
    rfl
  have hblank (c : Char) (hc : isBlank c = false) (t : Text) : trimStart (c :: t) = c :: t :=
    List.dropWhile_cons_of_neg (by simp [hc])
  have hq' : isBlank q = false := by rcases hq with rfl | rfl <;> decide
  obtain ⟨c, cs, rfl⟩ := List.exists_cons_of_ne_nil hne
  simp only [scanOne, ht, hd, hblank '=' (by decide), hblank q hq', scanValue_write hq hv]
  simp [hq']
  decide

theorem lower_ne_nil {t : Text} (h : t ≠ []) : lower t ≠ [] := by simpa [lower] using h

private theorem scanOne_render (h : a.IsFrom t) : scanOne a.render = (some a.rendered, []) := by
  have hname : ∀ x ∈ lower a.name, isNameChar x = true :=
    List.forall_mem_map.2 fun x hx => isNameChar_lowerChar (h.isNameChar x hx)
  have hne := lower_ne_nil h.name_ne
  rw [render_eq]
  unfold written rendered
  cases a.value with
  | none =>
    obtain ⟨x, xs, hx⟩ := List.exists_cons_of_ne_nil hne
    simp only [Option.elim, List.append_nil]
    unfold scanOne
    rw [List.takeWhile_eq_self_iff.2 hname, List.dropWhile_eq_nil_iff.2 hname, hx]
    rfl
  | some v => exact scanOne_write hne hname (quoteFor_eq v) (quoteFor_not_mem v)

theorem is_rendered (a : Attribute) (name : Text) : a.rendered.is name = a.is name := by
  rw [is, is, sameLetters, sameLetters, rendered, lower_lower]

theorem isComplete_rendered (a : Attribute) : a.rendered.IsComplete := by
  refine ⟨rfl, fun h => ?_⟩
  unfold isUnquoted rendered at h
  cases hv : a.value <;> simp [hv] at h

theorem head?_render (h : a.IsFrom t) : ∃ x ∈ a.render.head?, isNameChar x = true := by
  obtain ⟨x, xs, hx⟩ := List.exists_cons_of_ne_nil (lower_ne_nil h.name_ne)
  have hmem : x ∈ lower a.name := by simp [hx]
  obtain ⟨y, hy, rfl⟩ := List.mem_map.1 hmem
  exact ⟨lowerChar y, by rw [render_eq, hx]; rfl, isNameChar_lowerChar (h.isNameChar y hy)⟩

theorem trimStart_render (h : a.IsFrom t) (s : Text) :
    trimStart (a.render ++ s) = a.render ++ s := by
  obtain ⟨x, hx, hname⟩ := head?_render h
  obtain ⟨r, hr⟩ := List.head?_eq_some_iff.1 hx
  have hblank : isBlank x = false := by
    cases hb : isBlank x with
    | false => rfl
    | true => simp [isNameChar, hb] at hname
  rw [hr]
  exact List.dropWhile_cons_of_neg (by simp [hblank])

theorem scan_render (h : a.IsFrom t) : scan (' ' :: a.render) = [a.rendered] := by
  have htrim : trimStart (' ' :: a.render) = a.render := by
    have hr := trimStart_render h []
    rw [List.append_nil] at hr
    exact (List.dropWhile_cons_of_pos (by decide)).trans hr
  obtain ⟨x, hx, -⟩ := head?_render h
  have hne : a.render ≠ [] := by
    intro hnil
    rw [hnil] at hx
    cases hx
  rw [scan_eq (by rwa [htrim]), htrim, scanOne_render h]
  exact congrArg _ (scan_blank rfl)

/-- Attributes that are rendered start with a blank, and no sign stands behind it. -/
theorem renderAll_follows (has : ∀ a ∈ as, a.IsFrom t) (hs : s.head?.all isBlank)
    (heq : (trimStart s).head? ≠ some '=') :
    (renderAll as ++ s).head?.all isBlank ∧ (trimStart (renderAll as ++ s)).head? ≠ some '=' := by
  cases as with
  | nil => exact ⟨hs, heq⟩
  | cons a as =>
    have ha := has a List.mem_cons_self
    obtain ⟨x, hx, hname⟩ := head?_render ha
    obtain ⟨r, hr⟩ := List.head?_eq_some_iff.1 hx
    have htrim : trimStart (renderAll (a :: as) ++ s) = a.render ++ (renderAll as ++ s) := by
      rw [← trimStart_render ha]
      simp only [renderAll, List.flatMap_cons, List.cons_append, List.append_assoc]
      exact List.dropWhile_cons_of_pos (by decide)
    refine ⟨(by decide : isBlank ' ' = true), ?_⟩
    rw [htrim, hr]
    rintro ⟨⟩
    exact absurd hname (by decide)

/-- Attributes that are rendered are read back, in front of text that starts with a blank. -/
theorem scan_renderAll (has : ∀ a ∈ as, a.IsFrom t) (hs : s.head?.all isBlank)
    (heq : (trimStart s).head? ≠ some '=') :
    scan (renderAll as ++ s) = as.map rendered ++ scan s := by
  induction as with
  | nil => rfl
  | cons a as ih =>
    obtain ⟨ha, has⟩ := List.forall_mem_cons.1 has
    have hcons : renderAll (a :: as) ++ s = (' ' :: a.render) ++ (renderAll as ++ s) := by
      simp [renderAll]
    obtain ⟨hblank, hhead⟩ := renderAll_follows has hs heq
    rw [hcons, scan_append (by simp [scan_render ha, isComplete_rendered]) hblank hhead,
      scan_render ha, ih has]
    rfl

theorem scan_renderAll_alone (has : ∀ a ∈ as, a.IsFrom t) :
    scan (renderAll as) = as.map rendered := by
  have hscan := scan_renderAll (s := []) has rfl (by decide)
  rwa [List.append_nil, scan_blank (t := []) rfl, List.append_nil] at hscan

private theorem mem_escaped {x : Char} (h : x ∈ escaped v) : x ∈ v ∨ x ∈ "&quot;".toList := by
  unfold escaped at h
  split at h
  · exact .inl h
  · obtain ⟨y, hy, hx⟩ := List.mem_flatMap.1 h
    split at hx
    · exact .inr hx
    · exact .inl (List.mem_singleton.1 hx ▸ hy)

theorem unbracketed_renderAll (has : ∀ a ∈ as, a.IsFrom t) (ht : ∀ x ∈ t, x ≠ '<' ∧ x ≠ '>') :
    ∀ x ∈ renderAll as, x ≠ '<' ∧ x ≠ '>' := by
  intro x hx
  obtain ⟨a, ha, hx⟩ := List.mem_flatMap.1 hx
  have hfrom := has a ha
  rw [render_eq, List.mem_cons, List.mem_append] at hx
  rcases hx with rfl | hx | hx
  · decide
  · obtain ⟨y, hy, rfl⟩ := List.mem_map.1 hx
    have hy := ht y (hfrom.name hy)
    cases hl : isLower (lowerChar y) with
    | false => rwa [lowerChar_eq_self hl]
    | true =>
      constructor
      · intro heq
        rw [heq] at hl
        cases hl
      · intro heq
        rw [heq] at hl
        cases hl
  · unfold written at hx
    cases hv : a.value with
    | none =>
      rw [hv] at hx
      cases hx
    | some v =>
      rw [hv] at hx
      have hquote : quoteFor v ≠ '<' ∧ quoteFor v ≠ '>' := by
        rcases quoteFor_eq v with h | h <;> rw [h] <;> decide
      have hall : "&quot;".toList.all fun x => decide (x ≠ '<' ∧ x ≠ '>') := by decide
      simp only [Option.elim, List.mem_cons, List.mem_append, List.not_mem_nil, or_false] at hx
      rcases hx with rfl | rfl | hx | rfl
      · decide
      · exact hquote
      · rcases mem_escaped hx with hx | hx
        · exact ht x (hfrom.value v hv hx)
        · exact of_decide_eq_true (List.all_eq_true.1 hall x hx)
      · exact hquote

theorem getLast?_renderAll (has : ∀ a ∈ as, a.IsFrom t) : (renderAll as).getLast? ≠ some '/' := by
  rcases List.eq_nil_or_concat as with rfl | ⟨front, a, rfl⟩
  · exact nofun
  · have ha := has a (by simp)
    have hsplit : renderAll (front.concat a) =
        renderAll front ++ ' ' :: (lower a.name ++ a.written) := by
      simp [renderAll, render_eq]
    rw [hsplit]
    unfold written
    cases a.value with
    | none =>
      have hne := lower_ne_nil ha.name_ne
      rw [Option.elim, List.append_nil, List.getLast?_append_of_ne_nil _ (List.cons_ne_nil _ _),
        List.getLast?_cons_of_ne_nil hne]
      intro hlast
      obtain ⟨y, hy, hslash⟩ := List.mem_map.1 (List.mem_of_getLast? hlast)
      have hname := isNameChar_lowerChar (ha.isNameChar y hy)
      rw [hslash] at hname
      cases hname
    | some v =>
      have hcut : renderAll front ++ ' ' :: (lower a.name ++
          '=' :: quoteFor v :: (escaped v ++ [quoteFor v])) =
          renderAll front ++ ' ' :: (lower a.name ++ '=' :: quoteFor v :: escaped v) ++
            [quoteFor v] := by simp
      rw [Option.elim, hcut, List.getLast?_concat]
      rcases quoteFor_eq v with h | h <;> rw [h] <;> decide

/-! ### The normal form -/

/-- An attribute in normal form: its name is in lower case and its value in double quotes, or in
single ones if only double quotes are in it. If both are in it, the double ones are escaped. -/
def normal (a : Attribute) : Attribute where
  name := lower a.name
  value := a.value.map fun v =>
    if '"' ∈ v ∧ '\'' ∈ v then replaceChar '"' "&quot;".toList v else v
  quote := a.value.map fun v => if '"' ∈ v ∧ '\'' ∉ v then '\'' else '"'

theorem any_eq_decide_mem (c : Char) (v : Text) : v.any (· == c) = decide (c ∈ v) := by
  rw [List.any_beq', List.contains_eq_mem]

theorem quoteFor_eq_ite (v : Text) : quoteFor v = if '"' ∈ v ∧ '\'' ∉ v then '\'' else '"' := by
  simp only [quoteFor, any_eq_decide_mem, Bool.and_eq_true, Bool.not_eq_true', decide_eq_true_eq,
    decide_eq_false_iff_not]

private theorem escaped_eq_ite (v : Text) : escaped v =
    if '"' ∈ v ∧ '\'' ∈ v then replaceChar '"' "&quot;".toList v else v := by
  split
  · rename_i h
    rw [escaped, any_eq_decide_mem, any_eq_decide_mem, decide_eq_true h.1, decide_eq_true h.2]
    rfl
  · exact escaped_eq ‹_›

theorem rendered_eq_normal (a : Attribute) : a.rendered = a.normal := by
  rw [rendered, normal, funext quoteFor_eq_ite, funext escaped_eq_ite]

private theorem escaped_escaped (v : Text) :
    escaped (escaped v) = escaped v ∧ quoteFor (escaped v) = quoteFor v := by
  by_cases h : '"' ∈ v ∧ '\'' ∉ v
  · have hv : escaped v = v := escaped_eq fun hboth => h.2 hboth.2
    rw [hv]
    exact ⟨hv, rfl⟩
  · have hquote : quoteFor v = '"' := by rw [quoteFor_eq_ite, if_neg h]
    have hfree : '"' ∉ escaped v := by
      have hnot := quoteFor_not_mem v
      rwa [hquote] at hnot
    refine ⟨escaped_eq fun hboth => hfree hboth.1, ?_⟩
    rw [hquote, quoteFor_eq_ite, if_neg fun hboth => hfree hboth.1]

private theorem render_rendered (a : Attribute) : a.rendered.render = a.render := by
  rw [render_eq, render_eq]
  unfold written rendered
  rw [lower_lower]
  cases a.value with
  | none => rfl
  | some v =>
    obtain ⟨hescaped, hquote⟩ := escaped_escaped v
    simp only [Option.map_some, Option.elim, hescaped, hquote]

private theorem isMalformed_normal (a : Attribute) : a.normal.isMalformed = false := by
  unfold isMalformed isUnquoted normal
  cases a.value <;> rfl

/-- Attributes that are scanned and rendered are read back in normal form, which is rendered in the
same way again. -/
theorem scan_renderAll_scan (t : Text) :
    scan (renderAll (scan t)) = (scan t).map normal ∧
      (∀ a ∈ scan (renderAll (scan t)), a.isMalformed = false) ∧
      renderAll (scan (renderAll (scan t))) = renderAll (scan t) := by
  have hscan : scan (renderAll (scan t)) = (scan t).map rendered :=
    scan_renderAll_alone fun _ ha => isFrom_scan ha
  have hnormal : scan (renderAll (scan t)) = (scan t).map normal :=
    hscan.trans (List.map_congr_left fun a _ => rendered_eq_normal a)
  refine ⟨hnormal, ?_, ?_⟩
  · rw [hnormal]
    exact List.forall_mem_map.2 fun a _ => isMalformed_normal a
  · rw [hscan, renderAll, renderAll, List.flatMap_map]
    exact List.flatMap_congr fun a _ => congrArg (' ' :: ·) (render_rendered a)

end Attribute
end MailMarkup
