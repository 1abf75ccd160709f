import MailMarkup.Text.Fold

/-!
# Members of sets of characters

In a set whose ranges are in increasing order a character is found exactly if some range has it.
Unions and sets made from characters keep the order, so their members are the ones expected, and
closing a set under case adds the characters that fold alike.
-/
namespace MailMarkup
namespace CharSet

/-- Ranges in the order of their first members. -/
def InOrder (rs : List (Nat × Nat)) : Prop := rs.Pairwise fun a b => a.1 ≤ b.1

/-- Some range has the number. -/
def Within (n : Nat) (rs : List (Nat × Nat)) : Prop := ∃ r ∈ rs, r.1 ≤ n ∧ n ≤ r.2

section ranges
variable {n a b : Nat} {rs ss : List (Nat × Nat)}

theorem within_cons {r : Nat × Nat} : Within n (r :: rs) ↔ (r.1 ≤ n ∧ n ≤ r.2) ∨ Within n rs := by
  simp [Within]

theorem inRanges_iff (h : InOrder rs) : Text.inRanges n rs ↔ Within n rs := by
  induction rs with
  | nil => simp [Text.inRanges, Within]
  | cons r rs ih =>
    obtain ⟨hr, h⟩ := List.pairwise_cons.1 h
    rw [Text.inRanges, within_cons]
    split
    · rename_i hlt
      have hnone : ¬ Within n rs := fun ⟨s, hs, hle, _⟩ => by
        have := hr s hs
        omega
      simp only [Bool.false_eq_true, hnone, or_false, false_iff]
      omega
    · simp only [Bool.or_eq_true, decide_eq_true_eq, ih h]
      constructor
      · exact Or.imp_left fun hle => ⟨by omega, hle⟩
      · exact Or.imp_left And.right

private theorem InOrder.parts {r : Nat × Nat} (h : InOrder ((a, b) :: r :: rs)) :
    a ≤ r.1 ∧ (∀ d, InOrder ((a, d) :: rs)) ∧ InOrder ((r.1, r.2) :: rs) := by
  obtain ⟨hab, h⟩ := List.pairwise_cons.1 h
  refine ⟨hab r List.mem_cons_self, fun d => ?_, h⟩
  exact List.pairwise_cons.2
    ⟨fun s hs => hab s (List.mem_cons_of_mem r hs), (List.pairwise_cons.1 h).2⟩

theorem within_joinFrom (h : InOrder ((a, b) :: rs)) :
    Within n (joinFrom a b rs) ↔ Within n ((a, b) :: rs) := by
  induction rs generalizing a b with
  | nil => rfl
  | cons r rs ih =>
    obtain ⟨hle, hjoin, hr⟩ := h.parts
    rw [joinFrom]
    split
    · rw [ih (hjoin _)]
      simp only [within_cons, ← or_assoc]
      refine or_congr_left ?_
      omega
    · rw [within_cons, within_cons, ih hr]

private theorem le_of_mem_joinFrom (h : InOrder ((a, b) :: rs)) :
    ∀ r ∈ joinFrom a b rs, a ≤ r.1 := by
  induction rs generalizing a b with
  | nil => simp [joinFrom]
  | cons r rs ih =>
    obtain ⟨hle, hjoin, hr⟩ := h.parts
    rw [joinFrom]
    split
    · exact ih (hjoin _)
    · intro s hs
      rcases List.mem_cons.1 hs with rfl | hs
      · exact Nat.le_refl a
      · exact Nat.le_trans hle (ih hr s hs)

theorem inOrder_joinFrom (h : InOrder ((a, b) :: rs)) : InOrder (joinFrom a b rs) := by
  induction rs generalizing a b with
  | nil => simp [joinFrom, InOrder]
  | cons r rs ih =>
    obtain ⟨hle, hjoin, hr⟩ := h.parts
    rw [joinFrom]
    split
    · exact ih (hjoin _)
    · exact List.pairwise_cons.2
        ⟨fun s hs => Nat.le_trans hle (le_of_mem_joinFrom hr s hs), ih hr⟩

theorem within_joined (h : InOrder rs) : Within n (joined rs) ↔ Within n rs := by
  cases rs with
  | nil => rfl
  | cons r rs => exact within_joinFrom h

theorem inOrder_joined (h : InOrder rs) : InOrder (joined rs) := by
  cases rs with
  | nil => exact .nil
  | cons r rs => exact inOrder_joinFrom h

theorem length_joinFrom (a b : Nat) (rs : List (Nat × Nat)) :
    (joinFrom a b rs).length ≤ rs.length + 1 := by
  induction rs generalizing a b with
  | nil => exact Nat.le_refl 1
  | cons r rs ih =>
    rw [joinFrom]
    split
    · exact Nat.le_succ_of_le (ih _ _)
    · exact Nat.succ_le_succ (ih _ _)

theorem length_joined (rs : List (Nat × Nat)) : (joined rs).length ≤ rs.length := by
  cases rs with
  | nil => exact Nat.le_refl 0
  | cons r rs => exact length_joinFrom _ _ rs

private theorem first_trans (a b c : Nat × Nat) (h : decide (a.1 ≤ b.1)) (h' : decide (b.1 ≤ c.1)) :
    decide (a.1 ≤ c.1) := by
  simp only [decide_eq_true_eq] at *
  omega

private theorem first_total (a b : Nat × Nat) : decide (a.1 ≤ b.1) || decide (b.1 ≤ a.1) := by
  simp only [Bool.or_eq_true, decide_eq_true_eq]
  omega

theorem inOrder_merge (hr : InOrder rs) (hs : InOrder ss) :
    InOrder (rs.merge ss fun a b => a.1 ≤ b.1) := by
  have h := List.pairwise_merge first_trans first_total rs ss
    (hr.imp fun h => decide_eq_true h) (hs.imp fun h => decide_eq_true h)
  exact h.imp fun h => of_decide_eq_true h

theorem inOrder_mergeSort (rs : List (Nat × Nat)) :
    InOrder (rs.mergeSort fun a b => a.1 ≤ b.1) := by
  have h := List.pairwise_mergeSort first_trans first_total rs
  exact h.imp fun h => of_decide_eq_true h

end ranges

/-- The ranges of a set are in order. -/
def Ordered (s : CharSet) : Prop := InOrder s.ranges

instance (s : CharSet) : Decidable s.Ordered :=
  inferInstanceAs (Decidable (s.ranges.Pairwise fun a b => a.1 ≤ b.1))

section Ordered
variable {s t : CharSet} {c : Char}

theorem has_iff (h : s.Ordered) : s.has c ↔ Within c.toNat s.ranges := inRanges_iff h

/-- What holds of every number in the ranges holds of every member. -/
theorem forall_of_ranges (h : s.Ordered) {P : Char → Prop}
    (hall : ∀ r ∈ s.ranges, ∀ k ≤ r.2 - r.1, P (Char.ofNat (r.1 + k))) (hc : s.has c) : P c := by
  obtain ⟨r, hr, hlo, hhi⟩ := (has_iff h).1 hc
  have hx := hall r hr (c.toNat - r.1) (by omega)
  rwa [Nat.add_sub_cancel' hlo, Char.ofNat_toNat] at hx

theorem ordered_none : none.Ordered := .nil

theorem ordered_single (c : Char) : (single c).Ordered := List.pairwise_singleton _ _

theorem has_single {c x : Char} : (single c).has x ↔ x = c := by
  rw [has_iff (ordered_single c)]
  simp only [single, range, Within, List.mem_singleton, exists_eq_left]
  constructor
  · intro h
    exact Char.toNat_inj.1 (by omega)
  · rintro rfl
    omega

theorem ordered_union (hs : s.Ordered) (ht : t.Ordered) : (s.union t).Ordered :=
  inOrder_joined (inOrder_merge hs ht)

theorem has_union (hs : s.Ordered) (ht : t.Ordered) : (s.union t).has c ↔ s.has c ∨ t.has c := by
  rw [has_iff (ordered_union hs ht), has_iff hs, has_iff ht, union,
    within_joined (inOrder_merge hs ht)]
  simp only [Within, List.mem_merge]
  constructor
  · rintro ⟨r, hr | hr, h⟩
    · exact .inl ⟨r, hr, h⟩
    · exact .inr ⟨r, hr, h⟩
  · rintro (⟨r, hr, h⟩ | ⟨r, hr, h⟩)
    · exact ⟨r, .inl hr, h⟩
    · exact ⟨r, .inr hr, h⟩

theorem ordered_ofChars (cs : List Char) : (ofChars cs).Ordered :=
  inOrder_joined (inOrder_mergeSort _)

theorem has_ofChars {cs : List Char} : (ofChars cs).has c ↔ c ∈ cs := by
  rw [has_iff (ordered_ofChars cs), ofChars, ofRanges, within_joined (inOrder_mergeSort _)]
  simp only [Within, List.mem_mergeSort, List.mem_map]
  constructor
  · rintro ⟨_, ⟨d, hd, rfl⟩, hl, hu⟩
    obtain rfl : c = d := Char.toNat_inj.1 (Nat.le_antisymm hu hl)
    exact hd
  · exact fun hc => ⟨_, ⟨c, hc, rfl⟩, Nat.le_refl _, Nat.le_refl _⟩

theorem length_union (s t : CharSet) :
    (s.union t).ranges.length ≤ s.ranges.length + t.ranges.length := by
  refine Nat.le_trans (length_joined _) (Nat.le_of_eq ?_)
  rw [List.length_merge]

theorem length_ofChars (cs : List Char) : (ofChars cs).ranges.length ≤ cs.length := by
  refine Nat.le_trans (length_joined _) (Nat.le_of_eq ?_)
  rw [List.length_mergeSort, List.length_map]

theorem length_closeUnder (pairs : List (Char × Char)) (s : CharSet) :
    (s.closeUnder pairs).ranges.length ≤ s.ranges.length + 2 * pairs.length := by
  have hmap (f : Char × Char → Option Char) :
      (ofChars (pairs.filterMap f)).ranges.length ≤ pairs.length :=
    Nat.le_trans (length_ofChars _) (List.length_filterMap_le f pairs)
  refine Nat.le_trans (length_union _ _) ?_
  have := hmap fun p => if s.has p.1 then some p.2 else Option.none
  have := length_union s
    (ofChars (pairs.filterMap fun p => if s.has p.1 then some p.2 else Option.none))
  have := hmap fun p => if (s.union (ofChars (pairs.filterMap fun p =>
    if s.has p.1 then some p.2 else Option.none))).has p.2 then some p.1 else Option.none
  omega

theorem ordered_closeUnder (pairs : List (Char × Char)) (hs : s.Ordered) :
    (s.closeUnder pairs).Ordered :=
  ordered_union (ordered_union hs (ordered_ofChars _)) (ordered_ofChars _)

theorem ordered_anyCase (hs : s.Ordered) : s.anyCase.Ordered := by
  unfold anyCase
  split
  · exact ordered_closeUnder _ hs
  · exact ordered_closeUnder _ hs

theorem has_closeUnder {pairs : List (Char × Char)} (hs : s.Ordered)
    (hfirst : ∀ p ∈ pairs, s.has p.1 = false) :
    (s.closeUnder pairs).has c ↔ s.has c ∨ ∃ p ∈ pairs, s.has p.2 ∧ p.1 = c := by
  have himages : pairs.filterMap (fun p => if s.has p.1 then some p.2 else Option.none) = [] := by
    simpa using hfirst
  have ht {x : Char} : (s.union (ofChars [])).has x ↔ s.has x := by
    rw [has_union hs (ordered_ofChars _), has_ofChars]
    simp
  rw [closeUnder, himages, has_union (ordered_union hs (ordered_ofChars _)) (ordered_ofChars _),
    has_ofChars, ht]
  simp [ht]

end Ordered
end CharSet

namespace Text

theorem isUpper_iff {c : Char} : isUpper c ↔ 65 ≤ c.toNat ∧ c.toNat ≤ 90 := by
  simp [isUpper, Char.le_def, UInt32.le_iff_toNat_le]

theorem isLower_iff {c : Char} : isLower c ↔ 97 ≤ c.toNat ∧ c.toNat ≤ 122 := by
  simp [isLower, Char.le_def, UInt32.le_iff_toNat_le]

theorem toNat_lowerChar {c : Char} (h : isUpper c = true) : (lowerChar c).toNat = c.toNat + 32 := by
  rw [lowerChar, if_pos h]
  have hall : ∀ k < 26, (Char.ofNat (65 + k + 32)).toNat = 65 + k + 32 := by decide
  obtain ⟨hlo, hhi⟩ := isUpper_iff.1 h
  have hk := hall (c.toNat - 65) (by omega)
  rwa [Nat.add_sub_cancel' hlo] at hk

theorem lowerChar_of_not_isUpper {c : Char} (h : isUpper c = false) : lowerChar c = c := by
  rw [lowerChar, h, if_neg Bool.false_ne_true]

theorem isLower_lowerChar {c : Char} (h : isUpper c = true) : isLower (lowerChar c) = true := by
  have hrange := isUpper_iff.1 h
  have hnat := toNat_lowerChar h
  exact isLower_iff.2 (by omega)

theorem isLower_lowerChar_of_isLetter {c : Char} (h : isLetter c = true) :
    isLower (lowerChar c) = true := by
  cases hc : isUpper c with
  | false =>
    rw [lowerChar_of_not_isUpper hc]
    simpa [isLetter, hc] using h
  | true => exact isLower_lowerChar hc

/-- What is not a letter is not the lower case of another character. -/
theorem lowerChar_eq_self {c : Char} (h : isLower (lowerChar c) = false) : lowerChar c = c := by
  cases hc : isUpper c with
  | false => exact lowerChar_of_not_isUpper hc
  | true => exact absurd (isLower_lowerChar hc) (by simp [h])

theorem isUpper_lowerChar (c : Char) : isUpper (lowerChar c) = false := by
  cases hc : isUpper c with
  | false => rwa [lowerChar_of_not_isUpper hc]
  | true =>
    have hrange := isUpper_iff.1 hc
    have hnat := toNat_lowerChar hc
    rw [← Bool.not_eq_true, isUpper_iff]
    omega

theorem lower_lower (t : Text) : lower (lower t) = lower t := by
  rw [lower, lower, List.map_map]
  exact List.map_congr_left fun c _ => lowerChar_of_not_isUpper (isUpper_lowerChar c)

theorem fold_lowerChar (c : Char) : fold (lowerChar c) = fold c := by
  cases hc : isUpper c with
  | false => rw [lowerChar_of_not_isUpper hc]
  | true =>
    have hrange := isUpper_iff.1 hc
    have hlower := toNat_lowerChar hc
    rw [fold, if_pos (by omega), fold, if_pos (by omega),
      lowerChar_of_not_isUpper (isUpper_lowerChar c)]

private theorem asciiFoldPairs_spec : ∀ p ∈ asciiFoldPairs, fold p.1 = p.2 ∧ fold p.1 ≠ p.1 := by
  decide +kernel

private theorem mem_asciiFoldPairs_of_foldPairs :
    ∀ p ∈ foldPairs, p.2.toNat < 128 → p ∈ asciiFoldPairs := by
  decide +kernel

/-- What folds to an ASCII character that is not upper case: the character itself and its variants
in case. -/
theorem fold_eq_iff {c x : Char} (hc : c.toNat < 128) (hf : fold c = c) :
    fold x = c ↔ x = c ∨ (x, c) ∈ asciiFoldPairs := by
  constructor
  · intro h
    by_cases hx : x.toNat < 128
    · rw [fold, if_pos hx, lowerChar] at h
      split at h
      · rename_i hu
        have hx := isUpper_iff.1 hu
        refine .inr (List.mem_append_left _ (List.mem_map.2 ⟨x.toNat - 65, ?_, ?_⟩))
        · exact List.mem_range.2 (by omega)
        · rw [← h, show 65 + (x.toNat - 65) = x.toNat by omega,
            show 97 + (x.toNat - 65) = x.toNat + 32 by omega, Char.ofNat_toNat]
      · exact .inl h
    · rw [fold, if_neg hx] at h
      cases hp : foldPairs.find? fun p => p.1 == x with
      | none =>
        rw [hp] at h
        exact .inl h
      | some p =>
        rw [hp] at h
        obtain rfl : p.2 = c := h
        obtain rfl : p.1 = x := by simpa using List.find?_some hp
        exact .inr (mem_asciiFoldPairs_of_foldPairs p (List.mem_of_find?_eq_some hp) hc)
  · rintro (rfl | h)
    · exact hf
    · exact (asciiFoldPairs_spec _ h).1

end Text

namespace CharSet
open Text

/-- An ASCII character in any case, unless it is upper case, stands for all that fold to it. -/
theorem has_anyCase_single {c x : Char} (hc : c.toNat < 128) (hf : fold c = c) :
    (single c).anyCase.has x ↔ fold x = c := by
  have hascii : (single c).isAscii := by simpa [isAscii, single, range] using hc
  have hfirst : ∀ p ∈ asciiFoldPairs, (single c).has p.1 = false := by
    intro p hp
    rw [← Bool.not_eq_true, has_single]
    rintro rfl
    exact (asciiFoldPairs_spec p hp).2 hf
  rw [anyCase, if_pos hascii, has_closeUnder (ordered_single c) hfirst, fold_eq_iff hc hf]
  simp only [has_single]
  refine or_congr_right ⟨?_, fun h => ⟨_, h, rfl, rfl⟩⟩
  rintro ⟨p, hp, rfl, rfl⟩
  exact hp

end CharSet
end MailMarkup
