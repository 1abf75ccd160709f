import MailMarkup.Proofs.Pattern.Written
import Mathlib.Computability.Language

/-!
# The language of an expression

An expression without edges takes the same texts wherever it stands. They are its language, which is
put together from the languages of its parts.
-/
namespace MailMarkup.Pattern.Expr

/-- The texts an expression takes are those of a language, and it can take each of them wherever the
text goes on with it. -/
structure Spells (e : Expr) (l : Language Char) : Prop where
  sound {t u : Trail} (h : e.Reads t u) :
    ∃ v ∈ l, t.place.rest = v ++ u.place.rest ∧ u.place = t.place.advance v.length
  complete {t : Trail} {v r : Text} (hv : v ∈ l) (ht : t.place.rest = v ++ r) :
    ∃ notes, e.Reads t ⟨t.place.advance v.length, notes⟩

/-- The texts that are a word but for case. -/
def spellings (w : Text) : Language Char := {v : Text | v.map Text.fold = w}

/-- The texts made of members of a set. -/
def runs (set : CharSet) : Language Char := {v : Text | ∀ x ∈ v, set.has x}

theorem mem_spellings {v w : Text} : v ∈ spellings w ↔ v.map Text.fold = w := Iff.rfl

theorem mem_runs {v : Text} {set : CharSet} : v ∈ runs set ↔ ∀ x ∈ v, set.has x := Iff.rfl

namespace Spells
variable {a e : Expr} {as bs : List Expr} {l m : Language Char}

theorem append (ha : (sequence as).Spells l) (hb : (sequence bs).Spells m) :
    (sequence (as ++ bs)).Spells (l * m) where
  sound h := by
    obtain ⟨_, h, h'⟩ := (reads_sequence_append as bs).1 h
    obtain ⟨v, hv, hr, hp⟩ := ha.sound h
    obtain ⟨w, hw, hs, hq⟩ := hb.sound h'
    refine ⟨v ++ w, Language.append_mem_mul hv hw, ?_, ?_⟩
    · rw [hr, hs, List.append_assoc]
    · rw [hq, hp, List.length_append, Cursor.advance_add]
  complete hvw ht := by
    obtain ⟨v, hv, w, hw, rfl⟩ := Language.mem_mul.1 hvw
    rw [List.append_assoc] at ht
    obtain ⟨ns, h⟩ := ha.complete hv ht
    obtain ⟨ns', h'⟩ := hb.complete (t := ⟨_, ns⟩) hw (Cursor.rest_advance_append ht)
    refine ⟨ns', (reads_sequence_append as bs).2 ⟨_, h, ?_⟩⟩
    rwa [List.length_append, Cursor.advance_add]

theorem cons (ha : a.Spells l) (hs : (sequence as).Spells m) :
    (sequence (a :: as)).Spells (l * m) :=
  append (show (sequence [a]).Spells l from ha) hs

theorem group (i : Nat) (h : e.Spells l) : (group i e).Spells l where
  sound := by
    rintro t _ ⟨u, hu, rfl⟩
    have hs := h.sound hu
    exact hs
  complete {t v r} hv ht := by
    obtain ⟨ns, hr⟩ := h.complete (t := t.note (2 * i)) hv ht
    exact ⟨_, _, hr, rfl⟩

theorem optional (greedy : Bool) (h : e.Spells l) :
    (repeated e 0 (some 1) greedy).Spells (1 + l) where
  sound := by
    rintro t u ⟨_ | _ | k, -, hk, hr⟩
    · cases hr
      exact ⟨[], .inl rfl, rfl, rfl⟩
    · obtain ⟨_, hr, rfl⟩ := hr
      obtain ⟨v, hv, h⟩ := h.sound hr
      exact ⟨v, .inr hv, h⟩
    · have := hk 1 rfl
      omega
  complete {t v r} hv ht := by
    rcases hv with rfl | hv
    · exact ⟨t.notes, 0, Nat.le_refl 0, fun _ _ => Nat.zero_le _, rfl⟩
    · obtain ⟨ns, h⟩ := h.complete hv ht
      refine ⟨ns, 1, Nat.zero_le 1, ?_, .one h⟩
      rintro _ ⟨⟩
      exact Nat.le_refl 1

end Spells

theorem reads_one_iff {set : CharSet} {t u : Trail} :
    (one set).Reads t u ↔ ∃ x r, t.place.rest = x :: r ∧ set.has x ∧ u = t.next := by
  constructor
  · rintro ⟨⟨x, hx, hs⟩, rfl⟩
    obtain ⟨r, hr⟩ := List.head?_eq_some_iff.1 hx
    exact ⟨x, r, hr, hs, rfl⟩
  · rintro ⟨x, r, hr, hs, rfl⟩
    exact ⟨⟨x, by rw [Cursor.peek, hr]; rfl, hs⟩, rfl⟩

theorem spells_runs (set : CharSet) (greedy : Bool) :
    (repeated (one set) 0 none greedy).Spells (runs set) where
  sound := by
    rintro t u ⟨k, -, -, h⟩
    induction k generalizing t with
    | zero =>
      cases h
      exact ⟨[], List.forall_mem_nil _, rfl, rfl⟩
    | succ k ih =>
      obtain ⟨m, hm, h⟩ := h
      obtain ⟨x, s, hs, hx, rfl⟩ := reads_one_iff.1 hm
      obtain ⟨v, hv, hr, hp⟩ := ih h
      refine ⟨x :: v, List.forall_mem_cons.2 ⟨hx, hv⟩, ?_, hp⟩
      rw [Trail.next, Cursor.rest_next, hs] at hr
      rw [hs, List.cons_append, ← hr]
      rfl
  complete {t v r} hv ht := by
    refine ⟨t.notes, v.length, Nat.zero_le _, (by simp), ?_⟩
    induction v generalizing t with
    | nil => rfl
    | cons x v ih =>
      obtain ⟨hx, hv⟩ := List.forall_mem_cons.1 hv
      refine ⟨t.next, reads_one_iff.2 ⟨x, v ++ r, ht, hx, rfl⟩, ih (t := t.next) hv ?_⟩
      rw [Trail.next, Cursor.rest_next, ht]
      rfl

theorem spells_letter {c : Char} (hc : IsFolded c) : (letter c).Spells (spellings [c]) where
  sound h := by
    obtain ⟨x, r, hr, hx, rfl⟩ := reads_one_iff.1 h
    have hf := (CharSet.has_anyCase_single hc.1 hc.2).1 hx
    refine ⟨[x], congrArg (fun y => [y]) hf, ?_, rfl⟩
    rw [Trail.next, Cursor.rest_next, hr]
    rfl
  complete {t v r} hv ht := by
    obtain ⟨x, rfl, hf⟩ := List.map_eq_singleton_iff.1 hv
    have hx := (CharSet.has_anyCase_single hc.1 hc.2).2 hf
    exact ⟨t.notes, reads_one_iff.2 ⟨x, r, ht, hx, rfl⟩⟩

private theorem spellings_cons (c : Char) (w : Text) :
    spellings (c :: w) = spellings [c] * spellings w := by
  ext v
  rw [Language.mem_mul, mem_spellings, List.map_eq_cons_iff]
  constructor
  · rintro ⟨x, v, rfl, hx, hv⟩
    exact ⟨[x], congrArg (fun y => [y]) hx, v, hv, rfl⟩
  · rintro ⟨u, hu, v, hv, rfl⟩
    obtain ⟨x, rfl, hx⟩ := List.map_eq_singleton_iff.1 hu
    exact ⟨x, v, rfl, hx, hv⟩

theorem spells_word {w : Text} (hw : ∀ c ∈ w, IsFolded c) : (word w).Spells (spellings w) := by
  induction w with
  | nil =>
    refine ⟨?_, fun {t} v r hv _ => ⟨t.notes, ?_⟩⟩
    · rintro t u rfl
      exact ⟨[], rfl, rfl, rfl⟩
    · rw [List.map_eq_nil_iff.1 (mem_spellings.1 hv)]
      rfl
  | cons c w ih =>
    obtain ⟨hc, hw⟩ := List.forall_mem_cons.1 hw
    rw [spellings_cons]
    exact .cons (spells_letter hc) (ih hw)

theorem spells_words {ws : List Text} (hne : ws ≠ []) (hw : ∀ w ∈ ws, ∀ c ∈ w, IsFolded c) :
    (choice (ws.map word)).Spells {v : Text | ∃ w ∈ ws, v ∈ spellings w} where
  sound h := by
    obtain ⟨_, ha, h⟩ := (reads_choice_iff (by simpa using hne)).1 h
    obtain ⟨w, hm, rfl⟩ := List.mem_map.1 ha
    obtain ⟨v, hv, hr⟩ := (spells_word (hw w hm)).sound h
    exact ⟨v, ⟨w, hm, hv⟩, hr⟩
  complete hv ht := by
    obtain ⟨w, hm, hv⟩ := hv
    obtain ⟨ns, h⟩ := (spells_word (hw w hm)).complete hv ht
    exact ⟨ns, (reads_choice_iff (by simpa using hne)).2 ⟨_, List.mem_map_of_mem hm, h⟩⟩

end MailMarkup.Pattern.Expr
