import MailMarkup.Pattern.Search
import MailMarkup.Proofs.Text.Cursor

/-!
# What expressions read

`Expr.Reads` says from which place to which an expression can read and what is noted on the way,
without saying which of several readings is preferred. Graphs, automata and searches are measured
against it.
-/
namespace MailMarkup.Pattern

/-- A place, and what has been noted on the way to it, the latest first. -/
structure Trail where
  place : Cursor
  notes : List (Nat × Cursor)

namespace Trail

def next (t : Trail) : Trail := ⟨t.place.next, t.notes⟩

def note (slot : Nat) (t : Trail) : Trail := ⟨t.place, (slot, t.place) :: t.notes⟩

/-- Whether the next character belongs to a set. -/
def Sees (t : Trail) (set : CharSet) : Prop := ∃ x, t.place.peek = some x ∧ set.has x

end Trail

/-- A relation `n` times over. -/
def Repeats (R : Trail → Trail → Prop) : Nat → Trail → Trail → Prop
  | 0, t, u => u = t
  | n + 1, t, u => ∃ m, R t m ∧ Repeats R n m u

namespace Repeats
variable {R : Trail → Trail → Prop} {m n : Nat} {t u v : Trail}

theorem one (h : R t u) : Repeats R 1 t u := ⟨u, h, rfl⟩

theorem add (h : Repeats R m t u) (h' : Repeats R n u v) : Repeats R (m + n) t v := by
  induction m generalizing t with
  | zero =>
    cases h
    rwa [Nat.zero_add]
  | succ m ih =>
    obtain ⟨w, hw, h⟩ := h
    rw [Nat.succ_add]
    exact ⟨w, hw, ih h⟩

theorem split (h : Repeats R (m + n) t v) : ∃ u, Repeats R m t u ∧ Repeats R n u v := by
  induction m generalizing t with
  | zero => exact ⟨t, rfl, by rwa [Nat.zero_add] at h⟩
  | succ m ih =>
    rw [Nat.succ_add] at h
    obtain ⟨w, hw, h⟩ := h
    obtain ⟨u, h, h'⟩ := ih h
    exact ⟨u, ⟨w, hw, h⟩, h'⟩

end Repeats

namespace Expr

/-- The expression reads from one place to another. -/
def Reads : Expr → Trail → Trail → Prop
  | .empty => fun t u => u = t
  | .one set => fun t u => t.Sees set ∧ u = t.next
  | .edge e => fun t u => e.holds t.place.before t.place.peek ∧ u = t
  | .both a b => fun t u => ∃ m, a.Reads t m ∧ b.Reads m u
  | .either a b => fun t u => a.Reads t u ∨ b.Reads t u
  | .group i a => fun t u => ∃ m, a.Reads (t.note (2 * i)) m ∧ u = m.note (2 * i + 1)
  | .repeated a least extra _ => fun t u =>
    ∃ k, least ≤ k ∧ (∀ x, extra = some x → k ≤ least + x) ∧ Repeats a.Reads k t u

/-- The expression reads something, if only the empty text, from a place on. -/
def MatchesAt (e : Expr) (c : Cursor) : Prop := ∃ u, e.Reads ⟨c, []⟩ u

variable {a b e : Expr} {t u : Trail}

theorem reads_sequence_cons (as : List Expr) :
    (sequence (a :: as)).Reads t u ↔ ∃ m, a.Reads t m ∧ (sequence as).Reads m u := by
  cases as with
  | nil => simp [sequence, Reads]
  | cons b bs => rfl

theorem reads_sequence_append (as bs : List Expr) :
    (sequence (as ++ bs)).Reads t u ↔ ∃ m, (sequence as).Reads t m ∧ (sequence bs).Reads m u := by
  induction as generalizing t with
  | nil => simp [sequence, Reads]
  | cons a as ih =>
    simp only [List.cons_append, reads_sequence_cons, ih]
    constructor
    · rintro ⟨m, h, n, h', h''⟩
      exact ⟨n, ⟨m, h, h'⟩, h''⟩
    · rintro ⟨n, ⟨m, h, h'⟩, h''⟩
      exact ⟨m, h, n, h', h''⟩

theorem reads_choice_iff {as : List Expr} (hne : as ≠ []) :
    (choice as).Reads t u ↔ ∃ a ∈ as, a.Reads t u := by
  induction as with
  | nil => exact absurd rfl hne
  | cons b bs ih =>
    cases bs with
    | nil => simp [choice]
    | cons b' bs =>
      have ih := ih (List.cons_ne_nil b' bs)
      constructor
      · rintro (h | h)
        · exact ⟨b, List.mem_cons_self, h⟩
        · obtain ⟨a, ha, h⟩ := ih.1 h
          exact ⟨a, List.mem_cons_of_mem b ha, h⟩
      · rintro ⟨a, ha, h⟩
        rcases List.mem_cons.1 ha with rfl | ha
        · exact .inl h
        · exact .inr (ih.2 ⟨a, ha, h⟩)

private theorem repeats_reaches {R : Trail → Trail → Prop}
    (hR : ∀ t u, R t u → t.place.Reaches u.place) {n : Nat} {t u : Trail} (h : Repeats R n t u) :
    t.place.Reaches u.place := by
  induction n generalizing t with
  | zero =>
    cases h
    exact .refl _
  | succ n ih =>
    obtain ⟨m, hm, h⟩ := h
    exact (hR _ _ hm).trans (ih h)

theorem Reads.reaches (h : e.Reads t u) : t.place.Reaches u.place := by
  induction e generalizing t u with
  | empty =>
    cases h
    exact .refl _
  | one set =>
    obtain ⟨-, rfl⟩ := h
    exact t.place.reaches_next
  | edge e =>
    obtain ⟨-, rfl⟩ := h
    exact .refl _
  | both a b iha ihb =>
    obtain ⟨m, ha, hb⟩ := h
    exact (iha ha).trans (ihb hb)
  | either a b iha ihb => exact h.elim iha ihb
  | group i a ih =>
    obtain ⟨m, h, rfl⟩ := h
    have hr := ih h
    exact hr
  | repeated a least extra greedy ih =>
    obtain ⟨k, -, -, h⟩ := h
    exact repeats_reaches (fun _ _ => ih) h

theorem Reads.length_lt (h : e.Reads t u) (he : e.readsSome) :
    u.place.rest.length < t.place.rest.length := by
  induction e generalizing t u with
  | empty => nomatch he
  | one set =>
    obtain ⟨⟨x, hx, -⟩, rfl⟩ := h
    obtain ⟨xs, hr⟩ := List.head?_eq_some_iff.1 hx
    simp [Trail.next, hr]
  | edge e => nomatch he
  | both a b iha ihb =>
    obtain ⟨m, ha, hb⟩ := h
    have hab := ha.reaches.length_le
    have hbb := hb.reaches.length_le
    rcases Bool.or_eq_true_iff.1 he with he | he
    · have := iha ha he
      omega
    · have := ihb hb he
      omega
  | either a b iha ihb =>
    obtain ⟨hea, heb⟩ := Bool.and_eq_true_iff.1 he
    exact h.elim (iha · hea) (ihb · heb)
  | group i a ih =>
    obtain ⟨m, h, rfl⟩ := h
    have hr := ih h he
    exact hr
  | repeated a least extra greedy ih =>
    obtain ⟨hl, hea⟩ := Bool.and_eq_true_iff.1 he
    obtain ⟨k, hk, -, h⟩ := h
    cases k with
    | zero => exact absurd (of_decide_eq_true hl) (by omega)
    | succ k =>
      obtain ⟨m, hm, h⟩ := h
      have := ih hm hea
      have := (repeats_reaches (fun _ _ => Reads.reaches) h).length_le
      omega

end Expr
end MailMarkup.Pattern
