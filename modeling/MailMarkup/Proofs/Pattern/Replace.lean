import MailMarkup.Proofs.Pattern.Leftmost

/-!
# Replacing matches

The successive matches of a pattern cut a text into gaps and matches: each is the first from the end
of the one before, and none starts in a gap. Replacing them keeps the gaps. This is said here of
patterns that cannot match the empty text, for which every search starts where the last match ended.
-/
namespace MailMarkup.Pattern

/-- The successive matches of an expression from a place on. -/
inductive Successive (e : Expr) : Cursor → List Match → Prop
  | done {c} (h : ∀ s, c.Reaches s → ¬ e.MatchesAt s) : Successive e c []
  | found {c m ms} (hs : c.Reaches m.start) (hr : e.Reads ⟨m.start, []⟩ ⟨m.stop, m.notes⟩)
    (hf : ∀ s, c.Reaches s → s.pos.index < m.start.pos.index → ¬ e.MatchesAt s)
    (h : Successive e m.stop ms) : Successive e c (m :: ms)

section occurrences
variable {p : Pattern} {e : Expr} {c : Cursor} {m : Match}

theorem Successive.eq_nil_iff {ms : List Match} (h : Successive e c ms) :
    ms = [] ↔ ∀ s, c.Reaches s → ¬ e.MatchesAt s := by
  cases h with
  | done hno => exact ⟨fun _ => hno, fun _ => rfl⟩
  | found hs hr => exact ⟨nofun, fun hno => absurd ⟨_, hr⟩ (hno _ hs)⟩

theorem Expr.Reads.text_eq (h : e.Reads ⟨m.start, []⟩ ⟨m.stop, m.notes⟩) :
    m.start.rest = m.text ++ m.stop.rest ∧
      m.stop.pos.index = m.start.pos.index + m.text.length :=
  h.reaches.upTo

theorem Expr.Reads.text_pos (h : e.Reads ⟨m.start, []⟩ ⟨m.stop, m.notes⟩) (he : e.readsSome) :
    0 < m.text.length := by
  have hlt : m.stop.rest.length < m.start.rest.length := h.length_lt he
  rw [h.text_eq.1, List.length_append] at hlt
  omega

/-- A text falls into the gap before its first match, the match and what follows. -/
theorem Expr.Reads.rest_eq (h : e.Reads ⟨m.start, []⟩ ⟨m.stop, m.notes⟩) (hs : c.Reaches m.start) :
    c.rest = c.upTo m.start ++ (m.text ++ m.stop.rest) := by
  rw [← h.text_eq.1, ← hs.upTo.1]

private theorem Means.nextMatch_eq (h : p.Means e) (he : e.readsSome) (last : Option Nat) :
    p.nextMatch c last = p.find c := by
  unfold nextMatch
  cases hf : p.find c with
  | none => rfl
  | some m =>
    obtain ⟨-, hr⟩ := h.find_reads hf
    have hpos := hr.text_pos he
    have hindex := hr.text_eq.2
    have hne : m.isEmpty = false := beq_eq_false_iff_ne.2 (by omega)
    simp [hne]

private theorem Means.collect_successive (h : p.Means e) (he : e.readsSome) {n : Nat}
    (hn : c.rest.length < n) (last : Option Nat) (acc : List Match) :
    ∃ ms, p.collect n c last acc = acc.reverse ++ ms ∧ Successive e c ms := by
  induction n generalizing c last acc with
  | zero => omega
  | succ n ih =>
    rw [collect, h.nextMatch_eq he]
    cases hf : p.find c with
    | none => exact ⟨[], by simp, .done fun s hs => h.find_none hf hs⟩
    | some m =>
      obtain ⟨hs, hr⟩ := h.find_reads hf
      have hlt : m.stop.rest.length < m.start.rest.length := hr.length_lt he
      have hle := hs.length_le
      obtain ⟨ms, heq, hms⟩ := ih (c := m.stop) (by omega) (some m.stop.pos.index) (m :: acc)
      exact ⟨m :: ms, by simp [heq], .found hs hr (fun s hs hlt => h.find_first hf hs hlt) hms⟩

theorem Means.occurrences_successive (h : p.Means e) (he : e.readsSome) (t : Text) :
    Successive e (.start t) (p.occurrences t) := by
  have hn : (Cursor.start t).rest.length < t.length + 1 := Nat.lt_succ_self t.length
  obtain ⟨ms, heq, hms⟩ := h.collect_successive he hn none []
  rw [occurrences, heq]
  exact hms

end occurrences

/-- The text from a place on with each of its matches replaced. -/
def rebuild (f : Match → Text) (c : Cursor) : List Match → Text
  | [] => c.rest
  | m :: ms => c.upTo m.start ++ f m ++ rebuild f m.stop ms

private theorem withGaps_eq (f : Match → Text) (c : Cursor) (ms : List Match)
    (acc : List (Text × Match)) :
    (withGaps c ms acc).1.flatMap (fun (gap, m) => gap ++ f m) ++ (withGaps c ms acc).2.rest =
      acc.reverse.flatMap (fun (gap, m) => gap ++ f m) ++ rebuild f c ms := by
  induction ms generalizing c acc with
  | nil => rfl
  | cons m ms ih => simp [withGaps, ih, rebuild]

theorem replace_eq (p : Pattern) (f : Match → Text) (t : Text) :
    p.replace f t = rebuild f (.start t) (p.occurrences t) :=
  withGaps_eq f (.start t) (p.occurrences t) []

end MailMarkup.Pattern
