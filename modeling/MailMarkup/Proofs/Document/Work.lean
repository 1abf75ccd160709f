import MailMarkup.Proofs.Document.Round

/-!
# The work of one reading

A character pays for two rounds. A round of the main loop reads a character, or else it leaves an
element, and that round was paid for by the characters of the element's tag. All rounds over the
attributes of a tag but the last read a character too, and the last is paid for by the tag's name.
So the rounds are at most twice as many as the characters, whatever the ceilings are.
-/
namespace MailMarkup

namespace ReadStats
variable {l : Limits} {st : ReadStats}

/-- The count of rounds is at most one past the ceiling, and is there when the ceiling was met. -/
structure Counted (l : Limits) (st : ReadStats) : Prop where
  le : st.iterations ≤ l.maxIterations + 1
  hit_iff : st.iterationLimitHit = true ↔ st.iterations = l.maxIterations + 1

private theorem counted_new (l : Limits) : ({} : ReadStats).Counted l :=
  ⟨Nat.zero_le _, ⟨nofun, nofun⟩⟩

theorem Counted.congr {st' : ReadStats} (h : st.Counted l) (hi : st'.iterations = st.iterations)
    (hh : st'.iterationLimitHit = st.iterationLimitHit) : st'.Counted l :=
  ⟨hi ▸ h.le, by rw [hi, hh]; exact h.hit_iff⟩

theorem Counted.tick {st' : ReadStats} {b : Bool} (h : st.Counted l) (ht : st.tick l = (st', b)) :
    st'.Counted l := by
  obtain rfl : (st.tick l).1 = st' := congrArg Prod.fst ht
  unfold ReadStats.tick
  split
  · exact h
  · rename_i hnot
    have hlt : st.iterations ≠ l.maxIterations + 1 := fun he => hnot (h.hit_iff.2 he)
    have hle := h.le
    split
    · refine ⟨?_, ⟨fun _ => ?_, fun _ => rfl⟩⟩ <;> dsimp only <;> omega
    · refine ⟨?_, ⟨fun he => absurd he hnot, fun he => ?_⟩⟩
      · dsimp only
        omega
      · dsimp only at he
        omega

theorem tick_iterations_le {st' : ReadStats} {b : Bool} (ht : st.tick l = (st', b)) :
    st'.iterations ≤ st.iterations + 1 := by
  obtain rfl : (st.tick l).1 = st' := congrArg Prod.fst ht
  unfold ReadStats.tick
  split
  · exact Nat.le_succ _
  · split <;> exact Nat.le_refl _

end ReadStats

namespace Reader
variable {l : Limits} {s s' : State}

/-- From `c` on, the rounds over the attributes of a tag up to its end all read a character but
one. -/
structure Paid (l : Limits) (c : Cursor) (st : ReadStats) (e : TagEnd) : Prop where
  work : e.stats.iterations + e.cursor.rest.length ≤ st.iterations + c.rest.length + 1
  counted : st.Counted l → e.stats.Counted l

section Paid
variable {c c' : Cursor} {st st' : ReadStats} {e : TagEnd} {b : Bool}

theorem Paid.last {as : List (Text × Text)} {closing : Bool} (ht : st.tick l = (st', b))
    (le : c'.rest.length ≤ c.rest.length) : Paid l c st ⟨c', st', as, closing⟩ := by
  have := ReadStats.tick_iterations_le ht
  exact ⟨by dsimp only; omega, fun h => h.tick ht⟩

theorem Paid.round (h : Paid l c' st' e) (ht : st.tick l = (st', b))
    (less : c'.rest.length < c.rest.length) : Paid l c st e := by
  have := ReadStats.tick_iterations_le ht
  have := h.work
  exact ⟨by omega, fun hst => h.counted (hst.tick ht)⟩

theorem Paid.forced {n : Nat} (h : Paid l c { st with forcedAdvances := n } e) : Paid l c st e :=
  ⟨h.work, fun hst => h.counted (hst.congr rfl rfl)⟩

theorem Paid.bailOut {seen : List (Text × Text)} (le : st'.iterations ≤ st.iterations + 1)
    (counted : st.Counted l → st'.Counted l) : Paid l c st (bailOut c st' seen) := by
  have := recover_le c
  refine ⟨?_, fun h => (counted h).congr rfl rfl⟩
  simp only [Reader.bailOut]
  omega

end Paid

theorem attributes_paid (l : Limits) (c : Cursor) (st : ReadStats) (round : Nat)
    (seen : List (Text × Text)) : Paid l c st (attributes l c st round seen) := by
  induction c, st, round, seen using attributes_induction (l := l) with
  | spent c st round seen hr =>
    rw [attributes_spent hr]
    exact .bailOut (Nat.le_succ _) id
  | stopped c st round seen st' hr ht =>
    rw [attributes_stopped hr ht]
    exact .bailOut (ReadStats.tick_iterations_le ht) fun h => h.tick ht
  | ended c st round seen st' c' closing hr ht h =>
    rw [attributes_round hr ht h]
    exact .last ht (Nat.le_trans h.reaches.length_le (skipBlanks_le c))
  | found c st round seen st' a c' hr ht h ih =>
    rw [attributes_round hr ht h]
    exact ih.round ht (h.length_lt.resolve_left (by simp))
  | passed c st round seen st' c' n hr ht h ih =>
    rw [attributes_round hr ht h]
    exact ih.forced.round ht (h.length_lt.resolve_left (by simp))

/-- The rounds made, those to be made for leaving the open elements, and two for each character that
is left. -/
def State.work (s : State) : Nat :=
  s.stats.iterations + s.frames.length + 2 * s.cursor.rest.length

theorem Round.counted (h : Round l s s') (hs : s.stats.Counted l) : s'.stats.Counted l := by
  cases h with
  | pass => exact hs
  | leaf => exact hs
  | whole name tagEnd iterations hit =>
    subst tagEnd
    exact ((attributes_paid l _ s.stats 0 []).counted hs).congr iterations hit
  | enter name tagEnd =>
    subst tagEnd
    exact (attributes_paid l _ s.stats 0 []).counted hs
  | close frames => rw [State.leave_eq frames]; exact hs
  | abandon frames => rw [State.leave_eq frames]; exact hs

/-- A round is paid for, by what it reads or by the element it leaves. -/
theorem Round.work_lt (h : Round l s s') : s'.work < s.work := by
  cases h with
  | pass reach less =>
    simp only [State.work]
    omega
  | leaf start reach less =>
    simp only [State.work, State.push]
    omega
  | @whole tag e st d c children closed name tagEnd iterations hit reach content =>
    have hlen := name.length_eq
    have htag := List.length_pos_iff.2 name.nonempty
    have hwork := (attributes_paid l d s.stats 0 []).work
    have hle := attributes_le l d s.stats 0 []
    have hreach := reach.length_le
    rw [← tagEnd] at hwork hle
    simp only [State.work, iterations]
    omega
  | @enter tag e d name tagEnd =>
    have hlen := name.length_eq
    have htag := List.length_pos_iff.2 name.nonempty
    have hwork := (attributes_paid l d s.stats 0 []).work
    have hle := attributes_le l d s.stats 0 []
    rw [← tagEnd] at hwork hle
    simp only [State.work, List.length_cons]
    omega
  | close frames reach less =>
    simp only [State.work, State.leave_eq frames, frames, List.length_cons]
    omega
  | abandon frames =>
    simp only [State.work, State.leave_eq frames, frames, List.length_cons]
    omega

private theorem step_work {n : Nat} (hs : s.stats.Counted l ∧ s.work ≤ n)
    (h : step l s = (s', true)) : s'.stats.Counted l ∧ s'.work ≤ n := by
  obtain ⟨st, ht, hne, rfl⟩ := step_continues h
  have hst : st.Counted l := hs.1.tick ht
  have hround := markup_round (l := l)
    (s := { s with cursor := s.cursor.skipBlanks, stats := st }) hne
  refine ⟨hround.counted hst, ?_⟩
  have hwork := hround.work_lt
  have htick := ReadStats.tick_iterations_le ht
  have hskip := skipBlanks_le s.cursor
  have hle := hs.2
  simp only [State.work] at hwork hle ⊢
  omega

private theorem stop_work {n : Nat} (hs : s.stats.Counted l ∧ s.work ≤ n)
    (h : step l s = (s', false)) : s'.stats.Counted l ∧ s'.stats.iterations ≤ n := by
  have hle := hs.2
  simp only [State.work] at hle
  obtain ⟨-, rfl⟩ | ⟨st, hne, ht, rfl⟩ | ⟨st, hne, -, ht, rfl⟩ := step_stops h
  · exact ⟨hs.1, by omega⟩
  all_goals
    have hpos := List.length_pos_iff.2 hne
    have htick := ReadStats.tick_iterations_le ht
    refine ⟨hs.1.tick ht, ?_⟩
    dsimp only
    omega

end Reader

theorem ReadStats.Counted.unmet {l : Limits} {st : ReadStats} (h : st.Counted l)
    (hle : st.iterations ≤ l.maxIterations) : st.iterationLimitHit = false := by
  rw [Bool.eq_false_iff]
  intro hhit
  have := h.hit_iff.1 hhit
  omega

private theorem Document.read_counted (l : Limits) (t : Text) :
    (Document.read l t).stats.Counted l ∧ (Document.read l t).stats.iterations ≤ 2 * t.length := by
  have hstart : (⟨.start t, {}, [], []⟩ : Reader.State).work ≤ 2 * t.length := by
    simp [Reader.State.work, Cursor.start]
  exact Reader.run_induction (fun _ _ => Reader.step_work) (fun _ _ => Reader.stop_work)
    ⟨ReadStats.counted_new l, hstart⟩

/-- A reading makes at most two rounds for each character and at most one past the ceiling, and
meets the ceiling exactly when it makes that one. A ceiling of two rounds for each character is not
met. -/
theorem Document.read_work (l : Limits) (t : Text) :
    let stats := (Document.read l t).stats
    stats.iterations ≤ 2 * t.length ∧ stats.iterations ≤ l.maxIterations + 1 ∧
      (stats.iterationLimitHit = true ↔ stats.iterations = l.maxIterations + 1) ∧
      (2 * t.length ≤ l.maxIterations → stats.iterationLimitHit = false) := by
  obtain ⟨hcounted, hle⟩ := Document.read_counted l t
  exact ⟨hle, hcounted.le, hcounted.hit_iff, fun hroom => hcounted.unmet (Nat.le_trans hle hroom)⟩

end MailMarkup
