import MailMarkup.Proofs.Document.Round
import MailMarkup.Proofs.Document.RoundTrip

/-!
# Readings that meet no ceiling

The counters of a reading say which ceilings it met. A ceiling once met stays met, so a reading that
ends with none met has met none on the way, and higher ceilings would have made no difference to it.
-/
namespace MailMarkup
open Text

/-- No ceiling has been met. -/
structure ReadStats.Unmet (st : ReadStats) : Prop where
  rounds : st.iterationLimitHit = false
  attributes : st.attributeBailouts = 0
  depth : st.depthLimitHits = 0

instance (st : ReadStats) : Decidable st.Unmet :=
  decidable_of_iff
    (st.iterationLimitHit = false ∧ st.attributeBailouts = 0 ∧ st.depthLimitHits = 0)
    ⟨fun ⟨rounds, attributes, depth⟩ => ⟨rounds, attributes, depth⟩,
      fun h => ⟨h.rounds, h.attributes, h.depth⟩⟩

/-- No ceiling of the first limits is above that of the second. -/
structure Limits.Within (l l' : Limits) : Prop where
  rounds : l.maxIterations ≤ l'.maxIterations
  attributes : l.maxAttributeIterations ≤ l'.maxAttributeIterations
  depth : l.maxDepth ≤ l'.maxDepth

theorem Limits.Within.refl (l : Limits) : l.Within l :=
  ⟨Nat.le_refl _, Nat.le_refl _, Nat.le_refl _⟩

namespace Reader
variable {l l' : Limits}

theorem tick_unmet {st st' : ReadStats} {b : Bool} (hl : l.Within l') (h : st.tick l = (st', b))
    (hu : st'.Unmet) : b = true ∧ st.Unmet ∧ st.tick l' = (st', true) := by
  unfold ReadStats.tick at h
  split at h
  · rename_i hhit
    obtain ⟨rfl, -⟩ := Prod.mk.inj h
    exact absurd (hhit.symm.trans hu.rounds) nofun
  · rename_i hhit
    split at h
    · obtain ⟨rfl, -⟩ := Prod.mk.inj h
      exact absurd hu.rounds nofun
    · rename_i hle
      obtain ⟨rfl, rfl⟩ := Prod.mk.inj h
      have := hl.rounds
      refine ⟨rfl, ⟨hu.rounds, hu.attributes, hu.depth⟩, ?_⟩
      rw [ReadStats.tick, if_neg hhit, if_neg (by omega)]

private theorem attributes_unmet (hl : l.Within l') (c : Cursor) (st : ReadStats) (round : Nat)
    (seen : List (Text × Text)) (hu : (attributes l c st round seen).stats.Unmet) :
    st.Unmet ∧ attributes l' c st round seen = attributes l c st round seen := by
  have hla := hl.attributes
  induction c, st, round, seen using attributes_induction (l := l) with
  | spent c st round seen hr =>
    rw [attributes_spent hr] at hu
    exact absurd hu.attributes (Nat.succ_ne_zero _)
  | stopped c st round seen st' hr ht =>
    rw [attributes_stopped hr ht] at hu
    exact absurd hu.attributes (Nat.succ_ne_zero _)
  | ended c st round seen st' c' closing hr ht h =>
    rw [attributes_round hr ht h] at hu
    obtain ⟨-, hst, ht'⟩ := tick_unmet hl ht hu
    refine ⟨hst, ?_⟩
    rw [attributes_round hr ht h, attributes_round (by omega) ht' h]
    rfl
  | found c st round seen st' a c' hr ht h ih =>
    rw [attributes_round hr ht h] at hu
    obtain ⟨hst', hih⟩ := ih hu
    obtain ⟨-, hst, ht'⟩ := tick_unmet hl ht hst'
    refine ⟨hst, ?_⟩
    rw [attributes_round hr ht h, attributes_round (by omega) ht' h]
    exact hih
  | passed c st round seen st' c' n hr ht h ih =>
    rw [attributes_round hr ht h] at hu
    obtain ⟨hst', hih⟩ := ih hu
    obtain ⟨-, hst, ht'⟩ := tick_unmet hl ht ⟨hst'.rounds, hst'.attributes, hst'.depth⟩
    refine ⟨hst, ?_⟩
    rw [attributes_round hr ht h, attributes_round (by omega) ht' h]
    exact hih

theorem openTag_attributes_unmet {s : State} (hu : (openTag l s).stats.Unmet) :
    (attributes l (tagName s.cursor.next).2 s.stats 0 []).stats.Unmet := by
  unfold openTag at hu
  dsimp only at hu
  split at hu
  · exact hu
  · split at hu
    · exact hu
    · split at hu
      · exact absurd hu.depth nofun
      · exact hu

private theorem openTag_unmet {s : State} (hl : l.Within l') (hu : (openTag l s).stats.Unmet) :
    s.stats.Unmet ∧ openTag l' s = openTag l s := by
  have hld := hl.depth
  obtain ⟨hs, heq⟩ := attributes_unmet hl _ _ _ _ (openTag_attributes_unmet hu)
  refine ⟨hs, ?_⟩
  unfold openTag at hu ⊢
  simp only [heq] at hu ⊢
  split
  · rfl
  · split
    · rfl
    · rename_i hself hraw
      rw [if_neg hself, if_neg hraw] at hu
      split at hu
      · exact absurd hu.depth nofun
      · rename_i hdepth
        rw [if_neg (by omega), if_neg hdepth]

theorem stats_leave (s : State) (c : Cursor) (closed : Bool) :
    (s.leave c closed).stats = s.stats := by
  unfold State.leave
  split <;> rfl

private theorem markup_stats {s : State} (l l' : Limits) (h : classify s.cursor.rest ≠ .element) :
    (markup l s).stats = s.stats ∧ markup l' s = markup l s := by
  unfold markup
  split
  · exact ⟨rfl, rfl⟩
  · exact ⟨rfl, rfl⟩
  · refine ⟨?_, rfl⟩
    split
    · rfl
    · dsimp only
      split
      · exact stats_leave _ _ _
      · split
        · exact stats_leave _ _ _
        · rfl
  · rename_i he
    exact absurd he h
  · refine ⟨?_, rfl⟩
    dsimp only
    split <;> rfl

private theorem markup_unmet {s : State} (hl : l.Within l') (hu : (markup l s).stats.Unmet) :
    s.stats.Unmet ∧ markup l' s = markup l s := by
  by_cases he : classify s.cursor.rest = .element
  · simp only [markup, he] at hu ⊢
    exact openTag_unmet hl hu
  · obtain ⟨hst, heq⟩ := markup_stats l l' he
    exact ⟨hst ▸ hu, heq⟩

theorem step_unmet {s s' : State} {b : Bool} (hl : l.Within l') (h : step l s = (s', b))
    (hu : s'.stats.Unmet) : s.stats.Unmet ∧ step l' s = (s', b) := by
  cases b with
  | true =>
    obtain ⟨st, htick, hne, rfl⟩ := step_continues h
    obtain ⟨hst, hm⟩ := markup_unmet hl hu
    obtain ⟨-, hs, htick'⟩ := tick_unmet hl htick hst
    refine ⟨hs, ?_⟩
    have hrest : s.cursor.rest ≠ [] := by
      intro hr
      have := skipBlanks_le s.cursor
      rw [hr] at this
      exact hne (List.length_eq_zero_iff.1 (Nat.le_zero.1 this))
    simp [step, htick', Cursor.atEnd, hrest, hne, hm]
  | false =>
    obtain ⟨hend, rfl⟩ | ⟨st, hne, htick, rfl⟩ | ⟨st, hne, hend, htick, rfl⟩ := step_stops h
    · exact ⟨hu, by simp [step, Cursor.atEnd, hend]⟩
    · exact absurd (tick_unmet hl htick hu).1 Bool.false_ne_true
    · obtain ⟨-, hs, htick'⟩ := tick_unmet hl htick hu
      exact ⟨hs, by simp [step, htick', Cursor.atEnd, hend, hne]⟩

theorem run_unmet {s : State} (hl : l.Within l') (hu : (run l s).stats.Unmet) :
    s.stats.Unmet ∧ run l' s = run l s := by
  fun_induction run l s with
  | case1 s s' hs =>
    obtain ⟨hst, hs'⟩ := step_unmet hl hs hu
    exact ⟨hst, run_of_stop hs'⟩
  | case2 s s' hs ih =>
    obtain ⟨hst', hih⟩ := ih hu
    obtain ⟨hst, hs'⟩ := step_unmet hl hs hst'
    exact ⟨hst, (run_of_step hs').trans hih⟩

theorem run_markup_unmet {s : State} {x : Char} (hp : s.cursor.peek = some x)
    (hx : isBlank x = false) (hu : (run l s).stats.Unmet) :
    ∃ st, run l s = run l (markup l { s with stats := st }) := by
  have hs : s.cursor.skipBlanks = s.cursor := skipBlanks_eq_self (by simp [hp, hx])
  have hrest : s.cursor.rest ≠ [] := by
    intro hr
    simp [Cursor.peek, hr] at hp
  cases htick : s.stats.tick l with
  | mk st b =>
    cases b with
    | true => exact ⟨st, run_of_step (by simp [step, Cursor.atEnd, hrest, htick, hs])⟩
    | false =>
      have hrun : run l s = { s with stats := st } :=
        run_of_stop (by simp [step, Cursor.atEnd, hrest, htick])
      rw [hrun] at hu
      exact absurd (tick_unmet (.refl l) htick hu).1 Bool.false_ne_true

end Reader

/-- Higher ceilings make no difference to a reading that met none. -/
theorem Document.read_within {l l' : Limits} {t : Text} (hl : l.Within l')
    (hu : (Document.read l t).stats.Unmet) : Document.read l' t = Document.read l t := by
  unfold Document.read at hu ⊢
  rw [(Reader.run_unmet hl hu).2]

/-- A canonical forest is read back from its text whenever no ceiling is met. -/
theorem Forest.Canonical.read_unmet {l : Limits} {f : Forest} (h : f.Canonical)
    (hu : (Document.read l f.write).stats.Unmet) :
    Forest.unplaced (Document.read l f.write).nodes = f.closedUp.unplaced := by
  let l' : Limits := ⟨max l.maxIterations f.write.length,
    max l.maxAttributeIterations (f.attributeCount + 1), max l.maxDepth f.height⟩
  have hl : l.Within l' := ⟨Nat.le_max_left _ _, Nat.le_max_left _ _, Nat.le_max_left _ _⟩
  let start : Reader.State := ⟨.start f.write, {}, [], []⟩
  have hroom : start.stats.Room l' (0 + f.write.length) := ⟨rfl, by simp only [start, l']; omega⟩
  have hcount : f.attributeCount < l'.maxAttributeIterations := by
    simp only [l']
    omega
  have hdepth : start.frames.length + f.height ≤ l'.maxDepth := by
    simp only [start, l', List.length_nil]
    omega
  obtain ⟨s, hs⟩ := h.reads (s := start) (List.append_nil _).symm (.inl rfl) hroom hcount hdepth
  have hrun : Reader.run l' start = s := hs.run.trans (Reader.run_at_end hs.rest)
  have hread : (Document.read l' f.write).nodes = Reader.finish s.cursor.pos s.nodes s.frames := by
    rw [← hrun]
    rfl
  have hnodes := congrArg List.reverse hs.nodes
  rw [← Document.read_within hl hu, hread, hs.frames]
  simpa [start, Reader.finish, ← List.map_reverse] using hnodes

end MailMarkup
