import Mathlib
import MailMarkup.Proofs.Cache.Log
import MailMarkup.Proofs.Decimal.Order

/-!
# Caches stay small

After every operation, the size of a cache is below the high water mark of its policy, or one: room
is made before a new key comes in, and a new policy evicts batches until it is met. A batch takes
the entries of lowest score.
-/
namespace MailMarkup

private theorem Policy.highWaterMark_le (p : Policy) : p.highWaterMark ≤ max p.capacity 1 :=
  Nat.min_le_right _ _

private theorem Policy.one_le_batchSize (p : Policy) : 1 ≤ p.batchSize := Nat.le_max_right _ _

/-- The most entries that a policy lets a cache have. -/
def Policy.most (p : Policy) : Nat := max 1 (p.highWaterMark - 1)

private theorem Policy.most_le (p : Policy) : p.most ≤ max 1 p.capacity := by
  have h := p.highWaterMark_le
  unfold Policy.most
  omega

namespace Cache
variable {K V : Type} [DecidableEq K] {c : Cache K V}

/-! ### Batches -/

/-- One batch: it takes as many entries as it is long, or all there are, and no entry that it leaves
ranks or scores below one that it takes. -/
structure EvictsLowest (now : Time) (c c' : Cache K V) : Prop where
  kept : c'.entries.Sublist c.entries
  count : c'.size + min c.policy.batchSize c.size = c.size
  ranks : ∀ x ∈ c.entries, x ∉ c'.entries → ∀ y ∈ c'.entries,
    orderKey (c.policy.score now x.2) ≤ orderKey (c.policy.score now y.2)
  scores : ∀ x ∈ c.entries, x ∉ c'.entries → ∀ y ∈ c'.entries,
    ¬ c.policy.score now y.2 < c.policy.score now x.2

theorem evictsLowest (h : c.Keyed) (now : Time) (order : Listing K V) :
    EvictsLowest now c (c.evict now order) where
  kept := List.filter_sublist
  count := by rw [← length_victims c now order, h.size_evict]
  ranks _ hx hgone _ hy := h.rank_le_of_evict hx hgone hy
  scores _ hx hgone _ hy hlt :=
    (h.rank_le_of_evict hx hgone hy).not_gt (Decimal.orderKey_lt_of_lt hlt)

theorem size_evict_lt (h : c.Keyed) (now : Time) (order : Listing K V) (hpos : 0 < c.size) :
    (c.evict now order).size < c.size := by
  have hc := (evictsLowest h now order).count
  have hb := c.policy.one_le_batchSize
  omega

/-! ### A new policy -/

/-- Batches are evicted as long as the high water mark is reached: the loop, run to its end. -/
inductive Shrinks : Moment K V → Cache K V → Cache K V → Prop where
  | done {m : Moment K V} {c : Cache K V}
    (below : ¬ (c.policy.highWaterMark ≤ c.size ∧ c.size ≠ 0)) : Shrinks m c c
  | again {m : Moment K V} {c c' : Cache K V}
    (reached : c.policy.highWaterMark ≤ c.size ∧ c.size ≠ 0)
    (rest : Shrinks m.next (c.evict (m.time 0) (m.listing 0)) c') : Shrinks m c c'

private theorem shrinks_shrink (h : c.Keyed) (m : Moment K V) {n : Nat} (hn : c.size ≤ n) :
    Shrinks m c (shrink m n c) := by
  induction n generalizing c m with
  | zero => exact .done (by omega)
  | succ n ih =>
    unfold shrink
    split
    · rename_i hr
      have hr : c.policy.highWaterMark ≤ c.size ∧ c.size ≠ 0 := by simpa using hr
      have hlt := size_evict_lt h (m.time 0) (m.listing 0) (by omega)
      exact .again hr (ih (h.of_sublist List.filter_sublist) m.next (by omega))
    · rename_i hr
      exact .done (by simpa using hr)

theorem Shrinks.size_le {m : Moment K V} {c c' : Cache K V} (h : Shrinks m c c') :
    c'.size ≤ c'.policy.most := by
  induction h with
  | done below =>
    unfold Policy.most
    omega
  | again _ _ ih => exact ih

theorem shrinks_setPolicy (h : c.Keyed) (m : Moment K V) (policy : Policy) :
    Shrinks m { c with policy } (c.setPolicy m policy) :=
  shrinks_shrink (c := { c with policy }) h m le_rfl

/-! ### The size -/

omit [DecidableEq K] in
theorem size_le_of_sublist {c' : Cache K V} (h : c'.entries.Sublist c.entries) :
    c'.size ≤ c.size := h.length_le

omit [DecidableEq K] in
theorem size_sweepIfDue_le (c : Cache K V) (m : Moment K V) : (c.sweepIfDue m).size ≤ c.size :=
  size_le_of_sublist (c.entries_sweepIfDue_sublist m)

theorem size_put_of_entry {key : K} {e e' : Entry V} (he : c.entry? key = some e) :
    (c.put key e').size = c.size := by
  rw [size_put, if_pos (mem_keys_iff.2 (he ▸ rfl))]

private theorem size_get_le (c : Cache K V) (m : Moment K V) (key : K) :
    (c.get m key).2.size ≤ c.size := by
  have hs := c.size_sweepIfDue_le m
  unfold get
  dsimp only
  split
  · exact hs
  · rename_i e he
    split
    · exact (size_le_of_sublist List.filter_sublist).trans hs
    · exact (size_put_of_entry he).le.trans hs

/-- A key that comes in finds room, if need be the room of a batch. -/
theorem size_insert_le (h : c.Keyed) (hc : c.size ≤ c.policy.most) (m : Moment K V) (key : K)
    (value : V) : (c.insert m key value).size ≤ c.policy.most := by
  have hk := (logged_sweepIfDue h m).keyed
  have hs := (c.size_sweepIfDue_le m).trans hc
  have hmost : c.policy.most = max 1 ((c.sweepIfDue m).policy.highWaterMark - 1) := by
    rw [policy_sweepIfDue]
    rfl
  unfold insert
  dsimp only
  generalize c.sweepIfDue m = swept at hk hs hmost
  split
  · rw [size_put]
    rcases Nat.eq_zero_or_pos swept.size with h0 | hpos
    · have he := (evictsLowest hk (m.time 2) (m.listing 0)).count
      split <;> omega
    · have hlt := size_evict_lt hk (m.time 2) (m.listing 0) hpos
      split <;> omega
  · rename_i hcond
    rw [size_put]
    split
    · exact hs
    · rename_i hnew
      have hn : swept.entry? key = none :=
        Option.not_isSome_iff_eq_none.1 (mt mem_keys_iff.2 hnew)
      have hroom : ¬ swept.policy.highWaterMark ≤ swept.size + 1 := by simpa [hn] using hcond
      omega

/-- A cache within the bounds of its policy. -/
structure Bounded (c : Cache K V) : Prop where
  keyed : c.Keyed
  size_le : c.size ≤ c.policy.most

omit [DecidableEq K] in
theorem bounded_new (p : Policy) (now : Time) : (Cache.new p now : Cache K V).Bounded :=
  ⟨keyed_new p now, Nat.zero_le _⟩

theorem Bounded.insert (h : c.Bounded) (m : Moment K V) (key : K) (value : V) :
    (c.insert m key value).Bounded where
  keyed := (logged_insert h.keyed m key value).keyed
  size_le := by
    rw [policy_insert]
    exact size_insert_le h.keyed h.size_le m key value

theorem Bounded.get (h : c.Bounded) (m : Moment K V) (key : K) : (c.get m key).2.Bounded where
  keyed := (logged_get h.keyed m key).keyed
  size_le := by
    rw [policy_get]
    exact (c.size_get_le m key).trans h.size_le

theorem Bounded.apply (h : c.Bounded) (m : Moment K V) (op : Operation K V) :
    (op.apply c m).Bounded := by
  have hk := (logged_apply h.keyed m op).keyed
  cases op with
  | insert key value => exact h.insert _ key value
  | get key => exact h.get m key
  | upsert key update fresh =>
    unfold Operation.apply upsert
    dsimp only
    split
    · rename_i e he
      split
      · exact h.insert _ key fresh
      · exact ⟨h.keyed.put key _, (policy_put c key _) ▸ (size_put_of_entry he).le.trans h.size_le⟩
    · exact h.insert _ key fresh
  | getOrInsert key create =>
    have hg := h.get m key
    unfold Operation.apply getOrInsert
    dsimp only
    generalize c.get m key = found at hg ⊢
    obtain ⟨v, c'⟩ := found
    cases v with
    | some v => exact hg
    | none =>
      cases create () with
      | ok v => exact hg.insert _ key v
      | error e => exact hg
  | remove key => exact ⟨hk, (size_le_of_sublist List.filter_sublist).trans h.size_le⟩
  | sweep =>
    exact ⟨hk,
      (size_le_of_sublist (List.filter_sublist.trans List.filter_sublist)).trans h.size_le⟩
  | clear => exact ⟨hk, Nat.zero_le _⟩
  | setPolicy policy => exact ⟨hk, (shrinks_setPolicy h.keyed m policy).size_le⟩

theorem Bounded.after (h : c.Bounded) (ops : List (Moment K V × Operation K V)) :
    (c.after ops).Bounded := by
  induction ops generalizing c with
  | nil => exact h
  | cons op ops ih => exact ih (h.apply op.1 op.2)

private theorem entry?_get {m : Moment K V} {key : K} {v : V} (hv : (c.get m key).1 = some v) :
    ∃ e, Cache.entry? (c.get m key).2 key = some e ∧ e.value = v := by
  unfold get at hv ⊢
  dsimp only at hv ⊢
  split at hv
  · exact absurd hv (Option.some_ne_none _).symm
  · rename_i e he
    split at hv
    · exact absurd hv (Option.some_ne_none _).symm
    · rename_i hx
      rw [if_neg hx]
      exact ⟨_, entry?_put _ key _, Option.some.inj hv⟩

private theorem entry?_getOrInsert {ε : Type} {m : Moment K V} {key : K}
    {create : Unit → Except ε V} {v : V} (hv : (c.getOrInsert m key create).1 = .ok v) :
    ∃ e, Cache.entry? (c.getOrInsert m key create).2 key = some e ∧ e.value = v := by
  have hg {v : V} (hv : (c.get m key).1 = some v) :
      ∃ e, Cache.entry? (c.get m key).2 key = some e ∧ e.value = v := entry?_get hv
  unfold getOrInsert at hv ⊢
  generalize c.get m key = found at hg hv ⊢
  obtain ⟨found, c'⟩ := found
  cases found with
  | some w =>
    obtain rfl := Except.ok.inj hv
    exact hg rfl
  | none =>
    cases hc : create () with
    | error e => simp [hc] at hv
    | ok w =>
      simp only [hc] at hv ⊢
      obtain rfl := Except.ok.inj hv
      exact ⟨_, entry?_insert c' _ key w, rfl⟩

/-- After every operation of every history, a cache has no more entries than its policy lets it
have; another policy is met after finitely many batches; what comes in is stored; and each batch of
the history took the entries of lowest score. -/
theorem bounded_after (p : Policy) (start : Time) (ops : List (Moment K V × Operation K V)) :
    let c := (Cache.new p start : Cache K V).after ops
    c.size ≤ max 1 (c.policy.highWaterMark - 1) ∧
    c.size ≤ max 1 c.policy.capacity ∧
    (∀ m policy, Shrinks m { c with policy } (c.setPolicy m policy)) ∧
    (∀ m key value, Cache.entry? (c.insert m key value) key =
      some ⟨value, m.time 3, m.time 3, 0⟩) ∧
    (∀ m key update fresh, ∃ e, Cache.entry? (c.upsert m key update fresh) key = some e ∧
      (e.value = fresh ∨ ∃ v, e.value = update v)) ∧
    (∀ (ε : Type) m key (create : Unit → Except ε V) v,
      (c.getOrInsert m key create).1 = .ok v →
        ∃ e, Cache.entry? (c.getOrInsert m key create).2 key = some e ∧ e.value = v) ∧
    (∀ before now order, .batch before now order ∈ (Cache.new p start : Cache K V).log ops →
      EvictsLowest now before (before.evict now order)) := by
  have h := (bounded_new (K := K) (V := V) p start).after ops
  have hl := logged_after (keyed_new (K := K) (V := V) p start) ops
  refine ⟨h.size_le, h.size_le.trans (Policy.most_le _), ?_, ?_, ?_, ?_, ?_⟩
  · exact fun m policy => shrinks_setPolicy h.keyed m policy
  · exact fun m key value => entry?_insert _ m key value
  · exact fun m key update fresh => entry?_upsert _ m key update fresh
  · exact fun ε m key create v hv => entry?_getOrInsert hv
  · exact fun before now order hm => evictsLowest (hl.batches before now order hm) now order

end Cache
end MailMarkup
