import Mathlib
import MailMarkup.Proofs.Cache.Contents

/-!
# Keys and batches

No key of a cache has two entries, whatever is done to it, so a lookup gives the one entry of a key
and an erasure takes one away. A batch takes as many entries as it is long, or all there are, and
those that rank lowest.
-/
namespace MailMarkup.Cache
variable {K V : Type}

/-! ### Distinct keys -/

/-- The keys, in the order in which they came in. -/
def keys (c : Cache K V) : List K := c.entries.map Prod.fst

/-- No key has two entries. -/
def Keyed (c : Cache K V) : Prop := c.keys.Nodup

theorem Keyed.of_sublist {c c' : Cache K V} (h : c.Keyed)
    (hs : c'.entries.Sublist c.entries) : c'.Keyed :=
  h.sublist (hs.map Prod.fst)

theorem Keyed.eq_of_mem {c : Cache K V} (h : c.Keyed) {x y : K × Entry V} (hx : x ∈ c.entries)
    (hy : y ∈ c.entries) (hxy : x.1 = y.1) : x = y :=
  List.inj_on_of_nodup_map h hx hy hxy

theorem entries_sweepIfDue_sublist (c : Cache K V) (m : Moment K V) :
    (c.sweepIfDue m).entries.Sublist c.entries := by
  unfold sweepIfDue
  split
  · exact List.filter_sublist.trans List.filter_sublist
  · exact .refl _

variable [DecidableEq K]

theorem mem_of_entry_eq {c : Cache K V} {k : K} {e : Entry V} (h : c.entry? k = some e) :
    (k, e) ∈ c.entries := by
  obtain ⟨l₁, l₂, hl, -⟩ := List.lookup_eq_some_iff.1 h
  rw [hl]
  simp

theorem mem_keys_iff {c : Cache K V} {k : K} : k ∈ c.keys ↔ (c.entry? k).isSome := by
  rw [keys, entry?, List.mem_map]
  induction c.entries with
  | nil => simp
  | cons x l ih =>
    rw [List.lookup_cons]
    by_cases hx : k = x.1
    · subst hx
      simp
    · have hb : (k == x.1) = false := by simpa using hx
      rw [hb, ← ih]
      simp [Ne.symm hx]

theorem Keyed.entry?_eq_some_iff {c : Cache K V} (h : c.Keyed) {k : K} {e : Entry V} :
    c.entry? k = some e ↔ (k, e) ∈ c.entries := by
  refine ⟨mem_of_entry_eq, fun he => ?_⟩
  obtain ⟨e', he'⟩ := Option.isSome_iff_exists.1 (mem_keys_iff.1 (List.mem_map_of_mem he))
  have heq := h.eq_of_mem (mem_of_entry_eq he') he rfl
  rw [he', (Prod.mk.inj heq).2]

/-- Where entries are dropped, a key has the entry it had or none. -/
theorem Keyed.lookup_filter {c : Cache K V} (h : c.Keyed) (p : K × Entry V → Bool) (k : K) :
    (c.entries.filter p).lookup k = (c.entry? k).filter fun e => p (k, e) := by
  let kept : Cache K V := { c with entries := c.entries.filter p }
  have hf : kept.Keyed := h.of_sublist List.filter_sublist
  refine Option.ext fun e => ?_
  rw [Option.filter_eq_some_iff, h.entry?_eq_some_iff, ← List.mem_filter (p := p)]
  exact hf.entry?_eq_some_iff

theorem Keyed.entry?_erase {c : Cache K V} (h : c.Keyed) (key k : K) :
    Cache.entry? (c.erase key) k = if key = k then none else c.entry? k := by
  refine (h.lookup_filter (fun x => x.1 ≠ key) k).trans ?_
  split
  · rename_i hk
    subst hk
    simp
  · rename_i hk
    cases c.entry? k <;> simp [Ne.symm hk]

theorem entry?_put_of_ne (c : Cache K V) {key k : K} (e : Entry V) (hk : key ≠ k) :
    Cache.entry? (c.put key e) k = c.entry? k := by
  have hb : (k == key) = false := by simpa using hk.symm
  unfold put entry?
  split
  · dsimp only
    induction c.entries with
    | nil => rfl
    | cons x l ih =>
      rw [List.map_cons, List.lookup_cons, List.lookup_cons, ih]
      by_cases hx : x.1 = key
      · rw [if_pos hx, hx, hb]
      · rw [if_neg hx]
  · rw [List.lookup_append, List.lookup_cons, hb]
    exact Option.or_none

theorem keys_put (c : Cache K V) (key : K) (e : Entry V) :
    (c.put key e).keys = if key ∈ c.keys then c.keys else c.keys ++ [key] := by
  unfold put
  split
  · rename_i hs
    rw [if_pos (mem_keys_iff.2 hs)]
    simp only [keys, List.map_map]
    refine List.map_congr_left fun x _ => ?_
    rw [Function.comp_apply]
    split
    · rename_i hx
      exact hx.symm
    · rfl
  · rename_i hs
    rw [if_neg (mt mem_keys_iff.1 hs)]
    simp [keys]

theorem Keyed.put {c : Cache K V} (h : c.Keyed) (key : K) (e : Entry V) : (c.put key e).Keyed := by
  rw [Keyed, keys_put]
  split
  · exact h
  · rename_i hk
    exact List.Nodup.append h (List.nodup_singleton key) (by simpa using hk)

omit [DecidableEq K] in
theorem length_keys (c : Cache K V) : c.keys.length = c.size := by simp [size, keys]

theorem size_put (c : Cache K V) (key : K) (e : Entry V) :
    (c.put key e).size = if key ∈ c.keys then c.size else c.size + 1 := by
  rw [← length_keys, keys_put, ← length_keys]
  split <;> simp

omit [DecidableEq K] in
theorem keys_filter (c : Cache K V) (p : K → Bool) :
    (c.entries.filter fun x => p x.1).map Prod.fst = c.keys.filter p := by
  rw [keys, List.filter_map]
  rfl

private theorem keys_erase (c : Cache K V) (key : K) :
    (c.erase key).keys = c.keys.filter (· ≠ key) := c.keys_filter (· ≠ key)

theorem Keyed.size_erase {c : Cache K V} (h : c.Keyed) {key : K} (hk : key ∈ c.keys) :
    (c.erase key).size + 1 = c.size := by
  have hf : c.keys.filter (· ≠ key) = c.keys.erase key := by
    rw [h.erase_eq_filter]
    exact List.filter_congr fun k _ => by by_cases hk : k = key <;> simp [hk]
  have hpos := List.length_pos_of_mem hk
  rw [← length_keys, keys_erase, hf, List.length_erase_of_mem hk, ← length_keys]
  omega

/-! ### Batches -/

/-- The keys with the ranks of their scores, lowest first. -/
def ranked (c : Cache K V) (now : Time) (order : Listing K V) : List (Int × K) :=
  ((order.list c.entries).map fun x => (orderKey (c.policy.score now x.2), x.1)).mergeSort
    fun a b => a.1 ≤ b.1

/-- The keys that a batch leaves. -/
def spared (c : Cache K V) (now : Time) (order : Listing K V) : List K :=
  ((c.ranked now order).drop c.policy.batchSize).map Prod.snd

section Batch
variable {c : Cache K V} {now : Time} {order : Listing K V}

omit [DecidableEq K] in
theorem victims_eq (c : Cache K V) (now : Time) (order : Listing K V) :
    c.victims now order = ((c.ranked now order).take c.policy.batchSize).map Prod.snd := rfl

omit [DecidableEq K] in
theorem victims_append_spared (c : Cache K V) (now : Time) (order : Listing K V) :
    (c.victims now order ++ c.spared now order).Perm c.keys := by
  rw [victims_eq, spared, ← List.map_append, List.take_append_drop]
  refine ((List.mergeSort_perm _ _).map Prod.snd).trans ?_
  rw [List.map_map]
  exact (order.perm c.entries).map Prod.fst

omit [DecidableEq K] in
theorem mem_ranked {x : K × Entry V} (hx : x ∈ c.entries) :
    (orderKey (c.policy.score now x.2), x.1) ∈ c.ranked now order :=
  (List.mergeSort_perm _ _).mem_iff.2
    (List.mem_map.2 ⟨x, (order.perm c.entries).mem_iff.2 hx, rfl⟩)

omit [DecidableEq K] in
theorem length_victims (c : Cache K V) (now : Time) (order : Listing K V) :
    (c.victims now order).length = min c.policy.batchSize c.size := by
  simp [victims, size, (order.perm c.entries).length_eq]

omit [DecidableEq K] in
theorem rank_le {x y : Int × K} (hx : x ∈ (c.ranked now order).take c.policy.batchSize)
    (hy : y ∈ (c.ranked now order).drop c.policy.batchSize) : x.1 ≤ y.1 := by
  have hs : (c.ranked now order).Pairwise fun a b => decide (a.1 ≤ b.1) = true :=
    List.pairwise_mergeSort (by intro a b d; simp; omega) (by intro a b; simp; omega) _
  rw [← List.take_append_drop c.policy.batchSize (c.ranked now order), List.pairwise_append] at hs
  exact of_decide_eq_true (hs.2.2 x hx y hy)

private theorem keys_evict (c : Cache K V) (now : Time) (order : Listing K V) :
    (c.evict now order).keys = c.keys.filter fun k => k ∉ c.victims now order := by
  refine (c.keys_filter fun k => !(c.victims now order).contains k).trans ?_
  simp

private theorem Keyed.keys_evict_perm (h : c.Keyed) (now : Time) (order : Listing K V) :
    (c.evict now order).keys.Perm (c.spared now order) := by
  have hp := victims_append_spared c now order
  have hn : (c.victims now order ++ c.spared now order).Nodup := hp.nodup_iff.2 h
  have hf : (c.victims now order ++ c.spared now order).filter (fun k => k ∉ c.victims now order) =
      c.spared now order := by
    rw [List.filter_append, List.filter_eq_nil_iff.2 (by simp), List.nil_append,
      List.filter_eq_self]
    intro k hk
    simpa using fun hv => (List.nodup_append.1 hn).2.2 k hv k hk rfl
  rw [keys_evict, ← hf]
  exact (hp.filter _).symm

theorem Keyed.size_evict (h : c.Keyed) (now : Time) (order : Listing K V) :
    (c.evict now order).size + (c.victims now order).length = c.size := by
  rw [← length_keys, (h.keys_evict_perm now order).length_eq, ← length_keys,
    ← (victims_append_spared c now order).length_eq, List.length_append, Nat.add_comm]

/-- What a batch takes ranks no higher than what it leaves. -/
theorem Keyed.rank_le_of_evict (h : c.Keyed) {x y : K × Entry V} (hx : x ∈ c.entries)
    (hgone : x ∉ (c.evict now order).entries) (hy : y ∈ (c.evict now order).entries) :
    orderKey (c.policy.score now x.2) ≤ orderKey (c.policy.score now y.2) := by
  have hxv : x.1 ∈ c.victims now order := by
    by_contra hv
    exact hgone (List.mem_filter.2 ⟨hx, by simpa using hv⟩)
  obtain ⟨hyc, hyv⟩ := List.mem_filter.1 hy
  rw [victims_eq] at hxv
  obtain ⟨a, ha, hax⟩ := List.mem_map.1 hxv
  obtain ⟨z, hz, rfl⟩ :=
    List.mem_map.1 ((List.mergeSort_perm _ _).mem_iff.1 (List.mem_of_mem_take ha))
  obtain rfl := h.eq_of_mem ((order.perm c.entries).mem_iff.1 hz) hx hax
  have hyr : (orderKey (c.policy.score now y.2), y.1) ∈ c.ranked now order := mem_ranked hyc
  rw [← List.take_append_drop c.policy.batchSize (c.ranked now order), List.mem_append] at hyr
  refine rank_le ha (hyr.resolve_left fun hyt => ?_)
  have hyg : y.1 ∈ c.victims now order := List.mem_map_of_mem (f := Prod.snd) hyt
  simp [hyg] at hyv

end Batch
end MailMarkup.Cache
