import MailMarkup.Cache.Basic

/-!
# What a cache holds

A cache may forget at any time, but it invents nothing: a fact about keys and values that holds of
what is stored holds of what is kept, whatever is evicted, swept, expired or asked for in between.
Its policy changes only when it is given another.
-/
namespace MailMarkup.Cache
variable {K V : Type}

/-- Every value is related to the key it is kept under. -/
def Holds (P : K → V → Prop) (c : Cache K V) : Prop := ∀ x ∈ c.entries, P x.1 x.2.value

variable {P : K → V → Prop} {c : Cache K V}

theorem holds_new (p : Policy) (now : Time) : (Cache.new p now : Cache K V).Holds P := by
  simp [Holds, new]

theorem Holds.of_subset {c' : Cache K V} (h : c.Holds P) (hs : c'.entries ⊆ c.entries) :
    c'.Holds P := fun x hx => h x (hs hx)

theorem Holds.clear (c : Cache K V) : c.clear.Holds P := by simp [Holds, Cache.clear]

theorem Holds.resetStats (h : c.Holds P) : c.resetStats.Holds P := h

theorem Holds.sweep (h : c.Holds P) (now : Time) : (c.sweep now).Holds P :=
  h.of_subset fun _ hx => (List.mem_filter.1 (List.mem_filter.1 hx).1).1

theorem Holds.sweepIfDue (h : c.Holds P) (m : Moment K V) : (c.sweepIfDue m).Holds P := by
  unfold Cache.sweepIfDue
  split
  · exact h.sweep _
  · exact h

variable [DecidableEq K]

theorem Holds.of_entry (h : c.Holds P) {key : K} {e : Entry V} (he : c.entry? key = some e) :
    P key e.value := by
  obtain ⟨l₁, l₂, hl, -⟩ := List.lookup_eq_some_iff.1 he
  exact h (key, e) (by rw [hl]; simp)

theorem Holds.erase (h : c.Holds P) (key : K) : (c.erase key).Holds P :=
  h.of_subset fun _ hx => (List.mem_filter.1 hx).1

theorem Holds.put (h : c.Holds P) {key : K} {e : Entry V} (he : P key e.value) :
    (c.put key e).Holds P := by
  intro x hx
  unfold Cache.put at hx
  split at hx
  · obtain ⟨y, hy, rfl⟩ := List.mem_map.1 hx
    split
    · exact he
    · exact h y hy
  · rcases List.mem_append.1 hx with hx | hx
    · exact h x hx
    · obtain rfl := List.mem_singleton.1 hx
      exact he

theorem Holds.evict (h : c.Holds P) (now : Time) (order : Listing K V) :
    (c.evict now order).Holds P :=
  h.of_subset fun _ hx => (List.mem_filter.1 hx).1

theorem Holds.insert (h : c.Holds P) (m : Moment K V) {key : K} {value : V} (hv : P key value) :
    (c.insert m key value).Holds P := by
  have hs := h.sweepIfDue m
  refine Holds.put ?_ hv
  split
  · exact hs.evict _ _
  · exact hs

theorem Holds.shrink (h : c.Holds P) (m : Moment K V) (n : Nat) : (Cache.shrink m n c).Holds P := by
  induction n generalizing c m with
  | zero => exact h
  | succ n ih =>
    unfold Cache.shrink
    split
    · exact ih (h.evict _ _) m.next
    · exact h

theorem Holds.setPolicy (h : c.Holds P) (m : Moment K V) (p : Policy) :
    (c.setPolicy m p).Holds P :=
  Holds.shrink (c := { c with policy := p }) h m _

theorem Holds.get (h : c.Holds P) (m : Moment K V) (key : K) : (c.get m key).2.Holds P := by
  have hs := h.sweepIfDue m
  unfold Cache.get
  dsimp only
  split
  · exact hs
  · rename_i e he
    split
    · exact hs.erase key
    · have hv : P key e.value := hs.of_entry he
      exact hs.put (e := { e with lastAccess := m.time 2, accesses := e.accesses + 1 }) hv

/-- A lookup gives nothing that was not stored. -/
theorem Holds.of_get (h : c.Holds P) {m : Moment K V} {key : K} {v : V}
    (hv : (c.get m key).1 = some v) : P key v := by
  have hs := h.sweepIfDue m
  unfold Cache.get at hv
  dsimp only at hv
  split at hv
  · exact absurd hv nofun
  · rename_i e he
    split at hv
    · exact absurd hv nofun
    · obtain rfl := Option.some.inj hv
      exact hs.of_entry he

section Create
variable {ε : Type} {create : K → Except ε V}

/-- A cache that holds only what `create` makes answers as `create` does. -/
theorem getOrInsert_eq (h : c.Holds fun k v => create k = .ok v) (m : Moment K V) (key : K) :
    (c.getOrInsert m key fun _ => create key).1 = create key := by
  unfold getOrInsert
  split
  · rename_i v c' hg
    exact (h.of_get (congrArg Prod.fst hg)).symm
  · split <;> rename_i hc <;> exact hc.symm

theorem Holds.getOrInsert (h : c.Holds fun k v => create k = .ok v) (m : Moment K V) (key : K) :
    (c.getOrInsert m key fun _ => create key).2.Holds fun k v => create k = .ok v := by
  have hg := h.get m key
  unfold Cache.getOrInsert
  split
  · rename_i hc; rw [hc] at hg; exact hg
  · rename_i hc; rw [hc] at hg
    split
    · rename_i v hv; exact hg.insert _ hv
    · exact hg

end Create

private theorem lookup_map_replaced (key : K) (e : Entry V) (l : List (K × Entry V))
    (h : (l.lookup key).isSome) :
    (l.map fun x => if x.1 = key then (key, e) else x).lookup key = some e := by
  induction l with
  | nil => simp at h
  | cons x l ih =>
    by_cases hk : x.1 = key
    · simp [hk]
    · have hb : (key == x.1) = false := by simpa using Ne.symm hk
      rw [List.lookup_cons, hb] at h
      rw [List.map_cons, if_neg hk, List.lookup_cons, hb]
      exact ih h

theorem entry?_put (c : Cache K V) (key : K) (e : Entry V) :
    Cache.entry? (c.put key e) key = some e := by
  unfold put entry?
  split
  · rename_i h
    exact lookup_map_replaced key e c.entries h
  · rename_i h
    have hn : c.entries.lookup key = none := Option.not_isSome_iff_eq_none.1 h
    simp [List.lookup_append, hn]

theorem entry?_insert (c : Cache K V) (m : Moment K V) (key : K) (value : V) :
    Cache.entry? (c.insert m key value) key =
      some { value, created := m.time 3, lastAccess := m.time 3 } :=
  entry?_put _ key _

/-- After an upsert the key has the fresh value or the update of one it had. -/
theorem entry?_upsert (c : Cache K V) (m : Moment K V) (key : K) (update : V → V) (fresh : V) :
    ∃ e, Cache.entry? (c.upsert m key update fresh) key = some e ∧
      (e.value = fresh ∨ ∃ v, e.value = update v) := by
  unfold upsert
  dsimp only
  split
  · split
    · exact ⟨_, entry?_insert c _ key fresh, .inl rfl⟩
    · exact ⟨_, entry?_put c key _, .inr ⟨_, rfl⟩⟩
  · exact ⟨_, entry?_insert c _ key fresh, .inl rfl⟩

section Policy
variable (c : Cache K V) (m : Moment K V) (key : K)

omit [DecidableEq K] in
@[simp] theorem policy_sweepIfDue : (c.sweepIfDue m).policy = c.policy := by
  unfold sweepIfDue
  split <;> rfl

@[simp] theorem policy_put (e : Entry V) : (c.put key e).policy = c.policy := by
  unfold put
  split <;> rfl

@[simp] theorem policy_get : (c.get m key).2.policy = c.policy := by
  unfold get
  dsimp only
  split
  · exact c.policy_sweepIfDue m
  · split
    · exact c.policy_sweepIfDue m
    · exact (policy_put _ key _).trans (c.policy_sweepIfDue m)

@[simp] theorem policy_insert (value : V) : (c.insert m key value).policy = c.policy := by
  rw [insert, policy_put]
  split <;> exact c.policy_sweepIfDue m

@[simp] theorem policy_upsert (update : V → V) (fresh : V) :
    (c.upsert m key update fresh).policy = c.policy := by
  unfold upsert
  dsimp only
  split
  · split <;> simp
  · simp

@[simp] theorem policy_getOrInsert {ε : Type} (create : Unit → Except ε V) :
    (c.getOrInsert m key create).2.policy = c.policy := by
  have hg := c.policy_get m key
  unfold getOrInsert
  split
  · rename_i hc; rw [hc] at hg; exact hg
  · rename_i hc; rw [hc] at hg
    split
    · exact (policy_insert _ _ key _).trans hg
    · exact hg

private theorem policy_shrink (n : Nat) : (shrink m n c).policy = c.policy := by
  induction n generalizing c m with
  | zero => rfl
  | succ n ih =>
    unfold shrink
    split
    · exact ih _ _
    · rfl

@[simp] theorem policy_setPolicy (p : Policy) : (c.setPolicy m p).policy = p :=
  policy_shrink { c with policy := p } m _

end Policy
end MailMarkup.Cache
