import Mathlib
import MailMarkup.Proofs.Cache.Keys

/-!
# The log of a cache

A cache tells no one what it dropped, and when. Here every operation comes with a log: which keys
were stored, brought up to date or taken away, and on which of the ways that lead out of a cache.
A log accounts for all there is to see: replaying it gives the contents, and adding it up gives the
size and the counters.

A history is a list of operations, each with the moment in which it is carried out. Nothing is
asked of the clock, nor of the order in which entries are listed.
-/
namespace MailMarkup.Cache
variable {K V : Type}

/-- What happens to the keys of a cache. -/
inductive Event (K V : Type) where
  /-- A value is stored under a key, which may be new, or the value there is brought up to date. Its
  age counts from the time. -/
  | stored (key : K) (value : V) (time : Time) (isNew : Bool)
  | expired (key : K)
  /-- Swept, as idle and of too low a score. -/
  | dismissed (key : K)
  /-- A batch is evicted from a cache. -/
  | batch (before : Cache K V) (now : Time) (order : Listing K V)
  | removed (key : K)

namespace Event

@[simp] def creations : Event K V → Nat
  | stored _ _ _ isNew => isNew.toNat
  | _ => 0

@[simp] def expirations : Event K V → Nat
  | expired _ => 1
  | _ => 0

@[simp] def evictions : Event K V → Nat
  | dismissed _ => 1
  | batch before now order => (before.victims now order).length
  | _ => 0

@[simp] def removals : Event K V → Nat
  | removed _ => 1
  | _ => 0

variable [DecidableEq K]

/-- What an event says of a key: that it has a value from now on, or none; or nothing at all. -/
def word (k : K) : Event K V → Option (Option (V × Time))
  | stored key value time _ => if key = k then some (some (value, time)) else none
  | expired key | dismissed key | removed key => if key = k then some none else none
  | batch before now order => if k ∈ before.victims now order then some none else none

end Event

/-- How often something happened. -/
def total (count : Event K V → Nat) (log : List (Event K V)) : Nat := (log.map count).sum

@[simp] theorem total_nil (count : Event K V → Nat) : total count [] = 0 := rfl

@[simp] theorem total_cons (count : Event K V → Nat) (e : Event K V) (log : List (Event K V)) :
    total count (e :: log) = count e + total count log := rfl

@[simp] theorem total_append (count : Event K V → Nat) (log log' : List (Event K V)) :
    total count (log ++ log') = total count log + total count log' := by
  simp [total]

@[simp] theorem total_map {α : Type} (count : Event K V → Nat) (f : α → Event K V) (l : List α) :
    total count (l.map f) = (l.map fun x => count (f x)).sum := by
  rw [total, List.map_map]
  rfl

/-- The last word on a key is what it had, for want of another. -/
def replay [DecidableEq K] (k : K) (log : List (Event K V)) (had : Option (V × Time)) :
    Option (V × Time) :=
  log.foldl (fun has e => (e.word k).getD has) had

theorem replay_append [DecidableEq K] (k : K) (log log' : List (Event K V))
    (had : Option (V × Time)) : replay k (log ++ log') had = replay k log' (replay k log had) :=
  List.foldl_append

/-! ### What each operation logs -/

section Logs
variable [DecidableEq K] (c : Cache K V) (m : Moment K V) (key : K)

omit [DecidableEq K] in
def sweepLog (now : Time) : List (Event K V) :=
  let expired := c.entries.filter fun x => c.policy.isExpired now x.2
  let live := c.entries.filter fun x => !c.policy.isExpired now x.2
  let low := live.filter fun x => c.policy.isLowValue now x.2
  expired.map (fun x => .expired x.1) ++ low.map fun x => .dismissed x.1

def sweepIfDueLog : List (Event K V) :=
  if c.policy.sweeps && c.policy.sweepInterval.nanoseconds ≤ m.time 0 - c.lastSweep then
    c.sweepLog (m.time 1)
  else []

def getLog : List (Event K V) :=
  let swept := c.sweepIfDue m
  c.sweepIfDueLog m ++
    match swept.entry? key with
    | none => []
    | some e => if swept.policy.isExpired (m.time 2) e then [.expired key] else []

def stores (e : Entry V) : Event K V := .stored key e.value e.created (c.entry? key).isNone

def insertLog (value : V) : List (Event K V) :=
  let swept := c.sweepIfDue m
  let e : Entry V := ⟨value, m.time 3, m.time 3, 0⟩
  c.sweepIfDueLog m ++
    if (swept.entry? key).isNone && swept.policy.highWaterMark ≤ swept.size + 1 then
      [.batch swept (m.time 2) (m.listing 0),
        (swept.evict (m.time 2) (m.listing 0)).stores key e]
    else [swept.stores key e]

def upsertLog (update : V → V) (fresh : V) : List (Event K V) :=
  match c.entry? key with
  | some e =>
    if c.policy.isExpired (m.time 0) e then c.insertLog (m.later 1) key fresh
    else [c.stores key ⟨update e.value, e.created, m.time 0, e.accesses + 1⟩]
  | none => c.insertLog (m.later 1) key fresh

def getOrInsertLog {ε : Type} (create : Unit → Except ε V) : List (Event K V) :=
  c.getLog m key ++
    match c.get m key with
    | (some _, _) => []
    | (none, c) =>
      match create () with
      | .ok v => c.insertLog (m.later 3) key v
      | .error _ => []

def removeLog : List (Event K V) := if (c.entry? key).isSome then [.removed key] else []

omit [DecidableEq K] in
def clearLog : List (Event K V) := c.entries.map fun x => .removed x.1

def shrinkLog (m : Moment K V) : Nat → Cache K V → List (Event K V)
  | 0, _ => []
  | n + 1, c =>
    if c.policy.highWaterMark ≤ c.size && c.size != 0 then
      .batch c (m.time 0) (m.listing 0) ::
        shrinkLog m.next n (c.evict (m.time 0) (m.listing 0))
    else []

def setPolicyLog (policy : Policy) : List (Event K V) := shrinkLog m c.size { c with policy }

end Logs

/-! ### What a log accounts for -/

section Logged
variable [DecidableEq K]

/-- The value of a key with the time from which its age counts. -/
def held (c : Cache K V) (k : K) : Option (V × Time) :=
  (c.entry? k).map fun e => (e.value, e.created)

theorem held_put (c : Cache K V) (key k : K) (e : Entry V) :
    (c.put key e).held k = if key = k then some (e.value, e.created) else c.held k := by
  unfold held
  split
  · rename_i hk
    subst hk
    rw [entry?_put]
    rfl
  · rename_i hk
    rw [entry?_put_of_ne c e hk]

/-- A log that tells how one cache comes from another. -/
structure Logged (c : Cache K V) (log : List (Event K V)) (c' : Cache K V) : Prop where
  keyed : c'.Keyed
  contents : ∀ k, c'.held k = replay k log (c.held k)
  size : c.size + total Event.creations log = c'.size +
    (total Event.evictions log + total Event.expirations log + total Event.removals log)
  evictions : c'.evictions = c.evictions + total Event.evictions log
  expirations : c'.expirations = c.expirations + total Event.expirations log
  batches : ∀ before now order, .batch before now order ∈ log → before.Keyed

variable {c c' c'' : Cache K V} {log log' : List (Event K V)}

theorem Logged.refl (h : c.Keyed) : Logged c [] c :=
  ⟨h, fun _ => rfl, rfl, rfl, rfl, by simp⟩

theorem Logged.trans (h : Logged c log c') (h' : Logged c' log' c'') :
    Logged c (log ++ log') c'' where
  keyed := h'.keyed
  contents k := by rw [h'.contents, h.contents, replay_append]
  size := by
    have hs := h.size
    have hs' := h'.size
    simp only [total_append]
    omega
  evictions := by rw [h'.evictions, h.evictions, total_append, Nat.add_assoc]
  expirations := by rw [h'.expirations, h.expirations, total_append, Nat.add_assoc]
  batches before now order hm := by
    rcases List.mem_append.1 hm with hm | hm
    · exact h.batches before now order hm
    · exact h'.batches before now order hm

/-- Lookups are not logged. -/
theorem Logged.counted (h : Logged c log c') (hits misses : Nat) :
    Logged c log { c' with hits, misses } :=
  ⟨h.keyed, h.contents, h.size, h.evictions, h.expirations, h.batches⟩

/-! ### One lemma for each way in and out -/

theorem replay_takes {f : K → Event K V} {k : K}
    (hf : ∀ key, (f key).word k = if key = k then some none else none) (l : List (K × Entry V))
    (had : Option (V × Time)) :
    replay k (l.map fun x => f x.1) had = if k ∈ l.map Prod.fst then none else had := by
  induction l generalizing had with
  | nil => rfl
  | cons x l ih =>
    have hs : replay k ((x :: l).map fun x => f x.1) had =
        replay k (l.map fun x => f x.1) (((f x.1).word k).getD had) := rfl
    rw [hs, ih, hf, List.map_cons]
    by_cases hx : x.1 = k
    · simp [hx]
    · have hm : k ∈ x.1 :: l.map Prod.fst ↔ k ∈ l.map Prod.fst := by simp [Ne.symm hx]
      simp only [hm, if_neg hx, Option.getD_none]

private theorem Keyed.mem_map_filter (h : c.Keyed) {k : K} {e : Entry V} (he : c.entry? k = some e)
    (p : K × Entry V → Bool) : k ∈ (c.entries.filter p).map Prod.fst ↔ p (k, e) = true := by
  refine ⟨fun hk => ?_, fun hp => ?_⟩
  · obtain ⟨⟨k', e'⟩, hm, rfl⟩ := List.mem_map.1 hk
    obtain ⟨hx, hp⟩ := List.mem_filter.1 hm
    rw [h.entry?_eq_some_iff.2 hx] at he
    obtain rfl := Option.some.inj he
    exact hp
  · exact List.mem_map_of_mem (f := Prod.fst) (List.mem_filter.2 ⟨mem_of_entry_eq he, hp⟩)

theorem logged_sweep (h : c.Keyed) (now : Time) : Logged c (c.sweepLog now) (c.sweep now) where
  keyed := h.of_sublist (List.filter_sublist.trans List.filter_sublist)
  contents k := by
    have hl : Cache.entry? (c.sweep now) k = (c.entry? k).filter fun e =>
        !c.policy.isLowValue now e && !c.policy.isExpired now e := by
      rw [← h.lookup_filter fun x => !c.policy.isLowValue now x.2 && !c.policy.isExpired now x.2]
      simp only [sweep, entry?, List.filter_filter]
    rw [sweepLog, replay_append, replay_takes (fun _ => rfl), replay_takes (fun _ => rfl), held,
      hl, held, List.filter_filter]
    cases he : c.entry? k with
    | none => simp
    | some e =>
      simp only [h.mem_map_filter he]
      cases hx : c.policy.isExpired now e <;> cases hv : c.policy.isLowValue now e <;>
        simp [hx, hv]
  size := by
    have hx := c.entries.length_eq_length_filter_add fun x => c.policy.isExpired now x.2
    have hl := (c.entries.filter fun x => !c.policy.isExpired now x.2).length_eq_length_filter_add
      fun x => c.policy.isLowValue now x.2
    simp [sweepLog, sweep, size, -List.filter_filter]
    omega
  evictions := by
    have hl := (c.entries.filter fun x => !c.policy.isExpired now x.2).length_eq_length_filter_add
      fun x => c.policy.isLowValue now x.2
    simp [sweepLog, sweep, -List.filter_filter]
    omega
  expirations := by simp [sweepLog, sweep]
  batches before now' order hm := by simp [sweepLog] at hm

theorem logged_sweepIfDue (h : c.Keyed) (m : Moment K V) :
    Logged c (c.sweepIfDueLog m) (c.sweepIfDue m) := by
  unfold sweepIfDueLog sweepIfDue
  split
  · exact logged_sweep h _
  · exact .refl h

theorem logged_evict (h : c.Keyed) (now : Time) (order : Listing K V) :
    Logged c [.batch c now order] (c.evict now order) where
  keyed := h.of_sublist List.filter_sublist
  contents k := by
    have hl : Cache.entry? (c.evict now order) k =
        (c.entry? k).filter fun _ => k ∉ c.victims now order := by
      refine (h.lookup_filter _ k).trans ?_
      simp
    rw [held, hl, held]
    by_cases hk : k ∈ c.victims now order
    · simp [replay, Event.word, hk]
    · cases c.entry? k <;> simp [replay, Event.word, hk]
  size := by
    simp [h.size_evict]
  evictions := by simp [evict]
  expirations := by simp [evict]
  batches before now' order' hm := by
    obtain ⟨rfl, -⟩ : before = c ∧ now' = now ∧ order' = order := by simpa using hm
    exact h

theorem logged_put (h : c.Keyed) (key : K) (e : Entry V) :
    Logged c [c.stores key e] (c.put key e) where
  keyed := h.put key e
  contents k := by
    rw [held_put]
    by_cases hk : key = k <;> simp [replay, stores, Event.word, hk]
  size := by
    rw [size_put]
    by_cases hk : key ∈ c.keys
    · simp [stores, hk, mem_keys_iff.1 hk]
    · have hn : c.entry? key = none := Option.not_isSome_iff_eq_none.1 (mt mem_keys_iff.2 hk)
      simp [stores, hk, hn]
  evictions := by
    unfold Cache.put
    split <;> rfl
  expirations := by
    unfold Cache.put
    split <;> rfl
  batches := by simp [stores]

private theorem logged_touch (h : c.Keyed) {key : K} {e e' : Entry V} (he : c.entry? key = some e)
    (hv : e'.value = e.value) (ht : e'.created = e.created) : Logged c [] (c.put key e') where
  keyed := h.put key e'
  contents k := by
    rw [held_put]
    by_cases hk : key = k
    · subst hk
      simp [replay, held, he, hv, ht]
    · simp [replay, hk]
  size := by
    rw [size_put, if_pos (mem_keys_iff.2 (by simp [he]))]
    simp
  evictions := by
    unfold Cache.put
    split <;> rfl
  expirations := by
    unfold Cache.put
    split <;> rfl
  batches := by simp

theorem held_erase (h : c.Keyed) (key k : K) :
    (c.erase key).held k = if key = k then none else c.held k := by
  rw [held, h.entry?_erase]
  split <;> rfl

private theorem logged_expire (h : c.Keyed) {key : K} (hk : key ∈ c.keys) :
    Logged c [.expired key] { c.erase key with expirations := c.expirations + 1 } where
  keyed := h.of_sublist List.filter_sublist
  contents k := by
    refine (held_erase h key k).trans ?_
    by_cases hk : key = k <;> simp [replay, Event.word, hk]
  size := by
    have hs := h.size_erase hk
    change c.size + 0 = (c.erase key).size + (0 + 1 + 0)
    omega
  evictions := rfl
  expirations := rfl
  batches := by simp

private theorem erase_of_not_mem {key : K} (hk : key ∉ c.keys) : c.erase key = c := by
  have hf : c.entries.filter (·.1 ≠ key) = c.entries := by
    refine List.filter_eq_self.2 fun x hx => decide_eq_true ?_
    rintro rfl
    exact hk (List.mem_map_of_mem hx)
  rw [erase, hf]

private theorem logged_remove (h : c.Keyed) (key : K) :
    Logged c (c.removeLog key) (c.remove key).2 := by
  unfold removeLog remove
  split
  · rename_i hk
    have hs := h.size_erase (mem_keys_iff.2 hk)
    exact {
      keyed := h.of_sublist List.filter_sublist
      contents := fun k => by
        rw [held_erase h]
        by_cases hk : key = k <;> simp [replay, Event.word, hk]
      size := by simpa using hs.symm
      evictions := rfl
      expirations := rfl
      batches := by simp }
  · rename_i hk
    rw [erase_of_not_mem (mt mem_keys_iff.1 hk)]
    exact .refl h

private theorem logged_clear (c : Cache K V) : Logged c c.clearLog c.clear where
  keyed := List.nodup_nil
  contents k := by
    rw [clearLog, replay_takes (fun _ => rfl)]
    split
    · rfl
    · rename_i hk
      have hn : c.entry? k = none := Option.not_isSome_iff_eq_none.1 (mt mem_keys_iff.2 hk)
      have hh : c.held k = none := by rw [held, hn]; rfl
      exact hh.symm
  size := by simp [clearLog, clear, size]
  evictions := by simp [clearLog, clear]
  expirations := by simp [clearLog, clear]
  batches := by simp [clearLog]

/-! ### The operations -/

theorem logged_get (h : c.Keyed) (m : Moment K V) (key : K) :
    Logged c (c.getLog m key) (c.get m key).2 := by
  have hs := logged_sweepIfDue h m
  unfold getLog get
  dsimp only
  refine hs.trans ?_
  cases he : Cache.entry? (c.sweepIfDue m) key with
  | none => exact (Logged.refl hs.keyed).counted _ _
  | some e =>
    dsimp only
    by_cases hx : (c.sweepIfDue m).policy.isExpired (m.time 2) e = true
    · rw [if_pos hx, if_pos hx]
      exact (logged_expire hs.keyed (mem_keys_iff.2 (he ▸ rfl))).counted _ _
    · rw [if_neg hx, if_neg hx]
      have touched : Logged (c.sweepIfDue m) []
          ((c.sweepIfDue m).put key ⟨e.value, e.created, m.time 2, e.accesses + 1⟩) :=
        logged_touch hs.keyed he rfl rfl
      exact touched.counted _ _

theorem logged_insert (h : c.Keyed) (m : Moment K V) (key : K) (value : V) :
    Logged c (c.insertLog m key value) (c.insert m key value) := by
  have hs := logged_sweepIfDue h m
  refine hs.trans ?_
  unfold insert
  dsimp only
  split
  · have he := logged_evict hs.keyed (m.time 2) (m.listing 0)
    exact he.trans (logged_put he.keyed key _)
  · exact logged_put hs.keyed key _

private theorem logged_upsert (h : c.Keyed) (m : Moment K V) (key : K) (update : V → V)
    (fresh : V) :
    Logged c (c.upsertLog m key update fresh) (c.upsert m key update fresh) := by
  unfold upsertLog upsert
  cases c.entry? key with
  | none => exact logged_insert h _ key fresh
  | some e =>
    dsimp only
    split
    · exact logged_insert h _ key fresh
    · exact logged_put h key _

private theorem logged_getOrInsert {ε : Type} (h : c.Keyed) (m : Moment K V) (key : K)
    (create : Unit → Except ε V) :
    Logged c (c.getOrInsertLog m key create) (c.getOrInsert m key create).2 := by
  have hg := logged_get h m key
  unfold getOrInsertLog getOrInsert
  generalize c.get m key = found at hg ⊢
  obtain ⟨v, c'⟩ := found
  refine hg.trans ?_
  cases v with
  | some v => exact .refl hg.keyed
  | none =>
    cases create () with
    | ok v => exact logged_insert hg.keyed _ key v
    | error e => exact .refl hg.keyed

private theorem logged_shrink (h : c.Keyed) (m : Moment K V) (n : Nat) :
    Logged c (shrinkLog m n c) (shrink m n c) := by
  induction n generalizing c m with
  | zero => exact .refl h
  | succ n ih =>
    have he := logged_evict h (m.time 0) (m.listing 0)
    unfold shrinkLog shrink
    split
    · exact he.trans (ih he.keyed m.next)
    · exact .refl h

private theorem logged_setPolicy (h : c.Keyed) (m : Moment K V) (policy : Policy) :
    Logged c (c.setPolicyLog m policy) (c.setPolicy m policy) := by
  have hs := logged_shrink (c := { c with policy }) h m c.size
  exact ⟨hs.keyed, hs.contents, hs.size, hs.evictions, hs.expirations, hs.batches⟩

end Logged

/-! ### Histories -/

inductive Operation (K V : Type) : Type 1 where
  | insert (key : K) (value : V)
  | get (key : K)
  | upsert (key : K) (update : V → V) (fresh : V)
  | getOrInsert {ε : Type} (key : K) (create : Unit → Except ε V)
  | remove (key : K)
  | sweep
  | clear
  | setPolicy (policy : Policy)

variable [DecidableEq K]

def Operation.apply (c : Cache K V) (m : Moment K V) : Operation K V → Cache K V
  | .insert key value => c.insert m key value
  | .get key => (c.get m key).2
  | .upsert key update fresh => c.upsert m key update fresh
  | .getOrInsert key create => (c.getOrInsert m key create).2
  | .remove key => (c.remove key).2
  | .sweep => c.sweep (m.time 0)
  | .clear => c.clear
  | .setPolicy policy => c.setPolicy m policy

def Operation.log (c : Cache K V) (m : Moment K V) : Operation K V → List (Event K V)
  | .insert key value => c.insertLog m key value
  | .get key => c.getLog m key
  | .upsert key update fresh => c.upsertLog m key update fresh
  | .getOrInsert key create => c.getOrInsertLog m key create
  | .remove key => c.removeLog key
  | .sweep => c.sweepLog (m.time 0)
  | .clear => c.clearLog
  | .setPolicy policy => c.setPolicyLog m policy

/-- The cache after operations, one after the other, each in its moment. -/
def after (c : Cache K V) : List (Moment K V × Operation K V) → Cache K V
  | [] => c
  | (m, op) :: ops => (op.apply c m).after ops

/-- All that happens in the course of operations. -/
def log (c : Cache K V) : List (Moment K V × Operation K V) → List (Event K V)
  | [] => []
  | (m, op) :: ops => op.log c m ++ (op.apply c m).log ops

theorem logged_apply {c : Cache K V} (h : c.Keyed) (m : Moment K V) (op : Operation K V) :
    Logged c (op.log c m) (op.apply c m) := by
  cases op with
  | insert key value => exact logged_insert h m key value
  | get key => exact logged_get h m key
  | upsert key update fresh => exact logged_upsert h m key update fresh
  | getOrInsert key create => exact logged_getOrInsert h m key create
  | remove key => exact logged_remove h key
  | sweep => exact logged_sweep h (m.time 0)
  | clear => exact logged_clear c
  | setPolicy policy => exact logged_setPolicy h m policy

/-- The log of a history accounts for the cache it ends with. -/
theorem logged_after {c : Cache K V} (h : c.Keyed) (ops : List (Moment K V × Operation K V)) :
    Logged c (c.log ops) (c.after ops) := by
  induction ops generalizing c with
  | nil => exact .refl h
  | cons op ops ih =>
    have hop := logged_apply h op.1 op.2
    exact hop.trans (ih hop.keyed)

omit [DecidableEq K] in
theorem keyed_new (p : Policy) (now : Time) : (Cache.new p now : Cache K V).Keyed :=
  List.nodup_nil

end MailMarkup.Cache
