import Mathlib
import MailMarkup.Proofs.Cache.Log

/-!
# What a cache gives back and what it counts

A cache is a map that may forget: a lookup finds what was last stored under the key, unless it was
taken away since or is too old. Its counters are exact. Each lookup is a hit or a miss, and each key
that came in is still there or left as evicted, expired or removed.
-/
namespace MailMarkup.Cache
variable {K V : Type} [DecidableEq K] {c : Cache K V}

/-! ### Lookups -/

/-- The last word of a log on a key is a value, whose age counts from a time. -/
def LastWord (k : K) (v : V) (time : Time) (log : List (Event K V)) : Prop :=
  ∃ before e since, log = before ++ e :: since ∧ e.word k = some (some (v, time)) ∧
    ∀ e' ∈ since, e'.word k = none

private theorem replay_of_silent {k : K} {log : List (Event K V)} (h : ∀ e ∈ log, e.word k = none)
    (had : Option (V × Time)) : replay k log had = had := by
  induction log generalizing had with
  | nil => rfl
  | cons e log ih =>
    have he : e.word k = none := h e (by simp)
    have hs : replay k (e :: log) had = replay k log ((e.word k).getD had) := rfl
    rw [hs, he]
    exact ih (fun e' he' => h e' (by simp [he'])) had

private theorem replay_eq_some_iff {k : K} {v : V} {time : Time} {log : List (Event K V)} :
    replay k log none = some (v, time) ↔ LastWord k v time log := by
  refine ⟨fun h => ?_, ?_⟩
  · induction log using List.reverseRecOn with
    | nil => exact absurd h nofun
    | append_singleton log e ih =>
      have hs : replay k (log ++ [e]) none = (e.word k).getD (replay k log none) :=
        replay_append k log [e] none
      rw [hs] at h
      cases he : e.word k with
      | none =>
        rw [he] at h
        obtain ⟨before, e', since, rfl, hw, hsince⟩ := ih h
        refine ⟨before, e', since ++ [e], by simp, hw, fun e'' hm => ?_⟩
        rcases List.mem_append.1 hm with hm | hm
        · exact hsince e'' hm
        · exact (List.mem_singleton.1 hm) ▸ he
      | some word =>
        rw [he] at h
        exact ⟨log, e, [], rfl, he.trans (congrArg some h), by simp⟩
  · rintro ⟨before, e, since, rfl, hw, hsince⟩
    have hs : replay k (before ++ e :: since) none =
        replay k since ((e.word k).getD (replay k before none)) :=
      replay_append k before (e :: since) none
    rw [hs, replay_of_silent hsince, hw]
    rfl

omit [DecidableEq K] in
theorem isExpired_eq_false_iff {p : Policy} {now : Time} {e : Entry V} :
    p.isExpired now e = false ↔ ∀ ttl, p.ttl = some ttl → now - e.created < ttl.nanoseconds := by
  unfold Policy.isExpired
  cases p.ttl with
  | none => simp
  | some ttl => simp

/-- A lookup gives the live value of its key, if the sweep before it leaves one. -/
theorem get_eq_some_iff {m : Moment K V} {k : K} {v : V} :
    (c.get m k).1 = some v ↔ ∃ time, (c.sweepIfDue m).held k = some (v, time) ∧
      ∀ ttl, c.policy.ttl = some ttl → m.time 2 - time < ttl.nanoseconds := by
  unfold get held
  dsimp only
  cases Cache.entry? (c.sweepIfDue m) k with
  | none => simp
  | some e =>
    dsimp only
    rw [policy_sweepIfDue]
    split
    · rename_i hx
      refine ⟨nofun, ?_⟩
      rintro ⟨time, hh, hlive⟩
      obtain ⟨rfl, rfl⟩ : e.value = v ∧ e.created = time := by simpa using hh
      rw [isExpired_eq_false_iff.2 hlive] at hx
      exact absurd hx nofun
    · rename_i hx
      have hlive := isExpired_eq_false_iff.1 (Bool.not_eq_true _ ▸ hx)
      refine ⟨fun hv => ⟨e.created, ?_, hlive⟩, ?_⟩
      · rw [Option.map_some, Option.some.inj hv]
      · rintro ⟨time, hh, -⟩
        exact congrArg (Option.map Prod.fst) hh

/-! ### Hits and misses -/

/-- How many lookups a cache has counted. -/
def lookups (c : Cache K V) : Nat := c.hits + c.misses

def Operation.isLookup : Operation K V → Bool
  | .get _ => true
  | .getOrInsert _ _ => true
  | _ => false

section Lookups
variable (c : Cache K V) (m : Moment K V) (key : K)

omit [DecidableEq K] in
theorem lookups_sweepIfDue : (c.sweepIfDue m).lookups = c.lookups := by
  unfold sweepIfDue
  split <;> rfl

theorem lookups_put (e : Entry V) : (c.put key e).lookups = c.lookups := by
  unfold put
  split <;> rfl

theorem lookups_insert (value : V) : (c.insert m key value).lookups = c.lookups := by
  rw [insert, lookups_put]
  split <;> exact c.lookups_sweepIfDue m

private theorem lookups_upsert (update : V → V) (fresh : V) :
    (c.upsert m key update fresh).lookups = c.lookups := by
  unfold upsert
  dsimp only
  split
  · split
    · exact c.lookups_insert _ key fresh
    · exact c.lookups_put key _
  · exact c.lookups_insert _ key fresh

private theorem lookups_shrink (n : Nat) : (shrink m n c).lookups = c.lookups := by
  induction n generalizing c m with
  | zero => rfl
  | succ n ih =>
    unfold shrink
    split
    · exact ih (c.evict _ _) m.next
    · rfl

theorem lookups_get : (c.get m key).2.lookups = c.lookups + 1 := by
  have hs := c.lookups_sweepIfDue m
  unfold get
  dsimp only
  split
  · rw [← hs]
    rfl
  · rename_i e he
    split
    · rw [← hs]
      rfl
    · have hmisses (e' : Entry V) : ((c.sweepIfDue m).put key e').misses =
          (c.sweepIfDue m).misses := by
        unfold put
        split <;> rfl
      rw [← hs]
      simp only [lookups, hmisses]
      omega

private theorem lookups_getOrInsert {ε : Type} (create : Unit → Except ε V) :
    (c.getOrInsert m key create).2.lookups = c.lookups + 1 := by
  have hg := c.lookups_get m key
  unfold getOrInsert
  generalize c.get m key = found at hg ⊢
  obtain ⟨v, c'⟩ := found
  cases v with
  | some v => exact hg
  | none =>
    cases create () with
    | ok v => exact (c'.lookups_insert _ key v).trans hg
    | error e => exact hg

private theorem lookups_apply (op : Operation K V) :
    (op.apply c m).lookups = c.lookups + op.isLookup.toNat := by
  cases op with
  | insert key value => exact c.lookups_insert _ key value
  | get key => exact c.lookups_get m key
  | upsert key update fresh => exact c.lookups_upsert m key update fresh
  | getOrInsert key create => exact c.lookups_getOrInsert m key create
  | setPolicy policy => exact lookups_shrink { c with policy } m c.size
  | _ => rfl

private theorem lookups_after (ops : List (Moment K V × Operation K V)) :
    (c.after ops).lookups = c.lookups + ops.countP fun op => op.2.isLookup := by
  induction ops generalizing c with
  | nil => rfl
  | cons op ops ih =>
    have hs : c.after (op :: ops) = (op.2.apply c op.1).after ops := rfl
    rw [hs, ih, lookups_apply, List.countP_cons]
    cases op.2.isLookup
    · simp
    · simp only [Bool.toNat_true, if_true]
      omega

end Lookups

/-! ### Failures -/

private theorem entries_get_sublist {m : Moment K V} {key : K} (h : (c.get m key).1 = none) :
    (c.get m key).2.entries.Sublist c.entries := by
  have hs := c.entries_sweepIfDue_sublist m
  unfold get at h ⊢
  dsimp only at h ⊢
  split at h
  · exact hs
  · split at h
    · rename_i hx
      rw [if_pos hx]
      exact List.filter_sublist.trans hs
    · exact absurd h nofun

/-- Where a lookup fails, it is `create` that fails, and nothing is stored. -/
theorem getOrInsert_error {ε : Type} {m : Moment K V} {key : K} {create : Unit → Except ε V} {e : ε}
    (h : (c.getOrInsert m key create).1 = .error e) :
    create () = .error e ∧ (c.getOrInsert m key create).2.entries.Sublist c.entries := by
  have hg (hv : (c.get m key).1 = none) : (c.get m key).2.entries.Sublist c.entries :=
    entries_get_sublist hv
  unfold getOrInsert at h ⊢
  generalize c.get m key = found at hg h ⊢
  obtain ⟨found, c'⟩ := found
  cases found with
  | some v => exact absurd h nofun
  | none =>
    cases hc : create () with
    | ok v => simp [hc] at h
    | error e' =>
      simp only [hc] at h ⊢
      exact ⟨h, hg rfl⟩

/-! ### Histories -/

/-- What a new cache gives back and counts after every history. -/
theorem accounting_after (p : Policy) (start : Time) (ops : List (Moment K V × Operation K V)) :
    let new := (Cache.new p start : Cache K V)
    let c := new.after ops
    let log := new.log ops
    (∀ m k v, (c.get m k).1 = some v ↔
      ∃ time, LastWord k v time (log ++ c.sweepIfDueLog m) ∧
        ∀ ttl, c.policy.ttl = some ttl → m.time 2 - time < ttl.nanoseconds) ∧
    c.hits + c.misses = ops.countP (fun op => op.2.isLookup) ∧
    total Event.creations log =
      c.size + c.evictions + c.expirations + total Event.removals log ∧
    (∀ (ε : Type) m key (create : Unit → Except ε V) e,
      (c.getOrInsert m key create).1 = .error e →
        create () = .error e ∧ (c.getOrInsert m key create).2.entries.Sublist c.entries) := by
  intro new c log
  have hl := logged_after (keyed_new (K := K) (V := V) p start) ops
  refine ⟨fun m k v => ?_, ?_, ?_, fun _ _ _ _ _ => getOrInsert_error⟩
  · have hheld : (c.sweepIfDue m).held k = replay k (log ++ c.sweepIfDueLog m) none :=
      (hl.trans (logged_sweepIfDue hl.keyed m)).contents k
    rw [get_eq_some_iff, hheld]
    simp only [replay_eq_some_iff]
  · exact (lookups_after new ops).trans (Nat.zero_add _)
  · have hs : 0 + total Event.creations log = c.size + (total Event.evictions log +
        total Event.expirations log + total Event.removals log) := hl.size
    have he : c.evictions = 0 + total Event.evictions log := hl.evictions
    have hx : c.expirations = 0 + total Event.expirations log := hl.expirations
    omega

end MailMarkup.Cache
