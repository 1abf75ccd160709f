import Mathlib
import MailMarkup.Rule.Registry

/-!
# Which rule has a name

Rules are kept in two lists, and a name may go from one to the other and back. Read as a map, a
registry knows of each name what was said of it last: the rule that was registered under it and in
which of the two sets, or nothing once it was taken out or all was cleared. A rule that is
registered again where it was keeps its place, and one that comes from the other set goes to the
end.
-/
namespace MailMarkup.Registry
variable {g : Registry}

/-- No two rules have one name. -/
def Distinct (g : Registry) : Prop := (g.rules.map Rule.name).Nodup

theorem distinct_iff : g.Distinct ↔ (g.builtin.map Rule.name).Nodup ∧
    (g.custom.map Rule.name).Nodup ∧
    (g.builtin.map Rule.name).Disjoint (g.custom.map Rule.name) := by
  rw [Distinct, rules, List.map_append, List.nodup_append']

section lists
variable {rules : List Rule} {r : Rule} {name n : String}

theorem mem_names_without :
    n ∈ (without rules name).map Rule.name ↔ n ∈ rules.map Rule.name ∧ n ≠ name := by
  simp only [without, List.mem_map, List.mem_filter, bne_iff_ne]
  constructor
  · rintro ⟨r, ⟨hr, hn⟩, rfl⟩
    exact ⟨⟨r, hr, rfl⟩, hn⟩
  · rintro ⟨⟨r, hr, rfl⟩, hn⟩
    exact ⟨r, ⟨hr, hn⟩, rfl⟩

theorem nodup_without (h : (rules.map Rule.name).Nodup) (name : String) :
    ((without rules name).map Rule.name).Nodup :=
  h.sublist (List.filter_sublist.map _)

theorem without_eq_self (h : name ∉ rules.map Rule.name) : without rules name = rules := by
  refine List.filter_eq_self.2 fun x hx => ?_
  rw [bne_iff_ne]
  rintro rfl
  exact h (List.mem_map_of_mem hx)

private theorem any_name_iff : rules.any (·.name == n) = true ↔ n ∈ rules.map Rule.name := by
  simp [List.any_eq_true]

theorem names_place (rules : List Rule) (r : Rule) :
    (place rules r).map Rule.name =
      if r.name ∈ rules.map Rule.name then rules.map Rule.name
      else rules.map Rule.name ++ [r.name] := by
  induction rules with
  | nil => simp [place]
  | cons x rules ih =>
    by_cases hx : x.name = r.name
    · simp [place, hx]
    · have hr : ¬ r.name = x.name := Ne.symm hx
      rw [place, if_neg (by simpa using hx), List.map_cons, ih, List.map_cons]
      simp only [List.mem_cons, hr, false_or]
      split <;> rfl

theorem nodup_place (h : (rules.map Rule.name).Nodup) (r : Rule) :
    ((place rules r).map Rule.name).Nodup := by
  rw [names_place]
  split
  · exact h
  · rename_i hr
    rw [← List.concat_eq_append]
    exact h.concat hr

private theorem mem_names_place (h : n ∈ (place rules r).map Rule.name) :
    n ∈ rules.map Rule.name ∨ n = r.name := by
  rw [names_place] at h
  split at h
  · exact .inl h
  · simpa using h

private theorem place_eq_set (h : (rules.map Rule.name).Nodup) {i : Nat}
    (hi : rules[i]?.map Rule.name = some r.name) : place rules r = rules.set i r := by
  induction rules generalizing i with
  | nil => simp at hi
  | cons x rules ih =>
    obtain ⟨hx, hrest⟩ := List.nodup_cons.1 h
    cases i with
    | zero =>
      have hname : x.name = r.name := by simpa using hi
      simp [place, hname]
    | succ i =>
      have hmem : r.name ∈ rules.map Rule.name :=
        List.mem_of_getElem? (List.getElem?_map.trans hi)
      have hname : x.name ≠ r.name := fun heq => hx (heq ▸ hmem)
      rw [place, if_neg (by simpa using hname), List.set_cons_succ, ih hrest hi]

private theorem place_eq_concat (h : r.name ∉ rules.map Rule.name) :
    place rules r = rules ++ [r] := by
  induction rules with
  | nil => rfl
  | cons x rules ih =>
    rw [List.map_cons, List.mem_cons, not_or] at h
    rw [place, if_neg (by simpa using Ne.symm h.1), ih h.2, List.cons_append]

theorem find?_without :
    (without rules name).find? (·.name == n) =
      if n = name then none else rules.find? (·.name == n) := by
  induction rules with
  | nil => simp [without]
  | cons x rules ih =>
    simp only [without] at ih ⊢
    by_cases hx : x.name = name <;> by_cases hn : n = name <;> by_cases hxn : x.name = n <;>
      simp_all

private theorem find?_place :
    (place rules r).find? (·.name == n) =
      if n = r.name then some r else rules.find? (·.name == n) := by
  induction rules with
  | nil => by_cases hn : n = r.name <;> simp [place, hn, Ne.symm]
  | cons x rules ih =>
    by_cases hx : x.name = r.name
    · by_cases hn : n = r.name
      · simp [place, hx, hn]
      · simp [place, hx, hn, Ne.symm hn]
    · have hb : (x.name == r.name) = false := beq_false_of_ne hx
      rw [place, if_neg (by simpa using hx), List.find?_cons, List.find?_cons, ih]
      by_cases hn : n = r.name
      · simp [hn, hb]
      · simp [hn]

end lists

/-- The two sets of rules. -/
inductive Kind where
  | builtin | custom
  deriving DecidableEq, Repr

def Kind.other : Kind → Kind
  | .builtin => .custom
  | .custom => .builtin

def rulesOf (g : Registry) : Kind → List Rule
  | .builtin => g.builtin
  | .custom => g.custom

def register (g : Registry) : Kind → Rule → Registry
  | .builtin, r => g.insertBuiltin r
  | .custom, r => g.addCustom r

inductive Operation where
  | register (kind : Kind) (r : Rule)
  | remove (name : String)
  | clear

namespace Operation

def apply (g : Registry) : Operation → Registry
  | .register kind r => g.register kind r
  | .remove name => (g.remove name).2
  | .clear => {}

/-- The operation says something about a name. -/
def concerns (name : String) : Operation → Bool
  | .register _ r => name == r.name
  | .remove n => name == n
  | .clear => true

/-- What an operation registers, and where. -/
def entry? : Operation → Option (Kind × Rule)
  | .register kind r => some (kind, r)
  | _ => none

private theorem eq_register_of_entry_eq {op : Operation} {kind : Kind} {r : Rule}
    (h : op.entry? = some (kind, r)) : op = .register kind r := by
  cases op with
  | register kind' r' =>
    obtain ⟨rfl, rfl⟩ := Prod.mk.inj (Option.some.inj h)
    rfl
  | remove name => exact absurd h nofun
  | clear => exact absurd h nofun

end Operation

def after (g : Registry) (ops : List Operation) : Registry := ops.foldl Operation.apply g

/-- The last operation that said something about a name. -/
def lastWord (name : String) (ops : List Operation) : Option Operation :=
  ops.reverse.find? (Operation.concerns name)

/-- What a registry has under a name, and in which set. -/
def entry? (g : Registry) (name : String) : Option (Kind × Rule) :=
  ((g.builtin.find? (·.name == name)).map (.builtin, ·)).or
    ((g.custom.find? (·.name == name)).map (.custom, ·))

section register
variable (g : Registry) (kind : Kind) (r : Rule)

theorem rulesOf_register : (g.register kind r).rulesOf kind = place (g.rulesOf kind) r := by
  cases kind <;> rfl

theorem rulesOf_register_other :
    (g.register kind r).rulesOf kind.other = without (g.rulesOf kind.other) r.name := by
  cases kind <;> rfl

private theorem entry?_register (name : String) :
    Registry.entry? (g.register kind r) name =
      if name = r.name then some (kind, r) else g.entry? name := by
  cases kind <;>
    simp only [register, entry?, insertBuiltin, addCustom, find?_place, find?_without] <;>
    split <;> simp

end register

private theorem entry?_remove (g : Registry) (n name : String) :
    Registry.entry? (g.remove n).2 name = if name = n then none else g.entry? name := by
  simp only [remove, entry?, find?_without]
  split <;> simp

private theorem get?_eq (g : Registry) (name : String) :
    g.get? name = (g.entry? name).map Prod.snd := by
  rw [get?, rules, List.find?_append, entry?]
  cases g.builtin.find? (·.name == name) <;> simp

theorem find?_name_isSome {rules : List Rule} {name : String} :
    (rules.find? (·.name == name)).isSome = true ↔ name ∈ rules.map Rule.name := by
  simp [List.find?_isSome]

private theorem Distinct.isCustom_iff (h : g.Distinct) (name : String) :
    g.isCustom name = true ↔ ∃ r, g.entry? name = some (.custom, r) := by
  rw [isCustom, any_name_iff]
  constructor
  · intro hc
    have hb : g.builtin.find? (·.name == name) = none := by
      rw [← Option.not_isSome_iff_eq_none, find?_name_isSome]
      exact fun hb => (distinct_iff.1 h).2.2 hb hc
    obtain ⟨r, hr⟩ := Option.isSome_iff_exists.1 (find?_name_isSome.2 hc)
    exact ⟨r, by simp [hb, hr, entry?]⟩
  · rintro ⟨r, hr⟩
    unfold entry? at hr
    cases hb : g.builtin.find? (·.name == name) with
    | some b => simp [hb] at hr
    | none =>
      rw [← find?_name_isSome]
      cases hc : g.custom.find? (·.name == name) with
      | some c => rfl
      | none => simp [hb, hc] at hr

/-- The sizes before and after differ exactly if a rule was taken out. -/
theorem fst_remove (g : Registry) (name : String) : (g.remove name).1 = g.contains name := by
  have hlen (rules : List Rule) : (without rules name).length ≤ rules.length :=
    List.length_filter_le _ _
  have hkeep {rules : List Rule} (hl : (without rules name).length = rules.length) :
      name ∉ rules.map Rule.name := by
    intro hm
    obtain ⟨r, hr, hrn⟩ := List.mem_map.1 hm
    exact absurd hrn (by simpa using List.length_filter_eq_length_iff.1 hl r hr)
  have hb := hlen g.builtin
  have hc := hlen g.custom
  rw [Bool.eq_iff_iff, contains, get?, rules, find?_name_isSome, List.map_append,
    List.mem_append]
  simp only [remove, size, bne_iff_ne]
  constructor
  · intro hne
    by_contra hnot
    rw [not_or] at hnot
    rw [without_eq_self hnot.1, without_eq_self hnot.2] at hne
    exact hne rfl
  · rintro (hm | hm) heq
    · exact hkeep (by omega) hm
    · exact hkeep (by omega) hm

private theorem entry?_apply (g : Registry) (op : Operation) (name : String) :
    Registry.entry? (op.apply g) name = if op.concerns name then op.entry? else g.entry? name := by
  cases op with
  | register kind r => simp [Operation.apply, entry?_register, Operation.concerns, Operation.entry?]
  | remove n => simp [Operation.apply, entry?_remove, Operation.concerns, Operation.entry?]
  | clear => rfl

private theorem lastWord_cons (name : String) (op : Operation) (ops : List Operation) :
    lastWord name (op :: ops) =
      (lastWord name ops).or (if op.concerns name then some op else none) := by
  rw [lastWord, List.reverse_cons, List.find?_append, List.find?_singleton]
  rfl

/-- A history, as a change to the map: of each name, what was said last holds. -/
theorem entry?_after (g : Registry) (ops : List Operation) (name : String) :
    Registry.entry? (g.after ops) name =
      (lastWord name ops).elim (g.entry? name) Operation.entry? := by
  induction ops generalizing g with
  | nil => rfl
  | cons op ops ih =>
    have hs : g.after (op :: ops) = (op.apply g).after ops := rfl
    rw [hs, ih, lastWord_cons, entry?_apply]
    cases lastWord name ops with
    | some last => rfl
    | none => cases op.concerns name <;> rfl

theorem Distinct.register (h : g.Distinct) (kind : Kind) (r : Rule) :
    (g.register kind r).Distinct := by
  obtain ⟨hb, hc, hd⟩ := distinct_iff.1 h
  have apart {n : String} {rules others : List Rule}
      (hro : (rules.map Rule.name).Disjoint (others.map Rule.name))
      (hn : n ∈ (without rules r.name).map Rule.name)
      (hp : n ∈ (place others r).map Rule.name) : False := by
    obtain ⟨hn, hne⟩ := mem_names_without.1 hn
    rcases mem_names_place hp with hp | hp
    · exact hro hn hp
    · exact hne hp
  cases kind with
  | builtin =>
    exact distinct_iff.2 ⟨nodup_place hb r, nodup_without hc _, fun n hp hn => apart hd.symm hn hp⟩
  | custom =>
    exact distinct_iff.2 ⟨nodup_without hb _, nodup_place hc r, fun n hn hp => apart hd hn hp⟩

theorem Distinct.addCustom (h : g.Distinct) (r : Rule) : (g.addCustom r).Distinct :=
  h.register .custom r

theorem Distinct.remove (h : g.Distinct) (name : String) : (g.remove name).2.Distinct := by
  obtain ⟨hb, hc, hd⟩ := distinct_iff.1 h
  refine distinct_iff.2 ⟨nodup_without hb _, nodup_without hc _, ?_⟩
  intro n hn hp
  exact hd (mem_names_without.1 hn).1 (mem_names_without.1 hp).1

theorem distinct_empty : ({} : Registry).Distinct := List.nodup_nil

theorem Distinct.apply (h : g.Distinct) (op : Operation) : (op.apply g).Distinct := by
  cases op with
  | register kind r => exact h.register kind r
  | remove name => exact h.remove name
  | clear => exact distinct_empty

theorem Distinct.after (h : g.Distinct) (ops : List Operation) : (g.after ops).Distinct := by
  induction ops generalizing g with
  | nil => exact h
  | cons op ops ih => exact ih (h.apply op)

theorem Distinct.nodup (h : g.Distinct) (kind : Kind) :
    ((g.rulesOf kind).map Rule.name).Nodup := by
  obtain ⟨hb, hc, -⟩ := distinct_iff.1 h
  cases kind with
  | builtin => exact hb
  | custom => exact hc

private theorem Distinct.disjoint (h : g.Distinct) (kind : Kind) :
    ((g.rulesOf kind).map Rule.name).Disjoint ((g.rulesOf kind.other).map Rule.name) := by
  obtain ⟨-, -, hd⟩ := distinct_iff.1 h
  cases kind with
  | builtin => exact hd
  | custom => exact hd.symm

/-- How the rules that are built in come to be there. -/
def standardHistory : List Operation := builtinRules.map (.register .builtin)

theorem standard_eq : standard = ({} : Registry).after standardHistory := by
  rw [standard, after, standardHistory, List.foldl_map]
  rfl

theorem distinct_standard : standard.Distinct := by
  rw [standard_eq]
  exact distinct_empty.after _

/-- The history of a registry that began empty or with the rules that are built in. -/
def fullHistory (standard : Bool) (ops : List Operation) : List Operation :=
  (if standard then standardHistory else []) ++ ops

/-- However a registry came about, from nothing or from the built-in rules: no two rules have one
name; under each name is the rule that was registered last, unless it was taken out or all was
cleared since, and it is an added one exactly if it was added last; taking a name out tells whether
it was there; and a rule that is registered again stays where it was in its set, while one that was
not in that set goes to its end and leaves the other. -/
theorem registered_after (standard : Bool) (ops : List Operation) :
    let g := (if standard then Registry.standard else {}).after ops
    let last := fun name => lastWord name (fullHistory standard ops)
    g.Distinct ∧
      (∀ name, g.get? name = ((last name).bind Operation.entry?).map Prod.snd) ∧
      (∀ name, g.isCustom name = true ↔ ∃ r, last name = some (.register .custom r)) ∧
      (∀ name, (g.remove name).1 = g.contains name) ∧
      ∀ kind r,
        (∀ i, (g.rulesOf kind)[i]?.map Rule.name = some r.name →
          (g.register kind r).rulesOf kind = (g.rulesOf kind).set i r ∧
            (g.register kind r).rulesOf kind.other = g.rulesOf kind.other) ∧
        (r.name ∉ (g.rulesOf kind).map Rule.name →
          (g.register kind r).rulesOf kind = g.rulesOf kind ++ [r] ∧
            (g.register kind r).rulesOf kind.other =
              without (g.rulesOf kind.other) r.name) := by
  intro g last
  have hg : g = ({} : Registry).after (fullHistory standard ops) := by
    cases standard with
    | false => rfl
    | true =>
      have hs : g = Registry.standard.after ops := rfl
      rw [hs, standard_eq, after, after, after, ← List.foldl_append]
      rfl
  have hd : g.Distinct := hg ▸ distinct_empty.after _
  have hentry (name : String) : g.entry? name = (last name).bind Operation.entry? := by
    rw [hg, entry?_after]
    change (last name).elim _ _ = _
    cases last name <;> rfl
  refine ⟨hd, fun name => ?_, fun name => ?_, fst_remove g,
    fun kind r => ⟨fun i hi => ?_, fun hn => ?_⟩⟩
  · rw [get?_eq, hentry]
  · rw [hd.isCustom_iff]
    refine exists_congr fun r => ?_
    rw [hentry, Option.bind_eq_some_iff]
    exact ⟨fun ⟨op, hop, he⟩ => hop.trans (congrArg some (Operation.eq_register_of_entry_eq he)),
      fun hop => ⟨_, hop, rfl⟩⟩
  · rw [rulesOf_register, rulesOf_register_other, place_eq_set (hd.nodup kind) hi]
    refine ⟨rfl, without_eq_self fun hm => ?_⟩
    exact hd.disjoint kind (List.mem_of_getElem? (List.getElem?_map.trans hi)) hm
  · rw [rulesOf_register, rulesOf_register_other, place_eq_concat hn]
    exact ⟨rfl, rfl⟩

/-- A name that goes to the added rules and comes back has lost its place. -/
example :
    let crossed := standard.after
      [.register .custom Weight.htmlSize, .register .builtin Weight.htmlSize]
    (crossed.builtin.map Rule.name).getLast? = some "html-size" ∧ crossed.custom.length = 0 := by
  decide +kernel

end MailMarkup.Registry
