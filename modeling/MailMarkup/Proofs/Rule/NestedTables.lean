import Mathlib.Data.List.Basic
import Mathlib.Order.Bounds.Basic
import MailMarkup.Proofs.Document.Lineage
import MailMarkup.Rule.TableNesting

/-!
# Tables inside tables

How deep a table lies is the number of tables that it lies in, itself included. The check walks in
document order, stops at the tables one below the limit and measures what is under them; the repair
measures the whole document, on a walk in another order. Main statement: `check_reports`, both agree
with the depths of the tables.
-/
namespace MailMarkup

namespace TableNesting

/-! ### How deep tables lie -/

/-- The tables of a forest in document order, each with the names of the elements it lies in. -/
def tables (names : List Text) (ns : Forest) : List (List Text × Element) :=
  (ns.lineages names).filter (·.2.tag == tableTag)

/-- The number of tables that a table lies in, itself included. -/
def level (p : List Text × Element) : Nat := p.1.count tableTag + 1

/-- The greatest level of some tables, and zero if there are none. -/
def deepest (ps : List (List Text × Element)) : Nat := ps.foldr (fun p n => max (level p) n) 0

theorem deepest_cons (p : List Text × Element) (ps : List (List Text × Element)) :
    deepest (p :: ps) = max (level p) (deepest ps) := rfl

theorem deepest_append (ps qs : List (List Text × Element)) :
    deepest (ps ++ qs) = max (deepest ps) (deepest qs) := by
  induction ps with
  | nil => simp [deepest]
  | cons p ps ih => rw [List.cons_append, deepest_cons, ih, ← Nat.max_assoc, deepest_cons]

theorem level_le_deepest {p : List Text × Element} {ps : List (List Text × Element)} (hp : p ∈ ps) :
    level p ≤ deepest ps := by
  obtain ⟨qs, rs, rfl⟩ := List.append_of_mem hp
  rw [deepest_append]
  exact Nat.le_trans (Nat.le_max_left (level p) (deepest rs)) (Nat.le_max_right _ _)

theorem exists_level_eq {ps : List (List Text × Element)} (h : 0 < deepest ps) :
    ∃ p ∈ ps, level p = deepest ps := by
  induction ps with
  | nil => exact absurd h (Nat.lt_irrefl 0)
  | cons p ps ih =>
    rw [deepest_cons] at h ⊢
    rcases Nat.le_total (deepest ps) (level p) with hle | hle
    · exact ⟨p, List.mem_cons_self, (Nat.max_eq_left hle).symm⟩
    · rw [Nat.max_eq_right hle] at h ⊢
      obtain ⟨q, hq, heq⟩ := ih h
      exact ⟨q, List.mem_cons_of_mem p hq, heq⟩

section Tables
variable {names : List Text} {h : Head} {cs ns : Forest}

theorem tables_cons (n : Node) : tables names (n :: ns) = tables names [n] ++ tables names ns := by
  simp only [tables, Forest.lineages, List.append_nil, List.filter_append]

theorem tables_leaf {n : Node} (hn : n.element? = none) : tables names [n] = [] := by
  rw [tables, Forest.lineages_singleton, Node.lineages_of_leaf hn, List.filter_nil]

theorem tables_table (ht : h.tag = tableTag) :
    tables names [.element h cs] = (names, ⟨h, cs⟩) :: tables (h.tag :: names) cs := by
  rw [tables, Forest.lineages_singleton, Node.lineages, List.filter_cons_of_pos (by simpa using ht)]
  rfl

theorem tables_other (ht : h.tag ≠ tableTag) :
    tables names [.element h cs] = tables (h.tag :: names) cs := by
  rw [tables, Forest.lineages_singleton, Node.lineages, List.filter_cons_of_neg (by simpa using ht)]
  rfl

end Tables

private theorem tables_outer (outer : List Text) (ns : Forest) :
    tables outer ns = (tables [] ns).map fun p => (p.1 ++ outer, p.2) := by
  have houter := Forest.lineages_outer [] outer ns
  rw [List.nil_append] at houter
  rw [tables, houter, List.filter_map]
  rfl

private theorem deepest_outer (outer : List Text) {ps : List (List Text × Element)}
    (hps : ps ≠ []) :
    deepest (ps.map fun p => (p.1 ++ outer, p.2)) = outer.count tableTag + deepest ps := by
  induction ps with
  | nil => exact absurd rfl hps
  | cons p ps ih =>
    have hlevel : level (p.1 ++ outer, p.2) = outer.count tableTag + level p := by
      simp only [level, List.count_append]
      omega
    rw [List.map_cons, deepest_cons, deepest_cons, hlevel]
    cases ps with
    | nil => exact (Nat.max_zero _).trans (congrArg _ (Nat.max_zero _).symm)
    | cons q qs => rw [ih (List.cons_ne_nil q qs), Nat.add_max_add_left]

/-! ### Walks -/

/-- The next nodes on a walk as the walk is told them: with the number of tables around each. -/
def told (st : List (List Text × Node)) : List (Node × Nat) :=
  st.map fun p => (p.2, p.1.count tableTag)

/-- The tables that a walk has still to come to, in document order. -/
def met (st : List (List Text × Node)) : List (List Text × Element) :=
  st.flatMap fun p => tables p.1 [p.2]

section Walk
variable {st us : List (List Text × Node)}

theorem told_append : told (st ++ us) = told st ++ told us := List.map_append

theorem told_reverse : told st.reverse = (told st).reverse := List.map_reverse

theorem told_eq_cons {n : Node} {d : Nat} {stack : List (Node × Nat)}
    (hst : (n, d) :: stack = told st) :
    ∃ names us, st = (names, n) :: us ∧ d = names.count tableTag ∧ stack = told us := by
  obtain ⟨p, us, rfl, hp, rfl⟩ := List.map_eq_cons_iff.1 hst.symm
  obtain ⟨rfl, rfl⟩ := Prod.mk.inj hp
  exact ⟨p.1, us, rfl, rfl, rfl⟩

theorem told_children (names : List Text) (ns : Forest) :
    told (ns.map (names, ·)) = within (names.count tableTag) ns := List.map_map

theorem count_cons_tag (names : List Text) (h : Head) :
    (if h.tag == tableTag then names.count tableTag + 1 else names.count tableTag) =
      (h.tag :: names).count tableTag := by
  rw [List.count_cons]
  split <;> rfl

theorem met_append : met (st ++ us) = met st ++ met us := List.flatMap_append

theorem met_cons (names : List Text) (n : Node) (st : List (List Text × Node)) :
    met ((names, n) :: st) = tables names [n] ++ met st := rfl

theorem met_children (names : List Text) (ns : Forest) :
    met (ns.map (names, ·)) = tables names ns := by
  induction ns with
  | nil => rfl
  | cons n ns ih => rw [List.map_cons, met_cons, ih, ← tables_cons]

theorem deepest_met_reverse (st : List (List Text × Node)) :
    deepest (met st.reverse) = deepest (met st) := by
  induction st with
  | nil => rfl
  | cons p st ih =>
    rw [List.reverse_cons, met_append, deepest_append, ih, Nat.max_comm, ← deepest_append,
      ← met_append, List.singleton_append]

theorem element?_eq_none {n : Node} {d : Nat}
    (hn : ∀ head cs d', (n, d) = (.element head cs, d') → False) : n.element? = none := by
  cases n with
  | element head cs => exact (hn head cs d rfl).elim
  | text => rfl
  | comment => rfl

end Walk

/-! ### Depths as they are computed -/

/-- The best depth so far is never below the number of tables around the next nodes, so elements
that are no tables add nothing to it. -/
private theorem descend_eq {best : Nat} {stack : List (Node × Nat)} {st : List (List Text × Node)}
    (hst : stack = told st) (hbest : ∀ p ∈ st, p.1.count tableTag ≤ best) :
    descend best stack = max best (deepest (met st)) := by
  fun_induction descend best stack generalizing st with
  | case1 best =>
    obtain rfl := List.map_eq_nil_iff.1 hst.symm
    exact (Nat.max_zero best).symm
  | case2 best head cs d stack d' =>
    rename_i ih
    obtain ⟨names, us, rfl, rfl, rfl⟩ := told_eq_cons hst
    have hd' : d' = (head.tag :: names).count tableTag := count_cons_tag names head
    have hnames : names.count tableTag ≤ best := hbest _ List.mem_cons_self
    have hnext : (within d' cs).reverse ++ told us =
        told ((cs.map (head.tag :: names, ·)).reverse ++ us) := by
      rw [told_append, told_reverse, told_children, hd']
    have hbelow : ∀ p ∈ (cs.map (head.tag :: names, ·)).reverse ++ us,
        p.1.count tableTag ≤ max best d' := by
      rw [← List.map_reverse]
      refine List.forall_mem_append.2 ⟨List.forall_mem_map.2 fun _ _ => ?_, fun p hp => ?_⟩
      · exact hd' ▸ Nat.le_max_right best _
      · exact Nat.le_trans (hbest p (List.mem_cons_of_mem _ hp)) (Nat.le_max_left best d')
    rw [ih hnext hbelow, met_append, deepest_append, deepest_met_reverse, met_children, met_cons,
      deepest_append]
    by_cases ht : head.tag = tableTag
    · have hlevel : level (names, ⟨head, cs⟩) = d' := by rw [hd', ht, List.count_cons_self, level]
      rw [tables_table ht, deepest_cons, hlevel]
      omega
    · have hsame : d' = names.count tableTag := hd'.trans (List.count_cons_of_ne ht)
      rw [tables_other ht]
      omega
  | case3 best p stack hp ih =>
    obtain ⟨n, d⟩ := p
    obtain ⟨names, us, rfl, rfl, rfl⟩ := told_eq_cons hst
    rw [ih rfl fun p hp => hbest p (List.mem_cons_of_mem _ hp), met_cons,
      tables_leaf (element?_eq_none hp), List.nil_append]

theorem depth_eq (ns : Forest) : depth ns = deepest (tables [] ns) := by
  have hstart : (within 0 ns).reverse = told (ns.map (([] : List Text), ·)).reverse := by
    rw [told_reverse, told_children]
    rfl
  have hnone : ∀ p ∈ (ns.map (([] : List Text), ·)).reverse, p.1.count tableTag ≤ 0 := by
    intro p hp
    obtain ⟨n, -, rfl⟩ := List.mem_map.1 (List.mem_reverse.1 hp)
    exact Nat.le_refl 0
  rw [depth, descend_eq hstart hnone, deepest_met_reverse, met_children, Nat.zero_max]

/-- The greatest level in a table, itself included. -/
def reach (p : List Text × Element) : Nat := deepest (tables p.1 [p.2.node])

/-- The tables one level below the limit, in document order. -/
def passing (limit : Nat) (names : List Text) (ns : Forest) : List (List Text × Element) :=
  (tables names ns).filter (level · == limit + 1)

section Passing
variable {limit : Nat} {names : List Text} {h : Head} {cs ns : Forest} {p q : List Text × Element}

private theorem passing_cons (n : Node) :
    passing limit names (n :: ns) = passing limit names [n] ++ passing limit names ns := by
  rw [passing, tables_cons, List.filter_append]
  rfl

theorem mem_tables_iff : p ∈ tables names ns ↔ p ∈ ns.lineages names ∧ p.2.tag = tableTag := by
  rw [tables, List.mem_filter, beq_iff_eq]

private theorem lt_level (hp : p ∈ tables names ns) : names.count tableTag < level p :=
  Nat.lt_succ_of_le
    ((Forest.suffix_of_mem_lineages ns (mem_tables_iff.1 hp).1).sublist.count_le tableTag)

private theorem passing_eq_nil (h : names.count tableTag = limit + 1) :
    passing limit names ns = [] := by
  refine List.filter_eq_nil_iff.2 fun p hp => ?_
  have hlt := lt_level hp
  rw [beq_iff_eq]
  omega

theorem passing_table (ht : h.tag = tableTag) (hd : names.count tableTag = limit) :
    passing limit names [.element h cs] = [(names, ⟨h, cs⟩)] := by
  have hcount : (h.tag :: names).count tableTag = limit + 1 := by
    rw [ht, List.count_cons_self, hd]
  have hself : (level (names, ⟨h, cs⟩) == limit + 1) = true := by rw [level, hd, beq_self_eq_true]
  rw [passing, tables_table ht, List.filter_cons, if_pos hself]
  exact congrArg _ (passing_eq_nil hcount)

theorem passing_element (hp : ¬ (h.tag = tableTag ∧ names.count tableTag = limit)) :
    passing limit names [.element h cs] = passing limit (h.tag :: names) cs := by
  by_cases ht : h.tag = tableTag
  · have hself : ¬ (level (names, ⟨h, cs⟩) == limit + 1) = true := by
      rw [beq_iff_eq, level]
      exact fun heq => hp ⟨ht, Nat.succ.inj heq⟩
    rw [passing, tables_table ht, List.filter_cons, if_neg hself]
    rfl
  · rw [passing, tables_other ht]
    rfl

theorem passing_met_cons (names : List Text) (n : Node) (st : List (List Text × Node)) :
    (met ((names, n) :: st)).filter (level · == limit + 1) =
      passing limit names [n] ++ (met st).filter (level · == limit + 1) := List.filter_append ..

private theorem reach_eq (ht : h.tag = tableTag) :
    reach (names, ⟨h, cs⟩) = names.count tableTag + depth [.element h cs] := by
  have hne : tables [] [.element h cs] ≠ [] := by
    rw [tables_table ht]
    exact List.cons_ne_nil _ _
  rw [reach, Element.node, tables_outer, deepest_outer names hne, depth_eq]

end Passing

private theorem tooDeep_eq {limit : Nat} {found : List (Head × Nat)} {stack : List (Node × Nat)}
    {st : List (List Text × Node)} (hst : stack = told st)
    (hlimit : ∀ p ∈ st, p.1.count tableTag ≤ limit) :
    tooDeep limit found stack = found.reverse ++
      ((met st).filter (level · == limit + 1)).map fun p => (p.2.toHead, reach p) := by
  fun_induction tooDeep limit found stack generalizing st with
  | case1 found =>
    obtain rfl := List.map_eq_nil_iff.1 hst.symm
    exact (List.append_nil _).symm
  | case2 found head cs d stack d' hpass =>
    rename_i ih
    obtain ⟨names, us, rfl, rfl, rfl⟩ := told_eq_cons hst
    have hd' : d' = (head.tag :: names).count tableTag := count_cons_tag names head
    obtain ⟨ht, hd⟩ := Bool.and_eq_true_iff.1 hpass
    rw [beq_iff_eq] at ht hd
    have hcount : d' = names.count tableTag + 1 := by rw [hd', ht, List.count_cons_self]
    have hlimit' : names.count tableTag = limit := by omega
    rw [ih rfl fun p hp => hlimit p (List.mem_cons_of_mem _ hp), passing_met_cons,
      passing_table ht hlimit', hcount, Nat.add_sub_cancel, ← reach_eq ht, List.reverse_cons,
      List.append_assoc]
    rfl
  | case3 found head cs d stack d' hpass =>
    rename_i ih
    obtain ⟨names, us, rfl, rfl, rfl⟩ := told_eq_cons hst
    have hd' : d' = (head.tag :: names).count tableTag := count_cons_tag names head
    have hnext : within d' cs ++ told us = told (cs.map (head.tag :: names, ·) ++ us) := by
      rw [told_append, told_children, hd']
    have hp : ¬ (head.tag = tableTag ∧ names.count tableTag = limit) := by
      rintro ⟨ht, hd⟩
      refine hpass (Bool.and_eq_true_iff.2 ⟨beq_iff_eq.2 ht, beq_iff_eq.2 ?_⟩)
      rw [hd', ht, List.count_cons_self, hd]
    have hnames : names.count tableTag ≤ limit := hlimit _ List.mem_cons_self
    have hchildren : (head.tag :: names).count tableTag ≤ limit := by
      by_cases ht : head.tag = tableTag
      · have hne : names.count tableTag ≠ limit := fun hd => hp ⟨ht, hd⟩
        rw [ht, List.count_cons_self]
        omega
      · rw [List.count_cons_of_ne ht]
        exact hnames
    have hbelow : ∀ p ∈ cs.map (head.tag :: names, ·) ++ us, p.1.count tableTag ≤ limit :=
      List.forall_mem_append.2 ⟨List.forall_mem_map.2 fun _ _ => hchildren,
        fun p hp => hlimit p (List.mem_cons_of_mem _ hp)⟩
    rw [ih hnext hbelow, passing_met_cons, passing_element hp, met_append, List.filter_append,
      met_children]
    rfl
  | case4 found p stack hp =>
    rename_i ih
    obtain ⟨n, d⟩ := p
    obtain ⟨names, us, rfl, rfl, rfl⟩ := told_eq_cons hst
    rw [ih rfl fun p hp => hlimit p (List.mem_cons_of_mem _ hp), met_cons,
      tables_leaf (element?_eq_none hp), List.nil_append]

theorem tooDeep_within (limit : Nat) (ns : Forest) : tooDeep limit [] (within 0 ns) =
    (passing limit [] ns).map fun p => (p.2.toHead, reach p) := by
  have hstart : within 0 ns = told (ns.map (([] : List Text), ·)) := (told_children [] ns).symm
  have hnone : ∀ p ∈ ns.map (([] : List Text), ·), p.1.count tableTag ≤ limit := by
    intro p hp
    obtain ⟨n, -, rfl⟩ := List.mem_map.1 hp
    exact Nat.zero_le limit
  rw [tooDeep_eq hstart hnone, met_children]
  rfl

/-! ### The tables that pass the limit -/

mutual

/-- On the way down to a table that lies deeper than the limit, one passes the limit. -/
private theorem exists_passing_node {limit : Nat} {names : List Text} {q : List Text × Element}
    (h : names.count tableTag ≤ limit) (hq : limit < level q) :
    (n : Node) → q ∈ tables names [n] →
      ∃ p ∈ passing limit names [n], q ∈ tables p.1 [p.2.node]
  | .element head cs, hmem => by
    by_cases hp : head.tag = tableTag ∧ names.count tableTag = limit
    · rw [passing_table hp.1 hp.2]
      exact ⟨_, List.mem_singleton_self _, hmem⟩
    · rw [passing_element hp]
      by_cases ht : head.tag = tableTag
      · rw [tables_table ht] at hmem
        rcases List.mem_cons.1 hmem with rfl | hmem
        · have hle : limit < names.count tableTag + 1 := hq
          exact absurd ⟨ht, by omega⟩ hp
        · have hcount : (head.tag :: names).count tableTag = names.count tableTag + 1 := by
            rw [ht, List.count_cons_self]
          have hne : names.count tableTag ≠ limit := fun hd => hp ⟨ht, hd⟩
          exact exists_passing (head.tag :: names) (by omega) hq cs hmem
      · have hcount : (head.tag :: names).count tableTag = names.count tableTag :=
          List.count_cons_of_ne ht
        rw [tables_other ht] at hmem
        exact exists_passing (head.tag :: names) (by omega) hq cs hmem
  | .text _ _, hmem => absurd hmem List.not_mem_nil
  | .comment _ _, hmem => absurd hmem List.not_mem_nil

private theorem exists_passing {limit : Nat} (names : List Text) {q : List Text × Element}
    (h : names.count tableTag ≤ limit) (hq : limit < level q) :
    (ns : Forest) → q ∈ tables names ns →
      ∃ p ∈ passing limit names ns, q ∈ tables p.1 [p.2.node]
  | [], hmem => absurd hmem List.not_mem_nil
  | n :: ns, hmem => by
    rw [passing_cons]
    rw [tables_cons] at hmem
    rcases List.mem_append.1 hmem with hmem | hmem
    · obtain ⟨p, hp, hpq⟩ := exists_passing_node h hq n hmem
      exact ⟨p, List.mem_append_left _ hp, hpq⟩
    · obtain ⟨p, hp, hpq⟩ := exists_passing names h hq ns hmem
      exact ⟨p, List.mem_append_right _ hp, hpq⟩

end

mutual

private theorem level_le_size_node (names : List Text) {p : List Text × Element} :
    (n : Node) → p ∈ tables names [n] → level p ≤ names.count tableTag + n.size
  | .element head cs, hmem => by
    rw [Node.size]
    by_cases ht : head.tag = tableTag
    · rw [tables_table ht] at hmem
      rcases List.mem_cons.1 hmem with rfl | hmem
      · exact Nat.add_le_add_left (Nat.le_add_left 1 _) _
      · have hle := level_le_size (head.tag :: names) cs hmem
        rw [ht, List.count_cons_self] at hle
        omega
    · rw [tables_other ht] at hmem
      have hle := level_le_size (head.tag :: names) cs hmem
      rw [List.count_cons_of_ne ht] at hle
      omega
  | .text _ _, hmem => absurd hmem List.not_mem_nil
  | .comment _ _, hmem => absurd hmem List.not_mem_nil

private theorem level_le_size (names : List Text) {p : List Text × Element} :
    (ns : Forest) → p ∈ tables names ns → level p ≤ names.count tableTag + Forest.size ns
  | [], hmem => absurd hmem List.not_mem_nil
  | n :: ns, hmem => by
    rw [Forest.size]
    rw [tables_cons] at hmem
    rcases List.mem_append.1 hmem with hmem | hmem
    · have hle := level_le_size_node names n hmem
      omega
    · have hle := level_le_size names ns hmem
      omega

end

section Reach
variable {limit : Nat} {names : List Text} {ns : Forest} {p q : List Text × Element}

theorem mem_passing_iff :
    p ∈ passing limit names ns ↔ p ∈ tables names ns ∧ level p = limit + 1 := by
  rw [passing, List.mem_filter, beq_iff_eq]

private theorem mem_tables_trans (hp : p ∈ tables names ns) (hq : q ∈ tables p.1 [p.2.node]) :
    q ∈ tables names ns := by
  rw [mem_tables_iff] at hp hq ⊢
  rw [Forest.lineages_singleton] at hq
  exact ⟨Forest.mem_lineages_trans hq.1 ns hp.1, hq.2⟩

theorem reach_isGreatest (hp : p ∈ tables names ns) :
    IsGreatest {n | ∃ q ∈ tables p.1 [p.2.node], level q = n} (reach p) := by
  obtain ⟨names', h, cs⟩ := p
  have hself : (names', (⟨h, cs⟩ : Element)) ∈ tables names' [Element.node ⟨h, cs⟩] := by
    rw [Element.node, tables_table (mem_tables_iff.1 hp).2]
    exact List.mem_cons_self
  have hlevel := level_le_deepest hself
  refine ⟨exists_level_eq (Nat.lt_of_lt_of_le (Nat.succ_pos _) hlevel), ?_⟩
  rintro n ⟨q, hq, rfl⟩
  exact level_le_deepest hq

theorem reach_le_depth (hp : p ∈ tables [] ns) : reach p ≤ depth ns := by
  obtain ⟨q, hq, heq⟩ := (reach_isGreatest hp).1
  rw [← heq, depth_eq]
  exact level_le_deepest (mem_tables_trans hp hq)

/-- A forest is deeper than the limit exactly if some table passes it. -/
theorem passing_ne_nil_iff : passing limit [] ns ≠ [] ↔ limit < depth ns := by
  constructor
  · intro hne
    obtain ⟨p, hp⟩ := List.exists_mem_of_ne_nil _ hne
    obtain ⟨hp, hlevel⟩ := mem_passing_iff.1 hp
    have hle := level_le_deepest hp
    rw [depth_eq]
    omega
  · intro hlt
    rw [depth_eq] at hlt
    obtain ⟨q, hq, heq⟩ := exists_level_eq (Nat.zero_lt_of_lt hlt)
    obtain ⟨p, hp, -⟩ := exists_passing [] (Nat.zero_le limit) (heq ▸ hlt) ns hq
    exact List.ne_nil_of_mem hp

/-- No table passes a limit that is not below the number of nodes. So it plays no part that the sum
with the greatest limit of 64 bits is not one of 64 bits. -/
theorem tooDeep_of_size_le (h : Forest.size ns ≤ limit) : tooDeep limit [] (within 0 ns) = [] := by
  have hnone : passing limit [] ns = [] := by
    refine List.filter_eq_nil_iff.2 fun p hp => ?_
    have hle := level_le_size [] ns hp
    rw [List.count_nil] at hle
    rw [beq_iff_eq]
    omega
  rw [tooDeep_within, hnone, List.map_nil]

/-- The deepest table of a forest lies in a table that passes the limit, or is one. -/
theorem depth_isGreatest (hlt : limit < depth ns) :
    IsGreatest {n | ∃ p ∈ passing limit [] ns, reach p = n} (depth ns) := by
  constructor
  · have hdeep := hlt
    rw [depth_eq] at hdeep
    obtain ⟨q, hq, heq⟩ := exists_level_eq (Nat.zero_lt_of_lt hdeep)
    obtain ⟨p, hp, hpq⟩ := exists_passing [] (Nat.zero_le limit) (heq ▸ hdeep) ns hq
    refine ⟨p, hp, Nat.le_antisymm (reach_le_depth (mem_passing_iff.1 hp).1) ?_⟩
    rw [depth_eq, ← heq]
    exact level_le_deepest hpq
  · rintro n ⟨p, hp, rfl⟩
    exact reach_le_depth (mem_passing_iff.1 hp).1

end Reach

/-! ### The check and the repair -/

/-- What is reported of a table that passes the limit. -/
def report (info : RuleInfo) (limit : Nat) (p : List Text × Element) : Finding where
  rule := info.name
  severity := info.severity
  message := "Tables are nested " ++ toString (reach p) ++ " levels deep (maximum " ++
    toString limit ++ ")"
  category := info.category
  line := some p.2.start.line
  column := some p.2.start.column
  suggestion := some "Flatten wrapper tables that hold a single cell"
  fixable := info.fixable

theorem check_eq (s : Subject) (ns : Forest) (info : RuleInfo) :
    check s ns info = .done ((passing s.settings.thresholds.maxTableDepth [] ns).map
      (report info s.settings.thresholds.maxTableDepth)) := by
  unfold check
  dsimp only
  rw [tooDeep_within, List.map_map]
  rfl

/-- The check and the repair of nested tables, for every forest and every limit. The check reports
the tables one level below the limit, in document order, each with the greatest level of the tables
in it, itself included. It reports something exactly if the forest is deeper than the limit, and
the greatest level that it then reports is the depth of the forest. So the repair leaves a document
as it is when the check reports nothing on it. -/
theorem check_reports (s : Subject) (forest : Forest) (info : RuleInfo) :
    let limit := s.settings.thresholds.maxTableDepth
    let reported := (tables [] forest).filter (level · == limit + 1)
    check s forest info = .done (reported.map (report info limit)) ∧
      (∀ p ∈ reported, IsGreatest {n | ∃ q ∈ tables p.1 [p.2.node], level q = n} (reach p)) ∧
      (reported ≠ [] ↔ limit < depth forest) ∧
      (limit < depth forest → IsGreatest {n | ∃ p ∈ reported, reach p = n} (depth forest)) ∧
      (check s (Document.read s.settings.limits s.html).nodes info = .done [] →
        fix s = .done s.html) := by
  intro limit reported
  refine ⟨check_eq s forest info, fun p hp => reach_isGreatest (mem_passing_iff.1 hp).1,
    passing_ne_nil_iff, depth_isGreatest, fun hnone => ?_⟩
  have hnil : passing limit [] (Document.read s.settings.limits s.html).nodes = [] :=
    List.map_eq_nil_iff.1 (Task.done.inj ((check_eq s _ info).symm.trans hnone))
  exact if_pos (Nat.not_lt.1 fun hlt => passing_ne_nil_iff.2 hlt hnil)

end TableNesting
end MailMarkup
