import MailMarkup.Proofs.Pattern.Ways
import MailMarkup.Proofs.Text.CharSet

/-!
# What automata read

An automaton goes from node to node along ways, reading a character at each. From its start it reads
what its expression reads, and the notes it takes are those of a reading; where two readings reach
one place with different notes, it has at least one of them. The characters a match can start with
are told from the ways of the start, which needs the ranges of all sets in order.
-/
namespace MailMarkup.Pattern
namespace Automaton

/-- An automaton leads along some ways from one place to another, where the match ends. -/
inductive Leads (a : Automaton) : List Way → Trail → Trail → Prop
  | stop {ws w t} (hw : w ∈ ws) (he : holdAt t.place w.edges) (hg : w.goal = none) :
    Leads a ws t (t.noteAll w.slots)
  | read {ws w n ways t u} (hw : w ∈ ws) (he : holdAt t.place w.edges) (hg : w.goal = some n)
    (hr : a.ready? t.place n = some ways) (h : Leads a ways (t.noteAll w.slots).next u) :
    Leads a ws t u

/-- What has been noted before has no influence on where an automaton leads. -/
theorem Leads.of_notes {a : Automaton} {ws : List Way} {t u : Trail} (h : a.Leads ws t u)
    (notes : List (Nat × Cursor)) : ∃ v, a.Leads ws ⟨t.place, notes⟩ v ∧ v.place = u.place := by
  induction h generalizing notes with
  | stop hw he hg => exact ⟨_, .stop hw he hg, rfl⟩
  | read hw he hg hr _ ih =>
    obtain ⟨v, hv, hp⟩ := ih (noteAt _ _ notes)
    exact ⟨v, .read hw he hg hr hv, hp⟩

section ofExpr
variable {e : Expr} {c : Cursor} {n : Nat} {ways : List Way} {t u : Trail}

theorem steps_ofExpr (e : Expr) (n : Nat) :
    (ofExpr e).steps[n]? = (e.graph.2[n]?).map fun
      | .read set next => ⟨set, Way.allFrom e.graph.2 next⟩
      | _ => ⟨.none, []⟩ :=
  Array.getElem?_map

theorem ready_ofExpr :
    (ofExpr e).ready? t.place n = some ways ↔
      ∃ set next, e.graph.2[n]? = some (.read set next) ∧ t.Sees set ∧
        ways = Way.allFrom e.graph.2 next := by
  have hnone (x : Char) : CharSet.none.has x = false := rfl
  simp only [ready?, steps_ofExpr, Trail.Sees, Cursor.peek]
  cases e.graph.2[n]? with
  | none => simp
  | some node =>
    cases t.place.rest with
    | nil => cases node <;> simp
    | cons x xs =>
      cases node with
      | read set next =>
        simp only [Option.map_some, Option.ite_none_right_eq_some, Option.some.injEq]
        constructor
        · rintro ⟨hx, rfl⟩
          exact ⟨set, next, rfl, ⟨x, rfl, hx⟩, rfl⟩
        · rintro ⟨_, _, ⟨⟩, ⟨_, ⟨⟩, hx⟩, rfl⟩
          exact ⟨hx, rfl⟩
      | _ => simp [hnone]

private theorem leads_sound (h : (ofExpr e).Leads (Way.allFrom e.graph.2 n) t u) :
    ∃ k, Path e.graph.2 k n t u := by
  generalize hws : Way.allFrom e.graph.2 n = ws at h
  induction h generalizing n with
  | stop hw he hg =>
    subst hws
    exact Way.allFrom_sound hw ⟨he, by rw [hg]⟩
  | read hw he hg hr _ ih =>
    subst hws
    obtain ⟨set, next, hn, hs, rfl⟩ := ready_ofExpr.1 hr
    obtain ⟨k, hp⟩ := ih rfl
    refine Way.allFrom_sound hw ⟨he, ?_⟩
    rw [hg]
    exact ⟨k + 1, .move (.read hn hs) hp⟩

private theorem leads_complete {k : Nat} (h : Path e.graph.2 k n t u)
    (notes : List (Nat × Cursor)) :
    ∃ v, (ofExpr e).Leads (Way.allFrom e.graph.2 n) ⟨t.place, notes⟩ v ∧ v.place = u.place := by
  induction hl : t.place.rest.length using Nat.strongRecOn generalizing k n t notes with
  | ind l ih =>
    obtain ⟨w, hw, he, ⟨hg, hu⟩ | ⟨m, set, next, j, t', hg, hn, hs, ht', hp⟩⟩ :=
      Way.allFrom_complete h
    · exact ⟨_, .stop hw he hg, hu.symm⟩
    · have hlt : t'.place.rest.length < l := by
        obtain ⟨x, hx, -⟩ := hs
        obtain ⟨xs, hr⟩ := List.head?_eq_some_iff.1 hx
        rw [← hl, ht', Cursor.rest_next, hr]
        simp
      obtain ⟨v, hv, hvu⟩ := ih _ hlt hp (noteAt t.place w.slots notes) rfl
      rw [ht'] at hv
      exact ⟨v, .read hw he hg (ready_ofExpr.2 ⟨set, next, hn, hs, rfl⟩) hv, hvu⟩

theorem reads_of_leads (h : (ofExpr e).Leads (ofExpr e).start t u) : e.Reads t u :=
  (e.path_graph t u).1 (leads_sound h)

theorem leads_of_reads (h : e.Reads t u) (notes : List (Nat × Cursor)) :
    ∃ v, (ofExpr e).Leads (ofExpr e).start ⟨t.place, notes⟩ v ∧ v.place = u.place := by
  obtain ⟨k, hp⟩ := (e.path_graph t u).2 h
  exact leads_complete hp notes

end ofExpr
end Automaton

/-- The ranges of all sets in an expression are in order. -/
def Expr.Ordered : Expr → Prop
  | .empty => True
  | .one set => set.Ordered
  | .edge _ => True
  | .both a b => a.Ordered ∧ b.Ordered
  | .either a b => a.Ordered ∧ b.Ordered
  | .group _ a => a.Ordered
  | .repeated a _ _ _ => a.Ordered

theorem Expr.ordered_sequence {as : List Expr} (h : ∀ a ∈ as, a.Ordered) :
    (sequence as).Ordered := by
  induction as with
  | nil => trivial
  | cons a as ih =>
    obtain ⟨ha, h⟩ := List.forall_mem_cons.1 h
    cases as with
    | nil => exact ha
    | cons b bs => exact ⟨ha, ih h⟩

theorem Expr.ordered_choice {as : List Expr} (h : ∀ a ∈ as, a.Ordered) : (choice as).Ordered := by
  induction as with
  | nil => trivial
  | cons a as ih =>
    obtain ⟨ha, h⟩ := List.forall_mem_cons.1 h
    cases as with
    | nil => exact ha
    | cons b bs => exact ⟨ha, ih h⟩

namespace Graph

/-- The nodes read sets whose ranges are in order. -/
def SetsOrdered (nodes : Array Node) : Prop := ∀ set next, .read set next ∈ nodes → set.Ordered

/-- A layout adds only such nodes. -/
def KeepsOrder (l : Layout) : Prop :=
  ∀ next nodes, SetsOrdered nodes → SetsOrdered (l next nodes).2

theorem SetsOrdered.push {nodes : Array Node} {n : Node} (h : SetsOrdered nodes)
    (hn : ∀ set next, n = .read set next → set.Ordered) : SetsOrdered (nodes.push n) := by
  intro set next hm
  rcases Array.mem_push.1 hm with hm | rfl
  · exact h set next hm
  · exact hn set next rfl

theorem choice_ne_read (greedy : Bool) (a b next : Nat) (set : CharSet) :
    choice greedy a b ≠ .read set next := by
  cases greedy <;> exact nofun

theorem SetsOrdered.push_choice {nodes : Array Node} (h : SetsOrdered nodes) (greedy : Bool)
    (a b : Nat) : SetsOrdered (nodes.push (choice greedy a b)) :=
  h.push fun set next hn => absurd hn (choice_ne_read greedy a b next set)

namespace KeepsOrder
variable {l : Layout} (h : KeepsOrder l)
include h

theorem times (n : Nat) : KeepsOrder (times l n) := by
  induction n with
  | zero => exact fun _ _ ho => ho
  | succ n ih => exact fun next nodes ho => ih _ _ (h next nodes ho)

theorem upTo (greedy : Bool) (leave n : Nat) : KeepsOrder (upTo l greedy leave n) := by
  induction n with
  | zero => exact fun _ _ ho => ho
  | succ n ih => exact fun next nodes ho => ih _ _ ((h next nodes ho).push_choice greedy _ leave)

theorem loop (greedy : Bool) (next : Nat) (nodes : Array Node) (ho : SetsOrdered nodes) :
    SetsOrdered (loop l greedy next nodes).2.2 := by
  have hb := h nodes.size (nodes.push .finish) (ho.push nofun)
  intro set m hm
  rcases Array.mem_or_eq_of_mem_setIfInBounds hm with hm | hm
  · exact hb set m hm
  · exact absurd hm.symm (choice_ne_read greedy _ next m set)

end KeepsOrder

private theorem keepsOrder_layout {e : Expr} (he : e.Ordered) : KeepsOrder (layout e) := by
  induction e with
  | empty => exact fun _ _ ho => ho
  | one set => exact fun _ _ ho => ho.push fun _ _ h => by cases h; exact he
  | edge e => exact fun _ _ ho => ho.push nofun
  | both a b iha ihb => exact fun next nodes ho => iha he.1 _ _ (ihb he.2 next nodes ho)
  | either a b iha ihb =>
    exact fun next nodes ho => (ihb he.2 next _ (iha he.1 next nodes ho)).push nofun
  | group i a ih =>
    intro next nodes ho
    have hstop : SetsOrdered (nodes.push (.note (2 * i + 1) next)) := ho.push nofun
    exact (ih he _ _ hstop).push nofun
  | repeated a least extra greedy ih =>
    intro next nodes ho
    match least, extra with
    | least, some extra =>
      rw [layout_atMost]
      exact (ih he).times least _ _ ((ih he).upTo greedy next extra next nodes ho)
    | n + 1, none => exact (ih he).times n _ _ ((ih he).loop greedy next nodes ho)
    | 0, none =>
      have hl := (ih he).loop greedy next nodes ho
      by_cases hs : a.readsSome
      · rw [layout_star_some hs]
        exact hl
      · rw [layout_star_none hs]
        exact hl.push_choice greedy _ next

end Graph

namespace Automaton

section firstSet
variable {steps : Array Step} {ws : List Way} {so set : CharSet}

private theorem foldl_firstSet_none (steps : Array Step) (ws : List Way) :
    ws.foldl (fun (s : Option CharSet) w => s.bind fun s => (goalSet? steps w).map s.union) none =
      none := by
  induction ws with
  | nil => rfl
  | cons w ws ih => exact ih

private theorem ordered_goalSet (hs : ∀ (n : Nat) s, steps[n]? = some s → s.set.Ordered) {w : Way}
    (hw : goalSet? steps w = some set) : set.Ordered := by
  obtain ⟨n, -, hn⟩ := Option.bind_eq_some_iff.1 hw
  obtain ⟨s, hsn, rfl⟩ := Option.map_eq_some_iff.1 hn
  exact hs n s hsn

private theorem foldl_firstSet_has (hs : ∀ (n : Nat) s, steps[n]? = some s → s.set.Ordered)
    (ho : so.Ordered)
    (h : ws.foldl (fun s w => s.bind fun s => (goalSet? steps w).map s.union) (some so) =
      some set) :
    (∀ x, so.has x → set.has x) ∧
      ∀ w ∈ ws, ∃ goal, goalSet? steps w = some goal ∧ ∀ x, goal.has x → set.has x := by
  induction ws generalizing so with
  | nil =>
    cases h
    exact ⟨fun _ h => h, nofun⟩
  | cons w ws ih =>
    rw [List.foldl_cons, Option.bind_some] at h
    cases hw : goalSet? steps w with
    | none =>
      rw [hw, Option.map_none, foldl_firstSet_none] at h
      cases h
    | some goal =>
      rw [hw, Option.map_some] at h
      have hg := ordered_goalSet hs hw
      obtain ⟨hset, hws⟩ := ih (CharSet.ordered_union ho hg) h
      refine ⟨fun x hx => hset x ((CharSet.has_union ho hg).2 (.inl hx)), fun v hv => ?_⟩
      rcases List.mem_cons.1 hv with rfl | hv
      · exact ⟨goal, hw, fun x hx => hset x ((CharSet.has_union ho hg).2 (.inr hx))⟩
      · exact hws v hv

/-- All that is read at the goals of some ways is in their first set. -/
theorem firstSet_has (hs : ∀ (n : Nat) s, steps[n]? = some s → s.set.Ordered)
    (h : firstSet steps ws = some set) :
    ∀ w ∈ ws, ∃ goal, goalSet? steps w = some goal ∧ ∀ x, goal.has x → set.has x :=
  (foldl_firstSet_has hs CharSet.ordered_none h).2

end firstSet

theorem mayStart_of_leads {e : Expr} (he : e.Ordered) {t u : Trail} {x : Char}
    (h : (ofExpr e).Leads (ofExpr e).start t u) (hx : t.place.peek = some x) :
    (ofExpr e).mayStart x := by
  have hsets : Graph.SetsOrdered e.graph.2 :=
    Graph.keepsOrder_layout he 0 #[.finish] fun _ _ hm => by simp at hm
  have hsteps (n : Nat) (s : Step) (hn : (ofExpr e).steps[n]? = some s) : s.set.Ordered := by
    rw [steps_ofExpr] at hn
    obtain ⟨node, hnode, rfl⟩ := Option.map_eq_some_iff.1 hn
    cases node with
    | read set next => exact hsets set next (Array.mem_of_getElem? hnode)
    | _ => exact CharSet.ordered_none
  rw [mayStart, Option.all_eq_true]
  intro set hset
  have hgoals := firstSet_has hsteps hset
  cases h with
  | stop hw he hg =>
    obtain ⟨goal, hgoal, -⟩ := hgoals _ hw
    rw [goalSet?, hg] at hgoal
    cases hgoal
  | read hw he hg hr _ =>
    obtain ⟨goal, hgoal, hin⟩ := hgoals _ hw
    obtain ⟨read, next, hn, ⟨y, hy, hs⟩, -⟩ := ready_ofExpr.1 hr
    rw [goalSet?, hg, Option.bind_some, steps_ofExpr, hn] at hgoal
    cases hgoal
    obtain rfl : x = y := Option.some.inj (hx.symm.trans hy)
    exact hin x hs

end Automaton
end MailMarkup.Pattern
