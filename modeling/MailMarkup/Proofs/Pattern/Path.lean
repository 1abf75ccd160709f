import MailMarkup.Proofs.Pattern.Reading

/-!
# Paths through graphs

A path takes the graph of an expression from a node to the end. The nodes laid out for an expression
link the node where they start to the node they lead to: every path from the start reads the
expression and goes on from there, and every reading makes such a path. So the paths from the start
of an expression's graph are its readings.
-/
namespace MailMarkup.Pattern

/-- A move from one node to the next, with the place before and after. -/
inductive Move (nodes : Array Node) : Nat → Trail → Nat → Trail → Prop
  | read {n next set t} (h : nodes[n]? = some (.read set next)) (hs : t.Sees set) :
    Move nodes n t next t.next
  | test {n next e t} (h : nodes[n]? = some (.test e next))
    (he : e.holds t.place.before t.place.peek) : Move nodes n t next t
  | note {n next slot t} (h : nodes[n]? = some (.note slot next)) :
    Move nodes n t next (t.note slot)
  | first {n a b t} (h : nodes[n]? = some (.fork a b)) : Move nodes n t a t
  | second {n a b t} (h : nodes[n]? = some (.fork a b)) : Move nodes n t b t

/-- A number of moves from a node to the end. -/
inductive Path (nodes : Array Node) : Nat → Nat → Trail → Trail → Prop
  | finish {n t} (h : nodes[n]? = some .finish) : Path nodes 0 n t t
  | move {k n m t t' u} (h : Move nodes n t m t') (hp : Path nodes k m t' u) :
    Path nodes (k + 1) n t u

section Path
variable {all : Array Node} {k n a b next slot : Nat} {set : CharSet} {e : Edge} {t u : Trail}

private theorem path_finish (h : all[n]? = some .finish) : Path all k n t u ↔ k = 0 ∧ u = t := by
  constructor
  · intro hp
    cases hp with
    | finish => exact ⟨rfl, rfl⟩
    | move hm => cases hm <;> simp_all
  · rintro ⟨rfl, rfl⟩
    exact .finish h

theorem path_read (h : all[n]? = some (.read set next)) :
    Path all k n t u ↔ ∃ j, k = j + 1 ∧ t.Sees set ∧ Path all j next t.next u := by
  constructor
  · intro hp
    cases hp with
    | finish => simp_all
    | move hm hp => cases hm <;> simp_all
  · rintro ⟨j, rfl, hs, hp⟩
    exact .move (.read h hs) hp

theorem path_test (h : all[n]? = some (.test e next)) :
    Path all k n t u ↔
      ∃ j, k = j + 1 ∧ e.holds t.place.before t.place.peek ∧ Path all j next t u := by
  constructor
  · intro hp
    cases hp with
    | finish => simp_all
    | move hm hp => cases hm <;> simp_all
  · rintro ⟨j, rfl, he, hp⟩
    exact .move (.test h he) hp

theorem path_note (h : all[n]? = some (.note slot next)) :
    Path all k n t u ↔ ∃ j, k = j + 1 ∧ Path all j next (t.note slot) u := by
  constructor
  · intro hp
    cases hp with
    | finish => simp_all
    | move hm hp => cases hm <;> simp_all
  · rintro ⟨j, rfl, hp⟩
    exact .move (.note h) hp

theorem path_fork (h : all[n]? = some (.fork a b)) :
    Path all k n t u ↔ ∃ j, k = j + 1 ∧ (Path all j a t u ∨ Path all j b t u) := by
  constructor
  · intro hp
    cases hp with
    | finish => simp_all
    | move hm hp =>
      cases hm with
      | first hm =>
        cases h.symm.trans hm
        exact ⟨_, rfl, .inl hp⟩
      | second hm =>
        cases h.symm.trans hm
        exact ⟨_, rfl, .inr hp⟩
      | _ => simp_all
  · rintro ⟨j, rfl, hp | hp⟩
    · exact .move (.first h) hp
    · exact .move (.second h) hp

theorem path_choice {greedy : Bool} (h : all[n]? = some (Graph.choice greedy a b)) :
    Path all k n t u ↔ ∃ j, k = j + 1 ∧ (Path all j a t u ∨ Path all j b t u) := by
  cases greedy with
  | true => exact path_fork h
  | false => simpa only [or_comm] using path_fork (t := t) (u := u) h

end Path

/-- Paths from one node read `R` and go on at another, in no more moves; and whatever `R` reads,
paths read. -/
structure Link (all : Array Node) (start : Nat) (R : Trail → Trail → Prop) (next : Nat) : Prop where
  sound : ∀ {k t u}, Path all k start t u → ∃ j m, j ≤ k ∧ R t m ∧ Path all j next m u
  complete : ∀ {k t m u}, R t m → Path all k next m u → ∃ j, Path all j start t u

/-- One relation after another. -/
def Follow (R S : Trail → Trail → Prop) (t u : Trail) : Prop := ∃ m, R t m ∧ S m u

/-- A relation any number of times. -/
def Many (R : Trail → Trail → Prop) (t u : Trail) : Prop := ∃ k, Repeats R k t u

/-- A relation at most `n` times. -/
def UpTo (R : Trail → Trail → Prop) (n : Nat) (t u : Trail) : Prop := ∃ k ≤ n, Repeats R k t u

namespace Link
variable {all : Array Node} {start mid next again n : Nat} {R S : Trail → Trail → Prop}

theorem refl (n : Nat) : Link all n (fun t u => u = t) n where
  sound hp := ⟨_, _, Nat.le_refl _, rfl, hp⟩
  complete h hp := ⟨_, h ▸ hp⟩

theorem follow (h : Link all start R mid) (h' : Link all mid S next) :
    Link all start (Follow R S) next where
  sound hp := by
    obtain ⟨i, m, hi, hR, hp⟩ := h.sound hp
    obtain ⟨j, m', hj, hS, hp⟩ := h'.sound hp
    exact ⟨j, m', Nat.le_trans hj hi, ⟨m, hR, hS⟩, hp⟩
  complete := by
    rintro k t m u ⟨m', hR, hS⟩ hp
    obtain ⟨j, hp⟩ := h'.complete hS hp
    exact h.complete hR hp

theorem congr (h : Link all start R next) (hRS : ∀ t u, R t u ↔ S t u) : Link all start S next where
  sound hp := by
    obtain ⟨j, m, hj, hR, hp⟩ := h.sound hp
    exact ⟨j, m, hj, (hRS _ _).1 hR, hp⟩
  complete hS hp := h.complete ((hRS _ _).2 hS) hp

theorem read {set : CharSet} (h : all[n]? = some (.read set next)) :
    Link all n (Expr.one set).Reads next where
  sound hp := by
    obtain ⟨j, rfl, hs, hp⟩ := (path_read h).1 hp
    exact ⟨j, _, Nat.le_succ j, ⟨hs, rfl⟩, hp⟩
  complete := by
    rintro k t m u ⟨hs, rfl⟩ hp
    exact ⟨k + 1, (path_read h).2 ⟨k, rfl, hs, hp⟩⟩

theorem test {e : Edge} (h : all[n]? = some (.test e next)) :
    Link all n (Expr.edge e).Reads next where
  sound hp := by
    obtain ⟨j, rfl, he, hp⟩ := (path_test h).1 hp
    exact ⟨j, _, Nat.le_succ j, ⟨he, rfl⟩, hp⟩
  complete := by
    rintro k t m u ⟨he, rfl⟩ hp
    exact ⟨k + 1, (path_test h).2 ⟨k, rfl, he, hp⟩⟩

theorem note {slot : Nat} (h : all[n]? = some (.note slot next)) :
    Link all n (fun t u => u = t.note slot) next where
  sound hp := by
    obtain ⟨j, rfl, hp'⟩ := (path_note h).1 hp
    exact ⟨j, _, Nat.le_succ j, rfl, hp'⟩
  complete := by
    rintro k t m u rfl hp
    exact ⟨k + 1, (path_note h).2 ⟨k, rfl, hp⟩⟩

theorem choice {greedy : Bool} {a b : Nat} (h : all[n]? = some (Graph.choice greedy a b))
    (ha : Link all a R next) (hb : Link all b S next) :
    Link all n (fun t u => R t u ∨ S t u) next where
  sound hp := by
    obtain ⟨i, rfl, hp | hp⟩ := (path_choice h).1 hp
    · obtain ⟨j, m, hj, hR, hp⟩ := ha.sound hp
      exact ⟨j, m, Nat.le_succ_of_le hj, .inl hR, hp⟩
    · obtain ⟨j, m, hj, hS, hp⟩ := hb.sound hp
      exact ⟨j, m, Nat.le_succ_of_le hj, .inr hS, hp⟩
  complete := by
    rintro k t m u (hR | hS) hp
    · obtain ⟨j, hp⟩ := ha.complete hR hp
      exact ⟨j + 1, (path_choice h).2 ⟨j, rfl, .inl hp⟩⟩
    · obtain ⟨j, hp⟩ := hb.complete hS hp
      exact ⟨j + 1, (path_choice h).2 ⟨j, rfl, .inr hp⟩⟩

theorem loop {greedy : Bool} (h : all[again]? = some (Graph.choice greedy start next))
    (hb : Link all start R again) : Link all again (Many R) next where
  sound := by
    intro k
    induction k using Nat.strongRecOn with
    | ind k ih =>
      intro t u hp
      obtain ⟨i, rfl, hp | hp⟩ := (path_choice h).1 hp
      · obtain ⟨j, m, hj, hR, hp⟩ := hb.sound hp
        obtain ⟨l, m', hl, ⟨n, hn⟩, hp⟩ := ih j (Nat.lt_succ_of_le hj) hp
        exact ⟨l, m', by omega, ⟨n + 1, m, hR, hn⟩, hp⟩
      · exact ⟨i, t, Nat.le_succ i, ⟨0, rfl⟩, hp⟩
  complete := by
    rintro k t m u ⟨n, hn⟩ hp
    induction n generalizing t with
    | zero =>
      cases hn
      exact ⟨k + 1, (path_choice h).2 ⟨k, rfl, .inr hp⟩⟩
    | succ n ih =>
      obtain ⟨m', hR, hn⟩ := hn
      obtain ⟨j, hp⟩ := ih hn
      obtain ⟨j, hp⟩ := hb.complete hR hp
      exact ⟨j + 1, (path_choice h).2 ⟨j, rfl, .inl hp⟩⟩

end Link

namespace Graph

/-- An array has all the nodes of a smaller one, at the same places. -/
structure Extends (grown nodes : Array Node) : Prop where
  size_le : nodes.size ≤ grown.size
  get : ∀ i, i < nodes.size → grown[i]? = nodes[i]?

theorem Extends.refl (nodes : Array Node) : Extends nodes nodes :=
  ⟨Nat.le_refl _, fun _ _ => rfl⟩

theorem Extends.trans {a b c : Array Node} (h : Extends a b) (h' : Extends b c) : Extends a c :=
  ⟨Nat.le_trans h'.size_le h.size_le,
    fun i hi => (h.get i (Nat.lt_of_lt_of_le hi h'.size_le)).trans (h'.get i hi)⟩

theorem extends_push (nodes : Array Node) (n : Node) : Extends (nodes.push n) nodes :=
  ⟨by simp, fun i hi => by simp [Array.getElem?_push, Nat.ne_of_lt hi]⟩

/-- An array agrees with the nodes that were added to some others. -/
def Has (all : Array Node) (lo : Nat) (nodes : Array Node) : Prop :=
  ∀ i, lo ≤ i → i < nodes.size → all[i]? = nodes[i]?

section Has
variable {all nodes grown : Array Node} {lo hi : Nat} {n : Node}

theorem Has.of_extends (h : Has all lo grown) (he : Extends grown nodes) : Has all lo nodes :=
  fun i hl hi => (h i hl (Nat.lt_of_lt_of_le hi he.size_le)).trans (he.get i hi)

theorem Has.mono (h : Has all lo nodes) (hle : lo ≤ hi) : Has all hi nodes :=
  fun i hl hi => h i (Nat.le_trans hle hl) hi

theorem Has.pushed (h : Has all lo (nodes.push n)) (hle : lo ≤ nodes.size) :
    all[nodes.size]? = some n := by
  rw [h nodes.size hle (by simp)]
  simp

end Has

/-- A layout adds nodes that link their start to the next node by a relation, whatever becomes of
the other nodes. -/
structure Lays (l : Layout) (R : Trail → Trail → Prop) : Prop where
  grown : ∀ next nodes, Extends (l next nodes).2 nodes
  link : ∀ next nodes all, Has all nodes.size (l next nodes).2 → Link all (l next nodes).1 R next

namespace Lays
variable {l l' : Layout} {R S : Trail → Trail → Prop}

theorem congr (h : Lays l R) (hRS : ∀ t u, R t u ↔ S t u) : Lays l S :=
  ⟨h.grown, fun next nodes all ha => (h.link next nodes all ha).congr hRS⟩

theorem nothing : Lays (fun next nodes => (next, nodes)) fun t u => u = t :=
  ⟨fun _ _ => .refl _, fun next _ _ _ => .refl next⟩

theorem node {f : Nat → Node}
    (h : ∀ (all : Array Node) n next, all[n]? = some (f next) → Link all n R next) :
    Lays (fun next nodes => add nodes (f next)) R where
  grown _ nodes := extends_push nodes _
  link next _ all ha := h all _ next (ha.pushed (Nat.le_refl _))

/-- One layout and then another, which comes before it in reading. -/
theorem follow (h : Lays l S) (h' : Lays l' R) :
    Lays (fun next nodes => l' (l next nodes).1 (l next nodes).2) (Follow R S) where
  grown next nodes := (h'.grown _ _).trans (h.grown next nodes)
  link next nodes all ha :=
    (h'.link _ _ all (ha.mono (h.grown next nodes).size_le)).follow
      (h.link next nodes all (ha.of_extends (h'.grown _ _)))

theorem times (h : Lays l R) (n : Nat) : Lays (times l n) (Repeats R n) := by
  induction n with
  | zero => exact nothing
  | succ n ih =>
    refine (h.follow ih).congr fun t u => ⟨?_, ?_⟩
    · rintro ⟨m, hn, hR⟩
      exact hn.add (.one hR)
    · intro hn
      obtain ⟨m, hn, m', hR, rfl⟩ := Repeats.split hn
      exact ⟨m, hn, hR⟩

theorem choice (h : Lays l R) (h' : Lays l' S) (greedy : Bool) :
    Lays (fun next nodes =>
      add (l' next (l next nodes).2).2
        (choice greedy (l next nodes).1 (l' next (l next nodes).2).1))
      (fun t u => R t u ∨ S t u) where
  grown next nodes := (extends_push _ _).trans ((h'.grown next _).trans (h.grown next nodes))
  link next nodes all ha := by
    have hg := h.grown next nodes
    have hg' := h'.grown next (l next nodes).2
    have ha' : Has all nodes.size (l' next (l next nodes).2).2 := ha.of_extends (extends_push _ _)
    exact .choice (ha.pushed (hg'.trans hg).size_le)
      (h.link next nodes all (ha'.of_extends hg')) (h'.link next _ all (ha'.mono hg.size_le))

section upTo
variable (h : Lays l R) (greedy : Bool) (leave : Nat)
include h

private theorem grown_upTo (n next : Nat) (nodes : Array Node) :
    Extends (upTo l greedy leave n next nodes).2 nodes := by
  induction n generalizing next nodes with
  | zero => exact .refl _
  | succ n ih => exact (ih _ _).trans ((extends_push _ _).trans (h.grown next nodes))

/-- Where the body may be done up to `q` times already, `n` rounds more make it `q + n`. -/
private theorem link_upTo (n q next : Nat) (nodes all : Array Node)
    (ha : Has all nodes.size (upTo l greedy leave n next nodes).2)
    (hq : Link all next (UpTo R q) leave) :
    Link all (upTo l greedy leave n next nodes).1 (UpTo R (q + n)) leave := by
  induction n generalizing q next nodes with
  | zero => exact hq
  | succ n ih =>
    have hg := h.grown next nodes
    have hlast := ha.of_extends (h.grown_upTo greedy leave n _ _)
    have hbody := (h.link next nodes all (hlast.of_extends (extends_push _ _))).follow hq
    have hround : Link all (l next nodes).2.size (UpTo R (q + 1)) leave := by
      refine (Link.choice (hlast.pushed hg.size_le) hbody (.refl leave)).congr fun t u => ⟨?_, ?_⟩
      · rintro (⟨m, hR, k, hk, hn⟩ | rfl)
        · exact ⟨k + 1, by omega, m, hR, hn⟩
        · exact ⟨0, by omega, rfl⟩
      · rintro ⟨_ | k, hk, hn⟩
        · exact .inr hn
        · obtain ⟨m, hR, hn⟩ := hn
          exact .inl ⟨m, hR, k, by omega, hn⟩
    rw [show q + (n + 1) = q + 1 + n by omega]
    exact ih (q + 1) _ _ (ha.mono ((extends_push _ _).trans hg).size_le) hround

theorem upTo (n : Nat) :
    Lays (fun next nodes => Graph.upTo l greedy next n next nodes) (UpTo R n) where
  grown next nodes := h.grown_upTo greedy next n next nodes
  link next nodes all ha := by
    have hz : Link all next (UpTo R 0) next := by
      refine (Link.refl next).congr fun t u => ⟨fun h => ⟨0, Nat.le_refl 0, h⟩, ?_⟩
      rintro ⟨k, hk, hn⟩
      obtain rfl := Nat.le_zero.1 hk
      exact hn
    simpa only [Nat.zero_add] using h.link_upTo greedy next n 0 next nodes all ha hz

end upTo

section loop
variable (h : Lays l R) (greedy : Bool) (next : Nat) (nodes : Array Node)
include h

private theorem grown_loop : Extends (loop l greedy next nodes).2.2 nodes := by
  have hg := (h.grown nodes.size (nodes.push .finish)).trans (extends_push nodes .finish)
  refine ⟨by simpa [loop, add] using hg.size_le, fun i hi => ?_⟩
  rw [← hg.get i hi]
  simp [loop, add, Nat.ne_of_gt hi]

/-- The fork of a loop leads into the body and on, and the body leads back to it. -/
private theorem link_loop (all : Array Node)
    (ha : Has all nodes.size (loop l greedy next nodes).2.2) :
    Link all (loop l greedy next nodes).2.1 (Many R) next ∧
      Link all (loop l greedy next nodes).1 (Follow R (Many R)) next := by
  have hg := h.grown nodes.size (nodes.push .finish)
  have hlt : nodes.size < (l nodes.size (nodes.push .finish)).2.size :=
    Nat.lt_of_lt_of_le (by simp) hg.size_le
  have hfork : all[nodes.size]? =
      some (Graph.choice greedy (l nodes.size (nodes.push .finish)).1 next) := by
    rw [ha nodes.size (Nat.le_refl _) (by simpa [loop, add] using hlt)]
    simp [loop, add, hlt]
  have hbody : Link all (l nodes.size (nodes.push .finish)).1 R nodes.size := by
    refine h.link _ _ all fun i hl hi => ?_
    have hne : nodes.size ≠ i := by
      rw [Array.size_push] at hl
      omega
    rw [ha i (by simp at hl; omega) (by simpa [loop, add] using hi)]
    simp [loop, add, hne]
  have hagain := Link.loop hfork hbody
  exact ⟨hagain, hbody.follow hagain⟩

end loop

theorem loop (h : Lays l R) (greedy : Bool) :
    Lays (fun next nodes => ((loop l greedy next nodes).2.1, (loop l greedy next nodes).2.2))
      (Many R) :=
  ⟨h.grown_loop greedy, fun next nodes all ha => (h.link_loop greedy next nodes all ha).1⟩

theorem loopBody (h : Lays l R) (greedy : Bool) :
    Lays (fun next nodes =>
        ((Graph.loop l greedy next nodes).1, (Graph.loop l greedy next nodes).2.2))
      (Follow R (Many R)) :=
  ⟨h.grown_loop greedy, fun next nodes all ha => (h.link_loop greedy next nodes all ha).2⟩

end Lays

theorem layout_atMost (a : Expr) (least extra : Nat) (greedy : Bool) :
    layout (.repeated a least (some extra) greedy) = fun next nodes =>
      times (layout a) least (upTo (layout a) greedy next extra next nodes).1
        (upTo (layout a) greedy next extra next nodes).2 := by
  cases least <;> rfl

theorem layout_star_some {a : Expr} (h : a.readsSome) (greedy : Bool) :
    layout (.repeated a 0 none greedy) = fun next nodes =>
      ((loop (layout a) greedy next nodes).2.1, (loop (layout a) greedy next nodes).2.2) :=
  funext fun _ => funext fun _ => if_pos h

theorem layout_star_none {a : Expr} (h : ¬ a.readsSome) (greedy : Bool) :
    layout (.repeated a 0 none greedy) = fun next nodes =>
      add (loop (layout a) greedy next nodes).2.2
        (choice greedy (loop (layout a) greedy next nodes).1 next) :=
  funext fun _ => funext fun _ => if_neg h

section layout
variable {a : Expr} (h : Lays (layout a) a.Reads)
include h

private theorem lays_group (i : Nat) : Lays (layout (.group i a)) (Expr.group i a).Reads := by
  have hstop : Lays (fun next nodes => add nodes (.note (2 * i + 1) next)) _ :=
    .node fun _ _ _ => .note
  have hstart : Lays (fun next nodes => add nodes (.note (2 * i) next)) _ :=
    .node fun _ _ _ => .note
  refine ((hstop.follow h).follow hstart).congr fun t u => ⟨?_, ?_⟩
  · rintro ⟨_, rfl, m, h, rfl⟩
    exact ⟨m, h, rfl⟩
  · rintro ⟨m, h, rfl⟩
    exact ⟨_, rfl, m, h, rfl⟩

private theorem lays_atMost (least extra : Nat) (greedy : Bool) :
    Lays (layout (.repeated a least (some extra) greedy))
      (Expr.repeated a least (some extra) greedy).Reads := by
  rw [layout_atMost]
  refine ((h.upTo greedy extra).follow (h.times least)).congr fun t u => ⟨?_, ?_⟩
  · rintro ⟨m, h, k, hk, h'⟩
    exact ⟨least + k, by omega, by rintro _ ⟨⟩; omega, h.add h'⟩
  · rintro ⟨k, hk, hx, h⟩
    obtain ⟨j, rfl⟩ := Nat.exists_eq_add_of_le hk
    obtain ⟨m, h, h'⟩ := Repeats.split h
    exact ⟨m, h, j, by have := hx extra rfl; omega, h'⟩

private theorem lays_atLeast (n : Nat) (greedy : Bool) :
    Lays (layout (.repeated a (n + 1) none greedy))
      (Expr.repeated a (n + 1) none greedy).Reads := by
  refine ((h.loopBody greedy).follow (h.times n)).congr fun t u => ⟨?_, ?_⟩
  · rintro ⟨m, h, m', ha, k, h'⟩
    exact ⟨n + (k + 1), by omega, nofun, h.add ⟨m', ha, h'⟩⟩
  · rintro ⟨k, hk, -, h⟩
    obtain ⟨j, rfl⟩ := Nat.exists_eq_add_of_le hk
    rw [Nat.add_assoc, Nat.add_comm 1 j] at h
    obtain ⟨m, h, m', ha, h'⟩ := Repeats.split h
    exact ⟨m, h, m', ha, j, h'⟩

private theorem lays_star (greedy : Bool) :
    Lays (layout (.repeated a 0 none greedy)) (Expr.repeated a 0 none greedy).Reads := by
  have hmany (t u : Trail) :
      Many a.Reads t u ↔ (Expr.repeated a 0 none greedy).Reads t u :=
    ⟨fun ⟨k, h⟩ => ⟨k, Nat.zero_le k, nofun, h⟩, fun ⟨k, _, _, h⟩ => ⟨k, h⟩⟩
  by_cases hs : a.readsSome
  · rw [layout_star_some hs]
    exact (h.loop greedy).congr hmany
  · rw [layout_star_none hs]
    refine ((h.loopBody greedy).choice .nothing greedy).congr fun t u => ⟨?_, ?_⟩
    · rintro (⟨m, ha, k, h⟩ | rfl)
      · exact (hmany t u).1 ⟨k + 1, m, ha, h⟩
      · exact (hmany _ _).1 ⟨0, rfl⟩
    · intro h
      obtain ⟨_ | k, h⟩ := (hmany t u).2 h
      · exact .inr h
      · obtain ⟨m, ha, h⟩ := h
        exact .inl ⟨m, ha, k, h⟩

end layout

private theorem lays_layout (e : Expr) : Lays (layout e) e.Reads := by
  induction e with
  | empty => exact .nothing
  | one set => exact .node fun _ _ _ => .read
  | edge e => exact .node fun _ _ _ => .test
  | both a b iha ihb => exact ihb.follow iha
  | either a b iha ihb => exact iha.choice ihb true
  | group i a ih => exact lays_group ih i
  | repeated a least extra greedy ih =>
    match least, extra with
    | least, some extra => exact lays_atMost ih least extra greedy
    | n + 1, none => exact lays_atLeast ih n greedy
    | 0, none => exact lays_star ih greedy

end Graph

/-- The paths from the start of an expression's graph are its readings. -/
theorem Expr.path_graph (e : Expr) (t u : Trail) :
    (∃ k, Path e.graph.2 k e.graph.1 t u) ↔ e.Reads t u := by
  have hl := Graph.lays_layout e
  have hlink : Link e.graph.2 e.graph.1 e.Reads 0 := hl.link 0 #[.finish] _ fun _ _ _ => rfl
  have hend : e.graph.2[0]? = some .finish := (hl.grown 0 #[.finish]).get 0 Nat.zero_lt_one
  constructor
  · rintro ⟨k, hp⟩
    obtain ⟨j, m, -, h, hp⟩ := hlink.sound hp
    obtain ⟨-, rfl⟩ := (path_finish hend).1 hp
    exact h
  · intro h
    exact hlink.complete h (.finish hend)

end MailMarkup.Pattern
