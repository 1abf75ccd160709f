import Mathlib.Data.List.Perm.Subperm
import MailMarkup.Proofs.Pattern.Path

/-!
# Ways through the nodes that read nothing

The ways from a node are all there are: whatever path there is from the node, one of the ways whose
conditions hold leads to where it reads next or to the end. The exploration leaves out a node that
has been passed under weaker conditions, so what it keeps is a coverage invariant. At every place of
a text, each node passed under conditions that hold there is still being explored or has all that
follows it passed too.
-/
namespace MailMarkup.Pattern

private theorem holdAt_cons (c : Cursor) (e : Edge) (es : List Edge) :
    holdAt c (e :: es) = (e.holds c.before c.peek && holdAt c es) := rfl

private theorem holdAt_mono {c : Cursor} {es fs : List Edge} (h : es ⊆ fs) (hf : holdAt c fs) :
    holdAt c es := by
  simp only [holdAt, List.all_eq_true] at *
  exact fun e he => hf e (h he)

/-- The notes of a way, taken at the place of a trail. -/
def Trail.noteAll (slots : List Nat) (t : Trail) : Trail :=
  ⟨t.place, noteAt t.place slots t.notes⟩

namespace Way

private theorem holdAt_tested (c : Cursor) (e : Edge) (es : List Edge) :
    holdAt c (if es.contains e then es else e :: es) =
      (e.holds c.before c.peek && holdAt c es) := by
  split
  · rename_i h
    have hmem : e ∈ es := by simpa using h
    cases hh : holdAt c es with
    | false => simp
    | true =>
      simp only [holdAt, List.all_eq_true] at hh
      simp [hh e hmem]
  · exact holdAt_cons c e es

private theorem subset_tested (e : Edge) (es : List Edge) :
    es ⊆ if es.contains e then es else e :: es := by
  split
  · exact List.Subset.refl es
  · exact List.subset_cons_self e es

namespace Passed
variable {p q r : Passed} {n v : Nat} {es fs : List Edge} {c : Cursor}

/-- One state of an exploration is later than another. -/
structure Grows (p q : Passed) : Prop where
  free : ∀ n, p.free.testBit n → q.free.testBit n
  under : p.under ⊆ q.under
  found : p.found ⊆ q.found

theorem Grows.refl (p : Passed) : Grows p p := ⟨fun _ h => h, fun _ h => h, fun _ h => h⟩

theorem Grows.trans (h : Grows p q) (h' : Grows q r) : Grows p r :=
  ⟨fun n hn => h'.free n (h.free n hn), fun _ hm => h'.under (h.under hm),
    fun _ hm => h'.found (h.found hm)⟩

theorem grows_insert (p : Passed) (n : Nat) (es : List Edge) : Grows p (p.insert n es) := by
  unfold insert
  split
  · exact ⟨fun m hm => by simp [hm], fun _ h => h, fun _ h => h⟩
  · exact ⟨fun _ h => h, fun _ h => List.mem_cons_of_mem _ h, fun _ h => h⟩

@[simp] theorem found_insert (p : Passed) (n : Nat) (es : List Edge) :
    (p.insert n es).found = p.found := by
  unfold insert
  split <;> rfl

theorem grows_found (p : Passed) (w : Way) : Grows p { p with found := w :: p.found } :=
  ⟨fun _ h => h, fun _ h => h, fun _ h => List.mem_cons_of_mem _ h⟩

theorem Grows.has (h : Grows p q) (hs : es ⊆ fs) (hp : p.has n es) : q.has n fs := by
  simp only [Passed.has, Bool.or_eq_true, Bool.and_eq_true, List.any_eq_true] at *
  rcases hp with hp | ⟨hne, ⟨m, gs⟩, hm, hgs⟩
  · exact .inl (h.free n hp)
  · refine .inr ⟨?_, (m, gs), h.under hm, hgs.1, ?_⟩
    · cases fs with
      | nil => simp [List.subset_nil.1 hs] at hne
      | cons => rfl
    · have := hgs.2
      simp only [List.all_eq_true, List.contains_iff_mem] at *
      exact fun e he => hs (this e he)

private theorem has_insert (p : Passed) (n : Nat) (es : List Edge) : (p.insert n es).has n es := by
  cases es with
  | nil => simp [insert, has]
  | cons e es => simp +contextual [insert, has]

/-- The node has been passed under conditions that hold at a place. -/
def Visited (p : Passed) (c : Cursor) (n : Nat) : Prop :=
  p.free.testBit n ∨ ∃ es, (n, es) ∈ p.under ∧ holdAt c es

theorem Grows.visited (h : Grows p q) (hp : p.Visited c n) : q.Visited c n := by
  rcases hp with hp | ⟨es, hm, he⟩
  · exact .inl (h.free n hp)
  · exact .inr ⟨es, h.under hm, he⟩

private theorem visited_of_has (h : p.has n es) (he : holdAt c es) : p.Visited c n := by
  simp only [has, Bool.or_eq_true, Bool.and_eq_true, List.any_eq_true] at h
  rcases h with h | ⟨-, ⟨m, fs⟩, hm, hfs⟩
  · exact .inl h
  · obtain rfl : m = n := by simpa using hfs.1
    refine .inr ⟨fs, hm, holdAt_mono (fun e hmem => ?_) he⟩
    have := List.all_eq_true.1 hfs.2 e hmem
    simpa using this

theorem visited_insert : (p.insert n es).Visited c v ↔ p.Visited c v ∨ v = n ∧ holdAt c es := by
  cases es with
  | nil =>
    have hbit : (1 <<< n : Nat).testBit v = decide (n = v) := by
      rw [Nat.one_shiftLeft, Nat.testBit_two_pow]
    simp only [insert, Visited, List.isEmpty_nil, if_true, Nat.testBit_or, hbit, Bool.or_eq_true,
      decide_eq_true_eq]
    constructor
    · rintro ((h | rfl) | h)
      · exact .inl (.inl h)
      · exact .inr ⟨rfl, rfl⟩
      · exact .inl (.inr h)
    · rintro ((h | h) | ⟨rfl, -⟩)
      · exact .inl (.inl h)
      · exact .inr h
      · exact .inl (.inr rfl)
  | cons e es =>
    simp only [insert, Visited, List.isEmpty_cons, Bool.false_eq_true, if_false, List.mem_cons,
      Prod.mk.injEq]
    constructor
    · rintro (h | ⟨fs, ⟨rfl, rfl⟩ | h, hf⟩)
      · exact .inl (.inl h)
      · exact .inr ⟨rfl, hf⟩
      · exact .inl (.inr ⟨fs, h, hf⟩)
    · rintro ((h | ⟨fs, h, hf⟩) | ⟨rfl, hf⟩)
      · exact .inl h
      · exact .inr ⟨fs, .inr h, hf⟩
      · exact .inr ⟨_, .inl ⟨rfl, rfl⟩, hf⟩

/-- A way to a goal has been found whose conditions hold at a place. -/
def Found (p : Passed) (c : Cursor) (goal : Option Nat) : Prop :=
  ∃ w ∈ p.found, holdAt c w.edges ∧ w.goal = goal

/-- All that follows a node at a place has been passed, and the node itself found if it reads or is
the end. -/
def Closed (nodes : Array Node) (c : Cursor) (p : Passed) (n : Nat) : Prop :=
  match nodes[n]? with
  | none => True
  | some .finish => p.Found c none
  | some (.read _ _) => p.Found c (some n)
  | some (.test e next) => e.holds c.before c.peek → p.Visited c next
  | some (.note _ next) => p.Visited c next
  | some (.fork a b) => p.Visited c a ∧ p.Visited c b

theorem Grows.found_at {goal : Option Nat} (h : Grows p q) (hp : p.Found c goal) :
    q.Found c goal := by
  obtain ⟨w, hw, he⟩ := hp
  exact ⟨w, h.found hw, he⟩

theorem Grows.closed {nodes : Array Node} (h : Grows p q) (hp : Closed nodes c p n) :
    Closed nodes c q n := by
  unfold Closed at *
  split
  · trivial
  all_goals simp_all only
  · exact h.found_at hp
  · exact h.found_at hp
  · exact fun he => h.visited (hp he)
  · exact h.visited hp
  · exact ⟨h.visited hp.1, h.visited hp.2⟩

end Passed

variable {nodes : Array Node} {fuel n : Nat} {es : List Edge} {slots : List Nat} {p : Passed}
  {c : Cursor}

theorem grows_explore : p.Grows (explore nodes fuel n es slots p) := by
  fun_induction explore nodes fuel n es slots p with
  | case1 => exact .refl _
  | case2 => exact .refl _
  | case3 fuel n es slots p _ q => exact p.grows_insert n es
  | case4 fuel n es slots p _ q => exact (p.grows_insert n es).trans (q.grows_found _)
  | case5 fuel n es slots p _ q => exact (p.grows_insert n es).trans (q.grows_found _)
  | case6 fuel n es slots p _ q _ _ _ ih => exact (p.grows_insert n es).trans ih
  | case7 fuel n es slots p _ q _ _ _ ih => exact (p.grows_insert n es).trans ih
  | case8 fuel n es slots p _ q _ _ _ iha ihb => exact ((p.grows_insert n es).trans iha).trans ihb

private theorem visited_explore_of_not (h : holdAt c es = false) (v : Nat) :
    (explore nodes fuel n es slots p).Visited c v ↔ p.Visited c v := by
  have hins {p : Passed} {n : Nat} {es : List Edge} (h : holdAt c es = false) :
      (p.insert n es).Visited c v ↔ p.Visited c v := by
    simp [Passed.visited_insert, h]
  fun_induction explore nodes fuel n es slots p with
  | case1 => rfl
  | case2 => rfl
  | case3 => exact hins h
  | case4 => exact hins h
  | case5 => exact hins h
  | case6 fuel n es slots p _ q e _ _ ih =>
    have ht := holdAt_tested c e es
    rw [h, Bool.and_false] at ht
    exact (ih ht).trans (hins h)
  | case7 fuel n es slots p _ q _ _ _ ih => exact (ih h).trans (hins h)
  | case8 fuel n es slots p _ q _ _ _ iha ihb => exact (ihb h).trans ((iha h).trans (hins h))

/-- What holds of the nodes being explored: no node is among them twice, and each counts as passed
under the present conditions, so the exploration turns back when it meets one. -/
structure Stack (nodes : Array Node) (es : List Edge) (p : Passed) (stack : List Nat) : Prop where
  nodup : stack.Nodup
  lt_size : ∀ v ∈ stack, v < nodes.size
  has : ∀ v ∈ stack, p.has v es

/-- At a place each visited node is being explored or closed. -/
def Covers (nodes : Array Node) (c : Cursor) (p : Passed) (stack : List Nat) : Prop :=
  ∀ v, p.Visited c v → v ∈ stack ∨ p.Closed nodes c v

section Covers
variable {q : Passed} {stack : List Nat}

theorem Stack.length_le (h : Stack nodes es p stack) : stack.length ≤ nodes.size := by
  have hsub : stack ⊆ List.range nodes.size := fun v hv => List.mem_range.2 (h.lt_size v hv)
  simpa using (h.nodup.subperm hsub).length_le

theorem Stack.grow {fs : List Edge} (h : Stack nodes es p stack) (hg : p.Grows q) (hs : es ⊆ fs) :
    Stack nodes fs q stack :=
  ⟨h.nodup, h.lt_size, fun v hv => hg.has hs (h.has v hv)⟩

theorem Stack.push (h : Stack nodes es p stack) (hn : ¬ p.has n es) (hlt : n < nodes.size) :
    Stack nodes es (p.insert n es) (n :: stack) where
  nodup := List.nodup_cons.2 ⟨fun hm => hn (h.has n hm), h.nodup⟩
  lt_size v hv := by
    rcases List.mem_cons.1 hv with rfl | hv
    · exact hlt
    · exact h.lt_size v hv
  has v hv := by
    rcases List.mem_cons.1 hv with rfl | hv
    · exact p.has_insert v es
    · exact (p.grows_insert n es).has (List.Subset.refl es) (h.has v hv)

theorem Covers.insert (h : Covers nodes c p stack) (n : Nat) (es : List Edge) :
    Covers nodes c (p.insert n es) (n :: stack) := by
  intro v hv
  rcases Passed.visited_insert.1 hv with hv | ⟨rfl, -⟩
  · rcases h v hv with hm | hc
    · exact .inl (List.mem_cons_of_mem n hm)
    · exact .inr ((p.grows_insert n es).closed hc)
  · exact .inl List.mem_cons_self

theorem Covers.pop (h : Covers nodes c p (n :: stack)) (hn : p.Closed nodes c n) :
    Covers nodes c p stack := by
  intro v hv
  rcases h v hv with hm | hc
  · rcases List.mem_cons.1 hm with rfl | hm
    · exact .inr hn
    · exact .inl hm
  · exact .inr hc

theorem Covers.found (h : Covers nodes c p stack) (w : Way) :
    Covers nodes c { p with found := w :: p.found } stack := fun v hv =>
  (h v hv).imp_right (p.grows_found w).closed

private theorem Covers.explore_of_not (h : Covers nodes c p stack) (he : holdAt c es = false) :
    Covers nodes c (explore nodes fuel n es slots p) stack := fun v hv =>
  (h v ((visited_explore_of_not he v).1 hv)).imp_right grows_explore.closed

/-- An exploration visits its node and closes all it visits. The fuel suffices, since the nodes that
are being explored are distinct. -/
theorem explore_covers (fuel n : Nat) (slots : List Nat) (he : holdAt c es)
    (hs : Stack nodes es p stack) (hf : nodes.size < fuel + stack.length)
    (hc : Covers nodes c p stack) :
    (explore nodes fuel n es slots p).Visited c n ∧
      Covers nodes c (explore nodes fuel n es slots p) stack := by
  induction fuel generalizing n es slots p stack with
  | zero =>
    have := hs.length_le
    omega
  | succ fuel ih =>
    unfold explore
    split
    · rename_i hp
      exact ⟨Passed.visited_of_has hp he, hc⟩
    · rename_i hp
      have hins := hc.insert n es
      have hvis : (p.insert n es).Visited c n := Passed.visited_insert.2 (.inr ⟨rfl, he⟩)
      have hgrow {q : Passed} (hq : (p.insert n es).Grows q) : q.Visited c n := hq.visited hvis
      have hpush {node : Node} (hn : nodes[n]? = some node) :=
        hs.push hp (Array.getElem?_eq_some_iff.1 hn).1
      have hfuel : nodes.size < fuel + (n :: stack).length := by
        rw [List.length_cons]
        omega
      split
      · rename_i hn
        exact ⟨hvis, hins.pop (by simp [Passed.Closed, hn])⟩
      · rename_i hn
        refine ⟨hgrow (Passed.grows_found _ _), (hins.found _).pop ?_⟩
        simp only [Passed.Closed, hn]
        exact ⟨_, List.mem_cons_self, he, rfl⟩
      · rename_i hn
        refine ⟨hgrow (Passed.grows_found _ _), (hins.found _).pop ?_⟩
        simp only [Passed.Closed, hn]
        exact ⟨_, List.mem_cons_self, he, rfl⟩
      · rename_i e next hn
        have ht := holdAt_tested c e es
        rw [he, Bool.and_true] at ht
        cases hh : e.holds c.before c.peek with
        | true =>
          obtain ⟨hv, hcov⟩ := ih next slots (ht.trans hh)
            ((hpush hn).grow (.refl _) (subset_tested e es)) hfuel hins
          refine ⟨hgrow grows_explore, hcov.pop ?_⟩
          simp only [Passed.Closed, hn]
          exact fun _ => hv
        | false =>
          refine ⟨hgrow grows_explore, (hins.explore_of_not (ht.trans hh)).pop ?_⟩
          simp [Passed.Closed, hn, hh]
      · rename_i slot next hn
        obtain ⟨hv, hcov⟩ := ih next (slot :: slots) he (hpush hn) hfuel hins
        refine ⟨hgrow grows_explore, hcov.pop ?_⟩
        simp only [Passed.Closed, hn]
        exact hv
      · rename_i a b hn
        obtain ⟨ha, hcov⟩ := ih a slots he (hpush hn) hfuel hins
        obtain ⟨hb, hcov⟩ := ih b slots he
          ((hpush hn).grow grows_explore (List.Subset.refl es)) hfuel hcov
        refine ⟨hgrow (grows_explore.trans grows_explore), hcov.pop ?_⟩
        simp only [Passed.Closed, hn]
        exact ⟨grows_explore.visited ha, hb⟩

end Covers

/-- A way leads from a place to the end, or to a node that reads and from there to the end. -/
def Goes (nodes : Array Node) (w : Way) (t u : Trail) : Prop :=
  holdAt t.place w.edges ∧
    match w.goal with
    | none => u = t.noteAll w.slots
    | some n => ∃ k, Path nodes k n (t.noteAll w.slots) u

/-- What an exploration from a node finds leads on from that node, under the conditions it was given
and after the notes it was given. -/
theorem explore_sound {w : Way} (hw : w ∈ (explore nodes fuel n es slots p).found) :
    w ∈ p.found ∨ ∀ t u, w.Goes nodes t u →
      holdAt t.place es ∧ ∃ k, Path nodes k n (t.noteAll slots) u := by
  have hold {p : Passed} {n : Nat} {es : List Edge} (hw : w ∈ (p.insert n es).found) :
      w ∈ p.found := by simpa using hw
  fun_induction explore nodes fuel n es slots p with
  | case1 => exact .inl hw
  | case2 => exact .inl hw
  | case3 fuel n es slots p _ q => exact .inl (hold hw)
  | case4 fuel n es slots p _ q hn =>
    rcases List.mem_cons.1 hw with rfl | hw
    · refine .inr fun t u h => ⟨h.1, 0, ?_⟩
      obtain rfl : u = t.noteAll slots := h.2
      exact .finish hn
    · exact .inl (hold hw)
  | case5 fuel n es slots p _ q _ _ hn =>
    rcases List.mem_cons.1 hw with rfl | hw
    · exact .inr fun t u h => h
    · exact .inl (hold hw)
  | case6 fuel n es slots p _ q e next hn ih =>
    refine (ih hw).imp hold fun h t u hg => ?_
    obtain ⟨he, k, hp⟩ := h t u hg
    obtain ⟨hh, he⟩ := Bool.and_eq_true_iff.1 ((holdAt_tested t.place e es).symm.trans he)
    exact ⟨he, k + 1, .move (.test hn hh) hp⟩
  | case7 fuel n es slots p _ q slot next hn ih =>
    refine (ih hw).imp hold fun h t u hg => ?_
    obtain ⟨he, k, hp⟩ := h t u hg
    exact ⟨he, k + 1, .move (.note hn) hp⟩
  | case8 fuel n es slots p _ q a b hn iha ihb =>
    rcases ihb hw with hw | h
    · refine (iha hw).imp hold fun h t u hg => ?_
      obtain ⟨he, k, hp⟩ := h t u hg
      exact ⟨he, k + 1, .move (.first hn) hp⟩
    · refine .inr fun t u hg => ?_
      obtain ⟨he, k, hp⟩ := h t u hg
      exact ⟨he, k + 1, .move (.second hn) hp⟩

theorem allFrom_sound {w : Way} {t u : Trail} (hw : w ∈ allFrom nodes n) (h : w.Goes nodes t u) :
    ∃ k, Path nodes k n t u := by
  rcases explore_sound (List.mem_reverse.1 hw) with hw | hs
  · nomatch hw
  · exact (hs t u h).2

/-- A path goes on as a way says: it reads nothing and ends, or it reads at the way's goal. -/
def Starts (nodes : Array Node) (w : Way) (t u : Trail) : Prop :=
  holdAt t.place w.edges ∧
    (w.goal = none ∧ u.place = t.place ∨
      ∃ m set next k t', w.goal = some m ∧ nodes[m]? = some (.read set next) ∧ t.Sees set ∧
        t'.place = t.place.next ∧ Path nodes k next t' u)

private theorem starts_of_path {k : Nat} {t u : Trail} (h : Path nodes k n t u)
    (hp : ∀ v, p.Visited t.place v → p.Closed nodes t.place v) (hv : p.Visited t.place n) :
    ∃ w ∈ p.found, w.Starts nodes t u := by
  induction h with
  | finish hn =>
    have hc := hp _ hv
    simp only [Passed.Closed, hn] at hc
    obtain ⟨w, hw, he, hg⟩ := hc
    exact ⟨w, hw, he, .inl ⟨hg, rfl⟩⟩
  | move hm hpath ih =>
    have hc := hp _ hv
    cases hm with
    | read hn hs =>
      simp only [Passed.Closed, hn] at hc
      obtain ⟨w, hw, he, hg⟩ := hc
      exact ⟨w, hw, he, .inr ⟨_, _, _, _, _, hg, hn, hs, rfl, hpath⟩⟩
    | test hn hh =>
      simp only [Passed.Closed, hn] at hc
      exact ih hp (hc hh)
    | note hn =>
      simp only [Passed.Closed, hn] at hc
      exact ih hp hc
    | first hn =>
      simp only [Passed.Closed, hn] at hc
      exact ih hp hc.1
    | second hn =>
      simp only [Passed.Closed, hn] at hc
      exact ih hp hc.2

theorem allFrom_complete {k : Nat} {t u : Trail} (h : Path nodes k n t u) :
    ∃ w ∈ allFrom nodes n, w.Starts nodes t u := by
  have hnone : Covers nodes t.place {} [] := by
    rintro v (hv | ⟨es, hv, -⟩) <;> simp at hv
  have he : holdAt t.place [] := rfl
  obtain ⟨hv, hcov⟩ := explore_covers (nodes.size + 1) n [] he ⟨.nil, nofun, nofun⟩ (by simp) hnone
  obtain ⟨w, hw, hs⟩ := starts_of_path h (fun v hv => (hcov v hv).resolve_left nofun) hv
  exact ⟨w, List.mem_reverse.2 hw, hs⟩

end Way
end MailMarkup.Pattern
