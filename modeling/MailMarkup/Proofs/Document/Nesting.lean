import MailMarkup.Proofs.Document.Preorder
import MailMarkup.Proofs.Document.RoundTrip
import MailMarkup.Proofs.Document.Work

/-!
# The ceiling on nesting

A ceiling on nesting changes where nodes hang, and nothing else: the nodes come in the same order,
with the same content and at the same places. Every reading is compared with the one that nests
nothing. That one keeps pace, except that it does nothing while the other leaves elements for a
closing tag that it has still to read.
-/
namespace MailMarkup
open Reader

/-- A node apart from its place in the tree: its kind, what it says, and its line and column. -/
inductive Outline where
  | element (tag : Text) (attributes : List (Text × Text)) (line column : Nat)
  | text (content : Text) (line column : Nat)
  | comment (content : Text) (line column : Nat)
  deriving DecidableEq, Repr

def Node.outline : Node → Outline
  | .element h _ => .element h.tag h.attributes h.start.line h.start.column
  | .text t p => .text t p.line p.column
  | .comment t p => .comment t p.line p.column

namespace Forest

/-- The outlines of all nodes, in document order. -/
def outlines (ns : Forest) : List Outline := ns.preorder.map fun n => n.2.outline

theorem outlines_eq (ns : Forest) : outlines ns = ns.family.map Node.outline := by
  rw [← map_snd_preorder, List.map_map]
  rfl

@[simp] theorem outlines_nil : outlines [] = [] := rfl

private theorem outlines_append (ms ns : Forest) :
    outlines (ms ++ ns) = outlines ms ++ outlines ns := by
  simp only [outlines_eq, family_append, List.map_append]

theorem outlines_element (h : Head) (cs : Forest) :
    outlines [.element h cs] = (Node.element h cs).outline :: outlines cs := by
  simp only [outlines_eq, family, Node.family, List.append_nil, List.map_cons]

end Forest

namespace Reader

def Frame.outline (f : Frame) : Outline := .element f.tag f.attributes f.start.line f.start.column

/-- The outlines of what has been read, where `nodes` are the last first and the frames are open. -/
def listed (nodes : Forest) : List Frame → List Outline
  | [] => Forest.outlines nodes.reverse
  | f :: fs => listed f.earlier fs ++ f.outline :: Forest.outlines nodes.reverse

def State.outlines (s : State) : List Outline := listed s.nodes s.frames

theorem listed_cons (n : Node) (nodes : Forest) (fs : List Frame) :
    listed (n :: nodes) fs = listed nodes fs ++ Forest.outlines [n] := by
  cases fs <;> simp [listed, Forest.outlines_append]

theorem listed_close (f : Frame) (nodes : Forest) (stop : Position) (closed : Bool)
    (fs : List Frame) :
    listed (f.close nodes stop closed :: f.earlier) fs = listed nodes (f :: fs) := by
  rw [listed_cons, Frame.close, Forest.outlines_element]
  rfl

private theorem outlines_finish (stop : Position) (nodes : Forest) (fs : List Frame) :
    Forest.outlines (finish stop nodes fs) = listed nodes fs := by
  induction fs generalizing nodes with
  | nil => rfl
  | cons f fs ih => rw [finish, ih, listed_close]

end Reader

/-- The limits under which nothing is nested. -/
def Limits.flat (l : Limits) : Limits := { l with maxDepth := 0 }

/-- The second limits allow as many rounds in a tag as the first, and no fewer in all. -/
structure Limits.Roomier (l l' : Limits) : Prop where
  rounds : l.maxIterations ≤ l'.maxIterations
  attributes : l'.maxAttributeIterations = l.maxAttributeIterations

theorem Limits.roomier_flat (l : Limits) : l.Roomier l.flat := ⟨Nat.le_refl _, rfl⟩

/-- Fewer rounds were counted, and the ceiling was not met. -/
structure ReadStats.Lighter (st' st : ReadStats) : Prop where
  le : st'.iterations ≤ st.iterations
  unmet : st'.iterationLimitHit = false

section Hit
variable {l : Limits} {st st' : ReadStats}

theorem ReadStats.tick_hit (h : st.tick l = (st', false)) : st'.iterationLimitHit = true := by
  unfold ReadStats.tick at h
  split at h
  · obtain rfl := (Prod.mk.inj h).1
    assumption
  · split at h
    · obtain rfl := (Prod.mk.inj h).1
      rfl
    · cases h

theorem ReadStats.tick_unhit (h : st.tick l = (st', true)) : st'.iterationLimitHit = false := by
  unfold ReadStats.tick at h
  split at h
  · cases h
  · split at h
    · cases h
    · obtain rfl := (Prod.mk.inj h).1
      exact Bool.eq_false_iff.2 ‹_›

theorem ReadStats.le_tick {b : Bool} (h : st.tick l = (st', b)) :
    st.iterations ≤ st'.iterations := by
  obtain rfl : (st.tick l).1 = st' := congrArg Prod.fst h
  unfold ReadStats.tick
  split
  · exact Nat.le_refl _
  · split <;> exact Nat.le_succ _

/-- Where a round may be made, it may be made after fewer rounds, or when more are allowed, too. -/
theorem ReadStats.Lighter.tick {l' : Limits} {su : ReadStats} (h : su.Lighter st)
    (room : l.Roomier l') (ht : st.tick l = (st', true)) :
    ∃ su', su.tick l' = (su', true) ∧ su'.Lighter st' := by
  have hle := h.le
  have hroom := room.rounds
  unfold ReadStats.tick at ht
  split at ht
  · cases ht
  · split at ht
    · cases ht
    · obtain rfl := (Prod.mk.inj ht).1
      refine ⟨{ su with iterations := su.iterations + 1 }, ?_, ?_, h.unmet⟩
      · rw [ReadStats.tick, h.unmet, if_neg Bool.false_ne_true, if_neg (by omega)]
      · dsimp only
        omega

end Hit

namespace Reader
variable {l : Limits} {s s' u : State}

/-- Two ends of one tag, of which the first took fewer rounds. -/
structure TagEnd.Agrees (e' e : TagEnd) : Prop where
  cursor : e'.cursor = e.cursor
  attributes : e'.attributes = e.attributes
  selfClosing : e'.selfClosing = e.selfClosing
  stats : e'.stats.Lighter e.stats

/-- The attributes of a tag do not depend on the rounds made before, as long as the ceiling is not
met. -/
theorem attributes_roomier {l' : Limits} (room : l.Roomier l') (c : Cursor) (st : ReadStats)
    (round : Nat) (seen : List (Text × Text)) :
    (attributes l c st round seen).stats.iterationLimitHit = false → ∀ su : ReadStats,
      su.Lighter st →
        (attributes l' c su round seen).Agrees (attributes l c st round seen) := by
  have hsame := room.attributes
  induction c, st, round, seen using attributes_induction (l := l) with
  | spent c st round seen hr =>
    intro hit su h
    rw [attributes_spent hr, attributes_spent (hsame ▸ hr)]
    exact ⟨rfl, rfl, rfl, h.le, h.unmet⟩
  | stopped c st round seen st' hr ht =>
    intro hit
    have hmet := ReadStats.tick_hit ht
    rw [attributes_stopped hr ht, bailOut, hmet] at hit
    cases hit
  | ended c st round seen st' c' closing hr ht hround =>
    intro hit su h
    obtain ⟨su', hu, h'⟩ := h.tick room ht
    rw [attributes_round hr ht hround, attributes_round (hsame ▸ hr) hu hround]
    exact ⟨rfl, rfl, rfl, h'⟩
  | found c st round seen st' a c' hr ht hround ih =>
    intro hit su h
    obtain ⟨su', hu, h'⟩ := h.tick room ht
    rw [attributes_round hr ht hround] at hit
    rw [attributes_round hr ht hround, attributes_round (hsame ▸ hr) hu hround]
    exact ih hit su' h'
  | passed c st round seen st' c' n hr ht hround ih =>
    intro hit su h
    obtain ⟨su', hu, h'⟩ := h.tick room ht
    rw [attributes_round hr ht hround] at hit
    rw [attributes_round hr ht hround, attributes_round (hsame ▸ hr) hu hround]
    exact ih hit _ ⟨h'.le, h'.unmet⟩

/-- A reading that nests nothing has listed the same nodes as another. -/
structure Follows (u s : State) : Prop where
  frames : u.frames = []
  outlines : u.outlines = s.outlines
  stats : u.stats.Lighter s.stats

theorem outlines_push (s : State) (n : Node) (c : Cursor) (st : ReadStats) :
    State.outlines ⟨c, st, n :: s.nodes, s.frames⟩ = s.outlines ++ Forest.outlines [n] :=
  listed_cons n s.nodes s.frames

private theorem outlines_leave {f : Frame} {fs : List Frame} (hf : s.frames = f :: fs) (c : Cursor)
    (closed : Bool) : (s.leave c closed).outlines = s.outlines := by
  simp only [State.outlines, State.leave, hf, listed_close]

theorem Follows.push {n : Node} {c d : Cursor} {st su : ReadStats} (h : Follows u s)
    (hst : su.Lighter st) :
    Follows ⟨d, su, n :: u.nodes, u.frames⟩ ⟨c, st, n :: s.nodes, s.frames⟩ :=
  ⟨h.frames, by rw [outlines_push, outlines_push, h.outlines], hst⟩

theorem openTag_hit (l : Limits) (s : State) :
    (openTag l s).stats.iterationLimitHit =
      (attributes l (tagName s.cursor.next).2 s.stats 0 []).stats.iterationLimitHit := by
  unfold openTag
  dsimp only
  split
  · rfl
  · split
    · rfl
    · split <;> rfl

private theorem openTag_flat (h : Follows u s) (hc : u.cursor = s.cursor)
    (hit : (openTag l s).stats.iterationLimitHit = false) :
    Follows (openTag l.flat u) (openTag l s) ∧
      (openTag l.flat u).cursor = (openTag l s).cursor := by
  rw [openTag_hit] at hit
  obtain ⟨hcursor, hattributes, hself, hst⟩ :=
    attributes_roomier l.roomier_flat _ _ _ _ hit u.stats h.stats
  have hst' : ∀ n m, ReadStats.Lighter
      { (attributes l.flat (tagName s.cursor.next).2 u.stats 0 []).stats with depthLimitHits := n }
      { (attributes l (tagName s.cursor.next).2 s.stats 0 []).stats with depthLimitHits := m } :=
    fun _ _ => ⟨hst.le, hst.unmet⟩
  unfold openTag
  dsimp only
  rw [hc, hcursor, hattributes, hself]
  split
  · exact ⟨h.push hst, rfl⟩
  · split
    · exact ⟨h.push hst, rfl⟩
    · rw [if_pos (by exact Nat.zero_le _)]
      split
      · exact ⟨h.push (hst' _ _), rfl⟩
      · refine ⟨⟨h.frames, ?_, hst.le, hst.unmet⟩, rfl⟩
        rw [outlines_push, h.outlines, Forest.outlines_element]
        rfl

/-- A round of the one is a round of the other, unless it leaves an element for a closing tag that
is still to be read. -/
theorem markup_flat (h : Follows u s) (hc : u.cursor = s.cursor)
    (hit : (markup l s).stats.iterationLimitHit = false) :
    Follows u (markup l s) ∧ (markup l s).cursor = s.cursor ∨
      Follows (markup l.flat u) (markup l s) ∧ (markup l.flat u).cursor = (markup l s).cursor := by
  obtain ⟨c, st, nodes, frames⟩ := s
  obtain ⟨cu, su, nodes', frames'⟩ := u
  obtain rfl : cu = c := hc
  obtain rfl : frames' = [] := h.frames
  unfold markup at hit ⊢
  cases hm : classify cu.rest with
  | comment => exact .inr ⟨h.push h.stats, rfl⟩
  | declaration => exact .inr ⟨⟨rfl, h.outlines, h.stats⟩, rfl⟩
  | closing =>
    have passed (d : Cursor) : Follows ⟨d, su, nodes', []⟩ ⟨d, st, nodes, frames⟩ :=
      ⟨rfl, h.outlines, h.stats⟩
    cases frames with
    | nil => exact .inr ⟨passed _, rfl⟩
    | cons f fs =>
      have left (c d : Cursor) (closed : Bool) :
          Follows ⟨d, su, nodes', []⟩ (State.leave ⟨cu, st, nodes, f :: fs⟩ c closed) :=
        ⟨rfl, by rw [outlines_leave rfl]; exact h.outlines, h.stats⟩
      dsimp only
      split
      · exact .inr ⟨left _ _ _, rfl⟩
      · split
        · exact .inl ⟨left _ _ _, rfl⟩
        · exact .inr ⟨passed _, rfl⟩
  | element =>
    rw [hm] at hit
    exact .inr (openTag_flat h rfl hit)
  | text =>
    dsimp only
    split
    · exact .inr ⟨⟨rfl, h.outlines, h.stats⟩, rfl⟩
    · exact .inr ⟨h.push h.stats, rfl⟩

theorem skipBlanks_idem (c : Cursor) : c.skipBlanks.skipBlanks = c.skipBlanks := by
  refine skipBlanks_eq_self ?_
  rw [Cursor.peek, Cursor.skipBlanks, Cursor.rest_skipWhile]
  induction c.rest with
  | nil => rfl
  | cons x t ih =>
    cases hx : Text.isBlank x <;> simp [hx, ih]

private theorem run_hit (hs : s.stats.iterationLimitHit = true) :
    (run l s).stats.iterationLimitHit = true := by
  refine run_induction (P := fun s => s.stats.iterationLimitHit = true)
    (Q := fun s => s.stats.iterationLimitHit = true) ?_ ?_ hs
  · intro s s' hs h
    obtain ⟨st, ht, -, -⟩ := step_continues h
    rw [ReadStats.tick, hs, if_pos rfl] at ht
    cases ht
  · intro s s' hs h
    have htick : s.stats.tick l = (s.stats, false) := by rw [ReadStats.tick, hs, if_pos rfl]
    obtain ⟨-, rfl⟩ | ⟨st, -, ht, rfl⟩ | ⟨st, -, -, ht, rfl⟩ := step_stops h
    · exact hs
    · exact ReadStats.tick_hit ht
    · cases htick.symm.trans ht

theorem step_of_tick {st : ReadStats} (ht : s.stats.tick l = (st, true))
    (hne : s.cursor.skipBlanks.rest ≠ []) :
    step l s = (markup l { s with cursor := s.cursor.skipBlanks, stats := st }, true) := by
  have hend : s.cursor.atEnd = false := by
    cases hr : s.cursor.rest with
    | nil => exact absurd (by rw [Cursor.skipBlanks, Cursor.rest_skipWhile, hr]; rfl) hne
    | cons x t => rw [Cursor.atEnd, hr]; rfl
  have hend' : s.cursor.skipBlanks.atEnd = false := by
    rw [Cursor.atEnd, List.isEmpty_eq_false_iff]
    exact hne
  simp [step, hend, hend', ht]

private theorem outlines_run_blank (h : u.cursor.skipBlanks.rest = []) :
    (run l u).outlines = u.outlines := by
  refine run_induction (P := (· = u)) (Q := fun s => s.outlines = u.outlines) ?_ ?_ rfl
  · rintro s s' rfl hs
    obtain ⟨-, -, hne, -⟩ := step_continues hs
    exact absurd h hne
  · rintro s s' rfl hs
    obtain ⟨-, rfl⟩ | ⟨st, -, -, rfl⟩ | ⟨st, -, -, -, rfl⟩ := step_stops hs <;> rfl

/-- As long as the ceiling on rounds is not met, a reading lists what the one that nests nothing
lists. -/
theorem run_flat (h : Follows u s) (hc : u.cursor.skipBlanks = s.cursor.skipBlanks)
    (hit : (run l s).stats.iterationLimitHit = false) :
    (run l.flat u).outlines = (run l s).outlines := by
  fun_induction run l s generalizing u with
  | case1 s s' hs =>
    have blank (hr : s.cursor.skipBlanks.rest = []) : (run l.flat u).outlines = s.outlines :=
      (outlines_run_blank (hc ▸ hr)).trans h.outlines
    obtain ⟨hr, rfl⟩ | ⟨st, -, ht, rfl⟩ | ⟨st, -, hr, ht, rfl⟩ := step_stops hs
    · refine blank ?_
      rw [Cursor.skipBlanks, Cursor.rest_skipWhile, hr]
      rfl
    · rw [ReadStats.tick_hit ht] at hit
      cases hit
    · exact blank hr
  | case2 s s' hs ih =>
    obtain ⟨st, ht, hne, rfl⟩ := step_continues hs
    obtain ⟨su, hu, hst⟩ := h.stats.tick l.roomier_flat ht
    have hmarkup : (markup l { s with
        cursor := s.cursor.skipBlanks, stats := st }).stats.iterationLimitHit = false := by
      rw [Bool.eq_false_iff]
      intro hm
      rw [run_hit hm] at hit
      cases hit
    have hticked : Follows { u with cursor := s.cursor.skipBlanks, stats := su }
        { s with cursor := s.cursor.skipBlanks, stats := st } := ⟨h.frames, h.outlines, hst⟩
    rcases markup_flat hticked rfl hmarkup with ⟨hf, hcursor⟩ | ⟨hf, hcursor⟩
    · have hle := Nat.le_trans (ReadStats.le_tick hu) hf.stats.le
      refine ih ⟨h.frames, hf.outlines, hle, h.stats.unmet⟩ ?_ hit
      rw [hcursor, skipBlanks_idem, hc]
    · have hstep := step_of_tick hu (hc ▸ hne)
      rw [hc] at hstep
      rw [run_of_step hstep]
      exact ih hf (by rw [hcursor]) hit

end Reader

/-- As long as the ceiling on rounds is not met, what a reading lists does not depend on the ceiling
on nesting. -/
theorem Document.read_outlines {l : Limits} {t : Text}
    (hit : (Document.read l t).stats.iterationLimitHit = false) :
    (Document.read l t).nodes.outlines = (Document.read l.flat t).nodes.outlines := by
  have h := run_flat (l := l) (u := ⟨.start t, {}, [], []⟩) (s := ⟨.start t, {}, [], []⟩)
    ⟨rfl, rfl, Nat.le_refl _, rfl⟩ rfl hit
  simp only [Document.read, outlines_finish]
  exact h.symm

/-- Two readings whose limits differ in the ceiling on nesting only, neither of which meets the
ceiling on rounds, list the same nodes. -/
theorem Document.read_nesting {l m : Limits} {t : Text} (hi : l.maxIterations = m.maxIterations)
    (ha : l.maxAttributeIterations = m.maxAttributeIterations)
    (hl : (Document.read l t).stats.iterationLimitHit = false)
    (hm : (Document.read m t).stats.iterationLimitHit = false) :
    (Document.read l t).nodes.outlines = (Document.read m t).nodes.outlines := by
  have hflat : l.flat = m.flat := by simp [Limits.flat, hi, ha]
  rw [Document.read_outlines hl, Document.read_outlines hm, hflat]

/-- A closing tag that one reading takes for a stray one, another reads at once, and a third leaves
two elements for. -/
theorem Document.read_nesting_unclosed :
    let t := "<table><tr a=1><td>x<b></tr>y</table>z".toList
    (Document.read { maxDepth := 1 } t).nodes.outlines = (Document.read {} t).nodes.outlines :=
  Document.read_nesting rfl rfl (by decide +kernel) (by decide +kernel)

end MailMarkup
