import MailMarkup.Proofs.Document.Lineage
import MailMarkup.Proofs.Document.Nesting

/-!
# Readings that are cut short

The ceiling on rounds may be met between two nodes or in the middle of a tag, and then a reading
still ends the tag, takes in raw content and closes what is open. None of this adds an element: with
its name, place and depth an element is listed as soon as its `<` is met, before the rounds in its
tag are counted. So a reading under a lower ceiling lists the elements that one under a higher
ceiling lists first.
-/
namespace MailMarkup

/-- What a listing says of an element: its name, its line and column, and how many elements it lies
in. -/
structure Heading where
  tag : Text
  line : Nat
  column : Nat
  depth : Nat
  deriving DecidableEq, Repr

namespace Forest

/-- The headings of all elements, in document order. -/
def headings (ns : Forest) : List Heading :=
  ns.preorder.filterMap fun p =>
    p.2.element?.map fun e => ⟨e.tag, e.start.line, e.start.column, p.1⟩

/-- The headings of the elements of a forest inside elements of the given names. -/
def headingsIn (names : List Text) (ns : Forest) : List Heading :=
  (ns.lineages names).map fun p => ⟨p.2.tag, p.2.start.line, p.2.start.column, p.1.length⟩

theorem headings_eq (ns : Forest) : headings ns = headingsIn [] ns := by
  have h := congrArg (List.map fun p : Nat × Element =>
    (⟨p.2.tag, p.2.start.line, p.2.start.column, p.1⟩ : Heading)) (filterMap_preorder ns)
  rw [List.map_map, List.map_filterMap] at h
  simp only [Node.element?At, Option.map_map] at h
  exact h

variable {names : List Text}

@[simp] theorem headingsIn_nil : headingsIn names [] = [] := rfl

private theorem headingsIn_append (ms ns : Forest) :
    headingsIn names (ms ++ ns) = headingsIn names ms ++ headingsIn names ns := by
  simp only [headingsIn, lineages_append, List.map_append]

theorem headingsIn_leaf {n : Node} (h : n.element? = none) : headingsIn names [n] = [] := by
  rw [headingsIn, lineages_singleton, Node.lineages_of_leaf h, List.map_nil]

theorem headingsIn_element (h : Head) (cs : Forest) :
    headingsIn names [.element h cs] =
      ⟨h.tag, h.start.line, h.start.column, names.length⟩ :: headingsIn (h.tag :: names) cs := by
  rw [headingsIn, lineages_singleton, Node.lineages]
  rfl

end Forest

namespace Reader
variable {l l' : Limits} {s s' u u' : State}

/-- The headings of what has been read, where `nodes` are the last first and the frames are open. -/
def headed (nodes : Forest) : List Frame → List Heading
  | [] => Forest.headingsIn [] nodes.reverse
  | f :: fs => headed f.earlier fs ++ ⟨f.tag, f.start.line, f.start.column, fs.length⟩ ::
      Forest.headingsIn ((f :: fs).map Frame.tag) nodes.reverse

def State.headings (s : State) : List Heading := headed s.nodes s.frames

theorem headed_cons (n : Node) (nodes : Forest) (fs : List Frame) :
    headed (n :: nodes) fs = headed nodes fs ++ Forest.headingsIn (fs.map Frame.tag) [n] := by
  cases fs <;> simp [headed, Forest.headingsIn_append]

theorem headed_close (f : Frame) (nodes : Forest) (stop : Position) (closed : Bool)
    (fs : List Frame) :
    headed (f.close nodes stop closed :: f.earlier) fs = headed nodes (f :: fs) := by
  rw [headed_cons, Frame.close, Forest.headingsIn_element, List.length_map]
  rfl

private theorem headings_finish (stop : Position) (nodes : Forest) (fs : List Frame) :
    Forest.headings (finish stop nodes fs) = headed nodes fs := by
  induction fs generalizing nodes with
  | nil => exact Forest.headings_eq _
  | cons f fs ih => rw [finish, ih, headed_close]

private theorem headingsIn_rawContent (names : List Text) (tag : Text) (c : Cursor) :
    Forest.headingsIn names (rawContent tag c).1 = [] := by
  rcases rawContent_nodes tag c with h | ⟨t, h, -⟩
  · rw [h, Forest.headingsIn_nil]
  · rw [h, Forest.headingsIn_leaf rfl]

private theorem headings_openTag (l : Limits) (s : State) :
    (openTag l s).headings = s.headings ++
      [⟨(tagName s.cursor.next).1, s.cursor.pos.line, s.cursor.pos.column, s.frames.length⟩] := by
  unfold openTag
  dsimp only
  split
  · simp [State.headings, headed_cons, Forest.headingsIn_element]
  · split
    · simp [State.headings, headed_cons, Forest.headingsIn_element, headingsIn_rawContent]
    · split
      · simp [State.headings, headed_cons, Forest.headingsIn_element]
      · simp [State.headings, headed]

theorem headings_leave (s : State) (c : Cursor) (closed : Bool) :
    (s.leave c closed).headings = s.headings := by
  unfold State.leave
  split
  · rfl
  · rename_i f fs hf
    simp only [State.headings, headed_close, hf]

theorem headings_markup (l : Limits) (s : State) :
    (markup l s).headings = s.headings ++
      if classify s.cursor.rest = .element then
        [⟨(tagName s.cursor.next).1, s.cursor.pos.line, s.cursor.pos.column, s.frames.length⟩]
      else [] := by
  have leaf {n : Node} (h : n.element? = none) (c : Cursor) :
      State.headings { s.push n with cursor := c } = s.headings := by
    simp [State.headings, State.push, headed_cons, Forest.headingsIn_leaf h]
  unfold markup
  cases kind : classify s.cursor.rest with
  | comment => simpa using leaf rfl _
  | declaration => simp [State.headings]
  | closing =>
    simp only [reduceCtorEq, if_false, List.append_nil]
    split
    · rfl
    · split
      · exact headings_leave _ _ _
      · split
        · exact headings_leave _ _ _
        · rfl
  | element => simpa using headings_openTag l s
  | text =>
    simp only [reduceCtorEq, if_false, List.append_nil]
    split
    · rfl
    · exact leaf rfl _

theorem headings_stop (h : step l s = (s', false)) : s'.headings = s.headings := by
  obtain ⟨-, rfl⟩ | ⟨st, -, -, rfl⟩ | ⟨st, -, -, -, rfl⟩ := step_stops h <;> rfl

theorem headings_prefix_run (l : Limits) (s : State) : s.headings <+: (run l s).headings := by
  refine run_induction (P := fun s' => s.headings <+: s'.headings)
    (Q := fun s' => s.headings <+: s'.headings) ?_ ?_ (List.prefix_refl _)
  · intro s₁ s₂ hs h
    obtain ⟨st, -, -, rfl⟩ := step_continues h
    rw [headings_markup]
    exact hs.trans (List.prefix_append _ _)
  · intro s₁ s₂ hs h
    rwa [headings_stop h]

private theorem headings_run_hit (h : s.stats.iterationLimitHit = true) :
    (run l s).headings = s.headings := by
  refine run_induction (P := (· = s)) (Q := fun s' => s'.headings = s.headings) ?_ ?_ rfl
  · rintro _ s' rfl hs
    obtain ⟨st, ht, -, -⟩ := step_continues hs
    rw [ReadStats.tick, h, if_pos rfl] at ht
    cases ht
  · rintro _ s' rfl hs
    exact headings_stop hs

/-- Two readings are at the same place of the same tree, the first after fewer rounds. -/
structure Beside (u s : State) : Prop where
  cursor : u.cursor = s.cursor
  nodes : u.nodes = s.nodes
  frames : u.frames = s.frames
  stats : u.stats.Lighter s.stats

theorem Beside.headings_eq (h : Beside u s) : u.headings = s.headings := by
  rw [State.headings, State.headings, h.nodes, h.frames]

private theorem Beside.markup_headings (h : Beside u s) (l l' : Limits) :
    (markup l' u).headings = (markup l s).headings := by
  rw [headings_markup, headings_markup, h.headings_eq, h.cursor, h.frames]

private theorem openTag_roomier (room : l.Roomier l') (depth : l'.maxDepth = l.maxDepth)
    (h : Beside u s) (hit : (openTag l s).stats.iterationLimitHit = false) :
    Beside (openTag l' u) (openTag l s) := by
  rw [openTag_hit] at hit
  obtain ⟨c, st, nodes, frames⟩ := s
  obtain ⟨c', su, nodes', frames'⟩ := u
  obtain ⟨rfl, rfl, rfl, hst⟩ := h
  obtain ⟨hcursor, hattributes, hself, hstats⟩ := attributes_roomier room _ _ _ _ hit su hst
  unfold openTag
  dsimp only
  rw [hcursor, hattributes, hself, depth]
  split
  · exact ⟨rfl, rfl, rfl, hstats⟩
  · split
    · exact ⟨rfl, rfl, rfl, hstats⟩
    · split
      · exact ⟨rfl, rfl, rfl, hstats.le, hstats.unmet⟩
      · exact ⟨rfl, rfl, rfl, hstats⟩

/-- Under a higher ceiling the same markup is handled in the same way, unless the lower one is met
in it. -/
theorem markup_roomier (room : l.Roomier l') (depth : l'.maxDepth = l.maxDepth) (h : Beside u s)
    (hit : (markup l s).stats.iterationLimitHit = false) :
    Beside (markup l' u) (markup l s) := by
  obtain ⟨c, st, nodes, frames⟩ := s
  obtain ⟨c', su, nodes', frames'⟩ := u
  obtain ⟨rfl, rfl, rfl, hst⟩ := h
  dsimp only at hst hit ⊢
  unfold markup at hit ⊢
  cases kind : classify c'.rest with
  | comment => exact ⟨rfl, rfl, rfl, hst⟩
  | declaration => exact ⟨rfl, rfl, rfl, hst⟩
  | closing =>
    cases frames' with
    | nil => exact ⟨rfl, rfl, rfl, hst⟩
    | cons f fs =>
      dsimp only
      split
      · exact ⟨rfl, rfl, rfl, hst⟩
      · split <;> exact ⟨rfl, rfl, rfl, hst⟩
  | element =>
    rw [kind] at hit
    exact openTag_roomier room depth ⟨rfl, rfl, rfl, hst⟩ hit
  | text =>
    dsimp only
    split <;> exact ⟨rfl, rfl, rfl, hst⟩

/-- What a reading lists is the beginning of what another lists that may make more rounds. -/
theorem headings_run_roomier (room : l.Roomier l') (depth : l'.maxDepth = l.maxDepth)
    (h : Beside u s) : (run l s).headings <+: (run l' u).headings := by
  fun_induction run l s generalizing u with
  | case1 s s' hs =>
    rw [headings_stop hs, ← h.headings_eq]
    exact headings_prefix_run l' u
  | case2 s s' hs ih =>
    obtain ⟨st, ht, hne, rfl⟩ := step_continues hs
    obtain ⟨su, hu, hst⟩ := h.stats.tick room ht
    have hstep := step_of_tick hu (h.cursor ▸ hne)
    rw [run_of_step hstep]
    have hbeside : Beside { u with cursor := u.cursor.skipBlanks, stats := su }
        { s with cursor := s.cursor.skipBlanks, stats := st } :=
      ⟨congrArg Cursor.skipBlanks h.cursor, h.nodes, h.frames, hst⟩
    cases hit : (markup l { s with
        cursor := s.cursor.skipBlanks, stats := st }).stats.iterationLimitHit with
    | false => exact ih (markup_roomier room depth hbeside hit)
    | true =>
      rw [headings_run_hit hit, ← hbeside.markup_headings l l']
      exact headings_prefix_run l' _

end Reader

/-- Of two readings whose limits differ in the ceiling on rounds only, the one with the lower
ceiling lists the elements that the other lists first. -/
theorem Document.read_rounds {l l' : Limits} {t : Text}
    (rounds : l.maxIterations ≤ l'.maxIterations)
    (attributes : l.maxAttributeIterations = l'.maxAttributeIterations)
    (depth : l.maxDepth = l'.maxDepth) :
    (Document.read l t).nodes.headings <+: (Document.read l' t).nodes.headings := by
  have room : l.Roomier l' := ⟨rounds, attributes.symm⟩
  have h := Reader.headings_run_roomier (u := ⟨.start t, {}, [], []⟩)
    (s := ⟨.start t, {}, [], []⟩) room depth.symm ⟨rfl, rfl, rfl, Nat.le_refl _, rfl⟩
  simp only [Document.read, Reader.headings_finish]
  exact h

/-- The ceiling is met in the tag of a raw element inside another one: the element is listed, its
content is taken in, and the element around it is left open. -/
theorem Document.read_rounds_in_tag :
    let t := "<td><script a b>x</script></td><p>".toList
    (Document.read { maxIterations := 4 } t).nodes.headings <+:
      (Document.read {} t).nodes.headings :=
  Document.read_rounds (by decide) rfl rfl

end MailMarkup
