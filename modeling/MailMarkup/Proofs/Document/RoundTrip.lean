import MailMarkup.Proofs.Document.Parts

/-!
# Reading what was written

A canonical forest is read back from its text. One round of the loops is never worth more than one
character, so the ceiling on rounds is not met.
-/
namespace MailMarkup
open Text Reader

/-- The ceiling on rounds has not been met, and `n` more may be made. -/
structure ReadStats.Room (l : Limits) (st : ReadStats) (n : Nat) : Prop where
  unmet : st.iterationLimitHit = false
  left : st.iterations + n ≤ l.maxIterations

section Room
variable {l : Limits} {st : ReadStats} {n : Nat}

theorem ReadStats.Room.mono {m : Nat} (h : st.Room l n) (hm : m ≤ n) : st.Room l m :=
  ⟨h.unmet, Nat.le_trans (Nat.add_le_add_left hm _) h.left⟩

theorem ReadStats.Room.tick (h : st.Room l (n + 1)) :
    ∃ st', st.tick l = (st', true) ∧ st'.Room l n := by
  have hl := h.left
  refine ⟨{ st with iterations := st.iterations + 1 }, ?_, h.unmet, ?_⟩
  · rw [ReadStats.tick, h.unmet, if_neg nofun, if_neg (by omega)]
  · dsimp only
    omega

end Room

@[simp] theorem Forest.unplaced_eq_map (ns : Forest) :
    Forest.unplaced ns = ns.map Node.unplaced := by
  induction ns with
  | nil => rfl
  | cons n ns ih => simp [Forest.unplaced, ih]

@[simp] theorem Forest.closedUp_eq_map (ns : Forest) :
    Forest.closedUp ns = ns.map Node.closedUp := by
  induction ns with
  | nil => rfl
  | cons n ns ih => simp [Forest.closedUp, ih]

namespace Reader
variable {l : Limits} {s s' s'' : State} {rest rest' : Text} {n n' : Nat} {ns ns' : Forest}

theorem attribute?_head {c c' : Cursor} {a : Text × Text} (h : attribute? c = some (a, c')) :
    ∃ x t, c.rest = x :: t ∧ isNameChar x = true := by
  cases hr : c.rest with
  | nil => simp [attribute?, hr] at h
  | cons x t =>
    cases hx : isNameChar x with
    | false => simp [attribute?, hr, hx] at h
    | true => exact ⟨x, t, rfl, hx⟩

private theorem attributes_step {c c' : Cursor} {st st' : ReadStats} {a : Text × Text} {round : Nat}
    {seen : List (Text × Text)} (hr : round < l.maxAttributeIterations)
    (ht : st.tick l = (st', true)) (ha : attribute? c.skipBlanks = some (a, c')) :
    attributes l c st round seen =
      attributes l c' st' (round + 1) (if seen.any (·.1 == a.1) then seen else a :: seen) := by
  obtain ⟨x, t, hrest, hx⟩ := attribute?_head ha
  have hp : c.skipBlanks.peek = some x := by rw [Cursor.peek, hrest]; rfl
  have hne : x ≠ '>' ∧ x ≠ '/' ∧ x ≠ '<' := by
    refine ⟨?_, ?_, ?_⟩ <;> rintro rfl <;> exact absurd hx (by decide)
  rw [attributes, if_neg (Nat.not_le.2 hr), ht]
  dsimp only
  rw [dif_neg (by simp [hrest]), if_neg (by simp [hp, hne]), if_neg (by simp [hp, hne]),
    if_neg (by simp [hp, hne])]
  split
  · rename_i a' d ha'
    obtain ⟨rfl, rfl⟩ := Prod.mk.inj (Option.some.inj (ha.symm.trans ha'))
    rfl
  · rename_i ha'
    exact absurd (ha.symm.trans ha') nofun

private theorem attributes_end {c : Cursor} {st st' : ReadStats} {round : Nat}
    {seen : List (Text × Text)} (hr : round < l.maxAttributeIterations)
    (ht : st.tick l = (st', true)) (hc : c.rest = '>' :: rest) :
    attributes l c st round seen = ⟨c.next, st', seen.reverse, false⟩ := by
  have hp : c.peek = some '>' := by rw [Cursor.peek, hc]; rfl
  have hs : c.skipBlanks = c := skipBlanks_eq_self (by rw [hp]; decide)
  rw [attributes, if_neg (Nat.not_le.2 hr), ht]
  simp [hs, hc, hp]

private theorem attributes_write {c : Cursor} {st : ReadStats} {as : List (Text × Text)}
    (round : Nat) (seen : List (Text × Text)) (names : ∀ a ∈ as, IsAttributeName a.1)
    (values : ∀ a ∈ as, '"' ∉ a.2) (distinct : (as.map Prod.fst).Nodup)
    (fresh : ∀ a ∈ as, ∀ b ∈ seen, b.1 ≠ a.1) (hc : c.rest = Attributes.write as ++ '>' :: rest)
    (hr : round + as.length < l.maxAttributeIterations) (hst : st.Room l (n + as.length + 1)) :
    ∃ c' st', attributes l c st round seen = ⟨c', st', seen.reverse ++ as, false⟩ ∧
      c'.rest = rest ∧ st'.Room l n := by
  induction as generalizing c st round seen with
  | nil =>
    obtain ⟨st', ht, hst'⟩ := hst.tick
    have hrest : c.rest = '>' :: rest := hc
    refine ⟨c.next, st', ?_, by simp [hrest], hst'⟩
    rw [attributes_end (by simpa using hr) ht hrest, List.append_nil]
  | cons a as ih =>
    obtain ⟨name, v⟩ := a
    rw [List.length_cons] at hr hst
    obtain ⟨st', ht, hst'⟩ := hst.tick
    have hn : IsAttributeName name := names _ List.mem_cons_self
    have hrest : c.skipBlanks.rest =
        name ++ '=' :: '"' :: (v ++ '"' :: (Attributes.write as ++ '>' :: rest)) := by
      obtain ⟨x, t, rfl⟩ := List.exists_cons_of_ne_nil hn.1
      have hb := (hn.2 x List.mem_cons_self).2.1
      have hsp : isBlank ' ' = true := by decide
      rw [Cursor.skipBlanks, Cursor.rest_skipWhile, hc]
      simp [Attributes.write, hb, hsp]
    obtain ⟨c', ha, hc'⟩ := attribute?_write hn (values _ List.mem_cons_self) hrest
    have hseen : seen.any (·.1 == name) = false := by
      rw [List.any_eq_false]
      intro b hb
      simpa using fresh _ List.mem_cons_self b hb
    obtain ⟨hnot, hdistinct⟩ := List.nodup_cons.1 distinct
    have hfresh : ∀ a ∈ as, ∀ b ∈ (name, v) :: seen, b.1 ≠ a.1 := by
      intro a ha b hb
      rcases List.mem_cons.1 hb with rfl | hb
      · intro h
        exact hnot (List.mem_map.2 ⟨a, ha, h.symm⟩)
      · exact fresh a (List.mem_cons_of_mem _ ha) b hb
    obtain ⟨c'', st'', he, hrest'', hst''⟩ := ih _ _
      (fun a ha => names a (List.mem_cons_of_mem _ ha))
      (fun a ha => values a (List.mem_cons_of_mem _ ha)) hdistinct hfresh hc'
      (by omega : round + 1 + as.length < l.maxAttributeIterations) (hst'.mono (by omega))
    refine ⟨c'', st'', ?_, hrest'', hst''⟩
    rw [attributes_step (by omega) ht ha, hseen]
    simpa using he

theorem run_of_step (h : step l s = (s', true)) : run l s = run l s' := by
  rw [run]
  split <;> simp_all

theorem run_of_stop (h : step l s = (s', false)) : run l s = s' := by
  rw [run]
  split <;> simp_all

theorem run_at_end (h : s.cursor.rest = []) : run l s = s :=
  run_of_stop (by simp [step, Cursor.atEnd, h])

theorem run_markup {x : Char} (hp : s.cursor.peek = some x) (hx : isBlank x = false)
    (hst : s.stats.Room l (n + 1)) :
    ∃ st, st.Room l n ∧ run l s = run l (markup l { s with stats := st }) := by
  obtain ⟨st, ht, hst'⟩ := hst.tick
  have hs : s.cursor.skipBlanks = s.cursor := skipBlanks_eq_self (by simp [hp, hx])
  have he : s.cursor.atEnd = false := by
    cases hr : s.cursor.rest <;> simp_all [Cursor.atEnd, Cursor.peek]
  refine ⟨st, hst', run_of_step ?_⟩
  simp [step, he, ht, hs]

/-- Reading gets from one state to another past what is written of a forest, with `n` rounds to
spare. -/
structure Reads (l : Limits) (ns : Forest) (rest : Text) (n : Nat) (s s' : State) : Prop where
  run : Reader.run l s = Reader.run l s'
  rest : s'.cursor.rest = rest
  room : s'.stats.Room l n
  frames : s'.frames = s.frames
  nodes : Forest.unplaced s'.nodes =
    (Forest.unplaced (Forest.closedUp ns)).reverse ++ Forest.unplaced s.nodes

theorem Reads.trans (h : Reads l ns rest n s s') (h' : Reads l ns' rest' n' s' s'') :
    Reads l (ns ++ ns') rest' n' s s'' where
  run := h.run.trans h'.run
  rest := h'.rest
  room := h'.room
  frames := h'.frames.trans h.frames
  nodes := by
    rw [h'.nodes, h.nodes]
    simp

/-- Texts end here: nothing is left, or markup starts. -/
def Stops (t : Text) : Prop := t = [] ∨ classify t ≠ .text

theorem classify_of_ne {x : Char} {t : Text} (h : x ≠ '<') : classify (x :: t) = .text := by
  unfold classify
  split <;> simp_all

private theorem textRun_write {t acc : Text} (ht : '<' ∉ t) (hr : Stops rest) :
    textRun (t ++ rest) acc = acc.reverse ++ t := by
  induction t generalizing acc with
  | nil =>
    cases rest with
    | nil => simp [textRun]
    | cons x rest =>
      have hx : classify (x :: rest) ≠ .text := hr.resolve_left (List.cons_ne_nil x rest)
      simp [textRun, hx]
  | cons x t ih =>
    have hx : classify (x :: (t ++ rest)) = .text := classify_of_ne fun h => ht (by simp [h])
    rw [List.cons_append, textRun, if_pos hx, ih fun h => ht (List.mem_cons_of_mem x h)]
    simp

private theorem text_reads {t : Text} {p : Position} (trimmed : IsTrimmed t) (content : '<' ∉ t)
    (hc : s.cursor.rest = t ++ rest) (hr : Stops rest) (hst : s.stats.Room l (n + 1)) :
    ∃ s', Reads l [.text t p] rest n s s' := by
  obtain ⟨x, t, rfl⟩ := List.exists_cons_of_ne_nil trimmed.1
  have hp : s.cursor.peek = some x := by rw [Cursor.peek, hc]; rfl
  have hx : isBlank x = false := by simpa using trimmed.head_not_blank
  have hm : classify (x :: (t ++ rest)) = .text := classify_of_ne fun h => content (by simp [h])
  obtain ⟨st, hst', hrun⟩ := run_markup hp hx hst
  have ht : textRun (x :: t ++ rest) [] = x :: t := textRun_write content hr
  have hmark : markup l { s with stats := st } =
      ⟨s.cursor.advance (x :: t).length, st, .text (x :: t) s.cursor.pos :: s.nodes, s.frames⟩ := by
    simp_all [markup, trimmed.2, State.push]
  rw [hmark] at hrun
  exact ⟨_, hrun, by simp [hc], hst', rfl, by simp [Node.unplaced, Node.closedUp]⟩

private theorem comment_reads {t : Text} {p : Position} (content : ¬ "-->".toList <:+: t)
    (hc : s.cursor.rest = "<!--".toList ++ t ++ "-->".toList ++ rest)
    (hst : s.stats.Room l (n + 1)) : ∃ s', Reads l [.comment t p] rest n s s' := by
  have hp : s.cursor.peek = some '<' := by rw [Cursor.peek, hc]; rfl
  have hm : classify s.cursor.rest = .comment := by rw [hc]; rfl
  obtain ⟨st, hst', hrun⟩ := run_markup hp (by decide) hst
  obtain ⟨h1, h2⟩ := commentBody_write content hc
  have hmark : markup l { s with stats := st } =
      ⟨(commentBody s.cursor).2, st, .comment t s.cursor.pos :: s.nodes, s.frames⟩ := by
    simp [markup, hm, h1, State.push]
  rw [hmark] at hrun
  exact ⟨_, hrun, h2, hst', rfl, by simp [Node.unplaced, Node.closedUp]⟩

theorem classify_letter {name : Text} (h : name.head?.any isLetter = true) (t : Text) :
    classify ('<' :: (name ++ t)) = .element := by
  cases name with
  | nil => exact absurd h nofun
  | cons c name =>
    have hc : isLetter c = true := by simpa using h
    have hne : isLetter '!' = false ∧ isLetter '/' = false ∧ isLetter '?' = false := by decide
    unfold classify
    split <;> simp_all

theorem classify_tag {tag : Text} (ht : IsTag tag) (t : Text) :
    classify ('<' :: (tag ++ t)) = .element := by
  cases tag with
  | nil => exact ht.elim
  | cons c tag => exact classify_letter (by simp [isLetter, ht.1]) t

theorem head_reads {h : Head} (head : h.Canonical) (hc : s.cursor.rest = h.write ++ rest)
    (ha : h.attributes.length < l.maxAttributeIterations)
    (hst : s.stats.Room l (n + h.attributes.length + 2)) :
    ∃ c st st', c.rest = rest ∧ st.Room l n ∧
      run l s = run l (openTag l { s with stats := st' }) ∧
      (tagName s.cursor.next).1 = h.tag ∧
      attributes l (tagName s.cursor.next).2 st' 0 [] = ⟨c, st, h.attributes, false⟩ := by
  have hc' : s.cursor.rest =
      '<' :: (h.tag ++ (Attributes.write h.attributes ++ '>' :: rest)) := by
    simp [hc, Head.write]
  have hp : s.cursor.peek = some '<' := by rw [Cursor.peek, hc']; rfl
  have hm : classify s.cursor.rest = .element := by rw [hc']; exact classify_tag head.tag _
  obtain ⟨st', hst', hrun⟩ := run_markup hp (by decide) hst
  have hstop : (Attributes.write h.attributes ++ '>' :: rest).head?.any isTagChar = false := by
    cases h.attributes <;> rfl
  obtain ⟨h1, h2⟩ := tagName_write (c := s.cursor.next) head.tag (by simp [hc']) hstop
  obtain ⟨c, st, he, hr, hst''⟩ := attributes_write 0 [] head.names head.values head.distinct
    (fun _ _ _ hb => absurd hb List.not_mem_nil) h2 (by omega) hst'
  exact ⟨c, st, st', hr, hst'', by simpa [markup, hm] using hrun, h1, he⟩

private theorem void_reads {h : Head} (head : h.Canonical) (void : h.tag ∈ voidTags)
    (hc : s.cursor.rest = h.write ++ rest) (ha : h.attributes.length < l.maxAttributeIterations)
    (hst : s.stats.Room l (n + h.attributes.length + 2)) :
    ∃ s', Reads l [.element h []] rest n s s' := by
  obtain ⟨c, st, st', hr, hst', hrun, htag, he⟩ := head_reads head hc ha hst
  have hopen : openTag l { s with stats := st' } =
      ⟨c, st, .element ⟨h.tag, h.attributes, s.cursor.pos, c.pos, true⟩ [] :: s.nodes,
        s.frames⟩ := by
    simp [openTag, htag, he, void]
  rw [hopen] at hrun
  exact ⟨_, hrun, hr, hst', rfl, by simp [Node.unplaced, Node.closedUp]⟩

theorem not_void_of_raw {tag : Text} (h : tag ∈ rawTags) : tag ∉ voidTags := by
  have hdisjoint : ∀ tag ∈ rawTags, tag ∉ voidTags := by decide
  exact hdisjoint tag h

private theorem raw_reads {h : Head} {cs : Forest} (head : h.Canonical) (raw : h.tag ∈ rawTags)
    (content : RawContent h.tag cs)
    (hc : s.cursor.rest = h.write ++ (Forest.write cs ++ h.writeEnd ++ rest))
    (ha : h.attributes.length < l.maxAttributeIterations)
    (hst : s.stats.Room l (n + h.attributes.length + 2)) :
    ∃ s', Reads l [.element h cs] rest n s s' := by
  obtain ⟨c, st, st', hr, hst', hrun, htag, he⟩ := head_reads head hc ha hst
  obtain ⟨h1, h2, h3⟩ := rawContent_write head.tag content hr
  have void := not_void_of_raw raw
  have hopen : openTag l { s with stats := st' } =
      ⟨(rawContent h.tag c).2.2, st, .element ⟨h.tag, h.attributes, s.cursor.pos,
        (rawContent h.tag c).2.2.pos, true⟩ (rawContent h.tag c).1 :: s.nodes, s.frames⟩ := by
    simp [openTag, htag, he, void, raw, h2]
  rw [hopen] at hrun
  refine ⟨_, hrun, h3, hst', rfl, ?_⟩
  have hcs : Forest.closedUp cs = cs := by cases content <;> rfl
  simp only [Forest.unplaced, Forest.closedUp, Node.unplaced, Node.closedUp, h1, hcs]
  rfl

private theorem close_reads {h : Head} {f : Frame} {fs : List Frame} (ht : IsTag h.tag)
    (hf : s.frames = f :: fs) (hft : f.tag = h.tag) (hc : s.cursor.rest = h.writeEnd ++ rest)
    (hst : s.stats.Room l (n + 1)) :
    ∃ c st, c.rest = rest ∧ st.Room l n ∧
      run l s = run l ⟨c, st, f.close s.nodes c.pos true :: f.earlier, fs⟩ := by
  have hp : s.cursor.peek = some '<' := by rw [Cursor.peek, hc]; rfl
  have hm : classify s.cursor.rest = .closing := by rw [hc]; rfl
  obtain ⟨st, hst', hrun⟩ := run_markup hp (by decide) hst
  obtain ⟨h1, h2⟩ := closingTag_write ht hc
  refine ⟨(closingTag s.cursor).2, st, h2, hst', ?_⟩
  simpa [markup, hm, hf, hft, h1, State.leave] using hrun

private theorem element_reads {h : Head} {cs : Forest} (head : h.Canonical)
    (void : h.tag ∉ voidTags) (raw : h.tag ∉ rawTags)
    (hc : s.cursor.rest = h.write ++ (Forest.write cs ++ (h.writeEnd ++ rest)))
    (ha : h.attributes.length < l.maxAttributeIterations) (hd : s.frames.length < l.maxDepth)
    (hst : s.stats.Room l (n + 1 + (Forest.write cs).length + h.attributes.length + 2))
    (children : ∀ u : State, u.cursor.rest = Forest.write cs ++ (h.writeEnd ++ rest) →
      u.stats.Room l (n + 1 + (Forest.write cs).length) → u.frames.length = s.frames.length + 1 →
      ∃ u', Reads l cs (h.writeEnd ++ rest) (n + 1) u u') :
    ∃ s', Reads l [.element h cs] rest n s s' := by
  obtain ⟨c, st, st', hr, hst', hrun, htag, he⟩ := head_reads head hc ha hst
  let f : Frame := ⟨h.tag, h.attributes, s.cursor.pos, s.nodes⟩
  have hopen : openTag l { s with stats := st' } = ⟨c, st, [], f :: s.frames⟩ := by
    simp [openTag, htag, he, void, raw, Nat.not_le.2 hd, f]
  rw [hopen] at hrun
  obtain ⟨u, hu⟩ := children ⟨c, st, [], f :: s.frames⟩ hr hst' rfl
  obtain ⟨c', st'', hr', hst'', hrun'⟩ := close_reads head.tag hu.frames rfl hu.rest hu.room
  refine ⟨_, hrun.trans (hu.run.trans hrun'), hr', hst'', rfl, ?_⟩
  have hnodes := congrArg List.reverse hu.nodes
  simp only [Forest.unplaced_eq_map, List.map_nil, List.append_nil, List.reverse_reverse,
    ← List.map_reverse] at hnodes
  simp [Frame.close, Node.unplaced, Node.closedUp, f, hnodes]

private theorem length_le_attributes (as : List (Text × Text)) :
    as.length ≤ (Attributes.write as).length := by
  induction as with
  | nil => simp
  | cons a as ih =>
    simp only [Attributes.write, List.flatMap_cons, List.length_append, List.length_cons] at ih ⊢
    omega

theorem length_le_head (h : Head) : h.attributes.length + 2 ≤ h.write.length := by
  have := length_le_attributes h.attributes
  simp only [Head.write, List.length_append, List.length_cons, List.length_nil]
  omega

theorem write_element_of_void {h : Head} (void : h.tag ∈ voidTags) (cs : Forest) :
    (Node.element h cs).write = h.write := by
  simp [Node.write_element, void]

theorem write_element {h : Head} (void : h.tag ∉ voidTags) (cs : Forest) :
    (Node.element h cs).write = h.write ++ (Forest.write cs ++ h.writeEnd) := by
  simp [Node.write_element, void]

private theorem stops_end (h : Head) (t : Text) : Stops (h.writeEnd ++ t) := .inr nofun

theorem stops_head {h : Head} (head : h.Canonical) (t : Text) : Stops (h.write ++ t) := by
  have hc := classify_tag head.tag (Attributes.write h.attributes ++ ['>'] ++ t)
  refine .inr ?_
  simp only [Head.write, List.cons_append, List.append_assoc] at hc ⊢
  rw [hc]
  nofun

end Reader

section Canonical
variable {l : Limits} {s : State} {rest : Text} {n : Nat} {ns : Forest}

theorem Forest.Canonical.stops (h : Forest.Canonical ns) (next : ns.head?.any Node.isText = false)
    (hr : Stops rest) : Stops (Forest.write ns ++ rest) := by
  cases h with
  | nil => exact hr
  | text => exact absurd next nofun
  | comment => exact .inr nofun
  | void head void =>
    rw [Forest.write, write_element_of_void void, List.append_assoc]
    exact stops_head head _
  | raw head raw =>
    rw [Forest.write, write_element (not_void_of_raw raw), List.append_assoc, List.append_assoc]
    exact stops_head head _
  | element head void =>
    rw [Forest.write, write_element void, List.append_assoc, List.append_assoc]
    exact stops_head head _

theorem Forest.Canonical.reads (h : Forest.Canonical ns)
    (hc : s.cursor.rest = Forest.write ns ++ rest) (hr : Stops rest)
    (hst : s.stats.Room l (n + (Forest.write ns).length))
    (ha : Forest.attributeCount ns < l.maxAttributeIterations)
    (hd : s.frames.length + Forest.height ns ≤ l.maxDepth) :
    ∃ s', Reads l ns rest n s s' := by
  induction h generalizing s rest n with
  | nil => exact ⟨s, rfl, by simpa [Forest.write] using hc, hst.mono (by omega), rfl, by simp⟩
  | @text t p ns trimmed content next rest' ih =>
    simp only [Forest.write, Node.write_text, List.append_assoc, List.length_append,
      Forest.attributeCount, Node.attributeCount, Forest.height, Node.height] at hc hst ha hd
    have hpos := List.length_pos_iff.2 trimmed.1
    obtain ⟨s', h1⟩ := text_reads (n := n + (Forest.write ns).length) (p := p) trimmed content hc
      (rest'.stops next hr) (hst.mono (by omega))
    obtain ⟨s'', h2⟩ := ih h1.rest hr h1.room (by omega) (by rw [h1.frames]; omega)
    exact ⟨s'', h1.trans h2⟩
  | @comment t p ns content rest' ih =>
    simp only [Forest.write, List.append_assoc, List.length_append, Forest.attributeCount,
      Forest.height] at hc hst ha hd
    have hpos : 0 < (Node.comment t p).write.length := by simp [Node.write_comment]
    obtain ⟨s', h1⟩ := comment_reads (n := n + (Forest.write ns).length) (p := p) content hc
      (hst.mono (by omega))
    obtain ⟨s'', h2⟩ := ih h1.rest hr h1.room (by omega) (by rw [h1.frames]; omega)
    exact ⟨s'', h1.trans h2⟩
  | @void h ns head void rest' ih =>
    simp only [Forest.write, write_element_of_void void, List.append_assoc, List.length_append,
      Forest.attributeCount, Node.attributeCount, Forest.height] at hc hst ha hd
    have hlen := length_le_head h
    obtain ⟨s', h1⟩ := void_reads (n := n + (Forest.write ns).length) head void hc (by omega)
      (hst.mono (by omega))
    obtain ⟨s'', h2⟩ := ih h1.rest hr h1.room (by omega) (by rw [h1.frames]; omega)
    exact ⟨s'', h1.trans h2⟩
  | @raw h cs ns head raw content rest' ih =>
    simp only [Forest.write, write_element (not_void_of_raw raw), List.append_assoc,
      List.length_append, Forest.attributeCount, Node.attributeCount, Forest.height] at hc hst ha hd
    have hlen := length_le_head h
    obtain ⟨s', h1⟩ := raw_reads (n := n + (Forest.write ns).length) head raw content
      (by simpa using hc) (by omega) (hst.mono (by omega))
    obtain ⟨s'', h2⟩ := ih h1.rest hr h1.room (by omega) (by rw [h1.frames]; omega)
    exact ⟨s'', h1.trans h2⟩
  | @element h cs ns head void raw children rest' ihc ih =>
    simp only [Forest.write, write_element void, List.append_assoc, List.length_append,
      Forest.attributeCount, Node.attributeCount, Forest.height, Node.height] at hc hst ha hd
    have hlen := length_le_head h
    have hend : h.writeEnd.length = h.tag.length + 3 := by simp [Head.writeEnd]
    obtain ⟨s', h1⟩ := element_reads (n := n + (Forest.write ns).length) head void raw hc
      (by omega) (by omega) (hst.mono (by omega)) fun u hu hst' hf =>
        ihc hu (stops_end h _) hst' (by omega) (by omega)
    obtain ⟨s'', h2⟩ := ih h1.rest hr h1.room (by omega) (by rw [h1.frames]; omega)
    exact ⟨s'', h1.trans h2⟩

end Canonical

/-- A canonical forest is read back from its text, up to places and with every element closed. -/
theorem Document.read_write {l : Limits} {f : Forest} (h : f.Canonical)
    (hi : 2 * f.write.length ≤ l.maxIterations)
    (ha : f.attributeCount < l.maxAttributeIterations) (hd : f.height ≤ l.maxDepth) :
    Forest.unplaced (Document.read l f.write).nodes = f.closedUp.unplaced := by
  let start : State := ⟨.start f.write, {}, [], []⟩
  have hst : start.stats.Room l (0 + f.write.length) := ⟨rfl, by simp [start]; omega⟩
  obtain ⟨s, hs⟩ := h.reads (s := start) (by simp [start, Cursor.start]) (.inl rfl) hst ha
    (by simpa [start] using hd)
  have hrun : run l start = s := hs.run.trans (run_at_end hs.rest)
  have hframes : s.frames = [] := hs.frames
  have hnodes := congrArg List.reverse hs.nodes
  have hread : (Document.read l f.write).nodes = s.nodes.reverse := by
    have hd : Document.read l f.write =
        ⟨finish (run l start).cursor.pos (run l start).nodes (run l start).frames,
          (run l start).stats⟩ := rfl
    rw [hd, hrun, hframes]
    rfl
  rw [hread]
  simpa [start, ← List.map_reverse] using hnodes

/-- Nested elements of one name, an empty value, a comment that ends in a dash, a void element and
a script with a `<`. -/
theorem Document.read_write_mixed :
    let p : Position := {}
    let f : Forest :=
      [.element ⟨"div".toList, [("id".toList, "a>b".toList), ("hidden".toList, [])], p, p, true⟩
        [.text "x > y".toList p,
          .element ⟨"div".toList, [], p, p, true⟩ [.comment "-".toList p],
          .element ⟨"br".toList, [], p, p, true⟩ []],
        .element ⟨"script".toList, [], p, p, true⟩ [.text "a < b".toList p]]
    Forest.unplaced (Document.read {} f.write).nodes = f.closedUp.unplaced := by
  intro p f
  refine Document.read_write ?_ (by decide +kernel) (by decide +kernel) (by decide +kernel)
  refine .element (by decide +kernel) (by decide +kernel) (by decide +kernel) ?_
    (.raw (by decide +kernel) (by decide +kernel) ?_ .nil)
  · refine .text (by decide +kernel) (by decide +kernel) rfl ?_
    refine .element (by decide +kernel) (by decide +kernel) (by decide +kernel) ?_
      (.void (by decide +kernel) (by decide +kernel) .nil)
    exact .comment (cut?_eq_none_iff.1 (by decide +kernel)) .nil
  · exact .text (by decide +kernel) (cut?_eq_none_iff.1 (by decide +kernel))

end MailMarkup
