import MailMarkup.Proofs.Pattern.Leftmost

/-!
# Searches find the preferred match

Of the matches that start at one place, a search finds the one that trying the ways in order finds:
at each place the first way that gets to the end. A thread gives way only to an earlier one at the
same node, and whether a thread comes to a match does not depend on its start or its notes, so the
thread that gives way would not have come to a match before the other.
-/
namespace MailMarkup.Pattern
namespace Automaton

/-- Where the first of some ways leads that gets to the end, with the notes taken on it. The place
is given by its three parts. -/
def prefer (a : Automaton) : (rest : Text) → (pos : Position) → (before : Option Char) →
    List (Nat × Cursor) → List Way → Option Trail
  | [], pos, before, notes, ws =>
    let here : Cursor := ⟨pos, before, []⟩
    ws.findSome? fun w =>
      if !holdAt here w.edges then none
      else if w.goal.isNone then some ⟨here, noteAt here w.slots notes⟩ else none
  | x :: xs, pos, before, notes, ws =>
    let here : Cursor := ⟨pos, before, x :: xs⟩
    ws.findSome? fun w =>
      if !holdAt here w.edges then none
      else
        match w.goal with
        | none => some ⟨here, noteAt here w.slots notes⟩
        | some n =>
          (a.ready? here n).bind (prefer a xs (pos.step x) (some x) (noteAt here w.slots notes))

/-- Where the first of some ways from a place leads that gets to the end. -/
abbrev preferred (a : Automaton) (c : Cursor) (notes : List (Nat × Cursor)) (ws : List Way) :
    Option Trail :=
  a.prefer c.rest c.pos c.before notes ws

/-- Where one way from a place leads. -/
def along (a : Automaton) (c : Cursor) (notes : List (Nat × Cursor)) (w : Way) : Option Trail :=
  if !holdAt c w.edges then none
  else
    match w.goal with
    | none => some ⟨c, noteAt c w.slots notes⟩
    | some n => (a.ready? c n).bind (a.preferred c.next (noteAt c w.slots notes))

section
variable {a : Automaton} {c start : Cursor} {notes : List (Nat × Cursor)} {w : Way} {ws : List Way}
  {u : Trail} {n : Nat} {ways : List Way}

private theorem ready_end (h : c.rest = []) : a.ready? c n = none := by
  cases hr : a.ready? c n with
  | none => rfl
  | some ways => exact absurd h (ready_ne_nil hr)

theorem preferred_eq : a.preferred c notes ws = ws.findSome? (a.along c notes) := by
  obtain ⟨pos, before, _ | ⟨x, xs⟩⟩ := c
  · refine congrArg (List.findSome? · ws) (funext fun w => ?_)
    cases hg : w.goal with
    | none => simp [along, hg]
    | some n => simp [along, hg, ready_end (c := ⟨pos, before, []⟩) rfl]
  · rfl

theorem along_of_not (h : holdAt c w.edges = false) : a.along c notes w = none := by
  simp [along, h]

theorem along_stop (h : holdAt c w.edges) (hg : w.goal = none) :
    a.along c notes w = some ⟨c, noteAt c w.slots notes⟩ := by
  simp [along, h, hg]

theorem along_read (h : holdAt c w.edges) (hg : w.goal = some n) (hr : a.ready? c n = some ways) :
    a.along c notes w = a.preferred c.next (noteAt c w.slots notes) ways := by
  simp [along, h, hg, hr]

theorem along_of_not_ready (hg : w.goal = some n) (hr : a.ready? c n = none) :
    a.along c notes w = none := by
  simp [along, hg, hr]

/-- What the automaton of an expression knows of a node. -/
theorem step_eq {e : Expr} {set : CharSet} {next : Nat}
    (hn : e.graph.2[n]? = some (.read set next))
    (hw : ((ofExpr e).steps[n]?).map Step.ways = some ways) :
    (ofExpr e).steps[n]? = some ⟨set, ways⟩ := by
  simp only [ofExpr, Array.getElem?_map, hn, Option.map_some, Option.some.injEq] at hw ⊢
  rw [hw]

theorem set_eq {e : Expr} {set : CharSet} {next : Nat} {s : Step}
    (hn : e.graph.2[n]? = some (.read set next)) (hs : (ofExpr e).steps[n]? = some s) :
    s.set = set := by
  simp only [ofExpr, Array.getElem?_map, hn, Option.map_some, Option.some.injEq] at hs
  rw [← hs]

/-- A way leads to the end, or to a node that reads and on from there. -/
theorem along_cases (h : a.along c notes w = some u) :
    (w.goal = none ∧ u = ⟨c, noteAt c w.slots notes⟩) ∨
      ∃ n ways, a.ready? c n = some ways ∧
        a.preferred c.next (noteAt c w.slots notes) ways = some u := by
  cases hh : holdAt c w.edges with
  | false => rw [along_of_not hh] at h; cases h
  | true =>
    cases hg : w.goal with
    | none =>
      rw [along_stop hh hg] at h
      exact .inl ⟨rfl, (Option.some.inj h).symm⟩
    | some n =>
      cases hn : a.ready? c n with
      | none => rw [along_of_not_ready hg hn] at h; cases h
      | some ways =>
        rw [along_read hh hg hn] at h
        exact .inr ⟨n, ways, hn, h⟩

private theorem ready_eq_some (h : a.ready? c n = some ways) :
    ∃ (s : Step) (x : Char), a.steps[n]? = some s ∧ s.set.has x ∧ c.next.before = some x ∧
      ways = s.ways := by
  unfold ready? at h
  split at h
  · rename_i s x xs hs hr
    split at h
    · rename_i hx
      refine ⟨s, x, hs, hx, ?_, (Option.some.inj h).symm⟩
      unfold Cursor.next
      simp only [hr]
    · cases h
  · cases h

theorem ready_iff {set : CharSet} {ways' : List Way} (hs : a.steps[n]? = some ⟨set, ways'⟩) :
    a.ready? c n = some ways ↔ (∃ x, c.peek = some x ∧ set.has x) ∧ ways' = ways := by
  rw [ready?, hs, Cursor.peek]
  cases c.rest with
  | nil => simp
  | cons x xs => simp

theorem along_goal_iff {edges : List Edge} {slots : List Nat} :
    a.along c notes ⟨edges, slots, some n⟩ = some u ↔ holdAt c edges ∧
      ∃ ways, a.ready? c n = some ways ∧
        a.preferred c.next (noteAt c slots notes) ways = some u := by
  cases hh : holdAt c edges with
  | false => simp [along_of_not (w := ⟨edges, slots, some n⟩) hh]
  | true => simp [along, hh, Option.bind_eq_some_iff]

theorem exists_along (h : a.preferred c notes ws = some u) :
    ∃ w ∈ ws, a.along c notes w = some u :=
  List.exists_of_findSome?_eq_some (preferred_eq.symm.trans h)

theorem preferred_nil : a.preferred c notes [] = none := preferred_eq

theorem preferred_cons :
    a.preferred c notes (w :: ws) = (a.along c notes w).or (a.preferred c notes ws) := by
  rw [preferred_eq, preferred_eq, List.findSome?_cons]
  cases a.along c notes w <;> rfl

theorem length_next_lt (h : a.ready? c n = some ways) : c.next.rest.length < c.rest.length := by
  have hpos := List.length_pos_iff.2 (ready_ne_nil h)
  rw [Cursor.rest_next, List.length_tail]
  omega

private theorem isSome_preferred (notes notes' : List (Nat × Cursor)) :
    (a.preferred c notes ws).isSome = (a.preferred c notes' ws).isSome := by
  induction hk : c.rest.length using Nat.strongRecOn generalizing c notes notes' ws with
  | ind k ihk =>
    induction ws with
    | nil => rw [preferred_nil, preferred_nil]
    | cons w ws ih =>
      have halong : (a.along c notes w).isSome = (a.along c notes' w).isSome := by
        cases hh : holdAt c w.edges with
        | false => rw [along_of_not hh, along_of_not hh]
        | true =>
          cases hg : w.goal with
          | none => rw [along_stop hh hg, along_stop hh hg]; rfl
          | some n =>
            cases hn : a.ready? c n with
            | none => rw [along_of_not_ready hg hn, along_of_not_ready hg hn]
            | some ways =>
              rw [along_read hh hg hn, along_read hh hg hn]
              exact ihk _ (hk ▸ length_next_lt hn) _ _ rfl
      rw [preferred_cons, preferred_cons, Option.isSome_or, Option.isSome_or, halong, ih]

theorem length_preferred_le (h : a.preferred c notes ws = some u) :
    u.place.rest.length ≤ c.rest.length := by
  induction hk : c.rest.length using Nat.strongRecOn generalizing c notes ws with
  | ind k ihk =>
    subst hk
    obtain ⟨w, -, h⟩ := exists_along h
    rcases along_cases h with ⟨-, rfl⟩ | ⟨n, ways, hn, h⟩
    · exact Nat.le_refl _
    · exact Nat.le_trans (ihk _ (length_next_lt hn) h rfl) (Nat.le_of_lt (length_next_lt hn))

private theorem place_ne_of_along_read (hg : w.goal ≠ none) (h : a.along c notes w = some u) :
    u.place ≠ c := by
  rintro rfl
  rcases along_cases h with ⟨hg', -⟩ | ⟨n, ways, hn, h⟩
  · exact hg hg'
  · have := length_preferred_le h
    have := length_next_lt hn
    omega

theorem place_ne_of_preferred (hg : ∀ w ∈ ws, w.goal ≠ none) (h : a.preferred c notes ws = some u) :
    u.place ≠ c := by
  obtain ⟨w, hw, h⟩ := exists_along h
  exact place_ne_of_along_read (hg w hw) h

/-- A match that reads something ends behind the last node it reads. -/
theorem preferred_last (h : a.preferred c notes ws = some u) :
    u.place = c ∨ ∃ (n : Nat) (s : Step) (x : Char) (notes' : List (Nat × Cursor)),
      a.steps[n]? = some s ∧ u.place.before = some x ∧ s.set.has x ∧
        a.preferred u.place notes' s.ways = some u := by
  induction hk : c.rest.length using Nat.strongRecOn generalizing c notes ws with
  | ind k ihk =>
    subst hk
    obtain ⟨w, -, h⟩ := exists_along h
    rcases along_cases h with ⟨-, rfl⟩ | ⟨n, ways, hn, h⟩
    · exact .inl rfl
    · rcases ihk _ (length_next_lt hn) h rfl with hu | h'
      · obtain ⟨s, x, hs, hx, hc, rfl⟩ := ready_eq_some hn
        exact .inr ⟨n, s, x, _, hs, hu ▸ hc, hx, hu ▸ h⟩
      · exact .inr h'

/-- A run at the end of an expression goes on as long as it can. -/
theorem not_has_of_loop {set : CharSet} (hn : a.steps[n]? =
      some ⟨set, [⟨[], [], some n⟩, ⟨[], [], none⟩]⟩)
    (h : a.preferred u.place notes [⟨[], [], some n⟩, ⟨[], [], none⟩] = some u) :
    ∀ x ∈ u.place.peek, set.has x = false := by
  intro x hx
  by_contra hset
  have hr : a.ready? u.place n = some [⟨[], [], some n⟩, ⟨[], [], none⟩] := by
    obtain ⟨xs, hxs⟩ := List.head?_eq_some_iff.1 hx
    rw [ready?, hn, hxs]
    simpa using hset
  have hstop (d : Cursor) (ns : List (Nat × Cursor)) :
      (a.preferred d ns [⟨[], [], some n⟩, ⟨[], [], none⟩]).isSome := by
    rw [preferred_cons, preferred_cons, along_stop (w := ⟨[], [], none⟩) rfl rfl]
    simp
  rw [preferred_cons, along_read (w := ⟨[], [], some n⟩) rfl rfl hr] at h
  obtain ⟨v, hv⟩ := Option.isSome_iff_exists.1 (hstop u.place.next (noteAt u.place [] notes))
  rw [hv, Option.some_or] at h
  obtain rfl : v = u := Option.some.inj h
  have := length_preferred_le hv
  have := length_next_lt hr
  omega

end

/-- The match that starts at a place and goes on to another. -/
def matchFrom (start : Cursor) (o : Option Trail) : Option Match :=
  o.map fun u => ⟨start, u.place, u.notes⟩

/-- The match a thread at a place comes to. -/
def outcome? (a : Automaton) (c : Cursor) (th : Thread) : Option Match :=
  matchFrom th.start (a.preferred c.next th.notes th.ways)

/-- The match that threads in order come to, or else one there is already. -/
def settled (a : Automaton) (c : Cursor) (threads : List Thread) (best : Option Match) :
    Option Match :=
  if c.rest = [] then best else (threads.findSome? (a.outcome? c)).or best

/-- The match a front comes to. -/
def value (a : Automaton) (c : Cursor) (f : Front) : Option Match :=
  a.settled c f.threads.reverse f.found

section
variable {a : Automaton} {c start : Cursor} {notes : List (Nat × Cursor)} {ws : List Way}
  {f : Front} {threads : List Thread} {best : Option Match} {m : Match}

private theorem value_push {ways : List Way} (hne : c.rest ≠ []) (hf : f.found = none)
    (nodes : Nat) :
    a.value c ⟨⟨ways, start, notes⟩ :: f.threads, nodes, none⟩ =
      (a.value c f).or (matchFrom start (a.preferred c.next notes ways)) := by
  simp only [value, settled, if_neg hne, hf, Option.or_none, List.reverse_cons,
    List.findSome?_append]
  rw [List.findSome?_singleton]
  rfl

private theorem Marked.or_value {n : Nat} {ways : List Way} (h : Marked a c f)
    (hn : f.nodes.testBit n) (hr : a.ready? c n = some ways) (rest : Option Match) :
    (a.value c f).or ((matchFrom start (a.preferred c.next notes ways)).or rest) =
      (a.value c f).or rest := by
  obtain ⟨th, hth, hways⟩ := h n hn
  obtain rfl : th.ways = ways := Option.some.inj (hways.symm.trans hr)
  have hsame : (a.preferred c.next th.notes th.ways).isSome =
      (a.preferred c.next notes th.ways).isSome := isSome_preferred th.notes notes
  cases hp : a.preferred c.next notes th.ways with
  | none => rfl
  | some u =>
    rw [hp] at hsame
    have hsome : (f.threads.reverse.findSome? (a.outcome? c)).isSome := by
      rw [List.findSome?_isSome_iff]
      refine ⟨th, List.mem_reverse.2 hth, ?_⟩
      rw [outcome?, matchFrom, Option.isSome_map]
      exact hsame
    obtain ⟨m, hm⟩ := Option.isSome_iff_exists.1 hsome
    simp [value, settled, ready_ne_nil hr, hm]

/-- Following ways in order adds the match that the preferred one comes to. -/
theorem value_follow (h : Marked a c f) (hf : f.found = none) :
    Marked a c (a.follow c start notes ws f) ∧
      a.value c (a.follow c start notes ws f) =
        (a.value c f).or (matchFrom start (a.preferred c notes ws)) := by
  fun_induction Automaton.follow a c start notes ws f with
  | case1 f =>
    rw [preferred_nil]
    exact ⟨h, (Option.or_none).symm⟩
  | case2 w ws f he ih =>
    rw [preferred_cons, along_of_not (by simpa using he), Option.none_or]
    exact ih h hf
  | case3 w ws f he hg =>
    refine ⟨h, ?_⟩
    rw [preferred_cons, along_stop (by simpa using he) hg, Option.some_or]
    unfold value settled
    split
    · rw [hf]; rfl
    · rw [hf, Option.or_none]; rfl
  | case4 w ws f he n hg hr ih =>
    rw [preferred_cons, along_of_not_ready hg hr, Option.none_or]
    exact ih h hf
  | case5 w ws f he n hg ways hr hn ih =>
    rw [preferred_cons, along_read (by simpa using he) hg hr]
    obtain ⟨hm, hv⟩ := ih h hf
    refine ⟨hm, hv.trans ?_⟩
    rw [matchFrom, matchFrom, Option.map_or]
    exact (h.or_value hn hr _).symm
  | case6 w ws f he n hg ways hr hn ih =>
    rw [preferred_cons, along_read (by simpa using he) hg hr]
    obtain ⟨hm, hv⟩ := ih (h.push hr) rfl
    refine ⟨hm, hv.trans ?_⟩
    rw [value_push (ready_ne_nil hr) hf, matchFrom, matchFrom, matchFrom, Option.map_or,
      Option.or_assoc]

private theorem settled_or (threads : List Thread) (best other : Option Match) :
    a.settled c threads (best.or other) = (a.settled c threads best).or other := by
  unfold settled
  split
  · rfl
  · exact Option.or_assoc.symm

theorem value_empty (a : Automaton) (c : Cursor) : a.value c {} = none := by
  unfold value settled
  split <;> rfl

/-- Letting threads go on in order adds the match that the first of them comes to. -/
theorem value_advance (h : Marked a c f) :
    a.value c (a.advance c threads f) =
      (a.value c f).or
        (threads.findSome? fun th => matchFrom th.start (a.preferred c th.notes th.ways)) := by
  fun_induction Automaton.advance a c threads f with
  | case1 f => exact (Option.or_none).symm
  | case2 th ths f hf =>
    obtain ⟨m, hm⟩ := Option.isSome_iff_exists.1 hf
    have hsome : (a.value c f).isSome := by
      unfold value settled
      split <;> simp [hm]
    obtain ⟨m', hm'⟩ := Option.isSome_iff_exists.1 hsome
    rw [hm', Option.some_or]
  | case3 th ths f hf ih =>
    obtain ⟨hmarked, hvalue⟩ : Marked a c (a.follow c th.start th.notes th.ways f) ∧ _ :=
      value_follow h (by simpa using hf)
    rw [ih hmarked, hvalue, Option.or_assoc, List.findSome?_cons]
    cases matchFrom th.start (a.preferred c th.notes th.ways) <;> rfl

/-- The match that threads come to stays the same while they read a character. -/
theorem settled_next (hne : c.rest ≠ []) :
    a.settled c.next (a.fronted c threads).threads.reverse ((a.fronted c threads).found.or best) =
      a.settled c threads best := by
  have hv : a.value c.next (a.advance c.next threads {}) = _ :=
    value_advance (marked_empty a c.next)
  rw [value_empty, Option.none_or] at hv
  have hc : a.settled c threads best = (threads.findSome? (a.outcome? c)).or best := if_neg hne
  rw [settled_or, hc]
  exact congrArg (Option.or · best) hv

theorem value_started (a : Automaton) (c : Cursor) :
    a.value c (a.started c) = matchFrom c (a.preferred c [] a.start) := by
  have h : a.value c (a.follow c c [] a.start {}) = _ := (value_follow (marked_empty a c) rfl).2
  rwa [value_empty, Option.none_or] at h

private theorem settled_lineUp {x : Char} (h : a.settled c (a.lineUp c x threads best).1
      (a.lineUp c x threads best).2 = some m) :
    a.settled c threads best = some m ∨ matchFrom c (a.preferred c [] a.start) = some m := by
  cases best with
  | some m => exact .inl h
  | none =>
    by_cases hx : a.mayStart x
    · rw [lineUp_of_start hx] at h
      have happend : a.settled c (threads ++ (a.started c).threads.reverse) (a.started c).found =
          (a.settled c threads none).or (a.value c (a.started c)) := by
        unfold value settled
        split
        · rfl
        · rw [List.findSome?_append, Option.or_none, Option.or_assoc]
      rw [happend, value_started] at h
      rcases Option.or_eq_some_iff.1 h with h | ⟨-, h⟩
      · exact .inl h
      · exact .inr h
    · rw [lineUp_of_not_start hx] at h
      exact .inl h

theorem preferred_of_matchFrom {s : Cursor} (h : matchFrom s (a.preferred s [] a.start) = some m) :
    a.preferred m.start [] a.start = some ⟨m.stop, m.notes⟩ := by
  obtain ⟨u, hu, rfl⟩ := Option.map_eq_some_iff.1 h
  exact hu

private theorem search_preferred (h : a.searchFrom c threads best = some m) :
    a.settled c threads best = some m ∨
      a.preferred m.start [] a.start = some ⟨m.stop, m.notes⟩ := by
  induction hr : c.rest generalizing c threads best with
  | nil =>
    have hfound : (a.started c).found = matchFrom c (a.preferred c [] a.start) := by
      rw [← value_started, value, settled, if_pos hr]
    rw [search_end hr] at h
    rcases Option.or_eq_some_iff.1 h with h | ⟨-, h⟩
    · exact .inl (by rw [settled, if_pos hr, h])
    · exact .inr (preferred_of_matchFrom (hfound ▸ h))
  | cons x xs ih =>
    have hc : c.peek = some x := by rw [Cursor.peek, hr]; rfl
    have hne : c.rest ≠ [] := by simp [hr]
    rw [search_round hc] at h
    rcases ih h (by rw [Cursor.rest_next, hr]; rfl) with h | h
    · rw [settled_next hne] at h
      exact (settled_lineUp h).imp_right preferred_of_matchFrom
    · exact .inr h

end
end Automaton

/-- The match that is found is the preferred one of those that start where it starts. -/
theorem find_preferred {p : Pattern} {c : Cursor} {m : Match} (h : p.find c = some m) :
    p.automaton.preferred m.start [] p.automaton.start = some ⟨m.stop, m.notes⟩ := by
  rcases Automaton.search_preferred h with h | h
  · unfold Automaton.settled at h
    split at h <;> cases h
  · exact h

private theorem mem_collect {p : Pattern} {n : Nat} {c : Cursor} {last : Option Nat}
    {acc : List Match}
    {m : Match} (h : m ∈ p.collect n c last acc) : m ∈ acc ∨ ∃ d, p.find d = some m := by
  induction n generalizing c last acc with
  | zero => exact .inl (List.mem_reverse.1 h)
  | succ n ih =>
    rw [collect] at h
    split at h
    · exact .inl (List.mem_reverse.1 h)
    · rename_i m' hm'
      have hfound : ∃ d, p.find d = some m' := by
        unfold nextMatch at hm'
        split at hm'
        · cases hm'
        · split at hm'
          · split at hm'
            · cases hm'
            · exact ⟨_, hm'⟩
          · cases hm'
            exact ⟨c, by assumption⟩
      rcases ih h with h | h
      · rcases List.mem_cons.1 h with rfl | h
        · exact .inr hfound
        · exact .inl h
      · exact .inr h

/-- Each of the successive matches is the preferred one where it starts. -/
theorem occurrences_preferred {p : Pattern} {t : Text} {m : Match} (h : m ∈ p.occurrences t) :
    p.automaton.preferred m.start [] p.automaton.start = some ⟨m.stop, m.notes⟩ := by
  rcases mem_collect h with h | ⟨d, h⟩
  · cases h
  · exact find_preferred h

end MailMarkup.Pattern
