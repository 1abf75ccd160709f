import MailMarkup.Pattern.Basic
import MailMarkup.Proofs.Pattern.Leads

/-!
# Searches find the first match

A search finds a match exactly if there is one, from the place where it starts or later, and none
that starts before the one it finds. Its threads stand in the order of their starts. So a match that
ends the threads after it starts no later than any match they could have come to, and so does the
thread that a later one gives way to because both are at one node.
-/
namespace MailMarkup.Pattern
namespace Automaton

/-- A match that some threads at a place can come to, or the match there is already. -/
def Offers (a : Automaton) (c : Cursor) (threads : List Thread) (best : Option Match) (s : Cursor)
    (u : Trail) : Prop :=
  (∃ m, best = some m ∧ m.start = s ∧ u = ⟨m.stop, m.notes⟩) ∨
    ∃ th ∈ threads, th.start = s ∧ c.rest ≠ [] ∧ a.Leads th.ways ⟨c.next, th.notes⟩ u

/-- Some match on offer starts no later than at an index. -/
def Covers (a : Automaton) (c : Cursor) (threads : List Thread) (best : Option Match) (i : Nat) :
    Prop :=
  ∃ s u, a.Offers c threads best s u ∧ s.pos.index ≤ i

section
variable {a : Automaton} {c start s : Cursor} {notes : List (Nat × Cursor)} {ws : List Way}
  {f : Front} {u : Trail} {i j : Nat}

theorem leads_cons {w : Way} {t : Trail} :
    a.Leads (w :: ws) t u ↔
      (holdAt t.place w.edges ∧
        match w.goal with
        | none => u = t.noteAll w.slots
        | some n => ∃ ways, a.ready? t.place n = some ways ∧
            a.Leads ways (t.noteAll w.slots).next u) ∨ a.Leads ws t u := by
  constructor
  · intro h
    cases h with
    | stop hw he hg =>
      rcases List.mem_cons.1 hw with rfl | hw
      · exact .inl ⟨he, by rw [hg]⟩
      · exact .inr (.stop hw he hg)
    | read hw he hg hr h =>
      rcases List.mem_cons.1 hw with rfl | hw
      · exact .inl ⟨he, by rw [hg]; exact ⟨_, hr, h⟩⟩
      · exact .inr (.read hw he hg hr h)
  · rintro (⟨he, h⟩ | h)
    · cases hg : w.goal with
      | none =>
        rw [hg] at h
        exact h ▸ .stop List.mem_cons_self he hg
      | some n =>
        rw [hg] at h
        obtain ⟨ways, hr, h⟩ := h
        exact .read List.mem_cons_self he hg hr h
    · cases h with
      | stop hw he hg => exact .stop (List.mem_cons_of_mem w hw) he hg
      | read hw he hg hr h => exact .read (List.mem_cons_of_mem w hw) he hg hr h

theorem ready_ne_nil {n : Nat} {ways : List Way} (h : a.ready? c n = some ways) : c.rest ≠ [] := by
  intro hr
  rw [ready?, hr] at h
  split at h
  · simp_all
  · cases h

/-- The nodes of a front are those of its threads. -/
def Marked (a : Automaton) (c : Cursor) (f : Front) : Prop :=
  ∀ n, f.nodes.testBit n → ∃ th ∈ f.threads, a.ready? c n = some th.ways

theorem marked_empty (a : Automaton) (c : Cursor) : Marked a c {} := by
  intro n hn
  simp at hn

theorem Marked.push {n : Nat} {ways : List Way} (h : Marked a c f)
    (hr : a.ready? c n = some ways) :
    Marked a c ⟨⟨ways, start, notes⟩ :: f.threads, f.nodes ||| (1 <<< n), none⟩ := by
  intro m hm
  rw [Nat.testBit_or, Bool.or_eq_true, Nat.one_shiftLeft, Nat.testBit_two_pow,
    decide_eq_true_eq] at hm
  rcases hm with hm | rfl
  · obtain ⟨th, hth, hr⟩ := h m hm
    exact ⟨th, List.mem_cons_of_mem _ hth, hr⟩
  · exact ⟨_, List.mem_cons_self, hr⟩

/-- What holds of a front at a place whose matches start no later than at an index: its nodes are
those of its threads, and the threads stand in the order of their starts, the last first, before
the match. -/
structure Lined (a : Automaton) (c : Cursor) (f : Front) (i : Nat) : Prop where
  marked : Marked a c f
  sorted : f.threads.Pairwise fun x y => y.start.pos.index ≤ x.start.pos.index
  thread_le : ∀ th ∈ f.threads, th.start.pos.index ≤ i
  found_le : ∀ m, f.found = some m →
    m.start.pos.index ≤ i ∧ ∀ th ∈ f.threads, th.start.pos.index ≤ m.start.pos.index

theorem lined_empty (a : Automaton) (c : Cursor) (i : Nat) : Lined a c {} i where
  marked := marked_empty a c
  sorted := .nil
  thread_le := nofun
  found_le := nofun

theorem Lined.mono (h : Lined a c f i) (hij : i ≤ j) : Lined a c f j where
  marked := h.marked
  sorted := h.sorted
  thread_le th hth := Nat.le_trans (h.thread_le th hth) hij
  found_le m hm := ⟨Nat.le_trans (h.found_le m hm).1 hij, (h.found_le m hm).2⟩

theorem Lined.push {n : Nat} {ways : List Way} (h : Lined a c f i) (hi : i ≤ start.pos.index)
    (hr : a.ready? c n = some ways) :
    Lined a c ⟨⟨ways, start, notes⟩ :: f.threads, f.nodes ||| (1 <<< n), none⟩ start.pos.index where
  marked := h.marked.push hr
  sorted := List.pairwise_cons.2
    ⟨fun th hth => Nat.le_trans (h.thread_le th hth) hi, h.sorted⟩
  thread_le := List.forall_mem_cons.2
    ⟨Nat.le_refl _, fun th hth => Nat.le_trans (h.thread_le th hth) hi⟩
  found_le := nofun

theorem lined_follow (h : Lined a c f i) (hi : i ≤ start.pos.index) (hf : f.found = none) :
    Lined a c (a.follow c start notes ws f) start.pos.index := by
  fun_induction Automaton.follow a c start notes ws f generalizing i with
  | case1 f => exact h.mono hi
  | case2 w ws f _ ih => exact ih h hi hf
  | case3 w ws f he hg =>
    have hs := h.mono hi
    refine ⟨hs.marked, hs.sorted, hs.thread_le, ?_⟩
    rintro _ ⟨⟩
    exact ⟨Nat.le_refl _, hs.thread_le⟩
  | case4 w ws f he n hg hr ih => exact ih h hi hf
  | case5 w ws f he n hg ways hr hn ih => exact ih h hi hf
  | case6 w ws f he n hg ways hr hn ih => exact ih (h.push hi hr) (Nat.le_refl _) rfl

theorem follow_sound
    (h : a.Offers c (a.follow c start notes ws f).threads (a.follow c start notes ws f).found s u) :
    a.Offers c f.threads f.found s u ∨ s = start ∧ a.Leads ws ⟨c, notes⟩ u := by
  fun_induction Automaton.follow a c start notes ws f with
  | case1 f => exact .inl h
  | case2 w ws f _ ih => exact (ih h).imp_right fun ⟨hs, hl⟩ => ⟨hs, leads_cons.2 (.inr hl)⟩
  | case3 w ws f he hg =>
    rcases h with ⟨m, ⟨⟩, rfl, rfl⟩ | h
    · exact .inr ⟨rfl, leads_cons.2 (.inl ⟨by simpa using he, by rw [hg]; rfl⟩)⟩
    · exact .inl (.inr h)
  | case4 w ws f he n hg hr ih =>
    exact (ih h).imp_right fun ⟨hs, hl⟩ => ⟨hs, leads_cons.2 (.inr hl)⟩
  | case5 w ws f he n hg ways hr hn ih =>
    exact (ih h).imp_right fun ⟨hs, hl⟩ => ⟨hs, leads_cons.2 (.inr hl)⟩
  | case6 w ws f he n hg ways hr hn ih =>
    rcases ih h with (⟨m, ⟨⟩, -⟩ | ⟨th, hth, hs, hne, hl⟩) | ⟨hs, hl⟩
    · rcases List.mem_cons.1 hth with rfl | hth
      · refine .inr ⟨hs.symm, leads_cons.2 (.inl ⟨by simpa using he, ?_⟩)⟩
        rw [hg]
        exact ⟨ways, hr, hl⟩
      · exact .inl (.inr ⟨th, hth, hs, hne, hl⟩)
    · exact .inr ⟨hs, leads_cons.2 (.inr hl)⟩

theorem threads_follow : f.threads ⊆ (a.follow c start notes ws f).threads := by
  fun_induction Automaton.follow a c start notes ws f with
  | case1 f => exact fun _ h => h
  | case2 w ws f _ ih => exact ih
  | case3 w ws f he hg => exact fun _ h => h
  | case4 w ws f he n hg hr ih => exact ih
  | case5 w ws f he n hg ways hr hn ih => exact ih
  | case6 w ws f he n hg ways hr hn ih => exact fun _ h => ih (List.mem_cons_of_mem _ h)

theorem Covers.of_thread {threads : List Thread} {best : Option Match} {th : Thread}
    (hth : th ∈ threads) (hne : c.rest ≠ []) (hl : a.Leads th.ways ⟨c.next, th.notes⟩ u)
    (hi : th.start.pos.index ≤ i) : a.Covers c threads best i :=
  ⟨th.start, u, .inr ⟨th, hth, rfl, hne, hl⟩, hi⟩

theorem Covers.of_found {threads : List Thread} {m : Match} (hi : m.start.pos.index ≤ i) :
    a.Covers c threads (some m) i :=
  ⟨m.start, _, .inl ⟨m, rfl, rfl, rfl⟩, hi⟩

/-- Where some ways lead to a match, it is on offer after they have been followed, or one that
starts no later. -/
theorem follow_covers (h : Lined a c f i) (hi : i ≤ start.pos.index) (hf : f.found = none)
    (hl : a.Leads ws ⟨c, notes⟩ u) :
    a.Covers c (a.follow c start notes ws f).threads (a.follow c start notes ws f).found
      start.pos.index := by
  fun_induction Automaton.follow a c start notes ws f generalizing i with
  | case1 f => cases hl <;> contradiction
  | case2 w ws f he ih =>
    rcases leads_cons.1 hl with ⟨he', -⟩ | hl
    · simp [he'] at he
    · exact ih h hi hf hl
  | case3 w ws f he hg => exact .of_found (Nat.le_refl _)
  | case4 w ws f he n hg hr ih =>
    rcases leads_cons.1 hl with ⟨-, hl⟩ | hl
    · rw [hg] at hl
      obtain ⟨ways, hr', -⟩ := hl
      cases hr.symm.trans hr'
    · exact ih h hi hf hl
  | case5 w ws f he n hg ways hr hn ih =>
    rcases leads_cons.1 hl with ⟨-, hl⟩ | hl
    · rw [hg] at hl
      obtain ⟨ways', hr', hl⟩ := hl
      obtain ⟨th, hth, hrt⟩ := h.marked n hn
      cases hrt.symm.trans hr'
      obtain ⟨v, hv, -⟩ := hl.of_notes th.notes
      exact .of_thread (threads_follow hth) (ready_ne_nil hr) hv
        (Nat.le_trans (h.thread_le th hth) hi)
    · exact ih h hi hf hl
  | case6 w ws f he n hg ways hr hn ih =>
    rcases leads_cons.1 hl with ⟨-, hl⟩ | hl
    · rw [hg] at hl
      obtain ⟨ways', hr', hl⟩ := hl
      cases hr.symm.trans hr'
      exact .of_thread (threads_follow List.mem_cons_self) (ready_ne_nil hr) hl (Nat.le_refl _)
    · exact ih (h.push hi hr) (Nat.le_refl _) rfl hl

private theorem start_follow (hf : f.found = none) :
    (∀ th ∈ (a.follow c start notes ws f).threads, th ∈ f.threads ∨ th.start = start) ∧
      ∀ m, (a.follow c start notes ws f).found = some m → m.start = start := by
  fun_induction Automaton.follow a c start notes ws f with
  | case1 f => exact ⟨fun _ h => .inl h, by simp [hf]⟩
  | case2 w ws f _ ih => exact ih hf
  | case3 w ws f he hg => exact ⟨fun _ h => .inl h, by rintro _ ⟨⟩; rfl⟩
  | case4 w ws f he n hg hr ih => exact ih hf
  | case5 w ws f he n hg ways hr hn ih => exact ih hf
  | case6 w ws f he n hg ways hr hn ih =>
    refine ⟨fun th hth => ?_, (ih rfl).2⟩
    rcases (ih rfl).1 th hth with hth | hs
    · rcases List.mem_cons.1 hth with rfl | hth
      · exact .inr rfl
      · exact .inl hth
    · exact .inr hs

end

section advance
variable {a : Automaton} {c s : Cursor} {threads : List Thread} {f : Front} {u : Trail} {i j : Nat}

/-- Threads in the order of their starts. -/
def InOrder (threads : List Thread) : Prop :=
  threads.Pairwise fun x y => x.start.pos.index ≤ y.start.pos.index

private theorem lined_advance (h : Lined a c f i) (ho : InOrder threads)
    (hi : ∀ th ∈ threads, i ≤ th.start.pos.index) (hj : ∀ th ∈ threads, th.start.pos.index ≤ j)
    (hij : i ≤ j) : Lined a c (a.advance c threads f) j := by
  fun_induction advance a c threads f generalizing i with
  | case1 f => exact h.mono hij
  | case2 t ts f _ => exact h.mono hij
  | case3 t ts f hf ih =>
    obtain ⟨ht, ho⟩ := List.pairwise_cons.1 ho
    have hl : Lined a c (a.follow c t.start t.notes t.ways f) t.start.pos.index :=
      lined_follow h (hi t List.mem_cons_self) (by simpa using hf)
    exact ih hl ho ht (fun th hth => hj th (List.mem_cons_of_mem t hth)) (hj t List.mem_cons_self)

private theorem advance_sound
    (h : a.Offers c (a.advance c threads f).threads (a.advance c threads f).found s u) :
    a.Offers c f.threads f.found s u ∨
      ∃ th ∈ threads, th.start = s ∧ a.Leads th.ways ⟨c, th.notes⟩ u := by
  fun_induction advance a c threads f with
  | case1 f => exact .inl h
  | case2 t ts f _ => exact .inl h
  | case3 t ts f hf ih =>
    rcases ih h with h | ⟨th, hth, hl⟩
    · exact (follow_sound h).imp_right fun ⟨hs, hl⟩ => ⟨t, List.mem_cons_self, hs.symm, hl⟩
    · exact .inr ⟨th, List.mem_cons_of_mem t hth, hl⟩

private theorem advance_kept (h : a.Covers c f.threads f.found i) :
    a.Covers c (a.advance c threads f).threads (a.advance c threads f).found i := by
  fun_induction advance a c threads f with
  | case1 f => exact h
  | case2 t ts f _ => exact h
  | case3 t ts f hf ih =>
    obtain ⟨s, u, ⟨m, hm, -⟩ | ⟨th, hth, rfl, hne, hl⟩, hi⟩ := h
    · simp [hm] at hf
    · exact ih (.of_thread (threads_follow hth) hne hl hi)

private theorem advance_covers {th : Thread} (h : Lined a c f i) (ho : InOrder threads)
    (hi : ∀ th ∈ threads, i ≤ th.start.pos.index) (hth : th ∈ threads)
    (hl : a.Leads th.ways ⟨c, th.notes⟩ u) :
    a.Covers c (a.advance c threads f).threads (a.advance c threads f).found
      th.start.pos.index := by
  fun_induction advance a c threads f generalizing i with
  | case1 f => nomatch hth
  | case2 t ts f hf =>
    obtain ⟨m, hm⟩ := Option.isSome_iff_exists.1 hf
    rw [hm]
    exact .of_found (Nat.le_trans (h.found_le m hm).1 (hi th hth))
  | case3 t ts f hf ih =>
    have hf : f.found = none := by simpa using hf
    obtain ⟨ht, ho⟩ := List.pairwise_cons.1 ho
    have hit := hi t List.mem_cons_self
    rcases List.mem_cons.1 hth with rfl | hth
    · exact advance_kept (follow_covers h hit hf hl)
    · exact ih (lined_follow h hit hf) ho ht hth

end advance
/-- The threads and the match a search has at a place: none starts later than the place, and no
thread later than the match. -/
structure InLine (c : Cursor) (threads : List Thread) (best : Option Match) : Prop where
  inOrder : InOrder threads
  thread_le : ∀ th ∈ threads, th.start.pos.index ≤ c.pos.index
  best_le : ∀ m, best = some m →
    m.start.pos.index ≤ c.pos.index ∧ ∀ th ∈ threads, th.start.pos.index ≤ m.start.pos.index

section search
variable {a : Automaton} {c s : Cursor} {threads : List Thread} {best : Option Match} {u : Trail}
  {i : Nat}

theorem Covers.or (h : a.Covers c threads best i) (m : Option Match) :
    a.Covers c threads.reverse (best.or m) i := by
  obtain ⟨s, u, ⟨b, rfl, hb⟩ | ⟨th, hth, h⟩, hi⟩ := h
  · exact ⟨s, u, .inl ⟨b, rfl, hb⟩, hi⟩
  · exact ⟨s, u, .inr ⟨th, List.mem_reverse.2 hth, h⟩, hi⟩

/-- What the threads at a place come to after the next character. -/
abbrev fronted (a : Automaton) (c : Cursor) (threads : List Thread) : Front :=
  a.advance c.next threads {}

theorem InLine.lined (h : InLine c threads best) (hi : ∀ th ∈ threads, th.start.pos.index ≤ i) :
    Lined a c.next (a.fronted c threads) i :=
  lined_advance (lined_empty a c.next 0) h.inOrder (fun _ _ => Nat.zero_le _) hi (Nat.zero_le _)

theorem InLine.next (h : InLine c threads best) :
    InLine c.next (a.fronted c threads).threads.reverse ((a.fronted c threads).found.or best) := by
  have hc := c.reaches_next.index_le
  have hl : Lined a c.next (a.fronted c threads) c.pos.index := h.lined h.thread_le
  refine ⟨List.pairwise_reverse.2 hl.sorted, fun th hth => ?_, fun m hm => ?_⟩
  · exact Nat.le_trans (hl.thread_le th (List.mem_reverse.1 hth)) hc
  · simp only [List.mem_reverse]
    rcases Option.or_eq_some_iff.1 hm with hm | ⟨-, hm⟩
    · exact ⟨Nat.le_trans (hl.found_le m hm).1 hc, (hl.found_le m hm).2⟩
    · obtain ⟨hle, hth⟩ := h.best_le m hm
      exact ⟨Nat.le_trans hle hc, (h.lined (a := a) hth).thread_le⟩

private theorem offers_of_next (hne : c.rest ≠ [])
    (h : a.Offers c.next (a.fronted c threads).threads.reverse
      ((a.fronted c threads).found.or best) s u) : a.Offers c threads best s u := by
  have hsound (h : a.Offers c.next (a.fronted c threads).threads (a.fronted c threads).found s u) :
      a.Offers c threads best s u := by
    rcases advance_sound h with (⟨_, ⟨⟩, -⟩ | ⟨_, hth, -⟩) | ⟨th, hth, hs, hl⟩
    · nomatch hth
    · exact .inr ⟨th, hth, hs, hne, hl⟩
  rcases h with ⟨m, hm, hs⟩ | ⟨th, hth, h⟩
  · rcases Option.or_eq_some_iff.1 hm with hm | ⟨-, hm⟩
    · exact hsound (.inl ⟨m, hm, hs⟩)
    · exact .inl ⟨m, hm, hs⟩
  · exact hsound (.inr ⟨th, List.mem_reverse.1 hth, h⟩)

/-- Whatever is on offer, after the next character it still is, or something that starts no
later. -/
theorem InLine.covers_next (h : InLine c threads best) (ho : a.Offers c threads best s u) :
    a.Covers c.next (a.fronted c threads).threads.reverse ((a.fronted c threads).found.or best)
      s.pos.index := by
  rcases ho with ⟨m, rfl, rfl, -⟩ | ⟨th, hth, rfl, -, hl⟩
  · have hl := h.lined (a := a) (h.best_le m rfl).2
    cases hf : (a.fronted c threads).found with
    | none => exact .of_found (Nat.le_refl _)
    | some m' => exact .of_found (hl.found_le m' hf).1
  · exact (advance_covers (lined_empty a c.next 0) h.inOrder (fun _ _ => Nat.zero_le _) hth hl).or _

/-- The threads that start at a place. -/
abbrev started (a : Automaton) (c : Cursor) : Front := a.follow c c [] a.start {}

theorem InLine.started (h : InLine c threads none) :
    InLine c (threads ++ (a.started c).threads.reverse) (a.started c).found := by
  have hstart : (∀ th ∈ (a.started c).threads, th ∈ ({} : Front).threads ∨ th.start = c) ∧
      ∀ m, (a.started c).found = some m → m.start = c := start_follow rfl
  have hnew : ∀ th ∈ (a.started c).threads, th.start = c := fun th h =>
    (hstart.1 th h).resolve_left nofun
  have hlined : Lined a c (a.started c) c.pos.index :=
    lined_follow (lined_empty a c 0) (Nat.zero_le _) rfl
  have hle : ∀ th ∈ threads ++ (a.started c).threads.reverse,
      th.start.pos.index ≤ c.pos.index := by
    intro th hth
    rcases List.mem_append.1 hth with hth | hth
    · exact h.thread_le th hth
    · exact Nat.le_of_eq (by rw [hnew th (List.mem_reverse.1 hth)])
  refine ⟨List.pairwise_append.2 ⟨h.inOrder, List.pairwise_reverse.2 hlined.sorted, ?_⟩, hle, ?_⟩
  · intro x hx y hy
    rw [hnew y (List.mem_reverse.1 hy)]
    exact h.thread_le x hx
  · intro m hm
    rw [hstart.2 m hm]
    exact ⟨Nat.le_refl _, hle⟩

private theorem offers_started (h : a.Offers c (threads ++ (a.started c).threads.reverse)
      (a.started c).found s u) :
    a.Offers c threads none s u ∨ s = c ∧ a.Leads a.start ⟨c, []⟩ u := by
  have hsound (h : a.Offers c (a.started c).threads (a.started c).found s u) :
      s = c ∧ a.Leads a.start ⟨c, []⟩ u := by
    rcases follow_sound h with (⟨_, ⟨⟩, -⟩ | ⟨_, hth, -⟩) | h
    · nomatch hth
    · exact h
  rcases h with ⟨m, hm, hs⟩ | ⟨th, hth, h⟩
  · exact .inr (hsound (.inl ⟨m, hm, hs⟩))
  · rcases List.mem_append.1 hth with hth | hth
    · exact .inl (.inr ⟨th, hth, h⟩)
    · exact .inr (hsound (.inr ⟨th, List.mem_reverse.1 hth, h⟩))

private theorem started_covers (h : a.Leads a.start ⟨c, []⟩ u) :
    a.Covers c (threads ++ (a.started c).threads.reverse) (a.started c).found c.pos.index := by
  obtain ⟨s, v, ⟨m, hm⟩ | ⟨th, hth, ho⟩, hi⟩ :=
    follow_covers (lined_empty a c 0) (Nat.zero_le _) rfl h
  · exact ⟨s, v, .inl ⟨m, hm⟩, hi⟩
  · exact ⟨s, v, .inr ⟨th, List.mem_append_right _ (List.mem_reverse.2 hth), ho⟩, hi⟩

/-- The threads and the match at a place with those that start there, if there is no match yet and
the next character can start one. -/
def lineUp (a : Automaton) (c : Cursor) (x : Char) (threads : List Thread) :
    Option Match → List Thread × Option Match
  | some m => (threads, some m)
  | none =>
    if a.mayStart x then (threads ++ (a.started c).threads.reverse, (a.started c).found)
    else (threads, none)

theorem lineUp_of_start {x : Char} (h : a.mayStart x) :
    a.lineUp c x threads none =
      (threads ++ (a.started c).threads.reverse, (a.started c).found) := if_pos h

theorem lineUp_of_not_start {x : Char} (h : ¬ a.mayStart x) :
    a.lineUp c x threads none = (threads, none) := if_neg h

theorem InLine.lineUp (h : InLine c threads best) (x : Char) :
    InLine c (a.lineUp c x threads best).1 (a.lineUp c x threads best).2 := by
  cases best with
  | some m => exact h
  | none =>
    by_cases hx : a.mayStart x
    · rw [lineUp_of_start hx]
      exact h.started
    · rw [lineUp_of_not_start hx]
      exact h

private theorem offers_lineUp {x : Char}
    (h : a.Offers c (a.lineUp c x threads best).1 (a.lineUp c x threads best).2 s u) :
    a.Offers c threads best s u ∨ s = c ∧ a.Leads a.start ⟨c, []⟩ u := by
  cases best with
  | some m => exact .inl h
  | none =>
    by_cases hx : a.mayStart x
    · rw [lineUp_of_start hx] at h
      exact offers_started h
    · rw [lineUp_of_not_start hx] at h
      exact .inl h

theorem Offers.lineUp (h : a.Offers c threads best s u) (x : Char) :
    a.Offers c (a.lineUp c x threads best).1 (a.lineUp c x threads best).2 s u := by
  cases best with
  | some m => exact h
  | none =>
    by_cases hx : a.mayStart x
    · rw [lineUp_of_start hx]
      obtain ⟨_, ⟨⟩, -⟩ | ⟨th, hth, h⟩ := h
      exact .inr ⟨th, List.mem_append_left _ hth, h⟩
    · rw [lineUp_of_not_start hx]
      exact h

/-- A match can start with the character it starts with. -/
def KnowsStarts (a : Automaton) : Prop :=
  ∀ t u x, a.Leads a.start t u → t.place.peek = some x → a.mayStart x

private theorem lineUp_covers {x : Char} (hk : a.KnowsStarts) (hc : c.peek = some x)
    (hi : InLine c threads best) (h : a.Leads a.start ⟨c, []⟩ u) :
    a.Covers c (a.lineUp c x threads best).1 (a.lineUp c x threads best).2 c.pos.index := by
  cases best with
  | some m => exact .of_found (hi.best_le m rfl).1
  | none =>
    rw [lineUp_of_start (hk _ u x h hc)]
    exact started_covers h

/-- The search from a place. -/
abbrev searchFrom (a : Automaton) (c : Cursor) (threads : List Thread) (best : Option Match) :
    Option Match :=
  a.search c.rest c.pos c.before threads best

private theorem search_settled (a : Automaton) (c : Cursor) (m : Match) :
    a.searchFrom c [] (some m) = some m := by
  unfold searchFrom
  cases c.rest <;> simp [search]

/-- A search that is not at the end lines up its threads and lets them read the next character. -/
theorem search_round {x : Char} (hc : c.peek = some x) :
    a.searchFrom c threads best =
      a.searchFrom c.next (a.fronted c (a.lineUp c x threads best).1).threads.reverse
        ((a.fronted c (a.lineUp c x threads best).1).found.or (a.lineUp c x threads best).2) := by
  obtain ⟨pos, before, _ | ⟨y, xs⟩⟩ := c
  · cases hc
  obtain rfl : y = x := Option.some.inj hc
  cases best with
  | some m =>
    cases threads with
    | nil => exact (search_settled a (Cursor.next ⟨pos, before, y :: xs⟩) m).symm
    | cons th ths => rfl
  | none =>
    by_cases hx : a.mayStart y
    · rw [lineUp_of_start hx]
      exact if_pos hx
    · rw [lineUp_of_not_start hx]
      cases threads with
      | nil => exact if_neg hx
      | cons th ths =>
        rw [Option.or_none]
        exact if_neg hx

theorem search_end (h : c.rest = []) :
    a.searchFrom c threads best = best.or (a.started c).found := by
  obtain ⟨pos, before, rest⟩ := c
  cases h
  rfl

/-- A match starts here or later. -/
def Later (a : Automaton) (c s : Cursor) (u : Trail) : Prop :=
  c.Reaches s ∧ a.Leads a.start ⟨s, []⟩ u

private theorem search_sound {m : Match} (h : a.searchFrom c threads best = some m) :
    a.Offers c threads best m.start ⟨m.stop, m.notes⟩ ∨ a.Later c m.start ⟨m.stop, m.notes⟩ := by
  induction hr : c.rest generalizing c threads best with
  | nil =>
    rcases Option.or_eq_some_iff.1 ((search_end hr).symm.trans h) with h | ⟨-, h⟩
    · exact .inl (.inl ⟨m, h, rfl, rfl⟩)
    · rcases follow_sound (.inl ⟨m, h, rfl, rfl⟩) with (⟨_, ⟨⟩, -⟩ | ⟨_, hth, -⟩) | ⟨hs, hl⟩
      · cases hth
      · exact .inr ⟨hs ▸ .refl _, hs ▸ hl⟩
  | cons x xs ih =>
    have hc : c.peek = some x := by rw [Cursor.peek, hr]; rfl
    rw [search_round hc] at h
    rcases ih h (by rw [Cursor.rest_next, hr]; rfl) with ho | ⟨hs, hl⟩
    · rcases offers_lineUp (offers_of_next (by simp [hr]) ho) with ho | ⟨hs, hl⟩
      · exact .inl ho
      · exact .inr ⟨hs ▸ .refl _, hs ▸ hl⟩
    · exact .inr ⟨c.reaches_next.trans hs, hl⟩

/-- Whatever match is on offer or starts later, a search finds one that starts no later. -/
theorem search_covers (hk : a.KnowsStarts) (hi : InLine c threads best)
    (h : a.Offers c threads best s u ∨ a.Later c s u) :
    ∃ m, a.searchFrom c threads best = some m ∧ m.start.pos.index ≤ s.pos.index := by
  induction hr : c.rest generalizing c threads best s u with
  | nil =>
    rw [search_end hr]
    rcases h with (⟨m, rfl, rfl, -⟩ | ⟨th, -, -, hne, -⟩) | ⟨⟨n, rfl⟩, hl⟩
    · exact ⟨m, rfl, Nat.le_refl _⟩
    · exact absurd hr hne
    · rw [Cursor.advance_end hr] at hl ⊢
      cases best with
      | some m => exact ⟨m, rfl, (hi.best_le m rfl).1⟩
      | none =>
        obtain ⟨_, _, ⟨m, hm, rfl, -⟩ | ⟨th, -, -, hne, -⟩, hle⟩ :=
          follow_covers (lined_empty a c 0) (Nat.zero_le _) rfl hl
        · exact ⟨m, hm, hle⟩
        · exact absurd hr hne
  | cons x xs ih =>
    have hc : c.peek = some x := by rw [Cursor.peek, hr]; rfl
    have hline := hi.lineUp (a := a) x
    have hnext {s : Cursor} {u : Trail}
        (ho : a.Offers c (a.lineUp c x threads best).1 (a.lineUp c x threads best).2 s u) :
        ∃ m, a.searchFrom c threads best = some m ∧ m.start.pos.index ≤ s.pos.index := by
      obtain ⟨s', u', ho, hle⟩ := hline.covers_next ho
      obtain ⟨m, hm, hle'⟩ := ih hline.next (.inl ho) (by rw [Cursor.rest_next, hr]; rfl)
      exact ⟨m, (search_round hc).trans hm, Nat.le_trans hle' hle⟩
    rcases h with ho | ⟨⟨_ | n, rfl⟩, hl⟩
    · exact hnext (ho.lineUp x)
    · obtain ⟨s, v, ho, hle⟩ := lineUp_covers hk hc hi hl
      obtain ⟨m, hm, hle'⟩ := hnext ho
      exact ⟨m, hm, Nat.le_trans hle' hle⟩
    · obtain ⟨m, hm, hle⟩ := ih hline.next (.inr ⟨⟨n, rfl⟩, hl⟩) (by rw [Cursor.rest_next, hr]; rfl)
      exact ⟨m, (search_round hc).trans hm, hle⟩

end search
end Automaton

/-- A pattern is the automaton of an expression, whose sets have their ranges in order. -/
structure Means (p : Pattern) (e : Expr) : Prop where
  automaton : p.automaton = .ofExpr e
  ordered : e.Ordered

section find
variable {p : Pattern} {e : Expr} {c : Cursor} {m : Match}

private theorem Means.knowsStarts (h : p.Means e) : p.automaton.KnowsStarts := by
  intro t u x hl hx
  rw [h.automaton] at hl ⊢
  exact Automaton.mayStart_of_leads h.ordered hl hx

private theorem inLine_nil (c : Cursor) : Automaton.InLine c [] none := ⟨.nil, nofun, nofun⟩

/-- A match that is found is a reading, with what is noted on the way. -/
theorem Means.find_reads (h : p.Means e) (hf : p.find c = some m) :
    c.Reaches m.start ∧ e.Reads ⟨m.start, []⟩ ⟨m.stop, m.notes⟩ := by
  rcases Automaton.search_sound hf with (⟨_, ⟨⟩, -⟩ | ⟨_, hth, -⟩) | ⟨hs, hl⟩
  · nomatch hth
  · rw [h.automaton] at hl
    exact ⟨hs, Automaton.reads_of_leads hl⟩

theorem Means.find_covers (h : p.Means e) {s : Cursor} (hs : c.Reaches s) (he : e.MatchesAt s) :
    ∃ m, p.find c = some m ∧ m.start.pos.index ≤ s.pos.index := by
  obtain ⟨u, hu⟩ := he
  obtain ⟨v, hv, -⟩ := Automaton.leads_of_reads hu []
  rw [← h.automaton] at hv
  exact Automaton.search_covers h.knowsStarts (inLine_nil c) (.inr ⟨hs, hv⟩)

/-- No match starts before the one that is found. -/
theorem Means.find_first (h : p.Means e) (hf : p.find c = some m) {s : Cursor} (hs : c.Reaches s)
    (hlt : s.pos.index < m.start.pos.index) : ¬ e.MatchesAt s := by
  intro he
  obtain ⟨m', hm', hle⟩ := h.find_covers hs he
  cases hf.symm.trans hm'
  omega

theorem Means.find_none (h : p.Means e) (hf : p.find c = none) {s : Cursor} (hs : c.Reaches s) :
    ¬ e.MatchesAt s := by
  intro he
  obtain ⟨m, hm, -⟩ := h.find_covers hs he
  cases hf.symm.trans hm

end find
end MailMarkup.Pattern
