import MailMarkup.Proofs.Pattern.Preference
import MailMarkup.Proofs.Rule.OpeningTags
import MailMarkup.Rule.Tags

/-!
# The pattern for any opening tag

What the pattern is read as and how its matches fall into parts. The slash before the closing
bracket could be the end of the attribute text or a part of its own; the match that is found is the
one in which it is a part of its own, so a tag has its parts in one way.
-/
namespace MailMarkup.Tags
open Pattern Forbidden

/-- The letters in any case. -/
def letters : CharSet := ⟨[(65, 90), (97, 122), (383, 383), (8490, 8490)]⟩

/-- The letters in any case and the digits. -/
def lettersDigits : CharSet := ⟨[(48, 57), (65, 90), (97, 122), (383, 383), (8490, 8490)]⟩

/-- A letter, and letters and digits. -/
def anyName : Expr := .sequence [.one letters, .repeated (.one lettersDigits) 0 none true]

/-- What the pattern for any opening tag is read as. -/
abbrev anyExpr : Expr := opened (tagParts anyName)

theorem read_anyOpen : Source.read anyOpen.toList .anyCase = .ok anyExpr := by
  cbv

theorem ordered_anyExpr : anyExpr.Ordered := by
  have hsets : ∀ set ∈ [letters, lettersDigits, notAngle], set.Ordered := by decide
  have hname : anyName.Ordered := ⟨hsets letters (by simp), hsets lettersDigits (by simp)⟩
  refine ordered_opened ?_
  simp only [tagParts, List.forall_mem_cons]
  exact ⟨hname, trivial, hsets notAngle (by simp), Expr.ordered_letter _, Expr.ordered_letter _,
    nofun⟩

section names
open Expr

/-- The names of tags that the pattern takes. -/
def anyNames : Language Char :=
  {v : Text | ∃ x t, v = x :: t ∧ letters.has x ∧ ∀ y ∈ t, lettersDigits.has y}

private theorem spells_anyName : anyName.Spells anyNames where
  sound h := by
    obtain ⟨_, h₁, h₂⟩ := (reads_sequence_cons _).1 h
    obtain ⟨x, r, hr, hx, rfl⟩ := reads_one_iff.1 h₁
    obtain ⟨v, hv, hrest, hplace⟩ := (spells_runs lettersDigits true).sound h₂
    refine ⟨x :: v, ⟨x, v, rfl, hx, hv⟩, ?_, hplace⟩
    rw [Trail.next, Cursor.rest_next, hr] at hrest
    rw [hr, List.cons_append, ← hrest]
    rfl
  complete {t v r} hv ht := by
    obtain ⟨x, v, rfl, hx, hv⟩ := hv
    have hnext : t.next.place.rest = v ++ r := by
      rw [Trail.next, Cursor.rest_next, ht]
      rfl
    obtain ⟨ns, h⟩ := (spells_runs lettersDigits true).complete (t := t.next) hv hnext
    exact ⟨ns, (reads_sequence_cons _).2 ⟨t.next, reads_one_iff.2 ⟨x, v ++ r, ht, hx, rfl⟩, h⟩⟩

theorem isWord_of_lettersDigits {x : Char} (h : lettersDigits.has x) : Text.isWord x := by
  have hall : ∀ r ∈ lettersDigits.ranges, ∀ k ≤ r.2 - r.1, Text.isWord (Char.ofNat (r.1 + k)) := by
    decide +kernel
  exact CharSet.forall_of_ranges (P := fun x => Text.isWord x) (by decide) hall h

theorem lettersDigits_of_letters {x : Char} (h : letters.has x) : lettersDigits.has x := by
  obtain ⟨r, hr, hx⟩ := (CharSet.has_iff (by decide)).1 h
  exact (CharSet.has_iff (by decide)).2 ⟨r, List.mem_cons_of_mem _ hr, hx⟩

theorem anyNamePart : NamePart anyName anyNames where
  spells := spells_anyName
  silent h := h.notes_eq rfl
  ne_nil := by
    rintro _ ⟨x, t, rfl, -⟩
    exact List.cons_ne_nil x t
  word := by
    rintro _ ⟨x, t, rfl, hx, ht⟩
    exact List.forall_mem_cons.2 ⟨isWord_of_lettersDigits (lettersDigits_of_letters hx),
      fun y hy => isWord_of_lettersDigits (ht y hy)⟩

end names
section slash
open Automaton
variable {c : Cursor} {u : Trail} {notes : List (Nat × Cursor)} {edges : List Edge}
  {slots : List Nat} {m : Match}

private abbrev anyAutomaton : Automaton := .ofExpr anyExpr

/-- The ways on where the attribute text may end: at a slash, at the closing bracket, or later. -/
private def bodyWays (edges : List Edge) (slots : List Nat) : List Way :=
  [⟨edges, 6 :: 5 :: slots, some 3⟩, ⟨edges, 7 :: 6 :: 5 :: slots, some 1⟩, ⟨edges, slots, some 8⟩]

private def nameWays : List Way := ⟨[], [], some 13⟩ :: bodyWays [.wordEdge .wide] [4, 3]

private theorem any_ways :
    anyAutomaton.start = [⟨[], [], some 16⟩] ∧
      (anyAutomaton.steps[16]?).map Step.ways = some [⟨[], [2], some 14⟩] ∧
      (anyAutomaton.steps[14]?).map Step.ways = some nameWays ∧
      (anyAutomaton.steps[13]?).map Step.ways = some nameWays ∧
      (anyAutomaton.steps[8]?).map Step.ways = some (bodyWays [] []) ∧
      (anyAutomaton.steps[3]?).map Step.ways = some [⟨[], [7], some 1⟩] ∧
      (anyAutomaton.steps[1]?).map Step.ways = some [⟨[], [], none⟩] := by
  decide +kernel

private theorem start_any : anyAutomaton.start = [⟨[], [], some 16⟩] := any_ways.1

private theorem step_open :
    anyAutomaton.steps[16]? = some ⟨(CharSet.single '<').anyCase, [⟨[], [2], some 14⟩]⟩ :=
  step_eq rfl any_ways.2.1

private theorem step_letter : anyAutomaton.steps[14]? = some ⟨letters, nameWays⟩ :=
  step_eq rfl any_ways.2.2.1

private theorem step_name : anyAutomaton.steps[13]? = some ⟨lettersDigits, nameWays⟩ :=
  step_eq rfl any_ways.2.2.2.1

private theorem step_body : anyAutomaton.steps[8]? = some ⟨notAngle, bodyWays [] []⟩ :=
  step_eq rfl any_ways.2.2.2.2.1

private theorem step_slash :
    anyAutomaton.steps[3]? = some ⟨(CharSet.single '/').anyCase, [⟨[], [7], some 1⟩]⟩ :=
  step_eq rfl any_ways.2.2.2.2.2.1

private theorem step_close :
    anyAutomaton.steps[1]? = some ⟨(CharSet.single '>').anyCase, [⟨[], [], none⟩]⟩ :=
  step_eq rfl any_ways.2.2.2.2.2.2

private theorem along_close : anyAutomaton.along c notes ⟨edges, slots, some 1⟩ = some u ↔
    holdAt c edges ∧ c.peek = some '>' ∧ u = ⟨c.next, noteAt c slots notes⟩ := by
  have hstop (d : Cursor) (ns : List (Nat × Cursor)) :
      anyAutomaton.preferred d ns [⟨[], [], none⟩] = some ⟨d, ns⟩ := by
    rw [preferred_cons, along_stop rfl rfl, Option.some_or]
    rfl
  simp [along_goal_iff, ready_iff step_close, has_mark, hstop, eq_comm (a := u)]

private theorem along_slash : anyAutomaton.along c notes ⟨edges, slots, some 3⟩ = some u ↔
    holdAt c edges ∧ c.peek = some '/' ∧ c.next.peek = some '>' ∧
      u = ⟨c.next.next, (7, c.next) :: noteAt c slots notes⟩ := by
  have hclose (d : Cursor) (ns : List (Nat × Cursor)) :
      anyAutomaton.preferred d ns [⟨[], [7], some 1⟩] = some u ↔
        d.peek = some '>' ∧ u = ⟨d.next, (7, d) :: ns⟩ := by
    rw [preferred_cons, preferred_nil, Option.or_none, along_close]
    exact and_iff_right rfl
  simp [along_goal_iff, ready_iff step_slash, has_mark, hclose]

/-- The notes of a match tell a slash of its own before the closing bracket, or the attribute text
does not end with one. -/
private def Settles (c : Cursor) (u : Trail) : Prop :=
  ∃ p q t, u.notes = (7, q) :: (6, p) :: t ∧ c.Reaches q ∧ q.rest = '>' :: u.place.rest ∧
    (p.upTo q = [] → q.before ≠ some '/')

private theorem rest_of_peek {x : Char} (h : c.peek = some x) : c.rest = x :: c.next.rest := by
  obtain ⟨t, ht⟩ := List.head?_eq_some_iff.1 h
  rw [Cursor.rest_next, ht]
  rfl

private theorem Settles.next (h : Settles c.next u) : Settles c u := by
  obtain ⟨p, q, t, hu, hq, hrest, hp⟩ := h
  exact ⟨p, q, t, hu, c.reaches_next.trans hq, hrest, hp⟩

private theorem settles_body (h : anyAutomaton.preferred c notes (bodyWays edges slots) = some u)
    (hc : c.before = some '/' → c.peek ≠ some '>') : Settles c u := by
  induction hk : c.rest.length using Nat.strongRecOn generalizing c notes edges slots with
  | ind k ih =>
    subst hk
    simp only [bodyWays, preferred_cons, preferred_nil, Option.or_none,
      Option.or_eq_some_iff] at h
    rcases h with h | ⟨hslash, h | ⟨hclose, h⟩⟩
    · obtain ⟨-, hpeek, hgt, rfl⟩ := along_slash.1 h
      refine ⟨c, c.next, _, rfl, c.reaches_next, rest_of_peek hgt, fun hup => ?_⟩
      have hone : c.upTo c.next = ['/'] := Cursor.upTo_advance (v := ['/']) (rest_of_peek hpeek)
      rw [hone] at hup
      cases hup
    · obtain ⟨-, hpeek, rfl⟩ := along_close.1 h
      exact ⟨c, c, _, rfl, .refl c, rest_of_peek hpeek, fun _ hb => hc hb hpeek⟩
    · obtain ⟨hedges, ways, hr, h⟩ := along_goal_iff.1 h
      have hlt := length_next_lt hr
      obtain ⟨⟨x, hx, -⟩, rfl⟩ := (ready_iff step_body).1 hr
      refine (ih _ hlt h (fun hb hpeek => ?_) rfl).next
      have hbefore : c.next.before = some x :=
        Cursor.before_advance (v := [x]) (rest_of_peek hx) (List.cons_ne_nil x [])
      obtain rfl : '/' = x := Option.some.inj (hb.symm.trans hbefore)
      exact absurd (hslash.symm.trans (along_slash.2 ⟨hedges, hx, hpeek, rfl⟩)) nofun

private theorem settles_name (h : anyAutomaton.preferred c notes nameWays = some u)
    (hc : ∀ x ∈ c.before, Text.isWord x) : Settles c u := by
  induction hk : c.rest.length using Nat.strongRecOn generalizing c notes with
  | ind k ih =>
    subst hk
    rw [nameWays, preferred_cons, Option.or_eq_some_iff] at h
    rcases h with h | ⟨-, h⟩
    · obtain ⟨-, ways, hr, h⟩ := along_goal_iff.1 h
      have hlt := length_next_lt hr
      obtain ⟨⟨x, hx, hset⟩, rfl⟩ := (ready_iff step_name).1 hr
      have hbefore : c.next.before = some x :=
        Cursor.before_advance (v := [x]) (rest_of_peek hx) (List.cons_ne_nil x [])
      refine (ih _ hlt h (fun y hy => ?_) rfl).next
      obtain rfl := Option.some.inj (hbefore.symm.trans hy)
      exact isWord_of_lettersDigits hset
    · exact settles_body h fun hb => absurd (hc '/' hb) (by decide)

private theorem slash_settled {p : Pattern} {t : Text} (hp : p.Means anyExpr)
    (hm : m ∈ p.occurrences t) (h : m.group 3 = []) : (m.group 2).getLast? ≠ some '/' := by
  have hpref := occurrences_preferred hm
  rw [hp.automaton, start_any, preferred_cons, preferred_nil, Option.or_none] at hpref
  obtain ⟨-, ways, hr, hpref⟩ := along_goal_iff.1 hpref
  obtain ⟨-, rfl⟩ := (ready_iff step_open).1 hr
  rw [preferred_cons, preferred_nil, Option.or_none] at hpref
  obtain ⟨-, ways, hr, hpref⟩ := along_goal_iff.1 hpref
  obtain ⟨⟨x, hx, hset⟩, rfl⟩ := (ready_iff step_letter).1 hr
  have hbefore : m.start.next.next.before = some x :=
    Cursor.before_advance (v := [x]) (rest_of_peek hx) (List.cons_ne_nil x [])
  obtain ⟨p', q, ns, hnotes, hq, hrest, hslash⟩ := settles_name hpref fun y hy => by
    obtain rfl := Option.some.inj (hbefore.symm.trans hy)
    exact isWord_of_lettersDigits (lettersDigits_of_letters hset)
  obtain ⟨-, htext⟩ := anyNamePart.sound ((hp.occurrences_successive rfl t).reads hm)
  have hnotes : m.notes = (7, q) :: (6, p') :: ns := hnotes
  have hgroup : m.group 3 = p'.upTo q := by
    simp [Match.group, Match.group?, Match.note?, hnotes]
  have hreach : m.start.Reaches q := (m.start.reaches_next.trans m.start.next.reaches_next).trans hq
  intro hlast
  obtain ⟨body, hbody⟩ := List.getLast?_eq_some_iff.1 hlast
  rw [h, List.nil_append, hbody] at htext
  have hrest : q.rest = '>' :: m.stop.rest := hrest
  have htext : m.start.rest = ('<' :: (m.group 1 ++ (body ++ ['/']))) ++ q.rest := by
    rw [htext, hrest]
    simp
  refine hslash (hgroup.symm.trans h) ?_
  rw [hreach.eq_advance htext, Cursor.before_advance htext (List.cons_ne_nil _ _),
    ← List.append_assoc, ← List.cons_append, List.getLast?_concat]

end slash
section parts
variable {m : Match} {name body slash name' body' slash' r r' : Text}

/-- The parts of an opening tag, where a slash before the closing bracket is a part of its own. -/
structure IsParted (n b s : Text) : Prop extends IsTag anyNames n b s where
  settled : s = [] → b.getLast? ≠ some '/'

theorem IsParted.word (h : IsParted name body slash) : ∀ x ∈ name, Text.isWord x :=
  anyNamePart.word name h.name

/-- A tag falls into its parts in one way. -/
theorem IsParted.unique (h : IsParted name body slash) (h' : IsParted name' body' slash')
    (heq : name ++ (body ++ (slash ++ '>' :: r)) = name' ++ (body' ++ (slash' ++ '>' :: r'))) :
    name = name' ∧ body = body' ∧ slash = slash' ∧ r = r' :=
  h.toIsTag.unique h'.toIsTag h.word h'.word h.settled h'.settled heq

theorem parted_of_occurrence {p : Pattern} {t : Text} (hp : p.Means anyExpr)
    (hm : m ∈ p.occurrences t) : IsParted (m.group 1) (m.group 2) (m.group 3) ∧
      m.text = '<' :: (m.group 1 ++ (m.group 2 ++ (m.group 3 ++ ['>']))) := by
  have hr := (hp.occurrences_successive rfl t).reads hm
  exact ⟨⟨(anyNamePart.sound hr).1, slash_settled hp hm⟩, anyNamePart.text_eq hr⟩

end parts
end MailMarkup.Tags
