import MailMarkup.Text.Cursor

/-!
# Places in a text

A cursor is in a text when what it has passed and what is left make up the text and its position
counts what it has passed. Whoever reads on stays in the text, and every count of the position grows
with what is read: characters, bytes, and line and column in reading order.
-/
namespace MailMarkup

namespace Text

private theorem foldl_utf8Size (t : Text) (n : Nat) :
    t.foldl (fun n c => n + c.utf8Size) n = n + byteSize t := by
  induction t generalizing n with
  | nil => rfl
  | cons c t ih =>
    rw [byteSize, List.foldl_cons, List.foldl_cons, ih, ih (0 + c.utf8Size)]
    omega

theorem byteSize_cons (c : Char) (t : Text) : byteSize (c :: t) = c.utf8Size + byteSize t := by
  rw [byteSize, List.foldl_cons, foldl_utf8Size, Nat.zero_add]

theorem byteSize_append (t u : Text) : byteSize (t ++ u) = byteSize t + byteSize u := by
  rw [byteSize, List.foldl_append, foldl_utf8Size, ← byteSize]

theorem length_le_byteSize (t : Text) : t.length ≤ byteSize t := by
  induction t with
  | nil => exact Nat.zero_le _
  | cons c t ih =>
    have := c.utf8Size_pos
    rw [List.length_cons, byteSize_cons]
    omega

end Text

namespace Position

/-- The position after reading a text. -/
def read (p : Position) (t : Text) : Position := t.foldl step p

@[simp] theorem read_nil (p : Position) : p.read [] = p := rfl

@[simp] theorem read_cons (p : Position) (c : Char) (t : Text) :
    p.read (c :: t) = (p.step c).read t := rfl

theorem read_append (p : Position) (t u : Text) : p.read (t ++ u) = (p.read t).read u :=
  List.foldl_append

theorem index_step (p : Position) (c : Char) : (p.step c).index = p.index + 1 := by
  unfold step
  split <;> rfl

theorem offset_step (p : Position) (c : Char) : (p.step c).offset = p.offset + c.utf8Size := by
  unfold step
  split <;> rfl

theorem index_read (p : Position) (t : Text) : (p.read t).index = p.index + t.length := by
  induction t generalizing p with
  | nil => rfl
  | cons c t ih =>
    rw [read_cons, ih, index_step, List.length_cons]
    omega

theorem offset_read (p : Position) (t : Text) : (p.read t).offset = p.offset + t.byteSize := by
  induction t generalizing p with
  | nil => rfl
  | cons c t ih => rw [read_cons, ih, offset_step, Text.byteSize_cons, Nat.add_assoc]

theorem line_read (p : Position) (t : Text) : (p.read t).line = p.line + t.count '\n' := by
  induction t generalizing p with
  | nil => rfl
  | cons c t ih =>
    rw [read_cons, ih, step]
    split
    · rename_i h
      rw [h, List.count_cons_self]
      exact Nat.add_right_comm _ 1 _
    · rename_i h
      rw [List.count_cons_of_ne h]

theorem column_read (t : Text) :
    (read {} t).column = (t.reverse.takeWhile (· ≠ '\n')).length + 1 := by
  obtain ⟨u, rfl⟩ : ∃ u, t = List.reverse u := ⟨t.reverse, t.reverse_reverse.symm⟩
  rw [List.reverse_reverse]
  induction u with
  | nil => rfl
  | cons c u ih =>
    rw [List.reverse_cons, read_append, read_cons, read_nil, step]
    split
    · rename_i h
      simp [h]
    · rename_i h
      simp [h, ih]

/-- Earlier in reading order: on an earlier line, or on the same line in an earlier column. -/
def Precedes (p q : Position) : Prop := p.line < q.line ∨ p.line = q.line ∧ p.column < q.column

theorem Precedes.trans {p q r : Position} (h : p.Precedes q) (h' : q.Precedes r) :
    p.Precedes r := by
  simp only [Precedes] at *
  omega

theorem precedes_step (p : Position) (c : Char) : p.Precedes (p.step c) := by
  unfold step
  split
  · exact .inl (Nat.lt_succ_self _)
  · exact .inr ⟨rfl, Nat.lt_succ_self _⟩

theorem precedes_read (p : Position) {t : Text} (h : t ≠ []) : p.Precedes (p.read t) := by
  induction t generalizing p with
  | nil => exact absurd rfl h
  | cons c t ih =>
    cases t with
    | nil => exact p.precedes_step c
    | cons d t => exact (p.precedes_step c).trans (ih _ (List.cons_ne_nil d t))

/-- A position is that of the place in a text before `rest`. -/
def Marks (p : Position) (t rest : Text) : Prop := ∃ u, t = u ++ rest ∧ p = ({} : Position).read u

section Marks
variable {p q : Position} {t r r' : Text}

theorem Marks.index_eq (h : p.Marks t r) : p.index + r.length = t.length := by
  obtain ⟨u, rfl, rfl⟩ := h
  simp [index_read]

theorem Marks.between (hp : p.Marks t r) (hq : q.Marks t r') (h : p.index ≤ q.index) :
    ∃ v, r = v ++ r' ∧ q = p.read v := by
  obtain ⟨u, rfl, rfl⟩ := hp
  obtain ⟨u', hu, rfl⟩ := hq
  have hlen : u.length ≤ u'.length := by simpa [index_read] using h
  obtain ⟨v, rfl⟩ := List.prefix_of_prefix_length_le ⟨r, rfl⟩ ⟨r', hu.symm⟩ hlen
  refine ⟨v, ?_, read_append _ u v⟩
  simpa using hu

theorem Marks.offset_le (hp : p.Marks t r) (hq : q.Marks t r') (h : p.index ≤ q.index) :
    p.offset ≤ q.offset := by
  obtain ⟨v, -, rfl⟩ := hp.between hq h
  rw [offset_read]
  omega

theorem Marks.ne_nil (hp : p.Marks t r) (hq : q.Marks t r') (h : p.index < q.index) :
    ∃ v, v ≠ [] ∧ r = v ++ r' ∧ q = p.read v := by
  obtain ⟨v, hv, rfl⟩ := hp.between hq (Nat.le_of_lt h)
  refine ⟨v, ?_, hv, rfl⟩
  rintro rfl
  exact Nat.lt_irrefl _ h

theorem Marks.offset_lt (hp : p.Marks t r) (hq : q.Marks t r') (h : p.index < q.index) :
    p.offset < q.offset := by
  obtain ⟨v, hne, -, rfl⟩ := hp.ne_nil hq h
  have := List.length_pos_iff.2 hne
  have := Text.length_le_byteSize v
  rw [offset_read]
  omega

theorem Marks.precedes (hp : p.Marks t r) (hq : q.Marks t r') (h : p.index < q.index) :
    p.Precedes q := by
  obtain ⟨v, hne, -, rfl⟩ := hp.ne_nil hq h
  exact p.precedes_read hne

theorem Marks.offset_le_byteSize (hp : p.Marks t r) : p.offset ≤ t.byteSize := by
  obtain ⟨u, rfl, rfl⟩ := hp
  rw [offset_read, Text.byteSize_append]
  dsimp only
  omega

end Marks
end Position

namespace Text

private theorem lineColumn_go {c : Cursor} {v rest : Text} {n offset : Nat}
    (h : c.rest = v ++ rest) (hn : v.length ≤ n) (hle : (c.pos.read v).offset ≤ offset)
    (hlt : ∀ x ∈ rest.head?, offset < (c.pos.read v).offset + x.utf8Size) :
    lineColumn.go offset c n = ((c.pos.read v).line, (c.pos.read v).column) := by
  induction v generalizing c n with
  | nil =>
    cases n with
    | zero => rfl
    | succ n =>
      rw [lineColumn.go, h]
      cases rest with
      | nil => rfl
      | cons x rest => exact if_neg (Nat.not_le.2 (hlt x rfl))
  | cons x v ih =>
    cases n with
    | zero => simp at hn
    | succ n =>
      have hx : c.pos.offset + x.utf8Size ≤ offset := by
        rw [Position.offset_read, byteSize_cons] at hle
        omega
      have hnext : c.next = ⟨c.pos.step x, some x, v ++ rest⟩ := by simp [Cursor.next, h]
      rw [lineColumn.go]
      simp only [h, List.cons_append]
      rw [if_pos hx, hnext]
      exact ih (c := ⟨c.pos.step x, some x, v ++ rest⟩) rfl (by simpa using hn) hle hlt

/-- Counting lines and columns up to a byte offset agrees with the position kept while reading. -/
theorem lineColumn_of_marks {p : Position} {t rest : Text} (h : p.Marks t rest) :
    lineColumn t p.offset = (p.line, p.column) := by
  obtain ⟨u, rfl, rfl⟩ := h
  refine lineColumn_go (c := .start (u ++ rest)) rfl (by simp) (Nat.le_refl _) fun x _ => ?_
  exact Nat.lt_add_of_pos_right x.utf8Size_pos

private theorem exists_upTo (t : Text) (offset : Nat) : ∃ u rest, t = u ++ rest ∧
    byteSize u ≤ offset ∧ ∀ x ∈ rest.head?, offset < byteSize u + x.utf8Size := by
  induction t generalizing offset with
  | nil => exact ⟨[], [], rfl, Nat.zero_le _, fun _ h => nomatch h⟩
  | cons x t ih =>
    by_cases hx : x.utf8Size ≤ offset
    · obtain ⟨u, rest, rfl, hle, hlt⟩ := ih (offset - x.utf8Size)
      refine ⟨x :: u, rest, rfl, ?_, fun y hy => ?_⟩
      · rw [byteSize_cons]
        omega
      · have := hlt y hy
        rw [byteSize_cons]
        omega
    · refine ⟨[], x :: t, rfl, Nat.zero_le _, fun y hy => ?_⟩
      obtain rfl : x = y := Option.some.inj hy
      exact Nat.lt_add_left _ (Nat.not_le.1 hx)

/-- The line is counted in line feeds and the column in the characters after the last of them, in
what comes before the offset, or before the character that the offset is inside. -/
theorem exists_lineColumn (t : Text) (offset : Nat) : ∃ u rest, t = u ++ rest ∧
    byteSize u ≤ offset ∧ (∀ x ∈ rest.head?, offset < byteSize u + x.utf8Size) ∧
    lineColumn t offset = (u.count '\n' + 1, (u.reverse.takeWhile (· ≠ '\n')).length + 1) := by
  obtain ⟨u, rest, rfl, hle, hlt⟩ := exists_upTo t offset
  have hread : (Position.read {} u).offset = byteSize u := by
    rw [Position.offset_read]
    exact Nat.zero_add _
  refine ⟨u, rest, rfl, hle, hlt, ?_⟩
  rw [← Position.column_read u, Nat.add_comm _ 1, ← Position.line_read {} u]
  exact lineColumn_go (c := .start (u ++ rest)) rfl (by simp) (hread ▸ hle) (hread ▸ hlt)

end Text

namespace Cursor
variable {c d e : Cursor} {t : Text}

/-- A cursor is in a text: its position is that of the place before what is left. -/
def In (t : Text) (c : Cursor) : Prop := c.pos.Marks t c.rest

theorem in_start (t : Text) : (start t).In t := ⟨[], rfl, rfl⟩

theorem In.next (h : c.In t) : c.next.In t := by
  unfold Cursor.next
  split
  · exact h
  · rename_i x xs hr
    obtain ⟨u, ht, hp⟩ := h
    refine ⟨u ++ [x], by simp [ht, hr], ?_⟩
    rw [hp, Position.read_append]
    rfl

theorem In.advance (h : c.In t) (n : Nat) : (c.advance n).In t := by
  induction n generalizing c with
  | zero => exact h
  | succ n ih => exact ih h.next

theorem advance_add (m n : Nat) (c : Cursor) : c.advance (m + n) = (c.advance m).advance n := by
  induction m generalizing c with
  | zero => rw [Nat.zero_add]; rfl
  | succ m ih => rw [Nat.succ_add]; exact ih c.next

theorem rest_advance_append {v r : Text} (h : c.rest = v ++ r) : (c.advance v.length).rest = r := by
  rw [rest_advance, h, List.drop_left]

theorem advance_end (h : c.rest = []) (n : Nat) : c.advance n = c := by
  induction n with
  | zero => rfl
  | succ n ih =>
    have hn : c.next = c := by
      unfold Cursor.next
      simp only [h]
    rw [Cursor.advance, hn, ih]

/-- Reading on from one cursor gets to the other. -/
def Reaches (c d : Cursor) : Prop := ∃ n, d = c.advance n

theorem Reaches.refl (c : Cursor) : c.Reaches c := ⟨0, rfl⟩

theorem Reaches.trans (h : c.Reaches d) (h' : d.Reaches e) : c.Reaches e := by
  obtain ⟨m, rfl⟩ := h
  obtain ⟨n, rfl⟩ := h'
  exact ⟨m + n, (advance_add m n c).symm⟩

theorem reaches_advance (c : Cursor) (n : Nat) : c.Reaches (c.advance n) := ⟨n, rfl⟩

theorem reaches_next (c : Cursor) : c.Reaches c.next := ⟨1, rfl⟩

theorem reaches_skipWhile (c : Cursor) (p : Char → Bool) : c.Reaches (c.skipWhile p) := ⟨_, rfl⟩

theorem reaches_skipBlanks (c : Cursor) : c.Reaches c.skipBlanks := ⟨_, rfl⟩

theorem Reaches.mem (h : c.Reaches d) (hc : c.In t) : d.In t := by
  obtain ⟨n, rfl⟩ := h
  exact hc.advance n

theorem Reaches.length_le (h : c.Reaches d) : d.rest.length ≤ c.rest.length := by
  obtain ⟨n, rfl⟩ := h
  exact rest_advance_le n c

theorem index_advance {n : Nat} (hn : n ≤ c.rest.length) :
    (c.advance n).pos.index = c.pos.index + n := by
  induction n generalizing c with
  | zero => rfl
  | succ n ih =>
    obtain ⟨pos, before, _ | ⟨x, xs⟩⟩ := c
    · simp at hn
    · have hx : (Cursor.next ⟨pos, before, x :: xs⟩).pos.index = pos.index + 1 :=
        Position.index_step pos x
      rw [Cursor.advance, ih (by simpa [Cursor.next] using hn), hx, Nat.add_assoc, Nat.add_comm 1]

theorem advance_past {n : Nat} (hn : c.rest.length ≤ n) :
    c.advance n = c.advance c.rest.length := by
  rw [← Nat.add_sub_cancel' hn, advance_add]
  exact advance_end (by simp) _

theorem before_advance {v r : Text} (h : c.rest = v ++ r) (hv : v ≠ []) :
    (c.advance v.length).before = v.getLast? := by
  induction v generalizing c with
  | nil => exact absurd rfl hv
  | cons x v ih =>
    have hn : c.next = ⟨c.pos.step x, some x, v ++ r⟩ := by
      unfold Cursor.next
      simp only [h, List.cons_append]
    cases v with
    | nil => simp [Cursor.advance, hn]
    | cons y v =>
      have hb := ih (c := c.next) (by rw [hn]) (List.cons_ne_nil y v)
      rw [List.length_cons, Cursor.advance, hb, List.getLast?_cons_cons]

/-- A cursor that is reached is found by its position. -/
theorem Reaches.eq_advance_index (h : c.Reaches d) :
    d = c.advance (d.pos.index - c.pos.index) := by
  obtain ⟨n, rfl⟩ := h
  rcases Nat.le_total n c.rest.length with hn | hn
  · rw [index_advance hn, Nat.add_sub_cancel_left]
  · rw [advance_past hn, index_advance (Nat.le_refl _), Nat.add_sub_cancel_left]

theorem Reaches.upTo (h : c.Reaches d) :
    c.rest = c.upTo d ++ d.rest ∧ d.pos.index = c.pos.index + (c.upTo d).length := by
  obtain ⟨n, rfl⟩ := h
  rcases Nat.le_total n c.rest.length with hn | hn
  · have hi := index_advance hn
    rw [Cursor.upTo, hi, Nat.add_sub_cancel_left, rest_advance, List.length_take]
    exact ⟨(List.take_append_drop n c.rest).symm, by omega⟩
  · have hi := index_advance (Nat.le_refl c.rest.length)
    rw [advance_past hn, Cursor.upTo, hi, Nat.add_sub_cancel_left]
    simp

/-- Which places from a cursor on come before one that it reaches. -/
theorem Reaches.index_advance_lt_iff (h : c.Reaches d) {n : Nat} :
    (c.advance n).pos.index < d.pos.index ↔ n < (c.upTo d).length := by
  obtain ⟨hrest, hindex⟩ := h.upTo
  have hlen := congrArg List.length hrest
  rw [List.length_append] at hlen
  rcases Nat.le_total n c.rest.length with hn | hn
  · rw [index_advance hn, hindex]
    omega
  · rw [advance_past hn, index_advance (Nat.le_refl _), hindex]
    omega

theorem Reaches.suffix (h : c.Reaches d) : d.rest <:+ c.rest := ⟨_, h.upTo.1.symm⟩

theorem upTo_advance_eq_take (c : Cursor) (n : Nat) : c.upTo (c.advance n) = c.rest.take n := by
  rcases Nat.le_total n c.rest.length with hn | hn
  · rw [upTo, index_advance hn, Nat.add_sub_cancel_left]
  · rw [advance_past hn, upTo, index_advance (Nat.le_refl _), Nat.add_sub_cancel_left,
      List.take_length, List.take_of_length_le hn]

theorem Reaches.index_le (h : c.Reaches d) : c.pos.index ≤ d.pos.index := by
  have := h.upTo.2
  omega

theorem Reaches.index_lt (h : c.Reaches d) (less : d.rest.length < c.rest.length) :
    c.pos.index < d.pos.index := by
  obtain ⟨hrest, hindex⟩ := h.upTo
  rw [hrest, List.length_append] at less
  omega

theorem In.index_eq (h : c.In t) : c.pos.index + c.rest.length = t.length :=
  Position.Marks.index_eq h

theorem Reaches.drop_rest (h : c.Reaches d) : c.rest.drop (d.pos.index - c.pos.index) = d.rest := by
  obtain ⟨hrest, hindex⟩ := h.upTo
  rw [hindex, Nat.add_sub_cancel_left, hrest, List.drop_left]

theorem In.drop_index (hc : c.In t) : t.drop c.pos.index = c.rest := by
  obtain ⟨u, rfl, hp⟩ := hc
  simp [hp, Position.index_read]

theorem In.take_index (hc : c.In t) (h : c.Reaches d) :
    t.take d.pos.index = t.take c.pos.index ++ c.upTo d := by
  obtain ⟨hrest, hindex⟩ := h.upTo
  rw [hindex, List.take_add, hc.drop_index, hrest, List.take_left]

end Cursor
end MailMarkup
