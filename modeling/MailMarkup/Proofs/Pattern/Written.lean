import MailMarkup.Proofs.Pattern.Leftmost

/-!
# Reading written patterns

What the reader makes of the sources that rules write, for patterns in which case does not matter:
characters that stand for themselves, words, sets, repetitions, and groups of alternative words. The
words may be any, so a rule that writes its pattern from a list of names needs no computation.
-/
namespace MailMarkup.Pattern
namespace Expr

/-- A character in any case. -/
def letter (c : Char) : Expr := .one (CharSet.single c).anyCase

/-- A word in any case. -/
def word (w : Text) : Expr := .sequence (w.map letter)

end Expr

namespace Source

/-- The mode in which a pattern with some flags is read, unless it sets others. -/
abbrev mode (flags : Flags) : Mode := { toFlags := flags }

/-- With enough fuel the reader ends with a piece, here. -/
def Ends (depth : Nat) (flags : Flags) (s : State) (done ps : List Piece) (r : Piece × State) :
    Prop :=
  ∀ fuel, s.rest.length < fuel → expression depth fuel (mode flags) s done ps = .ok r

/-- Characters with a meaning of their own in a sequence. -/
def marks : List Char := ['|', ')', '(', '*', '+', '?', '\x7b']

section
variable {depth place groups : Nat} {flags : Flags} {s s' : State} {names : List Text} {t : Text}
  {done ps : List Piece} {p : Piece} {r : Piece × State}

theorem Ends.stop : Ends depth flags ⟨[], place, groups, names⟩ done ps
    (alternatives done ps, ⟨[], place, groups, names⟩) := by
  rintro (_ | fuel) h
  · simp at h
  · rfl

theorem Ends.close : Ends (depth + 1) flags ⟨')' :: t, place, groups, names⟩ done ps
    (alternatives done ps, ⟨')' :: t, place, groups, names⟩) := by
  rintro (_ | fuel) h
  · simp at h
  · rfl

/-- One piece that is neither a group nor a repetition, written as `w` after its first character. -/
theorem Ends.primitive {c : Char} {w : Text} (hc : c ∉ marks)
    (hp : primitive (mode flags) ⟨c :: (w ++ t), place, groups, names⟩ =
      .ok (p, ⟨t, place + (w.length + 1), groups, names⟩))
    (h : Ends depth flags ⟨t, place + (w.length + 1), groups, names⟩ done (p :: ps) r) :
    Ends depth flags ⟨c :: (w ++ t), place, groups, names⟩ done ps r := by
  rintro (_ | fuel) hf
  · simp at hf
  · have hs : settle (mode flags) ⟨c :: (w ++ t), place, groups, names⟩ =
        ⟨c :: (w ++ t), place, groups, names⟩ := rfl
    rw [expression, hs]
    dsimp only
    split
    · rename_i heq
      cases heq
    iterate 7 (rename_i heq; cases heq; exact absurd hc (by decide))
    rw [hp]
    exact h fuel (by simp at hf ⊢; omega)

/-- Characters that stand for themselves. -/
def isPlain (c : Char) : Bool := !(marks ++ ['[', '\\', '.', '^', '$']).contains c

/-- The piece a character makes that stands for itself. -/
def letter (c : Char) : Piece := ⟨.letter c, 0, false⟩

private theorem primitive_letter {c : Char} (hi : flags.ignoreCase) (hc : isPlain c) :
    primitive (mode flags) ⟨c :: t, place, groups, names⟩ =
      .ok (letter c, ⟨t, place + 1, groups, names⟩) := by
  have hfold : folded (mode flags) (.single c) = (CharSet.single c).anyCase := by
    rw [folded, show (mode flags).ignoreCase = true from hi]
    rfl
  unfold Source.primitive
  dsimp only
  split
  · rename_i heq
    cases heq
  iterate 5 (rename_i heq; cases heq; exact absurd hc (by decide))
  · rename_i heq
    cases heq
    rw [literal, hfold]
    rfl

theorem Ends.letter {c : Char} (hi : flags.ignoreCase) (hc : isPlain c)
    (h : Ends depth flags ⟨t, place + 1, groups, names⟩ done (letter c :: ps) r) :
    Ends depth flags ⟨c :: t, place, groups, names⟩ done ps r := by
  refine .primitive (w := []) (fun hm => ?_) (primitive_letter hi hc) h
  rw [isPlain, Bool.not_eq_true'] at hc
  simp [hm] at hc

/-- The pieces of a word, the last first, before others. -/
def letters (w : Text) (ps : List Piece) : List Piece := (w.map letter).reverse ++ ps

theorem Ends.word {w : Text} (hi : flags.ignoreCase) (hw : ∀ c ∈ w, isPlain c)
    (h : Ends depth flags ⟨t, place + w.length, groups, names⟩ done (letters w ps) r) :
    Ends depth flags ⟨w ++ t, place, groups, names⟩ done ps r := by
  induction w generalizing place ps with
  | nil => exact h
  | cons c w ih =>
    obtain ⟨hc, hw⟩ := List.forall_mem_cons.1 hw
    refine .letter hi hc (ih hw ?_)
    simpa [letters, Nat.add_comm, Nat.add_left_comm] using h

theorem Ends.bar (h : Ends depth flags ⟨t, place + 1, groups, names⟩ (sequence ps :: done) [] r) :
    Ends depth flags ⟨'|' :: t, place, groups, names⟩ done ps r := by
  rintro (_ | fuel) hf
  · simp at hf
  · exact h fuel (by simpa using hf)

private theorem quantify_eager {least : Nat} {extra : Option Nat} (hp : p.isSetting = false)
    (ht : t.head? ≠ some '?') :
    quantify (mode flags) place least extra ⟨t, place + 1, groups, names⟩ (p :: ps) =
      .ok (⟨p.expr.times least extra true, p.height + 1, false⟩ :: ps,
        ⟨t, place + 1, groups, names⟩) := by
  have hm : (State.peek ⟨t, place + 1, groups, names⟩ == some '?') = false := by
    simpa [State.peek] using ht
  simp only [quantify, hp, hm, Bool.false_eq_true, if_false]
  rfl

theorem Ends.star (hp : p.isSetting = false) (ht : t.head? ≠ some '?')
    (h : Ends depth flags ⟨t, place + 1, groups, names⟩ done
      (⟨p.expr.times 0 none true, p.height + 1, false⟩ :: ps) r) :
    Ends depth flags ⟨'*' :: t, place, groups, names⟩ done (p :: ps) r := by
  rintro (_ | fuel) hf
  · simp at hf
  · have he : expression depth (fuel + 1) (mode flags) ⟨'*' :: t, place, groups, names⟩ done
          (p :: ps) =
        quantify (mode flags) place 0 none ⟨t, place + 1, groups, names⟩ (p :: ps) >>=
          fun r => expression depth fuel (mode flags) r.2 done r.1 := rfl
    rw [he, quantify_eager hp ht]
    exact h fuel (by simpa using hf)

theorem Ends.optional (hp : p.isSetting = false) (ht : t.head? ≠ some '?')
    (h : Ends depth flags ⟨t, place + 1, groups, names⟩ done
      (⟨p.expr.times 0 (some 1) true, p.height + 1, false⟩ :: ps) r) :
    Ends depth flags ⟨'?' :: t, place, groups, names⟩ done (p :: ps) r := by
  rintro (_ | fuel) hf
  · simp at hf
  · have he : expression depth (fuel + 1) (mode flags) ⟨'?' :: t, place, groups, names⟩ done
          (p :: ps) =
        quantify (mode flags) place 0 (some 1) ⟨t, place + 1, groups, names⟩ (p :: ps) >>=
          fun r => expression depth fuel (mode flags) r.2 done r.1 := rfl
    rw [he, quantify_eager hp ht]
    exact h fuel (by simpa using hf)

theorem Ends.reluctant (hp : p.isSetting = false)
    (h : Ends depth flags ⟨t, place + 2, groups, names⟩ done
      (⟨p.expr.times 0 none false, p.height + 1, false⟩ :: ps) r) :
    Ends depth flags ⟨'*' :: '?' :: t, place, groups, names⟩ done (p :: ps) r := by
  rintro (_ | fuel) hf
  · simp at hf
  · have hq : quantify (mode flags) place 0 none ⟨'?' :: t, place + 1, groups, names⟩ (p :: ps) =
        .ok (⟨p.expr.times 0 none false, p.height + 1, false⟩ :: ps,
          ⟨t, place + 2, groups, names⟩) := by
      simp only [quantify, hp, Bool.false_eq_true, if_false]
      rfl
    have he : expression depth (fuel + 1) (mode flags) ⟨'*' :: '?' :: t, place, groups, names⟩ done
          (p :: ps) =
        quantify (mode flags) place 0 none ⟨'?' :: t, place + 1, groups, names⟩ (p :: ps) >>=
          fun r => expression depth fuel (mode flags) r.2 done r.1 := rfl
    rw [he, hq]
    exact h fuel (Nat.lt_of_succ_lt (by simpa using hf))

private theorem groupOpening_noted (ht : t.head? ≠ some '?') :
    groupOpening (mode flags) ⟨'(' :: t, place, groups, names⟩ =
      .ok (.noted ⟨t, place + 1, groups, names⟩) := by
  have hl : isLookAround t = false := by
    unfold isLookAround
    split <;> first | rfl | exact absurd rfl ht
  have hb : bump (mode flags) ⟨'(' :: t, place, groups, names⟩ =
      ⟨t, place + 1, groups, names⟩ := rfl
  rw [groupOpening, hb]
  simp only [hl, Bool.false_eq_true, if_false]
  split <;> first | rfl | exact absurd rfl ht

theorem Ends.group {place' groups' : Nat} {names' : List Text} {t' : Text}
    (ht : t.head? ≠ some '?')
    (hb : Ends (depth + 1) flags ⟨t, place + 1, groups + 1, names⟩ [] []
      (p, ⟨')' :: t', place', groups', names'⟩)) (hlt : t'.length < t.length)
    (h : Ends depth flags ⟨t', place' + 1, groups', names'⟩ done
      (⟨.group (groups + 1) p.expr, p.height + 1, false⟩ :: ps) r) :
    Ends depth flags ⟨'(' :: t, place, groups, names⟩ done ps r := by
  rintro (_ | fuel) hf
  · simp at hf
  · have hs : settle (mode flags) ⟨'(' :: t, place, groups, names⟩ =
        ⟨'(' :: t, place, groups, names⟩ := rfl
    have hbody := hb fuel (by simpa using hf)
    have hrest := h fuel (by simp at hf ⊢; omega)
    rw [expression, hs]
    dsimp only
    rw [groupOpening_noted ht]
    change (expression (depth + 1) fuel (mode flags) ⟨t, place + 1, groups + 1, names⟩ [] [] >>=
      _) = _
    rw [hbody]
    exact hrest

theorem Ends.plainGroup {place' groups' : Nat} {names' : List Text} {t' : Text}
    (hb : Ends (depth + 1) flags ⟨t, place + 3, groups, names⟩ [] []
      (p, ⟨')' :: t', place', groups', names'⟩)) (hlt : t'.length < t.length)
    (h : Ends depth flags ⟨t', place' + 1, groups', names'⟩ done
      (⟨p.expr, p.height + 1, false⟩ :: ps) r) :
    Ends depth flags ⟨'(' :: '?' :: ':' :: t, place, groups, names⟩ done ps r := by
  rintro (_ | fuel) hf
  · simp at hf
  · have he : expression depth (fuel + 1) (mode flags)
          ⟨'(' :: '?' :: ':' :: t, place, groups, names⟩ done ps =
        expression (depth + 1) fuel (mode flags) ⟨t, place + 3, groups, names⟩ [] [] >>= fun r =>
          if r.2.rest.isEmpty then
            State.faultHere ⟨'(' :: '?' :: ':' :: t, place, groups, names⟩ 1 .unclosedGroup
          else expression depth fuel (mode flags) (r.2.drop 1) done
            (⟨r.1.expr, r.1.height + 1, false⟩ :: ps) := rfl
    have hbody := hb fuel (by simp at hf ⊢; omega)
    have hrest := h fuel (by simp at hf ⊢; omega)
    rw [he, hbody]
    exact hrest

/-- The alternatives and the pieces of the last one after reading bars and words. -/
def afterWords : List Text → List Piece → List Piece → List Piece × List Piece
  | [], done, ps => (done, ps)
  | w :: ws, done, ps => afterWords ws (sequence ps :: done) (letters w [])

theorem Ends.words {ws : List Text} (hi : flags.ignoreCase) (hw : ∀ w ∈ ws, ∀ c ∈ w, isPlain c)
    (h : Ends depth flags ⟨t, place + (ws.flatMap ('|' :: ·)).length, groups, names⟩
      (afterWords ws done ps).1 (afterWords ws done ps).2 r) :
    Ends depth flags ⟨ws.flatMap ('|' :: ·) ++ t, place, groups, names⟩ done ps r := by
  induction ws generalizing place done ps with
  | nil => exact h
  | cons w ws ih =>
    obtain ⟨hc, hw⟩ := List.forall_mem_cons.1 hw
    rw [List.flatMap_cons, List.cons_append, List.cons_append, List.append_assoc]
    refine .bar (.word hi hc (ih hw ?_))
    rw [show place + 1 + w.length + (ws.flatMap ('|' :: ·)).length =
      place + ((w :: ws).flatMap ('|' :: ·)).length by simp; omega]
    exact h

theorem sequence_letters (w : Text) : (sequence (letters w [])).expr = .word w := by
  simp [sequence, letters, Expr.word, letter, Function.comp_def]

private theorem alternatives_afterWords (ws : List Text) (done ps : List Piece) :
    (alternatives (afterWords ws done ps).1 (afterWords ws done ps).2).expr =
      .alternatives ((sequence ps :: done).reverse.map Piece.expr ++ ws.map .word) := by
  induction ws generalizing done ps with
  | nil => simp [afterWords, alternatives]
  | cons w ws ih => simp [afterWords, ih, sequence_letters]

/-- No piece is nested more deeply. -/
def Low (n : Nat) (ps : List Piece) : Prop := ∀ p ∈ ps, p.height ≤ n

theorem heightOf_le {n : Nat} (h : Low n ps) : heightOf ps ≤ n + 1 := by
  have hfold (h₀ : Nat) (hh : h₀ ≤ n) : ps.foldl (fun h p => max h p.height) h₀ ≤ n := by
    induction ps generalizing h₀ with
    | nil => exact hh
    | cons p ps ih =>
      obtain ⟨hp, h⟩ := List.forall_mem_cons.1 h
      exact ih h _ (Nat.max_le.2 ⟨hh, hp⟩)
  have := hfold 0 (Nat.zero_le n)
  simp only [heightOf]
  split <;> omega

theorem low_letters {n : Nat} (w : Text) (h : Low n ps) : Low n (letters w ps) := by
  intro p hp
  rcases List.mem_append.1 hp with hp | hp
  · obtain ⟨c, -, rfl⟩ := List.mem_map.1 (List.mem_reverse.1 hp)
    exact Nat.zero_le n
  · exact h p hp

private theorem afterWords_low (ws : List Text) (hd : Low 1 done) (hp : Low 0 ps) :
    Low 1 (afterWords ws done ps).1 ∧ Low 0 (afterWords ws done ps).2 := by
  induction ws generalizing done ps with
  | nil => exact ⟨hd, hp⟩
  | cons w ws ih =>
    exact ih (List.forall_mem_cons.2 ⟨heightOf_le hp, hd⟩) (low_letters w nofun)

private theorem height_afterWords (ws : List Text) (hd : Low 1 done) (hp : Low 0 ps) :
    (alternatives (afterWords ws done ps).1 (afterWords ws done ps).2).height ≤ 2 := by
  obtain ⟨hd, hp⟩ := afterWords_low ws hd hp
  refine heightOf_le fun p hm => ?_
  rcases List.mem_cons.1 (List.mem_reverse.1 hm) with rfl | hm
  · exact heightOf_le hp
  · exact hd p hm

/-- The piece that a group of alternative words makes. -/
def wordGroup (i : Nat) (w : Text) (ws : List Text) : Piece :=
  let body := alternatives (afterWords ws [] (letters w [])).1 (afterWords ws [] (letters w [])).2
  ⟨.group i body.expr, body.height + 1, false⟩

theorem expr_wordGroup (i : Nat) (w : Text) (ws : List Text) :
    (wordGroup i w ws).expr = .group i (.alternatives ((w :: ws).map .word)) := by
  simp [wordGroup, alternatives_afterWords, sequence_letters]

theorem height_wordGroup (i : Nat) (w : Text) (ws : List Text) : (wordGroup i w ws).height ≤ 3 :=
  Nat.succ_le_succ (height_afterWords ws nofun (low_letters w nofun))

theorem Ends.wordGroup {w : Text} {ws : List Text} (hi : flags.ignoreCase)
    (hne : w ≠ []) (hw : ∀ v ∈ w :: ws, ∀ c ∈ v, isPlain c)
    (h : Ends depth flags
      ⟨t, place + 1 + w.length + (ws.flatMap ('|' :: ·)).length + 1, groups + 1, names⟩ done
      (wordGroup (groups + 1) w ws :: ps) r) :
    Ends depth flags
      ⟨'(' :: (w ++ (ws.flatMap ('|' :: ·) ++ ')' :: t)), place, groups, names⟩ done ps r := by
  obtain ⟨hc, hws⟩ := List.forall_mem_cons.1 hw
  refine .group ?_ (.word hi hc (.words hi hws .close)) (by simp; omega) h
  obtain _ | ⟨c, w⟩ := w
  · exact absurd rfl hne
  · rintro ⟨⟩
    exact absurd (hc '?' List.mem_cons_self) (by decide)

end
end Source

namespace Expr

theorem weight_letter {c : Char} (hc : c.toNat < 128) : (letter c).weight ≤ 15 := by
  have hascii : (CharSet.single c).isAscii := by
    simpa [CharSet.isAscii, CharSet.single, CharSet.range] using hc
  have hlen := CharSet.length_closeUnder Text.asciiFoldPairs (.single c)
  have hpairs : Text.asciiFoldPairs.length = 28 := rfl
  have hone : (CharSet.single c).ranges.length = 1 := rfl
  rw [letter, weight, CharSet.anyCase, if_pos hascii]
  omega

theorem weight_sequence_le {k : Nat} {as : List Expr} (h : ∀ a ∈ as, a.weight ≤ k) :
    (sequence as).weight ≤ k * as.length := by
  induction as with
  | nil => exact Nat.zero_le _
  | cons a as ih =>
    obtain ⟨ha, h⟩ := List.forall_mem_cons.1 h
    have hs : (sequence (a :: as)).weight = a.weight + (sequence as).weight := by
      cases as <;> rfl
    have := ih h
    rw [hs, List.length_cons, Nat.mul_succ]
    omega

theorem weight_choice_le {k : Nat} {as : List Expr} (h : ∀ a ∈ as, a.weight ≤ k) :
    (choice as).weight ≤ (k + 1) * as.length := by
  induction as with
  | nil => exact Nat.zero_le _
  | cons a as ih =>
    obtain ⟨ha, h⟩ := List.forall_mem_cons.1 h
    have hc : (choice (a :: as)).weight ≤ a.weight + (choice as).weight + 1 := by
      cases as with
      | nil => exact Nat.le_succ _
      | cons b bs => exact Nat.le_refl _
    have := ih h
    rw [List.length_cons, Nat.mul_succ]
    omega

theorem weight_word_le {w : Text} (hw : ∀ c ∈ w, c.toNat < 128) :
    (word w).weight ≤ 15 * w.length := by
  have h := weight_sequence_le (List.forall_mem_map.2 fun c hc => weight_letter (hw c hc))
  rwa [List.length_map] at h

theorem ordered_letter (c : Char) : (letter c).Ordered :=
  CharSet.ordered_anyCase (CharSet.ordered_single c)

theorem ordered_word (w : Text) : (word w).Ordered :=
  ordered_sequence (List.forall_mem_map.2 fun c _ => ordered_letter c)

/-- An ASCII character that is not upper case, the form in which patterns have their letters. -/
def IsFolded (c : Char) : Prop := c.toNat < 128 ∧ Text.fold c = c

instance (c : Char) : Decidable (IsFolded c) := inferInstanceAs (Decidable (_ ∧ _))

theorem letter_inj {c d : Char} (hc : IsFolded c) (hd : IsFolded d) (h : letter c = letter d) :
    c = d := by
  have hset : (CharSet.single c).anyCase = (CharSet.single d).anyCase := Expr.one.inj h
  have hhas := (CharSet.has_anyCase_single hc.1 hc.2).2 hc.2
  rw [hset, CharSet.has_anyCase_single hd.1 hd.2, hc.2] at hhas
  exact hhas

theorem parts_word (w : Text) : (word w).parts = w.map letter := by
  induction w with
  | nil => rfl
  | cons c w ih =>
    cases w with
    | nil => rfl
    | cons d w => exact congrArg (letter c :: ·) ih

private theorem foldl_min_zero (a : Expr) (as : List Expr) :
    as.foldl (fun n b => min n (sharedLength a.parts b.parts)) 0 = 0 := by
  induction as with
  | nil => rfl
  | cons b as ih => rwa [List.foldl_cons, Nat.zero_min]

theorem alternatives_eq_choice {a b : Expr} {as : List Expr}
    (h : sharedLength a.parts b.parts = 0) :
    alternatives (a :: b :: as) = choice (a :: b :: as) := by
  have hfold : (b :: as).foldl (fun n b => min n (sharedLength a.parts b.parts)) a.parts.length =
      0 := by
    rw [List.foldl_cons, h, Nat.min_zero, foldl_min_zero]
  simp only [alternatives, hfold, ite_self, if_true]

/-- Alternative words of which the first two start differently have no start in common. -/
theorem alternatives_words {c d : Char} {v w : Text} {ws : List Text} (hc : IsFolded c)
    (hd : IsFolded d) (hne : c ≠ d) :
    alternatives (((c :: v) :: (d :: w) :: ws).map word) =
      choice (((c :: v) :: (d :: w) :: ws).map word) := by
  refine alternatives_eq_choice ?_
  rw [parts_word, parts_word, List.map_cons, List.map_cons, sharedLength,
    if_neg fun h => hne (letter_inj hc hd h)]

end Expr

theorem Source.read_of_ends {source : Text} {flags : Flags} {ps : List Piece} {s : State} {n : Nat}
    (h : Ends 0 flags ⟨source, 0, 0, []⟩ [] [] (alternatives [] ps, s)) (hh : Low n ps)
    (hn : n < nestLimit)
    (hw : nodeSize * (Expr.sequence (ps.reverse.map Piece.expr)).weight ≤ sizeLimit) :
    read source flags = .ok (.sequence (ps.reverse.map Piece.expr)) := by
  have he := h (source.length + 1) (Nat.lt_succ_self _)
  have hle : heightOf ps ≤ n + 1 := heightOf_le hh
  have hp : (alternatives [] ps).expr = .sequence (ps.reverse.map Piece.expr) := rfl
  have hheight : ¬ nestLimit < (alternatives [] ps).height := by
    have : (alternatives [] ps).height = heightOf ps := by
      simp [alternatives, heightOf, sequence]
    omega
  have hweight : ¬ sizeLimit < nodeSize * (alternatives [] ps).expr.weight := by
    rw [hp]
    omega
  rw [read]
  change (expression 0 (source.length + 1) (mode flags) ⟨source, 0, 0, []⟩ [] [] >>= _) = _
  rw [he]
  change (if nestLimit < (alternatives [] ps).height then _
    else if sizeLimit < nodeSize * (alternatives [] ps).expr.weight then _ else _) = _
  rw [if_neg hheight, if_neg hweight, hp]

end MailMarkup.Pattern
