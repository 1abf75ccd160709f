import Mathlib.Data.List.TakeWhile
import MailMarkup.Proofs.Document.Attributes

/-!
# The same text with something else behind it

What is read of a text depends on the text that is read, and hardly on what follows it. Two cursors
are twins when they stand before one text that is followed by `u` for the one and by `v` for the
other. As long as the first reads nothing of `u`, both read the same. What a reader does look at
beyond its end is the next character, and whether a quote stands somewhere in the rest.
-/
namespace MailMarkup
open Text

/-- Two cursors before one text, which `u` and `v` follow. -/
def Cursor.Twin (u v : Text) (c d : Cursor) : Prop := ∃ x, c.rest = x ++ u ∧ d.rest = x ++ v

/-- The text behind is out of sight, or its first character is the same. -/
def Cursor.Hides (u v : Text) (c : Cursor) : Prop := c.rest ≠ u ∨ v.head? = u.head?

namespace Cursor
variable {u v : Text} {c d r : Cursor} {p : Char → Bool}

theorem Hides.of_reaches (h : Hides u v r) (hr : c.Reaches r) (stay : u <:+ r.rest) :
    Hides u v c := by
  refine h.imp_left fun hne heq => hne ?_
  exact (stay.eq_of_length_le (heq ▸ hr.length_le)).symm

theorem Hides.of_lt (h : u.length < c.rest.length) : Hides u v c := by
  refine .inl fun heq => ?_
  rw [heq] at h
  exact Nat.lt_irrefl _ h

theorem Twin.peek (h : Twin u v c d) (hc : Hides u v c) : d.peek = c.peek := by
  obtain ⟨x, hx, hd⟩ := h
  rw [Cursor.peek, Cursor.peek, hx, hd]
  cases x with
  | nil => exact hc.resolve_left (not_not_intro hx)
  | cons a x => rfl

theorem rest_eq_nil_iff : c.rest = [] ↔ c.peek = none := List.head?_eq_none_iff.symm

theorem rest_eq_nil_congr (h : d.peek = c.peek) : d.rest = [] ↔ c.rest = [] := by
  rw [rest_eq_nil_iff, rest_eq_nil_iff, h]

theorem Twin.next (h : Twin u v c d) (hc : c.rest ≠ u) : Twin u v c.next d.next := by
  obtain ⟨x, hx, hd⟩ := h
  cases x with
  | nil => exact absurd hx hc
  | cons a x => exact ⟨x, by simp [hx], by simp [hd]⟩

theorem Twin.skipWhile (h : Twin u v c d) (stay : u <:+ (c.skipWhile p).rest)
    (ends : (c.skipWhile p).rest ≠ u ∨ v.head?.any p = false) :
    Twin u v (c.skipWhile p) (d.skipWhile p) ∧ d.rest.takeWhile p = c.rest.takeWhile p := by
  obtain ⟨x, hx, hd⟩ := h
  rw [Twin, rest_skipWhile, rest_skipWhile, hx, hd]
  rw [rest_skipWhile, hx] at stay ends
  clear hx hd
  induction x with
  | nil =>
    have hu : u.dropWhile p = u :=
      (List.dropWhile_suffix p).eq_of_length_le stay.length_le
    have hv : v.dropWhile p = v ∧ v.takeWhile p = [] := by
      have hend := ends.resolve_left (not_not_intro hu)
      cases v with
      | nil => exact ⟨rfl, rfl⟩
      | cons a v => simp_all
    have hu' : u.takeWhile p = [] := by
      have happ := List.takeWhile_append_dropWhile (p := p) (l := u)
      rw [hu] at happ
      simpa using happ
    refine ⟨⟨[], ?_, ?_⟩, ?_⟩
    · simpa using hu
    · simpa using hv.1
    · simp [hv.2, hu']
  | cons a x ih =>
    by_cases ha : p a = true
    · simp only [List.cons_append, List.dropWhile_cons_of_pos ha] at stay ends ⊢
      obtain ⟨htwin, htake⟩ := ih ends stay
      exact ⟨htwin, by simp only [List.takeWhile_cons_of_pos ha, htake]⟩
    · simp only [List.cons_append, List.dropWhile_cons_of_neg ha, List.takeWhile_cons_of_neg ha]
      exact ⟨⟨a :: x, rfl, rfl⟩, trivial⟩

theorem skipWhile_stops (c : Cursor) (p : Char → Bool) : (c.skipWhile p).peek.any p = false := by
  rw [Cursor.peek, rest_skipWhile]
  induction c.rest with
  | nil => rfl
  | cons x t ih => cases hx : p x <;> simp [hx, ih]

theorem Twin.skipWhile_hides (h : Twin u v c d) (stay : u <:+ (c.skipWhile p).rest)
    (hides : Hides u v (c.skipWhile p)) :
    Twin u v (c.skipWhile p) (d.skipWhile p) ∧ d.rest.takeWhile p = c.rest.takeWhile p := by
  refine h.skipWhile stay ?_
  by_cases hr : (c.skipWhile p).rest = u
  · have hend := c.skipWhile_stops p
    have hhead := hides.resolve_left (not_not_intro hr)
    rw [Cursor.peek, hr, ← hhead] at hend
    exact .inr hend
  · exact .inl hr

end Cursor

/-- No more rounds were counted, and no ceiling was met. -/
structure ReadStats.Eases (su st : ReadStats) : Prop where
  le : su.iterations ≤ st.iterations
  unmet : su.Unmet

theorem ReadStats.Eases.tick {l : Limits} {su st st' : ReadStats} (h : su.Eases st)
    (ht : st.tick l = (st', true)) : ∃ su', su.tick l = (su', true) ∧ su'.Eases st' := by
  have hle := h.le
  unfold ReadStats.tick at ht
  split at ht
  · exact absurd (congrArg Prod.snd ht) Bool.false_ne_true
  · split at ht
    · exact absurd (congrArg Prod.snd ht) Bool.false_ne_true
    · obtain rfl := (Prod.mk.inj ht).1
      refine ⟨{ su with iterations := su.iterations + 1 }, ?_, Nat.succ_le_succ hle,
        h.unmet.rounds, h.unmet.attributes, h.unmet.depth⟩
      rw [ReadStats.tick, h.unmet.rounds, if_neg Bool.false_ne_true, if_neg (by omega)]

namespace Reader
open Cursor (Twin Hides)
variable {u v : Text} {c d c' : Cursor}

theorem bareValue_twin (h : Twin u v c d) (stay : u <:+ (bareValue c).2.rest)
    (hides : Hides u v (bareValue c).2) :
    (bareValue d).1 = (bareValue c).1 ∧ Twin u v (bareValue c).2 (bareValue d).2 :=
  (h.skipWhile_hides (p := isBareChar) stay hides).symm

/-- Whether a closing quote comes is seen from the whole rest, in which there is nothing new. -/
theorem quotedValue_twin {q : Char} (h : Twin u v c d) (sub : v ⊆ u)
    (stay : u <:+ (quotedValue q c).2.rest) (hides : Hides u v (quotedValue q c).2) :
    (quotedValue q d).1 = (quotedValue q c).1 ∧
      Twin u v (quotedValue q c).2 (quotedValue q d).2 := by
  have hdrop (c : Cursor) : c.rest.drop (c.rest.takeWhile (· != q)).length =
      (c.skipWhile (· != q)).rest := (Cursor.rest_advance _ _).symm
  have hadv (c : Cursor) : c.advance ((c.rest.takeWhile (· != q)).length + 1) =
      (c.skipWhile (· != q)).next := Cursor.advance_add _ 1 c
  unfold quotedValue at stay hides ⊢
  simp only [hdrop, hadv] at stay hides ⊢
  by_cases hend : (c.skipWhile (· != q)).rest.isEmpty = true
  · rw [if_pos hend] at stay hides ⊢
    have hd : (d.skipWhile (· != q)).rest.isEmpty = true := by
      obtain ⟨x, hx, hdx⟩ := h
      rw [Cursor.rest_skipWhile, List.isEmpty_iff, List.dropWhile_eq_nil_iff] at hend ⊢
      intro y hy
      refine hend y ?_
      rw [hx, List.mem_append]
      rw [hdx, List.mem_append] at hy
      exact hy.imp_right fun hyv => sub hyv
    rw [if_pos hd]
    exact bareValue_twin h stay hides
  · rw [if_neg hend] at stay hides ⊢
    have hlt : u.length < (c.skipWhile (· != q)).rest.length :=
      Nat.lt_of_le_of_lt stay.length_le (next_lt (by simpa using hend))
    have hne : (c.skipWhile (· != q)).rest ≠ u := fun heq => by simp [heq] at hlt
    have hstay : u <:+ (c.skipWhile (· != q)).rest :=
      stay.trans (Cursor.reaches_next _).suffix
    obtain ⟨htwin, htake⟩ := h.skipWhile hstay (.inl hne)
    have hd : (d.skipWhile (· != q)).rest.isEmpty ≠ true := by
      obtain ⟨x, hx, hdx⟩ := htwin
      rintro hdn
      rw [hdx, List.isEmpty_iff, List.append_eq_nil_iff] at hdn
      exact hne (by rw [hx, hdn.1]; rfl)
    rw [if_neg hd]
    exact ⟨htake, htwin.next hne⟩

private theorem attributeValue_twin (h : Twin u v c d) (sub : v ⊆ u)
    (stay : u <:+ (attributeValue c).2.rest) (hides : Hides u v (attributeValue c).2) :
    (attributeValue d).1 = (attributeValue c).1 ∧
      Twin u v (attributeValue c).2 (attributeValue d).2 := by
  have hpeek := h.peek (hides.of_reaches (reaches_attributeValue c) stay)
  unfold attributeValue at stay hides ⊢
  rw [hpeek]
  split
  · rename_i q hq
    simp only [hq] at stay hides
    split
    · rename_i hquote
      rw [if_pos hquote] at stay hides
      have hne : c.rest ≠ u := by
        intro heq
        have hle := (stay.trans (reaches_quotedValue q c.next).suffix).length_le
        have hlt := next_lt (c := c) (by rintro hr; simp [Cursor.peek, hr] at hq)
        rw [heq] at hlt
        omega
      exact quotedValue_twin (h.next hne) sub stay hides
    · rename_i hquote
      rw [if_neg hquote] at stay hides
      exact bareValue_twin h stay hides
  · rename_i hq
    simp only [hq] at stay hides
    exact bareValue_twin h stay hides

theorem rest_ne_of_next (h : c.rest ≠ []) (stay : u <:+ c.next.rest) : c.rest ≠ u := by
  rintro rfl
  exact Nat.lt_irrefl _ (Nat.lt_of_le_of_lt stay.length_le (next_lt h))

theorem skipBlanks_twin (h : Twin u v c d) (stay : u <:+ c.skipBlanks.rest)
    (hides : Hides u v c.skipBlanks) : Twin u v c.skipBlanks d.skipBlanks :=
  (h.skipWhile_hides stay hides).1

/-- Behind an attribute without a value, the reader looks past the blanks for a sign of one. -/
theorem attribute?_twin {a : Text × Text} (ha : attribute? c = some (a, c')) (h : Twin u v c d)
    (sub : v ⊆ u) (stay : u <:+ c'.skipBlanks.rest) (hides : Hides u v c'.skipBlanks) :
    ∃ d', attribute? d = some (a, d') ∧ Twin u v c' d' := by
  have hskip (c : Cursor) : c.advance (c.rest.takeWhile isNameChar).length =
      c.skipWhile isNameChar := rfl
  have hides' := hides.of_reaches c'.reaches_skipBlanks stay
  have stay' : u <:+ c'.rest := stay.trans c'.reaches_skipBlanks.suffix
  unfold attribute? at ha ⊢
  simp only [hskip] at ha ⊢
  split at ha
  · exact absurd ha nofun
  · rename_i hname
    split at ha
    · rename_i heq
      obtain ⟨rfl, rfl⟩ := Prod.mk.inj (Option.some.inj ha)
      have rval := reaches_attributeValue (c.skipWhile isNameChar).skipBlanks.next.skipBlanks
      have rblank := ((c.skipWhile isNameChar).skipBlanks.next.reaches_skipBlanks).trans rval
      have rnext := ((c.skipWhile isNameChar).skipBlanks.reaches_next).trans rblank
      have rname := ((c.skipWhile isNameChar).reaches_skipBlanks).trans rnext
      obtain ⟨tname, htake⟩ := h.skipWhile_hides (stay'.trans rname.suffix)
        (hides'.of_reaches rname stay')
      have teq := skipBlanks_twin tname (stay'.trans rnext.suffix)
        (hides'.of_reaches rnext stay')
      have hpeek := teq.peek (hides'.of_reaches rnext stay')
      have hne : (c.skipWhile isNameChar).skipBlanks.rest ≠ [] := by
        rw [ne_eq, Cursor.rest_eq_nil_iff, beq_iff_eq.1 heq]
        exact nofun
      have tnext := teq.next (rest_ne_of_next hne (stay'.trans rblank.suffix))
      have tblank := skipBlanks_twin tnext (stay'.trans rval.suffix)
        (hides'.of_reaches rval stay')
      obtain ⟨hval, tval⟩ := attributeValue_twin tblank sub stay' hides'
      refine ⟨_, ?_, tval⟩
      rw [htake, if_neg hname, hpeek, if_pos heq, hval]
    · rename_i heq
      obtain ⟨rfl, rfl⟩ := Prod.mk.inj (Option.some.inj ha)
      obtain ⟨tname, htake⟩ := h.skipWhile_hides stay' hides'
      have hpeek := (skipBlanks_twin tname stay hides).peek hides
      refine ⟨_, ?_, tname⟩
      rw [htake, if_neg hname, hpeek, if_neg heq]

theorem attribute?_eq_none_iff : attribute? c = none ↔ c.peek.any isNameChar = false := by
  unfold attribute?
  cases hr : c.rest with
  | nil => simp [Cursor.peek, hr]
  | cons x t =>
    by_cases hx : isNameChar x = true
    · simp only [List.takeWhile_cons_of_pos hx]
      simp [Cursor.peek, hr, hx]
      split <;> exact Option.some_ne_none _
    · simp [hx, Cursor.peek, hr]

theorem attribute?_none_congr (hpeek : d.peek = c.peek) (hc : attribute? c = none) :
    attribute? d = none := by
  rw [attribute?_eq_none_iff, hpeek, ← attribute?_eq_none_iff]
  exact hc

section Attributes
variable {l : Limits} {st su : ReadStats} {round : Nat} {seen : List (Text × Text)}

theorem TagRound.length_lt_of_closing {c' : Cursor} (h : TagRound c (.ended c' true)) :
    c'.rest.length < c.skipBlanks.rest.length := by
  cases h with
  | selfClose mark close =>
    exact Nat.lt_of_le_of_lt (next_le _) (next_lt (rest_ne_nil_of_peek mark))

/-- Where a round comes to, the texts that differ are out of sight. -/
def TagStep.Clear (u v : Text) : TagStep → Prop
  | .ended c closing => u <:+ c.rest ∧ (closing = true ∨ Hides u v c)
  | .found _ c | .passed c _ => u <:+ c.skipBlanks.rest ∧ Hides u v c.skipBlanks

/-- Two rounds that come to the same before different texts. -/
inductive TagStep.Twin (u v : Text) : TagStep → TagStep → Prop where
  | ended {c d : Cursor} {closing : Bool} (cursor : Cursor.Twin u v c d) :
      Twin u v (.ended c closing) (.ended d closing)
  | found {c d : Cursor} {a : Text × Text} (cursor : Cursor.Twin u v c d) :
      Twin u v (.found a c) (.found a d)
  | passed {c d : Cursor} {n : Nat} (cursor : Cursor.Twin u v c d) :
      Twin u v (.passed c n) (.passed d n)

theorem hides_behind {e : Cursor} {closing : Bool} (stay : u <:+ e.rest)
    (hides : closing = true ∨ Hides u v e)
    (reach : c.skipBlanks.Reaches e ∧
      (closing = true → e.rest.length < c.skipBlanks.rest.length)) :
    u <:+ c.skipBlanks.rest ∧ Hides u v c.skipBlanks := by
  refine ⟨stay.trans reach.1.suffix, ?_⟩
  rcases hides with hs | hh
  · exact .of_lt (Nat.lt_of_le_of_lt stay.length_le (reach.2 hs))
  · exact hh.of_reaches reach.1 stay

theorem TagRound.clear {r : TagStep} (h : TagRound c r) (clear : r.Clear u v) :
    u <:+ c.skipBlanks.rest ∧ Hides u v c.skipBlanks := by
  cases r with
  | ended e closing =>
    refine hides_behind clear.1 clear.2 ⟨h.reaches, fun hs => ?_⟩
    subst hs
    exact h.length_lt_of_closing
  | found a e =>
    have hreach := h.reaches.trans e.reaches_skipBlanks
    exact ⟨clear.1.trans hreach.suffix, clear.2.of_reaches hreach clear.1⟩
  | passed e n =>
    have hreach := h.reaches.trans e.reaches_skipBlanks
    exact ⟨clear.1.trans hreach.suffix, clear.2.of_reaches hreach clear.1⟩

theorem Inside.congr (h : Inside c) (hpeek : d.peek = c.peek) : Inside d where
  more := mt (Cursor.rest_eq_nil_congr hpeek).1 h.more
  noClose := hpeek ▸ h.noClose
  noSlash := hpeek ▸ h.noSlash
  noOpen := hpeek ▸ h.noOpen

/-- A round that one reader makes is made by the other. -/
theorem TagRound.twin {r : TagStep} (hr : TagRound c r) (h : Twin u v c d) (sub : v ⊆ u)
    (clear : r.Clear u v) : ∃ r', TagRound d r' ∧ TagStep.Twin u v r r' := by
  obtain ⟨stay, hides⟩ := hr.clear clear
  have twin := skipBlanks_twin h stay hides
  have hpeek := twin.peek hides
  have hblank := h.peek (hides.of_reaches c.reaches_skipBlanks stay)
  cases hr with
  | exhausted all =>
    exact ⟨_, .exhausted ((Cursor.rest_eq_nil_congr hpeek).2 all), .ended twin⟩
  | close mark =>
    have hne := rest_ne_of_next (rest_ne_nil_of_peek mark) clear.1
    exact ⟨_, .close (hpeek.trans mark), .ended (twin.next hne)⟩
  | selfClose mark close =>
    have hne := rest_ne_of_next (rest_ne_nil_of_peek close) clear.1
    have hstay := clear.1.trans c.skipBlanks.next.reaches_next.suffix
    have twin' := twin.next (rest_ne_of_next (rest_ne_nil_of_peek mark) hstay)
    have hclose := (twin'.peek (.inl hne)).trans close
    exact ⟨_, .selfClose (hpeek.trans mark) hclose, .ended (twin'.next hne)⟩
  | slash mark noClose =>
    have hblanks := c.skipBlanks.next.reaches_skipBlanks
    have hstay := clear.1.trans hblanks.suffix
    have twin' := twin.next (rest_ne_of_next (rest_ne_nil_of_peek mark) hstay)
    have hclose := twin'.peek (clear.2.of_reaches hblanks clear.1)
    exact ⟨_, .slash (hpeek.trans mark) (hclose ▸ noClose), .passed twin'⟩
  | unclosed mark => exact ⟨_, .unclosed (hpeek.trans mark), .ended twin⟩
  | entry inside found =>
    obtain ⟨d', found', twin'⟩ := attribute?_twin found twin sub clear.1 clear.2
    exact ⟨_, .entry (inside.congr hpeek) found', .found twin'⟩
  | blank inside none blank =>
    exact ⟨_, .blank (inside.congr hpeek) (attribute?_none_congr hpeek none) (hblank ▸ blank),
      .passed twin⟩
  | junk inside none solid =>
    have hstay := clear.1.trans c.skipBlanks.next.reaches_skipBlanks.suffix
    exact ⟨_, .junk (inside.congr hpeek) (attribute?_none_congr hpeek none) (hblank ▸ solid),
      .passed (twin.next (rest_ne_of_next inside.more hstay))⟩

/-- The end of a tag lies behind the blanks before it, and further behind if the tag closes
itself. -/
theorem skipBlanks_reaches_attributes (hu : (attributes l c st round seen).stats.Unmet) :
    c.skipBlanks.Reaches (attributes l c st round seen).cursor ∧
      ((attributes l c st round seen).selfClosing = true →
        (attributes l c st round seen).cursor.rest.length < c.skipBlanks.rest.length) := by
  induction c, st, round, seen using attributes_induction (l := l) with
  | spent c st round seen hr =>
    rw [attributes_spent hr] at hu
    exact absurd hu.attributes (Nat.succ_ne_zero _)
  | stopped c st round seen st' hr ht =>
    rw [attributes_stopped hr ht] at hu
    exact absurd hu.attributes (Nat.succ_ne_zero _)
  | ended c st round seen st' c' closing hr ht h =>
    rw [attributes_round hr ht h]
    refine ⟨h.reaches, fun hs => ?_⟩
    obtain rfl : closing = true := hs
    exact h.length_lt_of_closing
  | found c st round seen st' a c' hr ht h ih =>
    rw [attributes_round hr ht h] at hu ⊢
    obtain ⟨hreach, hlt⟩ := ih hu
    have hbehind := h.reaches.trans c'.reaches_skipBlanks
    exact ⟨hbehind.trans hreach, fun hs => Nat.lt_of_lt_of_le (hlt hs) hbehind.length_le⟩
  | passed c st round seen st' c' n hr ht h ih =>
    rw [attributes_round hr ht h] at hu ⊢
    obtain ⟨hreach, hlt⟩ := ih hu
    have hbehind := h.reaches.trans c'.reaches_skipBlanks
    exact ⟨hbehind.trans hreach, fun hs => Nat.lt_of_lt_of_le (hlt hs) hbehind.length_le⟩

/-- Two ends of a tag that stand before different texts. -/
structure TagEnd.Twin (u v : Text) (e e' : TagEnd) : Prop where
  cursor : Cursor.Twin u v e.cursor e'.cursor
  stats : e'.stats.Eases e.stats
  attributes : e'.attributes = e.attributes
  selfClosing : e'.selfClosing = e.selfClosing

/-- Tags are read alike round by round, up to an end before the texts that differ. -/
theorem attributes_twin (h : Twin u v c d) (sub : v ⊆ u) (eases : su.Eases st)
    (hu : (attributes l c st round seen).stats.Unmet)
    (stay : u <:+ (attributes l c st round seen).cursor.rest)
    (hides : (attributes l c st round seen).selfClosing = true ∨
      Hides u v (attributes l c st round seen).cursor) :
    TagEnd.Twin u v (attributes l c st round seen) (attributes l d su round seen) := by
  induction c, st, round, seen using attributes_induction (l := l) generalizing d su with
  | spent c st round seen hr =>
    rw [attributes_spent hr] at hu
    exact absurd hu.attributes (Nat.succ_ne_zero _)
  | stopped c st round seen st' hr ht =>
    rw [attributes_stopped hr ht] at hu
    exact absurd hu.attributes (Nat.succ_ne_zero _)
  | ended c st round seen st' c' closing hr ht hround =>
    rw [attributes_round hr ht hround] at stay hides ⊢
    obtain ⟨su', ht', eases'⟩ := eases.tick ht
    obtain ⟨_, hround', twin⟩ := hround.twin h sub ⟨stay, hides⟩
    cases twin with
    | ended twin =>
      rw [attributes_round hr ht' hround']
      exact ⟨twin, eases', rfl, rfl⟩
  | found c st round seen st' a c' hr ht hround ih =>
    rw [attributes_round hr ht hround] at hu stay hides ⊢
    obtain ⟨su', ht', eases'⟩ := eases.tick ht
    have behind := hides_behind stay hides (skipBlanks_reaches_attributes hu)
    obtain ⟨_, hround', twin⟩ := hround.twin h sub behind
    cases twin with
    | found twin =>
      rw [attributes_round hr ht' hround']
      exact ih twin eases' hu stay hides
  | passed c st round seen st' c' n hr ht hround ih =>
    rw [attributes_round hr ht hround] at hu stay hides ⊢
    obtain ⟨su', ht', eases'⟩ := eases.tick ht
    have behind := hides_behind stay hides (skipBlanks_reaches_attributes hu)
    obtain ⟨_, hround', twin⟩ := hround.twin h sub behind
    cases twin with
    | passed twin =>
      rw [attributes_round hr ht' hround']
      exact ih twin
        ⟨eases'.le, eases'.unmet.rounds, eases'.unmet.attributes, eases'.unmet.depth⟩ hu stay hides

end Attributes

/-! ### Closing tags -/

/-- Junk in a tag is passed over up to here. -/
def junkEnd (c : Cursor) : Cursor := c.skipWhile fun x => x != '<' && x != '>'

theorem recover_eq (c : Cursor) :
    recover c = if (junkEnd c).peek == some '>' then (junkEnd c).next else junkEnd c := rfl

theorem junkEnd_reaches_recover (c : Cursor) : (junkEnd c).Reaches (recover c) := by
  rw [recover_eq]
  split
  · exact Cursor.reaches_next _
  · exact .refl _

/-- Tags may end before a text that is hidden, or before one that starts with `<` or is empty. -/
def Lands (u v : Text) (c : Cursor) : Prop := Hides u v c ∨ v.head?.all (· == '<') = true

theorem Lands.of_reaches {r : Cursor} (h : Lands u v r) (hr : c.Reaches r) (stay : u <:+ r.rest) :
    Lands u v c := h.imp_left fun hh => hh.of_reaches hr stay

theorem skipWhile_lands {p : Char → Bool} (hp : p '<' = false) (h : Twin u v c d)
    (stay : u <:+ (c.skipWhile p).rest) (lands : Lands u v (c.skipWhile p)) :
    Twin u v (c.skipWhile p) (d.skipWhile p) ∧ d.rest.takeWhile p = c.rest.takeWhile p := by
  rcases lands with hides | hlt
  · exact h.skipWhile_hides stay hides
  · refine h.skipWhile stay (.inr ?_)
    cases v with
    | nil => rfl
    | cons a v =>
      obtain rfl : a = '<' := by simpa using hlt
      exact hp

theorem recover_twin (h : Twin u v c d) (stay : u <:+ (recover c).rest)
    (lands : Lands u v (junkEnd c)) : Twin u v (recover c) (recover d) := by
  have hstay := stay.trans (junkEnd_reaches_recover c).suffix
  obtain ⟨htwin, -⟩ := skipWhile_lands (by decide) h hstay lands
  have htwin : Twin u v (junkEnd c) (junkEnd d) := htwin
  rw [recover_eq] at stay ⊢
  rw [recover_eq]
  by_cases hu : (junkEnd c).rest = u
  · have hgt : ((junkEnd c).peek == some '>') ≠ true := by
      intro hgt
      rw [if_pos hgt] at stay
      refine rest_ne_of_next ?_ stay hu
      rw [ne_eq, Cursor.rest_eq_nil_iff, beq_iff_eq.1 hgt]
      exact Option.some_ne_none _
    have hgt' : ((junkEnd d).peek == some '>') ≠ true := by
      have hv : (junkEnd d).rest = v := by
        obtain ⟨x, hx, hd⟩ := htwin
        obtain rfl : x = [] := by simpa [hu] using hx
        exact hd
      rcases lands with hides | hlt
      · rwa [htwin.peek hides]
      · rw [Cursor.peek, hv]
        cases v with
        | nil => simp
        | cons a v =>
          obtain rfl : a = '<' := by simpa using hlt
          simp
    rw [if_neg hgt, if_neg hgt']
    exact htwin
  · rw [htwin.peek (.inl hu)]
    split
    · exact htwin.next hu
    · exact htwin

theorem tagName_twin (h : Twin u v c d) (stay : u <:+ (tagName c).2.rest)
    (lands : Lands u v (tagName c).2) :
    (tagName d).1 = (tagName c).1 ∧ Twin u v (tagName c).2 (tagName d).2 := by
  obtain ⟨htwin, htake⟩ := skipWhile_lands (p := isTagChar) (by decide) h stay lands
  exact ⟨congrArg lower htake, htwin⟩

theorem advance_twin {n : Nat} (h : Twin u v c d) (stay : u <:+ (c.advance n).rest)
    (hn : n ≤ c.rest.length) : Twin u v (c.advance n) (d.advance n) := by
  obtain ⟨x, hx, hd⟩ := h
  have hle := stay.length_le
  rw [Cursor.rest_advance, List.length_drop] at hle
  have hnx : n ≤ x.length := by
    rw [hx, List.length_append] at hle hn
    omega
  refine ⟨x.drop n, ?_, ?_⟩
  · rw [Cursor.rest_advance, hx, List.drop_append_of_le_length hnx]
  · rw [Cursor.rest_advance, hd, List.drop_append_of_le_length hnx]

/-- Where the name and the junk of a closing tag end. -/
def closerEnd (c : Cursor) : Cursor := junkEnd (tagName (c.advance 2)).2

private theorem closerEnd_reaches (c : Cursor) : (closerEnd c).Reaches (closingTag c).2 :=
  junkEnd_reaches_recover _

theorem classify_closing {t : Text} (h : classify t = .closing) : ∃ r, t = '<' :: '/' :: r := by
  unfold classify at h
  split at h
  · exact absurd h nofun
  · exact ⟨_, rfl⟩
  · exact absurd h nofun
  · exact absurd h nofun
  · split at h <;> exact absurd h nofun
  · exact absurd h nofun

theorem closingTag_twin (h : Twin u v c d) (kind : classify c.rest = .closing)
    (stay : u <:+ (closingTag c).2.rest) (lands : Lands u v (closerEnd c)) :
    (closingTag d).1 = (closingTag c).1 ∧ Twin u v (closingTag c).2 (closingTag d).2 := by
  have rname : (tagName (c.advance 2)).2.Reaches (closerEnd c) := Cursor.reaches_skipWhile _ _
  have hstop := stay.trans (closerEnd_reaches c).suffix
  have hname := hstop.trans rname.suffix
  have hlen : 2 ≤ c.rest.length := by
    obtain ⟨r, hr⟩ := classify_closing kind
    simp [hr]
  have htwin := advance_twin h (hname.trans (reaches_tagName _).suffix) hlen
  obtain ⟨heq, htag⟩ := tagName_twin htwin hname (lands.of_reaches rname hstop)
  exact ⟨heq, recover_twin htag stay lands⟩

/-! ### Comments, declarations and raw content -/

/-- What is found in a text is found in front of other texts as well. -/
theorem cut?_twin {needle x b r : Text} (h : cut? needle (x ++ u) = some (b, r))
    (hlen : b.length + needle.length ≤ x.length) : ∃ r', cut? needle (x ++ v) = some (b, r') := by
  obtain ⟨hsplit, hfirst⟩ := cut?_eq_some_iff.1 h
  have hpre : b ++ needle <+: x := by
    refine List.prefix_of_prefix_length_le ⟨r, ?_⟩ ⟨u, rfl⟩ (by simpa using hlen)
    rw [hsplit, List.append_assoc]
  obtain ⟨z, rfl⟩ := hpre
  refine ⟨z ++ v, cut?_eq_some_iff.2 ⟨by simp, fun p w hp => ?_⟩⟩
  by_contra hlt
  have hpre' : p ++ needle <+: b ++ needle ++ z := by
    refine List.prefix_of_prefix_length_le ⟨w, ?_⟩ ⟨v, rfl⟩ ?_
    · rw [hp, List.append_assoc]
    · simp only [List.length_append] at hlen ⊢
      omega
  obtain ⟨w', hw'⟩ := hpre'
  exact hlt (hfirst p (w' ++ u) (by rw [← hw']; simp))

theorem Twin.of_end (h : Twin u v c d) (sub : v ⊆ u) (stay : u <:+ []) :
    u = [] ∧ v = [] ∧ d.rest = c.rest := by
  obtain rfl := List.suffix_nil.1 stay
  obtain rfl := List.subset_nil.1 sub
  obtain ⟨x, hx, hd⟩ := h
  exact ⟨rfl, rfl, hd.trans hx.symm⟩

theorem cut?_length {needle t b r : Text} (h : cut? needle t = some (b, r)) :
    b.length + needle.length ≤ t.length := by
  rw [(cut?_eq_some_iff.1 h).1]
  simp only [List.length_append]
  omega

theorem commentBody_twin (h : Twin u v c d) (sub : v ⊆ u) (stay : u <:+ (commentBody c).2.rest) :
    (commentBody d).1 = (commentBody c).1 ∧ Twin u v (commentBody c).2 (commentBody d).2 := by
  unfold commentBody at stay ⊢
  cases hcut : cut? ['-', '-', '>'] (c.rest.drop 4) with
  | none =>
    simp only [hcut, Cursor.rest_advance, List.drop_length] at stay
    obtain ⟨rfl, rfl, hd⟩ := Twin.of_end h sub stay
    rw [hd, hcut]
    exact ⟨rfl, [], by simp, by simp [hd]⟩
  | some cut =>
    obtain ⟨body, r⟩ := cut
    simp only [hcut] at stay ⊢
    have hlen := cut?_length hcut
    have hle := stay.length_le
    simp only [Cursor.rest_advance, List.length_drop, List.length_cons, List.length_nil]
      at hlen hle
    have htwin := advance_twin h stay (by omega)
    obtain ⟨x, hx, hdx⟩ := h
    have hxlen : c.rest.length = x.length + u.length := by rw [hx, List.length_append]
    have hx4 (t : Text) : (x ++ t).drop 4 = x.drop 4 ++ t :=
      List.drop_append_of_le_length (by omega)
    rw [hx, hx4] at hcut
    obtain ⟨r', hcut'⟩ := cut?_twin (v := v) hcut (by
      simp only [List.length_drop, List.length_cons, List.length_nil]
      omega)
    rw [hdx, hx4, hcut']
    exact ⟨rfl, htwin⟩

theorem afterDeclaration_eq (c : Cursor) :
    afterDeclaration c = (c.skipWhile (· != '>')).next := Cursor.advance_add _ 1 c

theorem afterDeclaration_twin (h : Twin u v c d) (sub : v ⊆ u)
    (stay : u <:+ (afterDeclaration c).rest) :
    Twin u v (afterDeclaration c) (afterDeclaration d) := by
  rw [afterDeclaration_eq] at stay ⊢
  rw [afterDeclaration_eq]
  have hstay := stay.trans (c.skipWhile (· != '>')).reaches_next.suffix
  by_cases hend : (c.skipWhile (· != '>')).rest = []
  · rw [hend] at hstay
    obtain ⟨rfl, rfl, hd⟩ := Twin.of_end h sub hstay
    have hend' : (d.skipWhile (· != '>')).rest = [] := by
      rwa [Cursor.rest_skipWhile, hd, ← Cursor.rest_skipWhile]
    exact ⟨[], by simp [hend], by simp [hend']⟩
  · have hne := rest_ne_of_next hend stay
    exact ((h.skipWhile hstay (.inl hne)).1).next hne

theorem rawContent_twin {tag : Text} (h : Twin u v c d) (sub : v ⊆ u)
    (stay : u <:+ (rawContent tag c).2.2.rest) (hides : Hides u v (rawContent tag c).2.2) :
    Forest.unplaced (rawContent tag d).1 = Forest.unplaced (rawContent tag c).1 ∧
      (rawContent tag d).2.1 = (rawContent tag c).2.1 ∧
      Twin u v (rawContent tag c).2.2 (rawContent tag d).2.2 := by
  unfold rawContent at stay hides ⊢
  cases hcut : cut? ('<' :: '/' :: tag) (lower c.rest) with
  | none =>
    simp only [hcut, Bool.false_eq_true, if_false, Cursor.rest_advance, List.drop_length]
      at stay ⊢
    obtain ⟨rfl, rfl, hd⟩ := Twin.of_end h sub stay
    simp only [hd, hcut, Bool.false_eq_true, if_false]
    exact ⟨Forest.unplaced_text _ _ _, trivial, [], by simp, by simp [hd]⟩
  | some cut =>
    obtain ⟨body, r⟩ := cut
    simp only [hcut, if_true] at stay hides ⊢
    have hlen := cut?_length hcut
    rw [length_lower] at hlen
    have rjunk := junkEnd_reaches_recover (c.advance (body.length + ('<' :: '/' :: tag).length))
    have hstay := stay.trans (reaches_recover _).suffix
    have hadv := advance_twin h hstay hlen
    have htwin := recover_twin hadv stay (.inl (hides.of_reaches rjunk stay))
    have hle := hstay.length_le
    obtain ⟨x, hx, hdx⟩ := h
    have hxlen : c.rest.length = x.length + u.length := by rw [hx, List.length_append]
    rw [Cursor.rest_advance, List.length_drop] at hle
    have htake : d.rest.take body.length = c.rest.take body.length := by
      rw [hx, hdx, List.take_append_of_le_length (by omega),
        List.take_append_of_le_length (by omega)]
    rw [hx, lower_append] at hcut
    obtain ⟨r', hcut'⟩ := cut?_twin (v := lower v) hcut (by rw [length_lower]; omega)
    rw [← lower_append, ← hdx] at hcut'
    simp only [hcut', htake, if_true]
    exact ⟨Forest.unplaced_text _ _ _, trivial, htwin⟩

/-! ### Texts -/

/-- The name in a closing tag. -/
def closerName (t : Text) : Text := lower ((t.drop 2).takeWhile isTagChar)

theorem closingTag_fst (c : Cursor) : (closingTag c).1 = closerName c.rest :=
  congrArg (fun t : Text => lower (t.takeWhile isTagChar)) (Cursor.rest_advance 2 c)

/-- Both texts start with `<` and with the same kind of markup, with the name of the same element
if they start with closing tags. -/
structure SameMarkup (u v : Text) : Prop where
  left : ∃ r, u = '<' :: r
  right : ∃ r, v = '<' :: r
  kind : classify v = classify u
  closer : classify u = .closing → closerName v = closerName u

/-- The texts differ only from a place on where both have markup of the same kind. -/
def Alike (u v : Text) : Prop :=
  ∃ x u' v', u = x ++ u' ∧ v = x ++ v' ∧ (u' = v' ∨ SameMarkup u' v')

theorem classify_eq (b : Char) (t : Text) :
    classify ('<' :: b :: t) =
      if b = '!' then if t.take 2 = ['-', '-'] then .comment else .declaration
      else if b = '/' then .closing else if b = '?' then .declaration
      else if isLetter b then .element else .text := by
  unfold classify
  split
  case h_3 tail hnot heq =>
    obtain ⟨-, rfl, rfl⟩ : '<' = '<' ∧ b = '!' ∧ t = tail := by simpa using heq
    have htake : t.take 2 ≠ ['-', '-'] := by
      intro htake
      have hsplit := List.take_append_drop 2 t
      rw [htake] at hsplit
      exact hnot (t.drop 2) hsplit.symm
    rw [if_pos rfl, if_neg htake]
  all_goals simp_all

namespace Alike

theorem refl (u : Text) : Alike u u := ⟨u, [], [], by simp, by simp, .inl rfl⟩

theorem of_markup (h : SameMarkup u v) : Alike u v := ⟨[], u, v, rfl, rfl, .inr h⟩

theorem append (h : Alike u v) (y : Text) : Alike (y ++ u) (y ++ v) := by
  obtain ⟨x, u', v', rfl, rfl, h'⟩ := h
  exact ⟨y ++ x, u', v', by simp, by simp, h'⟩

theorem head? (h : Alike u v) : v.head? = u.head? := by
  obtain ⟨x, u', v', rfl, rfl, rfl | h'⟩ := h
  · rfl
  · obtain ⟨⟨r, rfl⟩, ⟨r', rfl⟩, -, -⟩ := h'
    cases x <;> rfl

theorem hides (h : Alike u v) (c : Cursor) : Hides u v c := .inr h.head?

/-- What kind of markup starts at a text is told by its first characters, and those behind another
`<` do not count. -/
theorem classify (h : Alike u v) : Reader.classify v = Reader.classify u := by
  obtain ⟨x, u', v', rfl, rfl, rfl | h'⟩ := h
  · rfl
  · cases x with
    | nil => exact h'.kind
    | cons a x =>
      obtain ⟨⟨r, rfl⟩, ⟨r', rfl⟩, -, -⟩ := h'
      by_cases ha : a = '<'
      · subst ha
        cases x with
        | nil => rfl
        | cons b x =>
          have htake :
              (x ++ '<' :: r').take 2 = ['-', '-'] ↔ (x ++ '<' :: r).take 2 = ['-', '-'] := by
            match x with
            | [] => simp
            | [c] => simp
            | c :: d :: x => simp
          simp only [List.cons_append, classify_eq, htake]
      · simp only [List.cons_append, classify_of_ne ha]

theorem closer (h : Alike u v) (kind : Reader.classify u = .closing) :
    closerName v = closerName u := by
  obtain ⟨x, u', v', rfl, rfl, rfl | h'⟩ := h
  · rfl
  · match x with
    | [] => exact h'.closer kind
    | [a] =>
      obtain ⟨⟨r, rfl⟩, -, -, -⟩ := h'
      obtain ⟨t, ht⟩ := classify_closing kind
      simp at ht
    | a :: b :: x =>
      obtain ⟨⟨r, rfl⟩, ⟨r', rfl⟩, -, -⟩ := h'
      have hlt : isTagChar '<' = false := by decide
      have hcut (r : Text) : (x ++ '<' :: r).takeWhile isTagChar = x.takeWhile isTagChar :=
        (span_append fun _ => by simp [hlt]).1
      simp only [closerName, List.cons_append, List.drop_succ_cons, List.drop_zero, hcut]

end Alike

theorem textRun_twin {x acc : Text} (h : Alike u v)
    (stay : (textRun (x ++ u) acc).length ≤ acc.length + x.length) :
    textRun (x ++ v) acc = textRun (x ++ u) acc := by
  induction x generalizing acc with
  | nil =>
    have hk := h.classify
    have hh := h.head?
    cases u with
    | nil =>
      obtain rfl : v = [] := by simpa using hh
      rfl
    | cons a u =>
      cases v with
      | nil => simp at hh
      | cons b v =>
        have hu : classify (a :: u) ≠ .text := by
          intro htext
          have hle := length_le_textRun u (a :: acc)
          rw [List.nil_append, textRun, if_pos htext] at stay
          rw [List.length_cons] at hle
          rw [List.length_nil] at stay
          omega
        rw [List.nil_append, List.nil_append, textRun, textRun, if_neg hu, if_neg (hk ▸ hu)]
  | cons a x ih =>
    have hk := (h.append (a :: x)).classify
    simp only [List.cons_append] at hk stay ⊢
    rw [textRun] at stay
    rw [textRun, textRun, hk]
    split
    · rename_i htext
      rw [if_pos htext] at stay
      refine ih ?_
      simp only [List.length_cons] at stay ⊢
      omega
    · rfl

end Reader
end MailMarkup
