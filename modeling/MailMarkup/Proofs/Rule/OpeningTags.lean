import MailMarkup.Proofs.Document.Parts
import MailMarkup.Proofs.Pattern.Alternatives
import MailMarkup.Proofs.Rule.DangerousTags

/-!
# Patterns for opening tags

The patterns for opening tags differ in the names they take. Whatever these are, a match is a
bracket, a name, a text without brackets and perhaps a slash before the closing bracket, and the
groups of a match are these parts.
-/
namespace MailMarkup.Tags
open Pattern Forbidden

/-- An opening tag after its bracket; `n` reads the name. -/
def tagParts (n : Expr) : List Expr :=
  [.group 1 n, .edge (.wordEdge .wide), .group 2 (.repeated (.one notAngle) 0 none false),
    .group 3 (.repeated (.letter '/') 0 (some 1) true), .letter '>']

/-- An expression reads names and notes nothing; each name is a word. -/
structure NamePart (n : Expr) (l : Language Char) : Prop where
  spells : n.Spells l
  silent {t u : Trail} (h : n.Reads t u) : u.notes = t.notes
  ne_nil : ∀ v ∈ l, v ≠ []
  word : ∀ v ∈ l, ∀ x ∈ v, Text.isWord x

/-- The parts of an opening tag. -/
structure IsTag (l : Language Char) (name body slash : Text) : Prop where
  name : name ∈ l
  edge : ∀ x ∈ body.head?, Text.isWord x = false
  body : ∀ x ∈ body, x ≠ '<' ∧ x ≠ '>'
  slash : slash = [] ∨ slash = ['/']

section
open Expr
variable {n : Expr} {l : Language Char} {c : Cursor} {m : Match} {name body slash r : Text}

theorem IsTag.free (h : IsTag l name body slash) : ∀ x ∈ body ++ slash, x ≠ '<' ∧ x ≠ '>' := by
  refine List.forall_mem_append.2 ⟨h.body, ?_⟩
  rcases h.slash with rfl | rfl
  · exact nofun
  · exact List.forall_mem_singleton.2 (by decide)

theorem IsTag.unbracketed (h : IsTag l name body slash) (hword : ∀ x ∈ name, Text.isWord x) :
    ∀ x ∈ name ++ (body ++ slash), x ≠ '<' ∧ x ≠ '>' := by
  have hmark : Text.isWord '<' = false ∧ Text.isWord '>' = false := by decide
  refine List.forall_mem_append.2 ⟨fun x hx => ?_, h.free⟩
  have hw := hword x hx
  constructor <;> (rintro rfl; simp [hmark] at hw)

theorem IsTag.unopened (h : IsTag l name body slash) (hword : ∀ x ∈ name, Text.isWord x) :
    '<' ∉ name ++ (body ++ (slash ++ ['>'])) := by
  intro hx
  have hx' : '<' ∈ name ++ (body ++ slash) := by simpa using hx
  exact (h.unbracketed hword _ hx').1 rfl

/-- A tag falls into its name and what follows the name in one way. -/
theorem IsTag.cut_inj {l' : Language Char} {name' body' slash' r' : Text}
    (h : IsTag l name body slash) (h' : IsTag l' name' body' slash')
    (word : ∀ x ∈ name, Text.isWord x) (word' : ∀ x ∈ name', Text.isWord x)
    (heq : name ++ (body ++ (slash ++ '>' :: r)) = name' ++ (body' ++ (slash' ++ '>' :: r'))) :
    name = name' ∧ body ++ slash = body' ++ slash' ∧ r = r' := by
  have hfree {l : Language Char} {n b s : Text} (h : IsTag l n b s)
      (hw : ∀ x ∈ n, Text.isWord x) : ∀ x ∈ n ++ (b ++ s), (x != '>') = true :=
    fun x hx => bne_iff_ne.2 (h.unbracketed hw x hx).2
  have hedge {l : Language Char} {n b s : Text} (h : IsTag l n b s) :
      (b ++ s).head?.any Text.isWord = false := by
    cases b with
    | nil =>
      rcases h.slash with rfl | rfl
      · rfl
      · decide
    | cons x b => exact h.edge x rfl
  obtain ⟨htag, hrest⟩ := Text.append_stop_inj (p := (· != '>')) (r := '>' :: r) (s := '>' :: r')
    (hfree h word) (hfree h' word') rfl rfl (by simpa using heq)
  obtain ⟨hname, hbody⟩ := Text.append_stop_inj word word' (hedge h) (hedge h') htag
  exact ⟨hname, hbody, (List.cons.inj hrest).2⟩

/-- A tag falls into its parts in one way, if a slash before its closing bracket is a part of its
own. -/
theorem IsTag.unique {l' : Language Char} {name' body' slash' r' : Text}
    (h : IsTag l name body slash) (h' : IsTag l' name' body' slash')
    (word : ∀ x ∈ name, Text.isWord x) (word' : ∀ x ∈ name', Text.isWord x)
    (settled : slash = [] → body.getLast? ≠ some '/')
    (settled' : slash' = [] → body'.getLast? ≠ some '/')
    (heq : name ++ (body ++ (slash ++ '>' :: r)) = name' ++ (body' ++ (slash' ++ '>' :: r'))) :
    name = name' ∧ body = body' ∧ slash = slash' ∧ r = r' := by
  obtain ⟨hname, hbody, hr⟩ := h.cut_inj h' word word' heq
  rcases h.slash with rfl | rfl
  · rcases h'.slash with rfl | rfl
    · exact ⟨hname, by simpa using hbody, rfl, hr⟩
    · exact absurd (by simpa using congrArg List.getLast? hbody) (settled rfl)
  · rcases h'.slash with rfl | rfl
    · exact absurd (by simpa using congrArg List.getLast? hbody.symm) (settled' rfl)
    · exact ⟨hname, List.append_cancel_right hbody, rfl, hr⟩

/-- A name ends with a word character, so the edge after it says that none follows. -/
theorem NamePart.wordEdge (h : NamePart n l) (hn : name ∈ l) (hc : c.rest = name ++ r) :
    (Edge.wordEdge .wide).holds (c.advance name.length).before (c.advance name.length).peek ↔
      ∀ x ∈ r.head?, Text.isWord x = false := by
  rcases List.eq_nil_or_concat name with rfl | ⟨front, y, rfl⟩
  · exact absurd rfl (h.ne_nil [] hn)
  · have hw : Text.isWord y := h.word _ hn y (by simp)
    have hbefore : (c.advance (front.concat y).length).before = some y := by
      rw [Cursor.before_advance hc (by simp), List.concat_eq_append, List.getLast?_concat]
    rw [hbefore, Cursor.peek, Cursor.rest_advance_append hc]
    cases r <;> simp [Edge.holds, Scope.isWord, hw]

theorem mem_optional_slash : slash ∈ 1 + spellings ['/'] ↔ slash = [] ∨ slash = ['/'] := by
  rw [Language.mem_add, Language.mem_one, mem_spellings_mark (by simp)]

theorem NamePart.sound (h : NamePart n l)
    (hr : (opened (tagParts n)).Reads ⟨m.start, []⟩ ⟨m.stop, m.notes⟩) :
    IsTag l (m.group 1) (m.group 2) (m.group 3) ∧
      m.start.rest =
        '<' :: (m.group 1 ++ (m.group 2 ++ (m.group 3 ++ '>' :: m.stop.rest))) := by
  obtain ⟨t₁, h₁, hr⟩ := (reads_sequence_cons _).1 hr
  obtain ⟨t₂, h₂, hr⟩ := (reads_sequence_cons _).1 hr
  obtain ⟨t₃, ⟨hedge, ht₃⟩, hr⟩ := (reads_sequence_cons _).1 hr
  rw [ht₃] at hr
  obtain ⟨t₄, h₄, hr⟩ := (reads_sequence_cons _).1 hr
  obtain ⟨t₅, h₅, h₆⟩ := (reads_sequence_cons _).1 hr
  obtain ⟨v, hv, hopen, -⟩ := (spells_letter (by decide)).sound h₁
  obtain ⟨name, hname, hrest₂, hplace₂, hup₂, hnotes₂⟩ := h.spells.noted h.silent h₂
  obtain ⟨body, hbody, hrest₄, -, hup₄, hnotes₄⟩ :=
    (spells_runs notAngle false).noted (·.notes_eq rfl) h₄
  obtain ⟨slash, hslash, hrest₅, -, hup₅, hnotes₅⟩ :=
    ((spells_letter (by decide)).optional true).noted (·.notes_eq rfl) h₅
  obtain ⟨w, hw, hclose, -⟩ := (spells_letter (by decide)).sound h₆
  rw [mem_spellings_mark (by simp)] at hv hw
  have hnotes : m.notes = [(7, t₅.place), (6, t₄.place), (5, t₄.place), (4, t₂.place),
      (3, t₂.place), (2, t₁.place)] := by
    have hn₁ : t₁.notes = [] := h₁.notes_eq rfl
    have hn₆ : m.notes = t₅.notes := h₆.notes_eq rfl
    rw [hn₆, hnotes₅, hnotes₄, hnotes₂, hn₁]
  have hgroup₁ : m.group 1 = name := by simp [Match.group, Match.group?, Match.note?, hnotes, hup₂]
  have hgroup₂ : m.group 2 = body := by simp [Match.group, Match.group?, Match.note?, hnotes, hup₄]
  have hgroup₃ : m.group 3 = slash := by
    simp [Match.group, Match.group?, Match.note?, hnotes, hup₅]
  rw [hgroup₁, hgroup₂, hgroup₃]
  refine ⟨⟨hname, fun x hx => ?_, fun x hx => has_notAngle.1 (hbody x hx),
    mem_optional_slash.1 hslash⟩, ?_⟩
  · rw [hplace₂, h.wordEdge hname hrest₂, hrest₄] at hedge
    refine hedge x ?_
    rw [List.head?_append_of_ne_nil _ (by rintro rfl; exact absurd hx nofun)]
    exact hx
  · change m.start.rest = v ++ t₁.place.rest at hopen
    change t₅.place.rest = w ++ m.stop.rest at hclose
    rw [hopen, hrest₂, hrest₄, hrest₅, hclose, hv, hw]
    rfl

theorem NamePart.text_eq (h : NamePart n l)
    (hr : (opened (tagParts n)).Reads ⟨m.start, []⟩ ⟨m.stop, m.notes⟩) :
    m.text = '<' :: (m.group 1 ++ (m.group 2 ++ (m.group 3 ++ ['>']))) := by
  have hstart : m.text ++ m.stop.rest =
      '<' :: (m.group 1 ++ (m.group 2 ++ (m.group 3 ++ ['>']))) ++ m.stop.rest := by
    rw [← hr.text_eq.1, (h.sound hr).2]
    simp
  exact List.append_cancel_right hstart

theorem NamePart.complete (h : NamePart n l) (ho : IsTag l name body slash)
    (hc : c.rest = '<' :: (name ++ (body ++ (slash ++ '>' :: r)))) :
    (opened (tagParts n)).MatchesAt c := by
  have hfront : (Expr.sequence [.letter '<', .group 1 n]).Spells (spellings ['<'] * l) :=
    .cons (spells_letter (by decide)) (.group 1 h.spells)
  have hback : (Expr.sequence [.group 2 (.repeated (.one notAngle) 0 none false),
      .group 3 (.repeated (.letter '/') 0 (some 1) true), .letter '>']).Spells
      (runs notAngle * ((1 + spellings ['/']) * spellings ['>'])) :=
    .cons (.group 2 (spells_runs notAngle false))
      (.cons (.group 3 (.optional true (spells_letter (by decide)))) (spells_letter (by decide)))
  have hnext : c.next.rest = name ++ (body ++ (slash ++ '>' :: r)) := by simp [hc]
  have hname : ('<' :: name : Text) ∈ spellings ['<'] * l :=
    Language.append_mem_mul (a := ['<']) ((mem_spellings_mark (by simp)).2 rfl) ho.name
  have hrest : (body ++ (slash ++ ['>']) : Text) ∈
      runs notAngle * ((1 + spellings ['/']) * spellings ['>']) :=
    Language.append_mem_mul (fun x hx => has_notAngle.2 (ho.body x hx)) <|
      Language.append_mem_mul (mem_optional_slash.2 ho.slash) ((mem_spellings_mark (by simp)).2 rfl)
  obtain ⟨ns, hf⟩ := hfront.complete (t := ⟨c, []⟩) hname hc
  have hplace : (c.advance ('<' :: name).length).rest = body ++ (slash ++ ['>']) ++ r := by
    rw [Cursor.rest_advance_append (v := '<' :: name) hc]
    simp
  obtain ⟨ns', hb⟩ := hback.complete (t := ⟨c.advance ('<' :: name).length, ns⟩) hrest hplace
  have hedge : (Edge.wordEdge .wide).holds (c.advance ('<' :: name).length).before
      (c.advance ('<' :: name).length).peek := by
    refine (h.wordEdge ho.name hnext).2 fun x hx => ?_
    cases hbody : body with
    | nil =>
      rw [hbody, List.nil_append] at hx
      rcases ho.slash with rfl | rfl
      · obtain rfl : '>' = x := by simpa using hx
        decide
      · obtain rfl : '/' = x := by simpa using hx
        decide
    | cons y body =>
      subst hbody
      exact ho.edge x hx
  exact ⟨_, (reads_sequence_append [_, _] _).2 ⟨_, hf, (reads_sequence_cons _).2
    ⟨_, ⟨hedge, rfl⟩, hb⟩⟩⟩

end
end MailMarkup.Tags
