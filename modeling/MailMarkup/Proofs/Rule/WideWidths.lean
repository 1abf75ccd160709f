import Mathlib.Data.Nat.Digits.Defs
import MailMarkup.Proofs.Pattern.Alternatives
import MailMarkup.Proofs.Rule.Sanitizing
import MailMarkup.Rule.Support

/-!
# Wide widths

Which of the widths that a text states are reported where mobile clients are targeted. A match of
the pattern for widths states one number, in one of two groups. A number that is wider than the
limit is reported, but only if it is one of 32 bits: a number of more bits counts as no number.
-/
namespace MailMarkup

namespace Decimal

/-- The number that a text of decimal digits stands for. -/
def value (t : Text) : Nat := Nat.ofDigits 10 (t.reverse.map fun x => x.toNat - 48)

theorem value_eq_foldl (t : Text) : value t = t.foldl (fun n x => 10 * n + (x.toNat - 48)) 0 := by
  induction t using List.reverseRecOn with
  | nil => rfl
  | append_singleton t x ih =>
    rw [List.foldl_concat, ← ih, value, List.reverse_concat, List.map_cons, Nat.ofDigits_cons]
    exact Nat.add_comm _ _

private theorem natural?_eq_some_iff {t : Text} {n : Nat} :
    natural? t = some n ↔ t ≠ [] ∧ (∀ x ∈ t, Text.isDigit x) ∧ value t = n := by
  simp only [natural?, ← value_eq_foldl]
  split
  · rename_i h
    simp only [Bool.or_eq_true, List.isEmpty_iff, Bool.not_eq_true', List.all_eq_false] at h
    refine iff_of_false nofun fun ⟨hne, hall, _⟩ => ?_
    rcases h with h | ⟨x, hx, h⟩
    · exact hne h
    · exact h (hall x hx)
  · rename_i h
    simp only [Bool.or_eq_true, List.isEmpty_iff, Bool.not_eq_true', not_or, Bool.not_eq_false,
      List.all_eq_true] at h
    rw [Option.some_inj]
    exact ⟨fun hn => ⟨h.1, h.2, hn⟩, fun hn => hn.2.2⟩

private theorem word?_eq_some_iff {bits n : Nat} {t : Text} (ht : '+' ∉ t) :
    word? bits t = some n ↔
      t ≠ [] ∧ (∀ x ∈ t, Text.isDigit x) ∧ value t = n ∧ n < 2 ^ bits := by
  have hsign : word? bits t = (natural? t).filter (· < 2 ^ bits) := by
    unfold word?
    split
    · exact absurd List.mem_cons_self ht
    · cases h : natural? t <;> simp [h, Option.filter]
  rw [hsign, Option.filter_eq_some_iff, natural?_eq_some_iff, decide_eq_true_eq, and_assoc,
    and_assoc]

end Decimal

namespace Support
open Pattern Forbidden

section reading

/-- Blank characters. -/
private def blanks : Expr := .repeated (.one (Source.blankSet .wide)) 0 none true

/-- Decimal digits of every script, at least one. -/
private def numeral : Expr := .repeated (.one (Source.digitSet .wide)) 1 none true

/-- The two ways to state a width, as a style and as an attribute. -/
private def styled : List Expr :=
  [.letter ':', blanks, .group 1 numeral, .letter 'p', .letter 'x']

private def attributed : List Expr :=
  [.letter '=', blanks, .repeated (.one (CharSet.ofChars ['"', '\''])) 0 (some 1) true,
    .group 2 numeral, .repeated (.sequence [.letter 'p', .letter 'x']) 0 (some 1) true,
    .edge (.wordEdge .wide)]

/-- The name, up to the sign after it. -/
private def named : List Expr :=
  .edge (.wordEdge .wide) :: ("width".toList.map .letter ++ [blanks])

/-- What the pattern for widths is read as. -/
def widthExpr : Expr :=
  .sequence (named ++ [.either (.sequence styled) (.sequence attributed)])

theorem read_fixedWidth : Source.read fixedWidth.toList .anyCase = .ok widthExpr := by
  rw [fixedWidth, String.toList_ofList]
  cbv

private theorem ordered_widthExpr : widthExpr.Ordered := by
  have hblank : blanks.Ordered := show (Source.blankSet .wide).Ordered by decide
  have hdigit : numeral.Ordered := show (Source.digitSet .wide).Ordered by decide +kernel
  have hstyled : (Expr.sequence styled).Ordered := by
    refine Expr.ordered_sequence ?_
    simp only [styled, List.forall_mem_cons]
    exact ⟨Expr.ordered_letter _, hblank, hdigit, Expr.ordered_letter _, Expr.ordered_letter _,
      nofun⟩
  have hattributed : (Expr.sequence attributed).Ordered := by
    refine Expr.ordered_sequence ?_
    simp only [attributed, List.forall_mem_cons]
    exact ⟨Expr.ordered_letter _, hblank, CharSet.ordered_ofChars _, hdigit,
      Expr.ordered_word ['p', 'x'], trivial, nofun⟩
  refine Expr.ordered_sequence (List.forall_mem_append.2 ⟨?_, ?_⟩)
  · simp only [named, List.forall_mem_cons, List.forall_mem_append, List.forall_mem_map]
    exact ⟨trivial, fun c _ => Expr.ordered_letter c, hblank, nofun⟩
  · exact List.forall_mem_singleton.2 ⟨hstyled, hattributed⟩

end reading
section digits
open Expr
variable {t u : Trail} {front back : List Expr} {i : Nat}

/-- Digits of any script, at least one. -/
private def numerals : Language Char :=
  {v : Text | v ≠ [] ∧ ∀ x ∈ v, (Source.digitSet .wide).has x}

private theorem spells_numeral : numeral.Spells numerals where
  sound h := by
    obtain ⟨k, hk, -, hrun⟩ := id h
    obtain ⟨v, hv, hr, hp⟩ := (spells_runs (Source.digitSet .wide) true).sound
      ⟨k, Nat.zero_le k, nofun, hrun⟩
    refine ⟨v, ⟨?_, hv⟩, hr, hp⟩
    rintro rfl
    have hlt := h.length_lt rfl
    rw [hr] at hlt
    exact Nat.lt_irrefl _ hlt
  complete {t v r} hv ht := by
    obtain ⟨hne, hv⟩ := hv
    obtain ⟨x, v, rfl⟩ := List.exists_cons_of_ne_nil hne
    obtain ⟨hx, hv⟩ := List.forall_mem_cons.1 hv
    have hnext : t.next.place.rest = v ++ r := by
      rw [Trail.next, Cursor.rest_next, ht]
      rfl
    obtain ⟨ns, k, -, -, h⟩ := (spells_runs _ true).complete (t := t.next) hv hnext
    exact ⟨ns, k + 1, Nat.le_add_left 1 k, nofun, t.next,
      reads_one_iff.2 ⟨x, v ++ r, ht, hx, rfl⟩, h⟩

private theorem notes_of_reads (front : List Expr) (hf : (sequence front).groupFree)
    (hb : (sequence back).groupFree)
    (h : (sequence (front ++ .group i numeral :: back)).Reads t u) :
    ∃ v ∈ numerals, ∃ p q : Cursor, p.upTo q = v ∧
      u.notes = (2 * i + 1, q) :: (2 * i, p) :: t.notes := by
  obtain ⟨m, hfront, h⟩ := (reads_sequence_append _ _).1 h
  obtain ⟨k, hgroup, hback⟩ := (reads_sequence_cons _).1 h
  obtain ⟨v, hv, -, -, hup, hnotes⟩ := spells_numeral.noted (fun h => h.notes_eq rfl) hgroup
  exact ⟨v, hv, m.place, k.place, hup, by rw [hback.notes_eq hb, hnotes, hfront.notes_eq hf]⟩

/-- A match has its digits in one of the two groups. -/
theorem digits_of_reads {m : Match} (h : widthExpr.Reads ⟨m.start, []⟩ ⟨m.stop, m.notes⟩) :
    ∃ v : Text, (v ≠ [] ∧ ∀ x ∈ v, (Source.digitSet .wide).has x) ∧
      (m.group? 1 = some v ∧ m.group? 2 = none ∨ m.group? 1 = none ∧ m.group? 2 = some v) := by
  obtain ⟨k, hfront, h⟩ := (reads_sequence_append named _).1 h
  have hk : k.notes = [] := hfront.notes_eq rfl
  rcases h with h | h
  · obtain ⟨v, hv, p, q, hup, hnotes⟩ := notes_of_reads [.letter ':', blanks] rfl rfl h
    have hnotes : m.notes = [(3, q), (2, p)] := by rw [← hk]; exact hnotes
    exact ⟨v, hv, .inl (by simp [Match.group?, Match.note?, hnotes, hup])⟩
  · obtain ⟨v, hv, p, q, hup, hnotes⟩ := notes_of_reads [.letter '=', blanks, _] rfl rfl h
    have hnotes : m.notes = [(5, q), (4, p)] := by rw [← hk]; exact hnotes
    exact ⟨v, hv, .inr (by simp [Match.group?, Match.note?, hnotes, hup])⟩

end digits

/-- A match states a number: that of its digits, which are those of ASCII. -/
def States (m : Match) (n : Nat) : Prop :=
  ∃ v : Text, (m.group? 1 = some v ∨ m.group? 2 = some v) ∧ (∀ x ∈ v, Text.isDigit x) ∧
    Decimal.value v = n

/-- A match states a width above the limit, and its name is not the end of a longer one. -/
structure TooWide (limit : Nat) (m : Match) (n : Nat) : Prop where
  alone : m.start.before ≠ some '-'
  states : States m n
  wide : limit < n

/-- What is reported of a match that states a width above the limit. -/
def tooWide (info : RuleInfo) (limit : Nat) (m : Match) (n : Nat) : Finding :=
  Tags.finding info m
    ("Fixed width of " ++ toString n ++ "px exceeds " ++ toString limit ++ "px")
    ("Use width:100% with max-width:" ++ toString limit ++ "px")

section reports
variable {p : Pattern} {t : Text} {m : Match} {info : RuleInfo} {limit n : Nat}

/-- The width that is compared with the limit is the stated one if that has 32 bits. -/
theorem statedWidth?_eq_some_iff (hp : p.Means widthExpr) (hm : m ∈ p.occurrences t) :
    statedWidth? m = some n ↔ States m n ∧ n < 2 ^ 32 := by
  obtain ⟨v, ⟨hne, hv⟩, hgroups⟩ := digits_of_reads ((hp.occurrences_successive rfl t).reads hm)
  have hplus : '+' ∉ v := fun h => absurd (hv '+' h) (by decide +kernel)
  have hor : (m.group? 1).or (m.group? 2) = some v := by
    rcases hgroups with ⟨h₁, h₂⟩ | ⟨h₁, h₂⟩ <;> rw [h₁, h₂] <;> rfl
  have hstates : States m n ↔ (∀ x ∈ v, Text.isDigit x) ∧ Decimal.value v = n := by
    constructor
    · rintro ⟨w, hw, h⟩
      obtain rfl : v = w := by
        rcases hgroups with ⟨h₁, h₂⟩ | ⟨h₁, h₂⟩ <;> simpa [h₁, h₂] using hw
      exact h
    · exact fun h => ⟨v, hgroups.imp And.left And.right, h⟩
  rw [statedWidth?, hor, Option.bind_some, Decimal.word?_eq_some_iff hplus, hstates, and_assoc]
  exact and_iff_right hne

private theorem reported_iff {f : Finding} :
    (if m.start.before == some '-' then none
      else match statedWidth? m with
        | some width => if limit < width then some (tooWide info limit m width) else none
        | none => none) = some f ↔
      m.start.before ≠ some '-' ∧
        ∃ n, statedWidth? m = some n ∧ limit < n ∧ f = tooWide info limit m n := by
  by_cases h : m.start.before = some '-'
  · simp [h]
  · cases statedWidth? m with
    | none => simp
    | some width => simp [h, eq_comm (a := f)]

private theorem tooWide_inj {n' : Nat} {m' : Match}
    (h : tooWide info limit m n = tooWide info limit m' n') : n = n' := by
  have hmessage := congrArg Finding.message h
  simp only [tooWide, Tags.finding, Finding.suggest, Finding.at_, Finding.of, String.append_assoc,
    String.append_right_inj, String.append_left_inj] at hmessage
  exact Nat.repr_inj.1 hmessage

end reports

/-- Where mobile clients are targeted, the reported widths are the stated ones above the limit that
have 32 bits. A wider one is not reported. -/
theorem mem_checkWidths_iff (s : Subject) (info : RuleInfo) (ix : Index)
    (h : s.settings.clients.mobile = true) :
    ∃ p found, Pattern.compile ⟨fixedWidth, .anyCase⟩ = .ok p ∧
      (checkWidths s info).eval ix = .ok found ∧
      (∀ f, f ∈ found ↔ ∃ m ∈ p.occurrences s.html, ∃ n,
        TooWide s.settings.thresholds.maxWidth m n ∧ n < 2 ^ 32 ∧
          f = tooWide info s.settings.thresholds.maxWidth m n) ∧
      ∀ m ∈ p.occurrences s.html, ∀ n, TooWide s.settings.thresholds.maxWidth m n →
        (tooWide info s.settings.thresholds.maxWidth m n ∈ found ↔ n < 2 ^ 32) := by
  obtain ⟨p, hp, hc⟩ := exists_compile read_fixedWidth ordered_widthExpr
  generalize hlimit : s.settings.thresholds.maxWidth = limit
  obtain ⟨found, heval, hfound⟩ : ∃ found, (checkWidths s info).eval ix = .ok found ∧
      ∀ f, f ∈ found ↔ ∃ m ∈ p.occurrences s.html, ∃ n,
        TooWide limit m n ∧ n < 2 ^ 32 ∧ f = tooWide info limit m n := by
    refine ⟨_, by rw [checkWidths, if_pos h]; exact eval_compiled hc _ ix, fun f => ?_⟩
    rw [List.mem_filterMap, hlimit]
    refine exists_congr fun m => and_congr_right fun hm => ?_
    refine Iff.trans reported_iff ⟨?_, ?_⟩
    · rintro ⟨hbefore, n, hstated, hlt, hf⟩
      obtain ⟨hstates, hn⟩ := (statedWidth?_eq_some_iff hp hm).1 hstated
      exact ⟨n, ⟨hbefore, hstates, hlt⟩, hn, hf⟩
    · rintro ⟨n, ⟨hbefore, hstates, hlt⟩, hn, hf⟩
      exact ⟨hbefore, n, (statedWidth?_eq_some_iff hp hm).2 ⟨hstates, hn⟩, hlt, hf⟩
  refine ⟨p, found, hc, heval, hfound, fun m hm n hwide => ?_⟩
  rw [hfound]
  constructor
  · rintro ⟨m', -, n', -, hn, heq⟩
    rwa [tooWide_inj heq]
  · exact fun hn => ⟨m, hm, n, hwide, hn, rfl⟩

/-- A number of 33 bits is wider than the limit, and is not reported. -/
theorem mem_checkWidths_iff_bits :
    ∃ p found, Pattern.compile ⟨fixedWidth, .anyCase⟩ = .ok p ∧
      (checkWidths ⟨"<td width=4294967296>".toList, {}⟩ fixedWidths.info).eval (.new [] 1) =
        .ok found ∧
      ∃ m ∈ p.occurrences "<td width=4294967296>".toList, TooWide 600 m 4294967296 ∧
        tooWide fixedWidths.info 600 m 4294967296 ∉ found := by
  obtain ⟨p, found, hc, heval, -, hwide⟩ :=
    mem_checkWidths_iff ⟨"<td width=4294967296>".toList, {}⟩ fixedWidths.info (.new [] 1) rfl
  obtain rfl := Except.ok.inj ((compile_eq read_fixedWidth).symm.trans hc)
  have hall : (Pattern.occurrences ⟨⟨fixedWidth, .anyCase⟩, .ofExpr widthExpr⟩
      "<td width=4294967296>".toList).map (fun m => (m.start.before, m.group? 2)) =
        [(some ' ', some "4294967296".toList)] := by
    repeat rw [String.toList_ofList]
    cbv
  obtain ⟨m, hm, hgroup⟩ := List.map_eq_singleton_iff.1 hall
  obtain ⟨hbefore, hgroup⟩ := Prod.mk.inj hgroup
  rw [String.toList_ofList] at hgroup
  have hm := hm ▸ List.mem_singleton_self m
  have hm' : TooWide 600 m 4294967296 :=
    ⟨by rw [hbefore]; decide, ⟨_, .inr hgroup, List.all_eq_true.1 (by decide),
      Decimal.value_eq_foldl _⟩, by omega⟩
  refine ⟨_, found, hc, heval, m, hm, hm', fun hf => ?_⟩
  have hlt := (hwide m hm _ hm').1 hf
  omega
end Support
end MailMarkup
