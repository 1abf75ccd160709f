import Mathlib.Data.Set.Basic
import MailMarkup.Files.Tree
import MailMarkup.Proofs.Text.Cursor
import MailMarkup.Proofs.Text.Split

/-!
# Writing files that are there

A path that leads to a file leads to the same place after other files, or this one, have been given
new contents; so what is read through a path changes only if its own place is written.
-/
namespace MailMarkup

namespace FileEntry
variable {a b c : FileEntry} {places : Set (List Text)}

/-- Nothing on both sides, or entries of one kind; contents of files may differ if they are free. -/
def Agree (free : Prop) : Option FileEntry → Option FileEntry → Prop
  | none, none => True
  | some (.directory _), some (.directory _) => True
  | some (.link p), some (.link q) => p = q
  | some (.file x), some (.file y) => free ∨ x = y
  | _, _ => False

/-- Trees that differ in the contents of the files at some places only. -/
def Rewritten (places : Set (List Text)) (a b : FileEntry) : Prop :=
  ∀ q, Agree (q ∈ places) (a.at? q) (b.at? q)

theorem Agree.refl (free : Prop) (x : Option FileEntry) : Agree free x x := by
  rcases x with _ | (_ | _ | _)
  · trivial
  · exact .inr rfl
  · trivial
  · exact rfl

theorem Agree.trans {free : Prop} {x y z : Option FileEntry} (h : Agree free x y)
    (h' : Agree free y z) : Agree free x z := by
  rcases x with _ | (_ | _ | _) <;> rcases y with _ | (_ | _ | _) <;>
    rcases z with _ | (_ | _ | _) <;> simp_all [Agree]
  rcases h with h | rfl
  · exact .inl h
  · exact h'

theorem Rewritten.refl (places : Set (List Text)) (a : FileEntry) : Rewritten places a a :=
  fun _ => .refl _ _

theorem Rewritten.trans (h : Rewritten places a b) (h' : Rewritten places b c) :
    Rewritten places a c :=
  fun q => (h q).trans (h' q)

theorem get?_put (m n : Text) (e : FileEntry) (es : List (Text × FileEntry)) :
    get? m (put n e es) = if m = n then some e else get? m es := by
  induction es with
  | nil =>
    by_cases h : m = n
    · simp [put, get?, h]
    · simp [put, get?, h, Ne.symm h]
  | cons x es ih =>
    obtain ⟨k, old⟩ := x
    by_cases hk : k = n
    · subst hk
      by_cases h : m = k
      · simp [put, get?, h]
      · simp [put, get?, h, Ne.symm h]
    · by_cases hm : k = m
      · subst hm
        simp [put, get?, hk]
      · simp [put, get?, hk, hm, ih]

theorem get?_mem {n : Text} {e : FileEntry} {es : List (Text × FileEntry)}
    (h : get? n es = some e) : (n, e) ∈ es := by
  induction es with
  | nil => cases h
  | cons x es ih =>
    rw [get?] at h
    split at h
    · rename_i hn
      obtain rfl := Option.some.inj h
      rw [← hn]
      exact List.mem_cons_self
    · exact List.mem_cons_of_mem x (ih h)

theorem at?_append (e : FileEntry) (ns ms : List Text) :
    e.at? (ns ++ ms) = (e.at? ns).bind (at? ms) := by
  induction ns generalizing e with
  | nil => rfl
  | cons n ns ih =>
    cases e with
    | directory es =>
      simp only [List.cons_append, at?, Option.bind_assoc]
      congr 1
      funext d
      exact ih d
    | file x => rfl
    | link p => rfl

theorem at?_concat {e : FileEntry} {q : List Text} {es : List (Text × FileEntry)}
    (h : e.at? q = some (.directory es)) (n : Text) : e.at? (q ++ [n]) = get? n es := by
  induction q generalizing e with
  | nil =>
    obtain rfl := Option.some.inj h
    simp [at?]
  | cons m q ih =>
    cases e with
    | directory ds =>
      simp only [at?, Option.bind_eq_some_iff, List.cons_append] at h ⊢
      obtain ⟨d, hd, hq⟩ := h
      simp [hd, ih hq]
    | file x => exact absurd h nofun
    | link p => exact absurd h nofun

theorem Agree.mono {free free' : Prop} {x y : Option FileEntry} (h : Agree free x y)
    (hf : free → free') : Agree free' x y := by
  rcases x with _ | (_ | _ | _) <;> rcases y with _ | (_ | _ | _) <;> simp_all [Agree]
  exact h.imp_left hf

theorem Agree.none_left {free : Prop} {x : Option FileEntry} (h : Agree free none x) :
    x = none := by
  rcases x with _ | (_ | _ | _) <;> first | rfl | exact h.elim

theorem Agree.exists_right {free : Prop} {x : FileEntry} {y : Option FileEntry}
    (h : Agree free (some x) y) : ∃ z, y = some z := by
  cases y with
  | none => cases x <;> exact h.elim
  | some z => exact ⟨z, rfl⟩

private theorem Agree.not_directory {free : Prop} {x y : FileEntry}
    (h : Agree free (some x) (some y)) (hx : ∀ es, x ≠ .directory es) :
    ∀ es, y ≠ .directory es := by
  rintro es rfl
  cases x with
  | directory ds => exact hx ds rfl
  | _ => exact h.elim

theorem Agree.entered {free : Prop} {x : FileEntry} {y : Option FileEntry}
    (h : Agree free (some x) y) (hx : ∀ target, x ≠ .link target) :
    ∃ z, y = some z ∧ ∀ target, z ≠ .link target := by
  obtain ⟨z, rfl⟩ := h.exists_right
  refine ⟨z, rfl, ?_⟩
  rintro target rfl
  cases x with
  | link p => exact hx p rfl
  | _ => exact h.elim

theorem Agree.link_left {free : Prop} {x : Option FileEntry} {p : Path}
    (h : Agree free (some (.link p)) x) : x = some (.link p) := by
  rcases x with _ | (_ | _ | q)
  · exact h.elim
  · exact h.elim
  · exact h.elim
  · exact congrArg _ (congrArg _ (Eq.symm h))

theorem Agree.directory_left {free : Prop} {es : List (Text × FileEntry)} {x : Option FileEntry}
    (h : Agree free (some (.directory es)) x) : ∃ ds, x = some (.directory ds) := by
  rcases x with _ | (_ | ds | _)
  · exact h.elim
  · exact h.elim
  · exact ⟨ds, rfl⟩
  · exact h.elim

theorem Agree.file_left {free : Prop} {s : ByteArray} {x : Option FileEntry}
    (h : Agree free (some (.file s)) x) : ∃ s', x = some (.file s') := by
  rcases x with _ | (s' | _ | _)
  · exact h.elim
  · exact ⟨s', rfl⟩
  · exact h.elim
  · exact h.elim

theorem Rewritten.directory {q : List Text} {es : List (Text × FileEntry)}
    (h : Rewritten places a b) (ha : a.at? q = some (.directory es)) :
    ∃ ds, b.at? q = some (.directory ds) ∧
      ∀ n, Agree (q ++ [n] ∈ places) (get? n es) (get? n ds) := by
  obtain ⟨ds, hb⟩ := Agree.directory_left (ha ▸ h q)
  refine ⟨ds, hb, fun n => ?_⟩
  rw [← at?_concat ha n, ← at?_concat hb n]
  exact h (q ++ [n])

private theorem agree_set {e : FileEntry} {q : List Text} {x : ByteArray}
    (h : e.at? q = some (.file x))
    (y : ByteArray) (r : List Text) : Agree (r = q) (e.at? r) ((e.set q (.file y)).at? r) := by
  induction q generalizing e r with
  | nil =>
    obtain rfl := Option.some.inj h
    cases r with
    | nil => exact .inl rfl
    | cons m rs => trivial
  | cons n q ih =>
    cases e with
    | directory es =>
      simp only [at?, Option.bind_eq_some_iff] at h
      obtain ⟨d, hd, hq⟩ := h
      cases r with
      | nil => simp [FileEntry.set, hd, at?, Agree]
      | cons m rs =>
        simp only [FileEntry.set, hd, at?, get?_put]
        by_cases hm : m = n
        · subst hm
          simp only [hd, if_true, Option.bind_some]
          exact (ih hq rs).mono (congrArg _)
        · rw [if_neg hm]
          exact .refl _ _
    | file x => exact absurd h nofun
    | link p => exact absurd h nofun

theorem rewritten_set {e : FileEntry} {q : List Text} {x : ByteArray}
    (h : e.at? q = some (.file x)) (y : ByteArray) (hq : q ∈ places) :
    Rewritten places e (e.set q (.file y)) :=
  fun r => (agree_set h y r).mono fun hr => hr ▸ hq

end FileEntry

namespace FileTree
open FileEntry
variable {a b : FileEntry} {places : Set (List Text)}

/-- Paths that lead to the same. -/
def Found.Agree (places : Set (List Text)) : Except FileFault Found → Except FileFault Found → Prop
  | .error f, .error g => f = g
  | .ok (.vacant p m), .ok (.vacant q n) => p = q ∧ m = n
  | .ok (.entry p x k), .ok (.entry q y l) =>
    p = q ∧ k = l ∧ FileEntry.Agree (p ∈ places) (some x) (some y)
  | _, _ => False

section steps
variable {root e : FileEntry} {follow : Bool} {links : Nat} {place rest : List Text} {piece : Text}
  {es : List (Text × FileEntry)} {target : Path}

theorem find_nil (he : root.at? place = some e) :
    find root follow links place [] = .ok (.entry place e links) := by
  rw [find, he]

theorem find_here (he : root.at? place = some (.directory es))
    (hp : (decide (piece = []) || decide (piece = ['.'])) = true) :
    find root follow links place (piece :: rest) = find root follow links place rest := by
  rw [find, he]
  simp only [hp, if_true]

theorem find_up (he : root.at? place = some (.directory es)) :
    find root follow links place (['.', '.'] :: rest) =
      find root follow links place.dropLast rest := by
  rw [find, he]
  rfl

theorem find_outside (he : root.at? place = some e) (hd : ∀ es, e ≠ .directory es) :
    find root follow links place (piece :: rest) = .error .notDirectory := by
  rw [find, he]
  cases e with
  | directory es => exact absurd rfl (hd es)
  | _ => rfl

theorem find_nowhere (he : root.at? place = none) (pieces : List Text) :
    find root follow links place pieces = .error .notFound := by
  cases pieces <;> rw [find, he]

variable (he : root.at? place = some (.directory es))
  (hp : ¬(decide (piece = []) || decide (piece = ['.'])) = true) (hu : ¬piece = ['.', '.'])
include he hp hu

theorem find_within (hg : get? piece es = some e) (hl : ∀ target, e ≠ .link target) :
    find root follow links place (piece :: rest) =
      find root follow links (place ++ [piece]) rest := by
  rw [find, he]
  simp only [hp, hu, hg, Bool.false_eq_true, if_false]

theorem find_absent (hg : get? piece es = none) :
    find root follow links place (piece :: rest) =
      if maxNameBytes < Text.byteSize piece then .error .nameTooLong
      else if rest.all (·.isEmpty) then .ok (.vacant place piece)
      else .error .notFound := by
  rw [find, he]
  simp only [hp, hu, hg, Bool.false_eq_true, if_false]

theorem find_link_kept (hg : get? piece es = some (.link target))
    (hf : (rest.isEmpty && !follow) = true) :
    find root follow links place (piece :: rest) =
      .ok (.entry (place ++ [piece]) (.link target) links) := by
  rw [find, he]
  simp only [hp, hu, hg, hf, Bool.false_eq_true, if_false, if_true]

theorem find_link_spent (hg : get? piece es = some (.link target))
    (hf : ¬(rest.isEmpty && !follow) = true) :
    find root follow 0 place (piece :: rest) = .error .tooManyLinks := by
  rw [find, he]
  simp only [hp, hu, hg, hf, Bool.false_eq_true, if_false]

theorem find_link_followed (hg : get? piece es = some (.link target))
    (hf : ¬(rest.isEmpty && !follow) = true) :
    find root follow (links + 1) place (piece :: rest) =
      find root follow links (if target.isAbsolute then [] else place)
        (target.pieces ++ rest) := by
  rw [find, he]
  simp only [hp, hu, hg, hf, Bool.false_eq_true, if_false]

end steps

/-- What a path leads to does not depend on the contents of files. -/
theorem find_agree (h : Rewritten places a b) (follow : Bool) (links : Nat)
    (place pieces : List Text) :
    Found.Agree places (find a follow links place pieces) (find b follow links place pieces) := by
  fun_induction find a follow links place pieces with
  | case1 links place e he =>
    have hb := h place
    rw [he] at hb
    obtain ⟨x, hx⟩ := hb.exists_right
    rw [find_nil hx]
    exact ⟨rfl, rfl, hx ▸ hb⟩
  | case2 links place he =>
    rw [find_nowhere (Agree.none_left (he ▸ h place))]
    exact rfl
  | case3 links place piece rest es he hp ih =>
    obtain ⟨ds, hb, -⟩ := h.directory he
    rwa [find_here hb hp]
  | case4 links place rest es he hp ih =>
    obtain ⟨ds, hb, -⟩ := h.directory he
    rwa [find_up hb]
  | case5 links place piece rest es he hp hu hg hlong =>
    obtain ⟨ds, hb, hn⟩ := h.directory he
    rw [find_absent hb hp hu (Agree.none_left (hg ▸ hn piece)), if_pos hlong]
    exact rfl
  | case6 links place piece rest es he hp hu hg hlong hrest =>
    obtain ⟨ds, hb, hn⟩ := h.directory he
    rw [find_absent hb hp hu (Agree.none_left (hg ▸ hn piece)), if_neg hlong, if_pos hrest]
    exact ⟨rfl, rfl⟩
  | case7 links place piece rest es he hp hu hg hlong hrest =>
    obtain ⟨ds, hb, hn⟩ := h.directory he
    rw [find_absent hb hp hu (Agree.none_left (hg ▸ hn piece)), if_neg hlong, if_neg hrest]
    exact rfl
  | case8 links place piece rest es he hp hu target hg hf =>
    obtain ⟨ds, hb, hn⟩ := h.directory he
    rw [find_link_kept hb hp hu (Agree.link_left (hg ▸ hn piece)) hf]
    exact ⟨rfl, rfl, rfl⟩
  | case9 place piece rest es he hp hu target hg hf =>
    obtain ⟨ds, hb, hn⟩ := h.directory he
    rw [find_link_spent hb hp hu (Agree.link_left (hg ▸ hn piece)) hf]
    exact rfl
  | case10 place piece rest es he hp hu target hg hf links ih =>
    obtain ⟨ds, hb, hn⟩ := h.directory he
    rwa [find_link_followed hb hp hu (Agree.link_left (hg ▸ hn piece)) hf]
  | case11 links place piece rest es he hp hu val hval hg ih =>
    obtain ⟨ds, hb, hn⟩ := h.directory he
    obtain ⟨x, hx, hl⟩ := Agree.entered (hg ▸ hn piece) hval
    rwa [find_within hb hp hu hx hl]
  | case12 links place piece rest val hval he =>
    have hb := h place
    rw [he] at hb
    obtain ⟨x, hx⟩ := hb.exists_right
    rw [find_outside hx (Agree.not_directory (hx ▸ hb) hval)]
    exact rfl
  | case13 links place piece rest he =>
    rw [find_nowhere (Agree.none_left (he ▸ h place))]
    exact rfl

section present
variable {root : FileEntry} {follow : Bool} {links l : Nat} {place q : List Text} {e : FileEntry}

theorem at?_of_find {pieces : List Text}
    (h : find root follow links place pieces = .ok (.entry q e l)) : root.at? q = some e := by
  fun_induction find root follow links place pieces with
  | case1 links place e he =>
    cases h
    exact he
  | case8 links place piece rest es he hp hu target hg hf =>
    cases h
    rw [at?_concat he, hg]
  | case3 links place piece rest es he hp ih => exact ih h
  | case4 links place rest es he hp ih => exact ih h
  | case10 place piece rest es he hp hu target hg hf links ih => exact ih h
  | case11 links place piece rest es he hp hu val hval hg ih => exact ih h
  | _ => cases h

theorem find_above {xs ys : List Text} {y : Text}
    (h : find root true links place (xs ++ y :: ys) = .ok (.entry q e l)) :
    ∃ q' es l', find root true links place xs = .ok (.entry q' (.directory es) l') := by
  fun_induction find root true links place xs with
  | case1 links place e' he =>
    cases e' with
    | directory es => exact ⟨_, es, _, rfl⟩
    | file x => rw [List.nil_append, find_outside he (by simp)] at h; cases h
    | link p => rw [List.nil_append, find_outside he (by simp)] at h; cases h
  | case2 links place he =>
    rw [find_nowhere he] at h
    cases h
  | case3 links place piece rest es he hp ih =>
    rw [List.cons_append, find_here he hp] at h
    exact ih h
  | case4 links place rest es he hp ih =>
    rw [List.cons_append, find_up he] at h
    exact ih h
  | case5 links place piece rest es he hp hu hg hlong =>
    rw [List.cons_append, find_absent he hp hu hg, if_pos hlong] at h
    cases h
  | case6 links place piece rest es he hp hu hg hlong hrest =>
    rw [List.cons_append, find_absent he hp hu hg, if_neg hlong] at h
    split at h <;> cases h
  | case7 links place piece rest es he hp hu hg hlong hrest =>
    rw [List.cons_append, find_absent he hp hu hg, if_neg hlong] at h
    split at h <;> cases h
  | case8 links place piece rest es he hp hu target hg hf => simp at hf
  | case9 place piece rest es he hp hu target hg hf =>
    rw [List.cons_append, find_link_spent he hp hu hg (by simp)] at h
    cases h
  | case10 place piece rest es he hp hu target hg hf links ih =>
    rw [List.cons_append, find_link_followed he hp hu hg (by simp), ← List.append_assoc] at h
    exact ih h
  | case11 links place piece rest es he hp hu val hval hg ih =>
    rw [List.cons_append, find_within he hp hu hg hval] at h
    exact ih h
  | case12 links place piece rest val hval he =>
    rw [List.cons_append, find_outside he hval] at h
    cases h
  | case13 links place piece rest he =>
    rw [find_nowhere he] at h
    cases h

/-- What is found by following links is found without, or the link to it is. -/
theorem find_unfollowed {pieces : List Text}
    (h : find root true links place pieces = .ok (.entry q e l)) :
    ∃ q' e' l', find root false links place pieces = .ok (.entry q' e' l') := by
  fun_induction find root true links place pieces with
  | case1 links place e' he => exact ⟨_, _, _, find_nil he⟩
  | case3 links place piece rest es he hp ih =>
    rw [find_here he hp]
    exact ih h
  | case4 links place rest es he hp ih =>
    rw [find_up he]
    exact ih h
  | case8 links place piece rest es he hp hu target hg hf => simp at hf
  | case10 place piece rest es he hp hu target hg hf links ih =>
    by_cases hlast : (rest.isEmpty && !false) = true
    · exact ⟨_, _, _, find_link_kept he hp hu hg hlast⟩
    · rw [find_link_followed he hp hu hg hlast]
      exact ih h
  | case11 links place piece rest es he hp hu val hval hg ih =>
    rw [find_within he hp hu hg hval]
    exact ih h
  | _ => cases h

end present

end FileTree

namespace Path

theorem pieces_ofPieces {l : List Text} (hl : l ≠ []) (h : ∀ x ∈ l, '/' ∉ x) :
    (ofPieces l).pieces = l := by
  rw [pieces, ofPieces, Text.splitOn_eq, Text.join_eq]
  exact List.splitOn_intercalate '/' h hl

theorem ofPieces_pieces (p : Path) : ofPieces p.pieces = p := by
  rw [pieces, ofPieces, Text.join_splitOn]

theorem ofPieces_append_prefix (l m : List Text) :
    (ofPieces l).text <+: (ofPieces (l ++ m)).text := by
  cases l with
  | nil => exact List.nil_prefix
  | cons x l => exact ⟨m.flatMap (['/'] ++ ·), by simp [ofPieces, Text.join]⟩

private theorem isAbsolute_of_prefix {p q : Path} (h : p.text <+: q.text) (hp : p.text ≠ []) :
    p.isAbsolute = q.isAbsolute := by
  obtain ⟨u, hu⟩ := h
  cases hc : p.text with
  | nil => exact absurd hc hp
  | cons c cs => simp [isAbsolute, ← hu, hc]

theorem exists_pieces (p : Path) :
    p.above = [] ∨ ∃ y ys, p.pieces = p.above.reverse ++ y :: ys := by
  rw [above]
  cases hd : p.pieces.reverse.dropWhile fun piece => (Step.ofPiece? piece).isNone with
  | nil => exact .inl rfl
  | cons y above =>
    refine .inr ⟨y, (p.pieces.reverse.takeWhile fun piece =>
      (Step.ofPiece? piece).isNone).reverse, ?_⟩
    have hp := List.takeWhile_append_dropWhile (p := fun piece => (Step.ofPiece? piece).isNone)
      (l := p.pieces.reverse)
    rw [hd] at hp
    have := congrArg List.reverse hp
    simpa using this.symm

end Path

namespace FileTree
open FileEntry
variable {t : FileTree} {p p' : Path} {q : List Text} {l : Nat}

theorem pathFault?_eq_none : pathFault? p = none ↔
    '\x00' ∉ p.text ∧ p.text ≠ [] ∧ Text.byteSize p.text ≤ maxPathBytes := by
  unfold pathFault?
  split
  · rename_i h
    simp_all
  · split
    · rename_i h
      simp_all
    · split
      · simp
        omega
      · simp_all

theorem pathFault?_of_prefix (h : p.text <+: p'.text) (hp : p.text ≠ [])
    (hf : pathFault? p' = none) : pathFault? p = none := by
  obtain ⟨u, hu⟩ := h
  obtain ⟨hz, -, hb⟩ := pathFault?_eq_none.1 hf
  rw [← hu, Text.byteSize_append] at hb
  refine pathFault?_eq_none.2 ⟨fun hm => hz ?_, hp, by omega⟩
  rw [← hu]
  exact List.mem_append_left _ hm

theorem ensureDirectory_present {es : List (Text × FileEntry)} (hp : pathFault? p = none)
    (h : find t.root true maxLinks (t.start p) p.pieces = .ok (.entry q (.directory es) l)) :
    t.ensureDirectory p = (.ok (), t) := by
  obtain ⟨q', e', l', hu⟩ := find_unfollowed h
  simp [ensureDirectory, makeDirectory, make, isDirectory, get, lookup, hp, hu, h]

/-- A path that goes as far as one of the names in a path. -/
theorem ofPieces_reverse {piece : Text} {above : List Text} (hpiece : Step.ofPiece? piece ≠ none)
    (hslash : ∀ x ∈ piece :: above, '/' ∉ x)
    (ht : (Path.ofPieces (piece :: above).reverse).text <+: p.text) (hp : pathFault? p = none) :
    (Path.ofPieces (piece :: above).reverse).pieces = above.reverse ++ [piece] ∧
      pathFault? (Path.ofPieces (piece :: above).reverse) = none ∧
      t.start (Path.ofPieces (piece :: above).reverse) = t.start p := by
  have hpieces : (Path.ofPieces (piece :: above).reverse).pieces = (piece :: above).reverse :=
    Path.pieces_ofPieces (by simp) (fun x hx => hslash x (List.mem_reverse.1 hx))
  have hne : (Path.ofPieces (piece :: above).reverse).text ≠ [] := by
    intro hn
    rw [Path.pieces, hn, List.reverse_cons] at hpieces
    obtain rfl : piece = [] := by
      have := congrArg List.getLast? hpieces
      simpa [Text.splitOn] using this.symm
    exact hpiece rfl
  refine ⟨by rw [hpieces, List.reverse_cons], pathFault?_of_prefix ht hne hp, ?_⟩
  rw [start, start, Path.isAbsolute_of_prefix ht hne]

private theorem ensurePieces_present {above : List Text} {es : List (Text × FileEntry)}
    (hslash : ∀ x ∈ above, '/' ∉ x) (ht : (Path.ofPieces above.reverse).text <+: p.text)
    (hp : pathFault? p = none)
    (h : find t.root true maxLinks (t.start p) above.reverse = .ok (.entry q (.directory es) l)) :
    t.ensurePieces above = (.ok (), t) := by
  induction above generalizing q es l with
  | nil => rfl
  | cons piece above ih =>
    rw [ensurePieces]
    split
    · rw [List.reverse_cons] at ht h
      obtain ⟨q', ds, l', h'⟩ := find_above h
      exact ih (fun x hx => hslash x (List.mem_cons_of_mem _ hx))
        ((Path.ofPieces_append_prefix _ _).trans ht) h'
    · rename_i hpiece
      obtain ⟨hpieces, hfault, hstart⟩ :=
        ofPieces_reverse (t := t) (mt Option.isNone_iff_eq_none.2 hpiece) hslash ht hp
      rw [List.reverse_cons, ← hpieces, ← hstart] at h
      dsimp only
      rw [ensureDirectory_present hfault h]

/-- A file that is there is written in its place, and nothing else changes. -/
theorem writeBelow_present {x : ByteArray} (h : t.lookup true p = .ok (.entry q (.file x) l))
    (content : ByteArray) :
    t.writeBelow p content = (.ok (), { t with root := t.root.set q (.file content) }) := by
  have habove : t.ensurePieces p.above = (.ok (), t) := by
    rcases p.exists_pieces with ha | ⟨y, ys, hp⟩
    · rw [ha]
      rfl
    · cases hf : pathFault? p with
      | some f => simp [lookup, hf] at h
      | none =>
        simp only [lookup, hf] at h
        rw [hp] at h
        obtain ⟨q', es, l', hd⟩ := find_above h
        refine ensurePieces_present (fun x hx => ?_) ?_ hf hd
        · apply Text.not_mem_of_mem_splitOn (t := p.text)
          change x ∈ p.pieces
          rw [hp]
          simp [hx]
        · have := Path.ofPieces_append_prefix p.above.reverse (y :: ys)
          rwa [← hp, Path.ofPieces_pieces] at this
  simp [writeBelow, habove, write, h]

end FileTree
end MailMarkup
