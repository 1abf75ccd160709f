import Mathlib
import MailMarkup.Files.Discovery
import MailMarkup.Proofs.Files.Ordering
import MailMarkup.Proofs.Files.Steps

/-!
# What is discovered

The walk through directories finds the files that the names of the tree say are there: those that
lie at most so many levels down, whose paths can be looked up, and that pass the filter. The order
in which a directory lists its entries is no part of that, and neither is the order in which paths
are given. Paths that are written in different ways but have the same steps count as one.
-/
namespace MailMarkup

/-- A name that an entry of a directory can have. -/
structure IsFileName (n : Text) : Prop extends IsStepName n where
  noZero : '\x00' ∉ n

theorem IsFileName.of_and {n : Text}
    (h : Step.ofPiece? n = some (.name n) ∧ '/' ∉ n ∧ '\x00' ∉ n) : IsFileName n :=
  ⟨⟨h.1, h.2.1⟩, h.2.2⟩

/-- Entries as a file system has them: in each directory every name is a file name and stands for
one entry. -/
inductive FileEntry.Proper : FileEntry → Prop
  | file (content : ByteArray) : Proper (.file content)
  | link (target : Path) : Proper (.link target)
  | directory {es : List (Text × FileEntry)} (nodup : (es.map Prod.fst).Nodup)
      (names : ∀ x ∈ es, IsFileName x.1) (entries : ∀ x ∈ es, x.2.Proper) : Proper (.directory es)

/-- The path that leads further down by names. -/
def Path.below (p : Path) (ns : List Text) : Path := ns.foldl child p

namespace FileEntry
variable {e e' : FileEntry} {es : List (Text × FileEntry)} {n : Text} {ns ms : List Text}

theorem get?_of_mem (hes : (es.map Prod.fst).Nodup) (h : (n, e) ∈ es) : get? n es = some e := by
  induction es with
  | nil => cases h
  | cons x es ih =>
    obtain ⟨hx, hes⟩ := List.nodup_cons.1 hes
    rcases List.mem_cons.1 h with rfl | h
    · exact if_pos rfl
    · have hne : x.1 ≠ n := fun heq => hx (heq ▸ List.mem_map_of_mem (f := Prod.fst) h)
      rw [get?, if_neg hne]
      exact ih hes h

theorem Proper.of_at? (h : e.Proper) (he : e.at? ns = some e') :
    (∀ n ∈ ns, IsFileName n) ∧ e'.Proper := by
  induction h generalizing ns with
  | file content =>
    cases ns with
    | nil =>
      obtain rfl := Option.some.inj he
      exact ⟨List.forall_mem_nil _, .file content⟩
    | cons n ns => cases he
  | link target =>
    cases ns with
    | nil =>
      obtain rfl := Option.some.inj he
      exact ⟨List.forall_mem_nil _, .link target⟩
    | cons n ns => cases he
  | directory nodup names entries ih =>
    cases ns with
    | nil =>
      obtain rfl := Option.some.inj he
      exact ⟨List.forall_mem_nil _, .directory nodup names entries⟩
    | cons n ns =>
      obtain ⟨d, hd, hns⟩ := Option.bind_eq_some_iff.1 he
      have hmem := get?_mem hd
      obtain ⟨hnames, hproper⟩ := ih _ hmem hns
      exact ⟨List.forall_mem_cons.2 ⟨names _ hmem, hnames⟩, hproper⟩

end FileEntry
section below
open FileTree
variable {p q : Path} {n : Text} {ns : List Text}

namespace Path

theorem child_eq (h : '/' ∉ n) : p.child n =
    if p.text.isEmpty || p.text.getLast? == some '/' then ⟨p.text ++ n⟩
    else ⟨p.text ++ '/' :: n⟩ := by
  have habs : isAbsolute ⟨n⟩ = false := by
    cases n with
    | nil => rfl
    | cons x n =>
      rw [isAbsolute, List.head?_cons, beq_eq_false_iff_ne]
      rintro ⟨⟩
      exact h List.mem_cons_self
  rw [child, join, habs]
  rfl

theorem text_child (h : '/' ∉ n) :
    ∃ v, (p.child n).text = p.text ++ v ∧ ∀ x ∈ v, x = '/' ∨ x ∈ n := by
  rw [child_eq h]
  split
  · exact ⟨n, rfl, fun x hx => .inr hx⟩
  · exact ⟨'/' :: n, rfl, fun x hx => List.mem_cons.1 hx⟩

theorem text_below (h : ∀ n ∈ ns, '/' ∉ n) : ∃ v, (p.below ns).text = p.text ++ v ∧
    ∀ x ∈ v, x = '/' ∨ ∃ n ∈ ns, x ∈ n := by
  induction ns generalizing p with
  | nil => exact ⟨[], (List.append_nil _).symm, List.forall_mem_nil _⟩
  | cons n ns ih =>
    obtain ⟨hn, hns⟩ := List.forall_mem_cons.1 h
    obtain ⟨v, hv, hvn⟩ := text_child (p := p) hn
    obtain ⟨w, hw, hwn⟩ := ih (p := p.child n) hns
    refine ⟨v ++ w, by rw [below, List.foldl_cons, ← below, hw, hv, List.append_assoc], ?_⟩
    intro x hx
    rcases List.mem_append.1 hx with hx | hx
    · exact (hvn x hx).imp_right fun hx => ⟨n, List.mem_cons_self, hx⟩
    · exact (hwn x hx).imp_right fun ⟨m, hm, hx⟩ => ⟨m, List.mem_cons_of_mem n hm, hx⟩

end Path

private theorem pathFault?_below (hp : pathFault? p = none) (hns : ∀ n ∈ ns, IsFileName n) :
    pathFault? (p.below ns) = none ↔ Text.byteSize (p.below ns).text ≤ maxPathBytes := by
  obtain ⟨hz, hne, -⟩ := pathFault?_eq_none.1 hp
  obtain ⟨v, hv, hvn⟩ := Path.text_below (p := p) fun n hn => (hns n hn).noSlash
  rw [pathFault?_eq_none, and_iff_right, and_iff_right]
  · rw [hv]
    exact List.append_ne_nil_of_left_ne_nil hne v
  · rw [hv, List.mem_append, not_or]
    refine ⟨hz, fun hx => ?_⟩
    rcases hvn _ hx with hx | ⟨n, hn, hx⟩
    · exact absurd hx (by decide)
    · exact (hns n hn).noZero hx

end below
namespace FileFilter
open FileTree FileEntry
variable {f : FileFilter} {root e : FileEntry} {es : List (Text × FileEntry)} {p q : Path}
  {links depth : Nat} {place ns : List Text} {name : Text}

theorem mem_keep : q ∈ f.keep p ↔ q = p ∧ f.accepts p = true := by
  rw [keep]
  split <;> simp [*]

private theorem mem_walk_iff : q ∈ f.walk root links depth place p es ↔ ∃ x ∈ es,
    pathFault? (p.child x.1) = none ∧
      q ∈ f.visit root links depth place x.1 (p.child x.1) x.2 := by
  induction es with
  | nil => simp [walk]
  | cons x es ih =>
    rw [walk, List.mem_append, ih, List.exists_mem_cons_iff]
    refine or_congr_left ?_
    cases pathFault? (p.child x.1) <;> simp

/-- The files that a visit is there for: those at names further down, with a path that can be
looked up, if no directory on the way is too deep down, and if they pass. -/
def Finds (f : FileFilter) (depth : Nat) (p q : Path) (e : FileEntry) (levels : Nat)
    (ns : List Text) : Prop :=
  (∃ content, e.at? ns = some (.file content)) ∧ q = p.below ns ∧ pathFault? q = none ∧
    (∀ j < levels, f.stopsAt (depth + j) = false) ∧ f.accepts q = true

theorem mem_walk_of_visits (hes : (FileEntry.directory es).Proper) (hp : p.text ≠ [])
    (h : ∀ x ∈ es, pathFault? (p.child x.1) = none →
      (q ∈ f.visit root links depth place x.1 (p.child x.1) x.2 ↔
        ∃ ns, f.Finds depth (p.child x.1) q x.2 ns.length ns)) :
    q ∈ f.walk root links depth place p es ↔
      ∃ n ns, f.Finds depth p q (.directory es) ns.length (n :: ns) := by
  cases hes with
  | directory nodup names entries =>
    rw [mem_walk_iff]
    constructor
    · rintro ⟨x, hx, hfault, hq⟩
      obtain ⟨ns, ⟨content, hat⟩, rest⟩ := (h x hx hfault).1 hq
      exact ⟨x.1, ns, ⟨content, by rw [at?, get?_of_mem nodup hx]; exact hat⟩, rest⟩
    · rintro ⟨n, ns, ⟨content, hat⟩, rfl, hfault, rest⟩
      obtain ⟨d, hd, hat⟩ := Option.bind_eq_some_iff.1 hat
      have hmem := get?_mem hd
      have hns := ((entries _ hmem).of_at? hat).1
      obtain ⟨v, hv, -⟩ := Path.text_child (p := p) (names _ hmem).noSlash
      obtain ⟨w, hw, -⟩ := Path.text_below (p := p.child n) fun m hm => (hns m hm).noSlash
      have hchild : pathFault? (p.child n) = none :=
        pathFault?_of_prefix ⟨w, hw.symm⟩ (hv ▸ List.append_ne_nil_of_left_ne_nil hp v) hfault
      exact ⟨_, hmem, hchild, (h _ hmem hchild).2 ⟨ns, ⟨content, hat⟩, rfl, hfault, rest⟩⟩

/-- Where links are not followed, a visit finds the files at the names of the tree. -/
theorem mem_visit_iff (hf : f.followLinks = false) (he : e.Proper) (hp : pathFault? p = none) :
    q ∈ f.visit root links depth place name p e ↔ ∃ ns, f.Finds depth p q e ns.length ns := by
  induction he generalizing depth place name p with
  | file content =>
    rw [visit, mem_keep]
    constructor
    · rintro ⟨rfl, hq⟩
      exact ⟨[], ⟨content, rfl⟩, rfl, hp, fun _ hj => absurd hj (Nat.not_lt_zero _), hq⟩
    · rintro ⟨ns, ⟨content', hat⟩, rfl, -, -, hq⟩
      cases ns with
      | nil => exact ⟨rfl, hq⟩
      | cons n ns => cases hat
  | link target =>
    rw [visit.eq_def]
    simp only [hf, Bool.not_false, if_true]
    refine iff_of_false List.not_mem_nil ?_
    rintro ⟨_ | ⟨n, ns⟩, ⟨content, hat⟩, -⟩ <;> cases hat
  | @directory es nodup names entries ih =>
    rw [visit]
    cases hstop : f.stopsAt depth with
    | true =>
      refine iff_of_false List.not_mem_nil ?_
      rintro ⟨_ | ⟨n, ns⟩, ⟨content, hat⟩, -, -, hlevels, -⟩
      · cases hat
      · have h0 := hlevels 0 (Nat.succ_pos _)
        rw [Nat.add_zero, hstop] at h0
        cases h0
    | false =>
      simp only [Bool.false_eq_true, if_false]
      rw [mem_walk_of_visits (.directory nodup names entries) (pathFault?_eq_none.1 hp).2.1
        fun x hx => ih x hx]
      constructor
      · rintro ⟨n, ns, hat, heq, hfault, hlevels, hq⟩
        refine ⟨n :: ns, hat, heq, hfault, fun j hj => ?_, hq⟩
        rcases j with _ | j
        · exact hstop
        · rw [← hlevels j (Nat.lt_of_succ_lt_succ hj)]
          congr 1
          omega
      · rintro ⟨ns, ⟨content, hat⟩, heq, hfault, hlevels, hq⟩
        rcases ns with _ | ⟨n, ns⟩
        · cases hat
        · refine ⟨n, ns, ⟨content, hat⟩, heq, hfault, fun j hj => ?_, hq⟩
          rw [← hlevels (j + 1) (Nat.succ_lt_succ hj)]
          congr 1
          omega

private theorem exists_cons_iff_concat {P : List Text → Nat → Prop} :
    (∃ n ns, P (n :: ns) ns.length) ↔ ∃ ns n, P (ns ++ [n]) ns.length := by
  constructor
  · rintro ⟨n, ns, h⟩
    refine ⟨(n :: ns).dropLast, (n :: ns).getLast (List.cons_ne_nil n ns), ?_⟩
    rw [List.dropLast_append_getLast, List.length_dropLast]
    exact h
  · rintro ⟨ns, n, h⟩
    obtain ⟨m, ms, heq⟩ := List.exists_cons_of_ne_nil (List.append_ne_nil_of_right_ne_nil ns
      (List.cons_ne_nil n []))
    have hlen := congrArg List.length heq
    rw [List.length_append, List.length_singleton, List.length_cons] at hlen
    refine ⟨m, ms, ?_⟩
    rwa [← heq, ← Nat.succ.inj hlen]

private theorem stopsAt_iff {levels : Nat} : (∀ j < levels, f.stopsAt (0 + j) = false) ↔
    ∀ max ∈ f.maxDepth, levels ≤ max := by
  cases hmax : f.maxDepth with
  | none => simp [stopsAt, hmax]
  | some max =>
    simp only [stopsAt, hmax, Option.any_some, decide_eq_false_iff_not, Nat.zero_add,
      Option.mem_def, Option.some.injEq, forall_eq']
    exact ⟨fun h => Nat.not_lt.1 fun hlt => h max hlt (Nat.le_refl max), fun h j hj => by omega⟩

/-- Where links are not followed, a walk finds the files below that lie not too deep down. -/
theorem mem_walk (hf : f.followLinks = false) (hes : (FileEntry.directory es).Proper)
    (hp : pathFault? p = none) :
    q ∈ f.walk root links 0 place p es ↔ ∃ ns n,
      (∃ content, (FileEntry.directory es).at? (ns ++ [n]) = some (.file content)) ∧
        q = p.below (ns ++ [n]) ∧ Text.byteSize q.text ≤ maxPathBytes ∧
        (∀ max ∈ f.maxDepth, ns.length ≤ max) ∧ f.accepts q = true := by
  have hvisits (x) (hx : x ∈ es) : x.2.Proper := by
    cases hes with
    | directory nodup names entries => exact entries x hx
  rw [mem_walk_of_visits hes (pathFault?_eq_none.1 hp).2.1 fun x hx =>
    mem_visit_iff hf (hvisits x hx)]
  rw [exists_cons_iff_concat (P := fun ns levels => f.Finds 0 p q (.directory es) levels ns)]
  refine exists_congr fun ns => exists_congr fun n => ?_
  rw [Finds, stopsAt_iff]
  refine and_congr_right fun ⟨content, hat⟩ => and_congr_right fun heq => ?_
  rw [heq, pathFault?_below hp (hes.of_at? hat).1]

end FileFilter

namespace FileTree
open FileEntry FileFilter
variable {t t' : FileTree} {f : FileFilter} {p q : Path} {ps ps' r : List Path}

/-- The files that a path leads to, each with the number of directories between: what the path
itself leads to, through links if need be, and what lies below. -/
inductive Leads (t : FileTree) (p : Path) : Nat → Path → Prop
  | itself {content : ByteArray} (h : t.get p = .ok (.file content)) : Leads t p 0 p
  | below {es : List (Text × FileEntry)} {ns : List Text} {n : Text} {content : ByteArray}
    (h : t.get p = .ok (.directory es))
    (hfile : (FileEntry.directory es).at? (ns ++ [n]) = some (.file content)) :
    Leads t p ns.length (p.below (ns ++ [n]))

/-- A path leads to a file that is not too deep down, with a path that is not too long, and that
passes. -/
def Keeps (t : FileTree) (f : FileFilter) (p q : Path) : Prop :=
  ∃ levels, t.Leads p levels q ∧ (∀ max ∈ f.maxDepth, levels ≤ max) ∧
    Text.byteSize q.text ≤ maxPathBytes ∧ f.accepts q = true

private theorem find_ne_link {root e : FileEntry} {links l : Nat} {place pieces q : List Text}
    (h : find root true links place pieces = .ok (.entry q e l))
    (hplace : pieces ≠ [] ∨ ∀ target, root.at? place ≠ some (.link target)) :
    ∀ target, e ≠ .link target := by
  fun_induction find root true links place pieces with
  | case1 links place e he =>
    cases h
    rintro target rfl
    exact hplace.elim (absurd rfl) fun hno => hno target he
  | case3 links place piece rest es he hp ih =>
    refine ih h (.inr fun target ht => ?_)
    cases he.symm.trans ht
  | case4 links place rest es he hp ih =>
    refine ih h (.inr fun target ht => ?_)
    rcases List.eq_nil_or_concat place with rfl | ⟨front, n, rfl⟩
    · cases he.symm.trans ht
    · rw [List.concat_eq_append, List.dropLast_concat] at ht
      rw [List.concat_eq_append, at?_append, ht] at he
      cases he
  | case8 links place piece rest es he hp hu target hg hf => simp at hf
  | case10 place piece rest es he hp hu target hg hf links ih =>
    exact ih h (.inl (List.append_ne_nil_of_left_ne_nil target.pieces_ne_nil rest))
  | case11 links place piece rest es he hp hu val hval hg ih =>
    refine ih h (.inr fun target ht => ?_)
    rw [at?_concat he, hg] at ht
    exact hval target (Option.some.inj ht)
  | _ => cases h

/-- A path that leads nowhere is an error. Otherwise the files that it leads to are found. -/
theorem discover_spec (hroot : t.root.Proper) (hf : f.followLinks = false) :
    t.exists_ p = false ∧ (∃ e, t.discover f p = .error e) ∨
      t.exists_ p = true ∧ ∃ found, t.discover f p = .ok found ∧
        ∀ q, q ∈ found ↔ t.Keeps f p q := by
  cases hl : t.lookup true p with
  | error fault => exact .inl ⟨by simp [exists_, get, hl], by simp [discover, hl]⟩
  | ok hit =>
    cases hit with
    | vacant place name => exact .inl ⟨by simp [exists_, get, hl], by simp [discover, hl]⟩
    | entry place e links =>
      have hget : t.get p = .ok e := by simp [get, hl]
      obtain ⟨hfault, hfind⟩ : pathFault? p = none ∧
          find t.root true maxLinks (t.start p) p.pieces = .ok (.entry place e links) := by
        rw [lookup] at hl
        split at hl
        · cases hl
        · exact ⟨‹_›, hl⟩
      refine .inr ⟨by simp [exists_, hget], ?_⟩
      cases e with
      | link target => exact absurd rfl (find_ne_link hfind (.inl p.pieces_ne_nil) target)
      | file content =>
        refine ⟨f.keep p, by simp [discover, hl], fun q => ?_⟩
        rw [mem_keep]
        constructor
        · rintro ⟨rfl, hq⟩
          exact ⟨0, .itself hget, fun max _ => Nat.zero_le max,
            (pathFault?_eq_none.1 hfault).2.2, hq⟩
        · rintro ⟨levels, ⟨h⟩ | ⟨h, hat⟩, -, -, hq⟩
          · exact ⟨rfl, hq⟩
          · cases hget.symm.trans h
      | directory es =>
        refine ⟨f.walk t.root links 0 place p es, by simp [discover, hl], fun q => ?_⟩
        rw [mem_walk hf (hroot.of_at? (at?_of_find hfind)).2 hfault]
        constructor
        · rintro ⟨ns, n, ⟨content, hat⟩, rfl, hsize, hlevels, hq⟩
          exact ⟨ns.length, .below hget hat, hlevels, hsize, hq⟩
        · rintro ⟨levels, ⟨h⟩ | ⟨h, hat⟩, hlevels, hsize, hq⟩
          · cases hget.symm.trans h
          · cases hget.symm.trans h
            exact ⟨_, _, ⟨_, hat⟩, rfl, hsize, hlevels, hq⟩

section all
variable {α β ε : Type} {g : α → Except ε (List β)} {as : List α} {bs : List (List β)} {b : β}

private theorem mapM_succeeds (h : ∀ a ∈ as, ∃ b, g a = .ok b) : ∃ bs, as.mapM g = .ok bs := by
  induction as with
  | nil => exact ⟨[], rfl⟩
  | cons a as ih =>
    obtain ⟨⟨b, hb⟩, h⟩ := List.forall_mem_cons.1 h
    obtain ⟨bs, hbs⟩ := ih h
    exact ⟨b :: bs, by rw [List.mapM_cons, hb, hbs]; rfl⟩

private theorem mem_of_mapM (h : as.mapM g = .ok bs) :
    (∀ a ∈ as, ∃ b, g a = .ok b) ∧
      ∀ b, b ∈ bs.flatten ↔ ∃ a ∈ as, ∃ found, g a = .ok found ∧ b ∈ found := by
  induction as generalizing bs with
  | nil =>
    cases h
    simp
  | cons a as ih =>
    rw [List.mapM_cons] at h
    cases ha : g a with
    | error e => rw [ha] at h; cases h
    | ok found =>
      cases has : as.mapM g with
      | error e => rw [ha, has] at h; cases h
      | ok rest =>
        rw [ha, has] at h
        cases h
        obtain ⟨hall, hmem⟩ := ih has
        refine ⟨List.forall_mem_cons.2 ⟨⟨found, ha⟩, hall⟩, fun b => ?_⟩
        rw [List.flatten_cons, List.mem_append, hmem, List.exists_mem_cons_iff, ha]
        simp

end all

/-- Discovery succeeds exactly if every given path leads to something. It lists in order, each once,
what the paths lead to. -/
theorem discoverAll_spec (ps : List Path) (hroot : t.root.Proper) (hf : f.followLinks = false) :
    ((∃ r, t.discoverAll f ps = .ok r) ↔ ∀ p ∈ ps, t.exists_ p = true) ∧
      ∀ r, t.discoverAll f ps = .ok r → Path.InOrder r ∧
        (∀ q ∈ r, ∃ p ∈ ps, t.Keeps f p q) ∧
        ∀ p ∈ ps, ∀ q, t.Keeps f p q → ∃ q' ∈ r, q'.same q = true := by
  have hone (p : Path) : (∃ found, t.discover f p = .ok found) ↔ t.exists_ p = true := by
    rcases discover_spec (p := p) hroot hf with ⟨h, e, he⟩ | ⟨h, found, hfound, -⟩
    · simp [h, he]
    · simp [h, hfound]
  have hok (r : List Path) : t.discoverAll f ps = .ok r ↔
      ∃ bs, ps.mapM (t.discover f) = .ok bs ∧ Path.sorted bs.flatten = r := by
    rw [discoverAll]
    cases ps.mapM (t.discover f) <;> simp [Except.map]
  constructor
  · simp only [hok]
    constructor
    · rintro ⟨r, bs, hbs, -⟩ p hp
      exact (hone p).1 ((mem_of_mapM hbs).1 p hp)
    · intro h
      obtain ⟨bs, hbs⟩ := mapM_succeeds fun p hp => (hone p).2 (h p hp)
      exact ⟨_, bs, hbs, rfl⟩
  · intro r hr
    obtain ⟨bs, hbs, rfl⟩ := (hok r).1 hr
    obtain ⟨hall, hmem⟩ := mem_of_mapM hbs
    have hkeeps (q : Path) : q ∈ bs.flatten ↔ ∃ p ∈ ps, t.Keeps f p q := by
      rw [hmem]
      refine exists_congr fun p => and_congr_right fun hp => ?_
      rcases discover_spec (p := p) hroot hf with ⟨h, -⟩ | ⟨-, found, hfound, hq⟩
      · exact absurd ((hone p).1 (hall p hp)) (by simp [h])
      · simp [hfound, hq]
    refine ⟨Path.inOrder_sorted _, fun q hq => (hkeeps q).1 (Path.mem_of_mem_sorted hq), ?_⟩
    exact fun p hp q hq => Path.exists_mem_sorted ((hkeeps q).2 ⟨p, hp, hq⟩)

/-- The same things in the same places. Only the order in which a directory lists its entries may
differ. -/
structure Relisted (t t' : FileTree) : Prop where
  here : t'.here = t.here
  proper : t'.root.Proper
  places : Rewritten ∅ t.root t'.root

private theorem rewritten_of_perm {es es' : List (Text × FileEntry)}
    (hes : (FileEntry.directory es).Proper) (h : es.Perm es') :
    (FileEntry.directory es').Proper ∧ Rewritten ∅ (.directory es) (.directory es') := by
  cases hes with
  | directory nodup names entries =>
    have nodup' : (es'.map Prod.fst).Nodup := (h.map Prod.fst).nodup_iff.1 nodup
    refine ⟨.directory nodup' (fun x hx => names x (h.mem_iff.2 hx))
      (fun x hx => entries x (h.mem_iff.2 hx)), fun q => ?_⟩
    cases q with
    | nil => trivial
    | cons n q =>
      have hget : get? n es = get? n es' := by
        refine Option.ext fun e => ⟨fun he => ?_, fun he => ?_⟩
        · exact get?_of_mem nodup' (h.mem_iff.1 (get?_mem he))
        · exact get?_of_mem nodup (h.mem_iff.2 (get?_mem he))
      rw [at?, at?, hget]
      exact .refl _ _

theorem Agree.symm {x y : Option FileEntry} {place : List Text}
    (h : FileEntry.Agree (place ∈ (∅ : Set (List Text))) x y) :
    FileEntry.Agree (place ∈ (∅ : Set (List Text))) y x := by
  rcases x with _ | (_ | _ | _) <;> rcases y with _ | (_ | _ | _) <;>
    simp_all [FileEntry.Agree]

theorem Relisted.symm (h : t.Relisted t') (hroot : t.root.Proper) : t'.Relisted t :=
  ⟨h.here.symm, hroot, fun q => Agree.symm (h.places q)⟩

/-- A path leads to the same place, or nowhere. -/
theorem Relisted.get (h : t.Relisted t') (p : Path) :
    (∃ fault, t.get p = .error fault ∧ t'.get p = .error fault) ∨
      ∃ place e e', t.get p = .ok e ∧ t'.get p = .ok e' ∧ t.root.at? place = some e ∧
        t'.root.at? place = some e' := by
  have hstart : t'.start p = t.start p := by rw [start, start, h.here]
  simp only [FileTree.get, lookup, hstart]
  cases pathFault? p with
  | some fault => exact .inl ⟨fault, rfl, rfl⟩
  | none =>
    have hagree := find_agree h.places true maxLinks (t.start p) p.pieces
    cases hx : find t.root true maxLinks (t.start p) p.pieces with
    | error fault =>
      cases hy : find t'.root true maxLinks (t.start p) p.pieces with
      | error fault' =>
        rw [hx, hy] at hagree
        obtain rfl : fault = fault' := hagree
        exact .inl ⟨fault, rfl, rfl⟩
      | ok hit =>
        rw [hx, hy] at hagree
        exact hagree.elim
    | ok hit =>
      cases hy : find t'.root true maxLinks (t.start p) p.pieces with
      | error fault =>
        rw [hx, hy] at hagree
        cases hit <;> exact hagree.elim
      | ok hit' =>
        rw [hx, hy] at hagree
        rcases hit with ⟨q, e, l⟩ | ⟨q, n⟩ <;> rcases hit' with ⟨q', e', l'⟩ | ⟨q', n'⟩
        · obtain ⟨rfl, -, -⟩ := hagree
          exact .inr ⟨q, e, e', rfl, rfl, at?_of_find hx, at?_of_find hy⟩
        · exact hagree.elim
        · exact hagree.elim
        · exact .inl ⟨.notFound, rfl, rfl⟩

theorem Relisted.file_at (h : t.Relisted t') {place : List Text} {content : ByteArray}
    (hfile : t.root.at? place = some (.file content)) :
    t'.root.at? place = some (.file content) := by
  have hagree := h.places place
  rw [hfile] at hagree
  rcases ht : t'.root.at? place with _ | (content' | _ | _) <;> rw [ht] at hagree
  · exact hagree.elim
  · rcases hagree with hno | rfl
    · exact hno.elim
    · rfl
  · exact hagree.elim
  · exact hagree.elim

private theorem Relisted.exists_eq (h : t.Relisted t') (p : Path) : t'.exists_ p = t.exists_ p := by
  rcases h.get p with ⟨fault, h₁, h₂⟩ | ⟨place, e, e', h₁, h₂, -, -⟩ <;>
    rw [exists_, exists_, h₁, h₂]

theorem Relisted.get_ok (h : t.Relisted t') {e : FileEntry} (hget : t.get p = .ok e) :
    ∃ place e', t'.get p = .ok e' ∧ t.root.at? place = some e ∧ t'.root.at? place = some e' := by
  rcases h.get p with ⟨fault, h₁, -⟩ | ⟨place, e₁, e', h₁, h₂, h₃, h₄⟩
  · cases hget.symm.trans h₁
  · cases hget.symm.trans h₁
    exact ⟨place, e', h₂, h₃, h₄⟩

theorem Relisted.leads (h : t.Relisted t') {levels : Nat} (hq : t.Leads p levels q) :
    t'.Leads p levels q := by
  rcases hq with ⟨hget⟩ | ⟨hget, hfile⟩
  · obtain ⟨place, e', hget', hplace, hplace'⟩ := h.get_ok hget
    obtain rfl := Option.some.inj (hplace'.symm.trans (h.file_at hplace))
    exact .itself hget'
  · obtain ⟨place, e', hget', hplace, hplace'⟩ := h.get_ok hget
    have hdir := h.places place
    rw [hplace, hplace'] at hdir
    cases e' with
    | directory es' =>
      rename_i ns m content
      have hat : t.root.at? (place ++ (ns ++ [m])) = some (.file content) := by
        rw [at?_append, hplace]
        exact hfile
      have hat' := h.file_at hat
      rw [at?_append, hplace'] at hat'
      exact .below hget' hat'
    | file content => exact hdir.elim
    | link target => exact hdir.elim

theorem Relisted.keeps (h : t.Relisted t') (hq : t.Keeps f p q) : t'.Keeps f p q := by
  obtain ⟨levels, hleads, rest⟩ := hq
  exact ⟨levels, h.leads hleads, rest⟩

/-- Discovery succeeds exactly if every given path leads to something. It lists, in order and each
once, the files that the paths lead to, that lie at most so many levels down, whose paths are not
too long and that pass. Neither the order and repetition of the given paths nor the order in which
directories list their entries matters. -/
theorem discoverAll_exact (t : FileTree) (f : FileFilter) (ps : List Path) (hroot : t.root.Proper)
    (hf : f.followLinks = false) :
    ((∃ r, t.discoverAll f ps = .ok r) ↔ ∀ p ∈ ps, t.exists_ p = true) ∧
      ∀ r, t.discoverAll f ps = .ok r → Path.InOrder r ∧
        (∀ q ∈ r, ∃ p ∈ ps, t.Keeps f p q) ∧
        (∀ p ∈ ps, ∀ q, t.Keeps f p q → ∃ q' ∈ r, q'.same q = true) ∧
        ∀ t' ps', t.Relisted t' → (∀ p, p ∈ ps' ↔ p ∈ ps) →
          ∃ r', t'.discoverAll f ps' = .ok r' ∧ r'.map Path.steps = r.map Path.steps := by
  obtain ⟨hok, hr⟩ := discoverAll_spec ps hroot hf
  refine ⟨hok, fun r h => ?_⟩
  obtain ⟨horder, hsound, hcomplete⟩ := hr r h
  refine ⟨horder, hsound, hcomplete, fun t' ps' ht hps => ?_⟩
  obtain ⟨hok', hr'⟩ := discoverAll_spec ps' ht.proper hf
  obtain ⟨r', h'⟩ := hok'.2 fun p hp => by
    rw [ht.exists_eq]
    exact hok.1 ⟨r, h⟩ p ((hps p).1 hp)
  obtain ⟨horder', hsound', hcomplete'⟩ := hr' r' h'
  refine ⟨r', h', horder'.steps_eq horder (fun q hq => ?_) fun q hq => ?_⟩
  · obtain ⟨p, hp, hkeeps⟩ := hsound' q hq
    exact hcomplete p ((hps p).1 hp) q ((ht.symm hroot).keeps hkeeps)
  · obtain ⟨p, hp, hkeeps⟩ := hsound q hq
    exact hcomplete' p ((hps p).2 hp) q (ht.keeps hkeeps)

/-- The entries of the working directory in another order, and the paths in another order and more
than once. -/
theorem discoverAll_exact_reversed :
    let es : List (Text × FileEntry) :=
      [("b".toList, .directory [("c.HTM".toList, .file .empty)]), ("a.html".toList, .file .empty),
        ("l".toList, .link ⟨"b".toList⟩)]
    let f : FileFilter := { maxDepth := some 1 }
    let ps : List Path := [⟨".".toList⟩, ⟨"b".toList⟩]
    let r : List Path := [⟨"./a.html".toList⟩, ⟨"./b/c.HTM".toList⟩, ⟨"b/c.HTM".toList⟩]
    (FileEntry.directory es).Proper ∧ f.followLinks = false ∧
      discoverAll ⟨.directory es, []⟩ f ps = .ok r ∧
      ∃ r', discoverAll ⟨.directory es.reverse, []⟩ f (ps.reverse ++ ps) = .ok r' ∧
        r'.map Path.steps = r.map Path.steps := by
  intro es f ps r
  have hproper : (FileEntry.directory es).Proper := by
    refine .directory (by decide) ?_ ?_
    · simp only [es, List.forall_mem_cons]
      exact ⟨.of_and (by decide), .of_and (by decide), .of_and (by decide), List.forall_mem_nil _⟩
    · simp only [es, List.forall_mem_cons]
      refine ⟨.directory (by decide) ?_ ?_, .file _, .link _, List.forall_mem_nil _⟩
      · exact List.forall_mem_singleton.2 (.of_and (by decide))
      · exact List.forall_mem_singleton.2 (.file _)
  have hfound : discoverAll ⟨.directory es, []⟩ f ps = .ok r := by cbv
  obtain ⟨-, hr⟩ := discoverAll_exact ⟨.directory es, []⟩ f ps hproper rfl
  obtain ⟨-, -, -, hrelisted⟩ := hr r hfound
  obtain ⟨hproper', hplaces⟩ := rewritten_of_perm hproper es.reverse_perm.symm
  obtain ⟨r', h', hsteps⟩ := hrelisted ⟨.directory es.reverse, []⟩ (ps.reverse ++ ps)
    ⟨rfl, hproper', hplaces⟩ (by simp)
  exact ⟨hproper, rfl, hfound, r', h', hsteps⟩

section slashes

/-- A directory with one file. -/
def oneFile : FileTree where
  root := .directory [("d".toList, .directory [("a.html".toList, .file .empty)])]

/-- The directory with slashes at the end. -/
def slashed (n : Nat) : Path := ⟨'d' :: List.replicate n '/'⟩

theorem proper_oneFile : oneFile.root.Proper := by
  refine .directory (by decide) (List.forall_mem_singleton.2 (.of_and (by decide)))
    (List.forall_mem_singleton.2 (.directory (by decide) ?_ ?_))
  · exact List.forall_mem_singleton.2 (.of_and (by decide))
  · exact List.forall_mem_singleton.2 (.file _)

private theorem find_slashes {root : FileEntry} {es : List (Text × FileEntry)} {place : List Text}
    (h : root.at? place = some (.directory es)) (links n : Nat) :
    find root true links place (List.replicate n []) =
      .ok (.entry place (.directory es) links) := by
  induction n with
  | zero => exact find_nil h
  | succ n ih =>
    rw [List.replicate_succ, find_here h rfl]
    exact ih

private theorem pieces_slashed (n : Nat) :
    (slashed n).pieces = "d".toList :: List.replicate n [] := by
  induction n with
  | zero => rfl
  | succ n ih =>
    rw [slashed, List.replicate_succ', ← List.cons_append, Path.pieces_append, ← slashed, ih,
      List.replicate_succ']
    rfl

theorem byteSize_slashed (n : Nat) : Text.byteSize (slashed n).text = n + 1 := by
  have hslashes (n : Nat) : Text.byteSize (List.replicate n '/') = n := by
    induction n with
    | zero => rfl
    | succ n ih =>
      rw [List.replicate_succ, Text.byteSize_cons, ih]
      exact Nat.add_comm 1 n
  rw [slashed, Text.byteSize_cons, hslashes]
  exact Nat.add_comm 1 n

theorem get_slashed {n : Nat} (hn : n < maxPathBytes) :
    oneFile.get (slashed n) = .ok (.directory [("a.html".toList, .file .empty)]) := by
  have hfault : pathFault? (slashed n) = none := by
    refine pathFault?_eq_none.2 ⟨fun hz => ?_, List.cons_ne_nil _ _, ?_⟩
    · rcases List.mem_cons.1 hz with hz | hz
      · exact absurd hz (by decide)
      · exact absurd (List.eq_of_mem_replicate hz) (by decide)
    · rw [byteSize_slashed]
      exact hn
  have hfind : find oneFile.root true maxLinks (oneFile.start (slashed n)) (slashed n).pieces =
      .ok (.entry ["d".toList] (.directory [("a.html".toList, .file .empty)]) maxLinks) := by
    rw [pieces_slashed, find]
    exact find_slashes rfl _ _
  rw [get, lookup, hfault]
  simp only [hfind]

theorem leads_slashed {n levels : Nat} (hn : n < maxPathBytes) :
    oneFile.Leads (slashed n) levels q ↔ levels = 0 ∧ q = (slashed n).child "a.html".toList := by
  have hget := get_slashed hn
  constructor
  · rintro (h | ⟨h, hfile⟩)
    · cases hget.symm.trans h
    · cases hget.symm.trans h
      rename_i ns m content
      cases ns with
      | nil =>
        obtain ⟨d, hd, -⟩ := Option.bind_eq_some_iff.1 hfile
        obtain ⟨rfl, -⟩ := Prod.mk.inj (List.mem_singleton.1 (get?_mem hd))
        exact ⟨rfl, rfl⟩
      | cons k ns =>
        obtain ⟨d, hd, hrest⟩ := Option.bind_eq_some_iff.1 hfile
        obtain ⟨-, rfl⟩ := Prod.mk.inj (List.mem_singleton.1 (get?_mem hd))
        cases ns <;> cases hrest
  · rintro ⟨rfl, rfl⟩
    have hfile : (FileEntry.directory [("a.html".toList, .file .empty)]).at?
        ([] ++ ["a.html".toList]) = some (.file .empty) := rfl
    exact .below hget hfile

private theorem byteSize_child {p : Path} {n : Text} (h : '/' ∉ n) :
    Text.byteSize p.text + Text.byteSize n ≤ Text.byteSize (p.child n).text := by
  rw [Path.child_eq h]
  split
  · exact (Text.byteSize_append _ _).ge
  · rw [Text.byteSize_append, Text.byteSize_cons]
    omega

theorem exists_slashed {n : Nat} (hn : n < maxPathBytes) :
    oneFile.exists_ (slashed n) = true := by
  rw [exists_, get_slashed hn]

private theorem discoverAll_slashed {n : Nat} (hn : n < maxPathBytes)
    (hlong : maxPathBytes ≤ n + 6) :
    oneFile.discoverAll {} [slashed n] = .ok [] := by
  have hfollow : ({} : FileFilter).followLinks = false := rfl
  obtain ⟨hok, hr⟩ := discoverAll_spec [slashed n] proper_oneFile hfollow
  obtain ⟨r, h⟩ := hok.2 (List.forall_mem_singleton.2 (exists_slashed hn))
  suffices hnil : r = [] by rw [h, hnil]
  refine List.eq_nil_iff_forall_not_mem.2 fun q hq => ?_
  obtain ⟨p, hp, levels, hleads, -, hsize, -⟩ := (hr r h).2.1 q hq
  obtain rfl := List.mem_singleton.1 hp
  obtain ⟨-, rfl⟩ := (leads_slashed hn).1 hleads
  have hname : '/' ∉ "a.html".toList := by decide
  have hbytes : Text.byteSize "a.html".toList = 6 := by decide
  have hle : Text.byteSize (slashed n).text + _ ≤ _ := byteSize_child hname
  rw [byteSize_slashed, hbytes] at hle
  omega

private theorem accepts_slashed (n : Nat) :
    ({} : FileFilter).accepts ((slashed n).child "a.html".toList) = true := by
  have hname : IsFileName "a.html".toList := .of_and (by decide)
  have h : ((slashed n).child "a.html".toList).fileName? = some "a.html".toList := by
    rw [Path.fileName?, Path.steps_child hname.toIsStepName, List.getLast?_concat]
  rw [accepts, Path.extension?, h]
  rfl

/-- A directory that is given with so many slashes that the path of its file is too long: the file
passes and is not listed. -/
theorem discoverAll_omits :
    oneFile.root.Proper ∧ oneFile.exists_ (slashed 4090) = true ∧
      oneFile.discoverAll {} [slashed 4090] = .ok [] ∧
      ∃ q, oneFile.Leads (slashed 4090) 0 q ∧ ({} : FileFilter).accepts q = true := by
  have hn : 4090 < maxPathBytes := by decide
  exact ⟨proper_oneFile, exists_slashed hn, discoverAll_slashed hn (by decide), _,
    (leads_slashed hn).2 ⟨rfl, rfl⟩, accepts_slashed 4090⟩

end slashes

end FileTree
end MailMarkup
