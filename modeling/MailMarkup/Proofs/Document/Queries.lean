import MailMarkup.Document.Index
import MailMarkup.Proofs.Document.Preorder

/-!
# Queries to an index

An index walks through its forest with the nodes still to come on each level, ends a walk where an
answer is full, and walks once for each query. None of this shows in the answers. Main statement:
`find_after`, whatever was asked before, the answer to a query is the first elements in document
order that it asks for, and the index tells whether any answer so far was cut short.
-/
namespace MailMarkup

namespace Query

/-- What a query asks of an element; the query's name is taken in lower case. -/
def Asks (q : Query) (e : Element) : Prop :=
  match q with
  | .tag name => e.tag = Text.lower name
  | .attribute name => ∃ value, (Text.lower name, value) ∈ e.attributes
  | .role r => e.tag ∈ r.tags.map String.toList

theorem fits_normal_iff (e : Element) : (q : Query) → (q.normal.fits e = true ↔ q.Asks e)
  | .tag _ => beq_iff_eq
  | .attribute _ => by simp [normal, fits, Asks, Element.hasAttribute]
  | .role _ => by simp [normal, fits, Asks, Role.has]

instance (q : Query) (e : Element) : Decidable (q.Asks e) :=
  decidable_of_iff _ (fits_normal_iff e q)

end Query

/-- The elements of a forest that a query asks for, in document order. -/
def Forest.asked (ns : Forest) (q : Query) : List Element :=
  (ns.family.filterMap Node.element?).filter fun e => q.Asks e

theorem Forest.asked_eq (ns : Forest) (q : Query) :
    ns.asked q = (ns.family.filterMap Node.element?).filter (q.normal.fits ·) := by
  refine List.filter_congr fun e _ => ?_
  rw [Bool.eq_iff_iff, decide_eq_true_iff, Query.fits_normal_iff]

theorem Forest.asked_congr {p q : Query} (h : p.normal = q.normal) (ns : Forest) :
    ns.asked p = ns.asked q := by
  rw [asked_eq, asked_eq, h]

namespace Index

/-! ### A walk through a forest -/

/-- What the rest of a walk meets, in document order. -/
def ahead (fits : Element → Bool) (levels : List Forest) : List Element :=
  ((levels.flatMap Forest.family).filterMap Node.element?).filter fits

section Ahead
variable (fits : Element → Bool) (h : Head) (cs ns : Forest) (levels : List Forest)

private theorem ahead_nil : ahead fits ([] :: levels) = ahead fits levels := rfl

theorem ahead_element : ahead fits ((.element h cs :: ns) :: levels) =
    if fits ⟨h, cs⟩ then ⟨h, cs⟩ :: ahead fits (cs :: ns :: levels)
    else ahead fits (cs :: ns :: levels) := by
  have hf : ((Node.element h cs :: ns) :: levels).flatMap Forest.family =
      .element h cs :: (cs :: ns :: levels).flatMap Forest.family := by
    simp [Forest.family, Node.family]
  have he : (Node.element h cs).element? = some ⟨h, cs⟩ := rfl
  rw [ahead, hf, List.filterMap_cons_some he, List.filter_cons]
  rfl

private theorem ahead_leaf {n : Node} (hn : n.element? = none) :
    ahead fits ((n :: ns) :: levels) = ahead fits (ns :: levels) := by
  have hf : ((n :: ns) :: levels).flatMap Forest.family =
      n :: (ns :: levels).flatMap Forest.family := by
    simp [Forest.family, Node.family_of_leaf hn]
  rw [ahead, hf, List.filterMap_cons_none hn]
  rfl

end Ahead

/-- A walk takes what it meets as long as there is room, and tells whether anything was left. -/
theorem collect_eq (fits : Element → Bool) (room : Nat) (found : List Element)
    (levels : List Forest) : collect fits room found levels =
      (found.reverse ++ (ahead fits levels).take room,
        decide (room < (ahead fits levels).length)) := by
  fun_induction collect fits room found levels with
  | case1 => simp [ahead]
  | case2 room found levels ih => rw [ih, ahead_nil]
  | case3 found h cs ns levels hfit =>
    rw [ahead_element, if_pos hfit]
    simp
  | case4 found h cs ns levels hfit room ih =>
    rw [ih, ahead_element, if_pos hfit]
    simp
  | case5 room found h cs ns levels hfit ih => rw [ih, ahead_element, if_neg hfit]
  | case6 room found n ns levels hn ih =>
    rw [ih, ahead_leaf]
    cases n with
    | element h cs => exact absurd rfl (hn h cs)
    | text t p => rfl
    | comment t p => rfl

private theorem ahead_forest (ns : Forest) (q : Query) :
    ahead (q.normal.fits ·) [ns] = ns.asked q := by
  rw [Forest.asked_eq, ahead, List.flatMap_singleton]

/-! ### What an index remembers -/

/-- The first elements of a forest that a query asks for. -/
def answer (forest : Forest) (maxResults : Nat) (q : Query) : List Element :=
  (forest.asked q).take maxResults

/-- What an index over a forest remembers are answers over that forest. -/
structure Faithful (forest : Forest) (maxResults : Nat) (ix : Index) : Prop where
  forest_eq : ix.forest = forest
  maxResults_eq : ix.maxResults = maxResults
  known : ∀ x ∈ ix.known, ∀ q : Query, q.normal = x.1 → x.2 = answer forest maxResults q

variable {forest : Forest} {maxResults : Nat} {asked : List Query} {ix : Index}

theorem faithful_new (forest : Forest) (n : Nat) :
    (Index.new forest n).Faithful forest (max n 1) :=
  ⟨rfl, rfl, by simp [new]⟩

theorem Faithful.find_cases (h : ix.Faithful forest maxResults) (q : Query) :
    (∃ x ∈ ix.known, x.1 = q.normal) ∧ ix.find q = (answer forest maxResults q, ix) ∨
      ix.find q = (answer forest maxResults q, { ix with
        known := (q.normal, answer forest maxResults q) :: ix.known
        truncated := ix.truncated || maxResults < (forest.asked q).length }) := by
  unfold find
  dsimp only
  split
  · rename_i found hk
    obtain ⟨l₁, l₂, hl, -⟩ := List.lookup_eq_some_iff.1 hk
    have hmem : (q.normal, found) ∈ ix.known := by rw [hl]; simp
    exact .inl ⟨⟨_, hmem, rfl⟩, Prod.ext (h.known _ hmem q rfl) rfl⟩
  · refine .inr ?_
    simp only [collect_eq, h.forest_eq, h.maxResults_eq, ahead_forest]
    rfl

theorem Faithful.find_fst (h : ix.Faithful forest maxResults) (q : Query) :
    (ix.find q).1 = answer forest maxResults q := by
  obtain ⟨-, hf⟩ | hf := h.find_cases q <;> rw [hf]

theorem Faithful.find_snd (h : ix.Faithful forest maxResults) (q : Query) :
    (ix.find q).2.Faithful forest maxResults := by
  obtain ⟨-, hf⟩ | hf := h.find_cases q <;> rw [hf]
  · exact h
  · refine ⟨h.forest_eq, h.maxResults_eq, ?_⟩
    intro x hx p hp
    rcases List.mem_cons.1 hx with rfl | hx
    · exact congrArg (List.take _) (Forest.asked_congr hp.symm forest)
    · exact h.known x hx p hp

/-- An index that was asked the given queries: it remembers answers to some of them, and that one
was cut short if one was. -/
structure Recalls (forest : Forest) (maxResults : Nat) (asked : List Query) (ix : Index) : Prop
    extends ix.Faithful forest maxResults where
  known_asked : ∀ x ∈ ix.known, ∃ p ∈ asked, x.1 = p.normal
  truncated_iff : ix.truncated = true ↔ ∃ p ∈ asked, maxResults < (forest.asked p).length

private theorem recalls_new (forest : Forest) (n : Nat) :
    (Index.new forest n).Recalls forest (max n 1) [] :=
  ⟨faithful_new forest n, by simp [new], by simp [new]⟩

theorem Recalls.find (h : ix.Recalls forest maxResults asked) (q : Query) :
    (ix.find q).2.Recalls forest maxResults (asked ++ [q]) := by
  have faithful := h.toFaithful.find_snd q
  obtain ⟨⟨x, hx, hxq⟩, hf⟩ | hf := h.toFaithful.find_cases q <;> rw [hf] at faithful ⊢
  · obtain ⟨p, hp, hxp⟩ := h.known_asked x hx
    have heq : forest.asked q = forest.asked p := Forest.asked_congr (hxq.symm.trans hxp) forest
    refine ⟨faithful, ?_, ?_⟩
    · intro y hy
      obtain ⟨p', hp', hyp⟩ := h.known_asked y hy
      exact ⟨p', List.mem_append_left _ hp', hyp⟩
    · rw [h.truncated_iff]
      constructor
      · rintro ⟨p', hp', hlt⟩
        exact ⟨p', List.mem_append_left _ hp', hlt⟩
      · rintro ⟨p', hp', hlt⟩
        rcases List.mem_append.1 hp' with hp' | hp'
        · exact ⟨p', hp', hlt⟩
        · rw [List.mem_singleton.1 hp', heq] at hlt
          exact ⟨p, hp, hlt⟩
  · refine ⟨faithful, ?_, ?_⟩
    · intro y hy
      rcases List.mem_cons.1 hy with rfl | hy
      · exact ⟨q, by simp, rfl⟩
      · obtain ⟨p', hp', hyp⟩ := h.known_asked y hy
        exact ⟨p', List.mem_append_left _ hp', hyp⟩
    · simp only [Bool.or_eq_true, h.truncated_iff, decide_eq_true_iff, List.mem_append,
        List.mem_singleton]
      constructor
      · rintro (⟨p, hp, hlt⟩ | hlt)
        · exact ⟨p, .inl hp, hlt⟩
        · exact ⟨q, .inr rfl, hlt⟩
      · rintro ⟨p, hp | rfl, hlt⟩
        · exact .inl ⟨p, hp, hlt⟩
        · exact .inr hlt

/-- An index after some queries. -/
def after (ix : Index) (asked : List Query) : Index := asked.foldl (fun ix q => (ix.find q).2) ix

theorem Recalls.after (h : ix.Recalls forest maxResults asked) (more : List Query) :
    (ix.after more).Recalls forest maxResults (asked ++ more) := by
  induction more generalizing ix asked with
  | nil =>
    rw [List.append_nil]
    exact h
  | cons q more ih =>
    rw [List.append_cons]
    exact ih (h.find q)

/-- Whatever an index was asked before, it answers a query with the first elements of the forest, in
document order, that the query asks for: as many as there are, but no more than the set number,
which is one at least. It is truncated exactly if one of the queries so far asked for more elements
than that. -/
theorem find_after (forest : Forest) (maxResults : Nat) (asked : List Query) (q : Query) :
    (((Index.new forest maxResults).after asked).find q).1 =
        (forest.asked q).take (max 1 maxResults) ∧
      (((Index.new forest maxResults).after asked).truncated = true ↔
        ∃ p ∈ asked, max 1 maxResults < (forest.asked p).length) := by
  have h := (recalls_new forest maxResults).after asked
  rw [List.nil_append, Nat.max_comm] at h
  exact ⟨h.toFaithful.find_fst q, h.truncated_iff⟩

end Index
end MailMarkup
