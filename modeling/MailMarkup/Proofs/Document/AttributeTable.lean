import MailMarkup.Proofs.Document.Attributes
import MailMarkup.Proofs.Text.CharSet

/-!
# Tables of attributes

The table of an element keeps of the attributes with one name the first. It is built up from the
first attribute to the last, so an attribute behind others changes it only if its name is new.
-/
namespace MailMarkup.Attribute
open Text
variable {es seen : List (Text × Text)} {as bs : List Attribute} {n : Text}

/-- Entries, last first, with one more behind them, which counts if its name is new. -/
def see (seen : List (Text × Text)) (e : Text × Text) : List (Text × Text) :=
  if seen.any (·.1 == e.1) then seen else e :: seen

theorem loop_eq (es seen : List (Text × Text)) :
    List.eraseDupsBy.loop (fun a b => a.1 == b.1) es seen = (es.foldl see seen).reverse := by
  induction es generalizing seen with
  | nil => rfl
  | cons e es ih => rw [Reader.loop_cons, ih, List.foldl_cons, see]

theorem table_eq (as : List Attribute) : table as = ((as.map entry).foldl see []).reverse :=
  loop_eq _ _

theorem any_fst_iff : seen.any (·.1 == n) = true ↔ n ∈ seen.map Prod.fst := by
  simp [List.any_eq_true, List.mem_map]

theorem see_of_mem {e : Text × Text} (h : e.1 ∈ seen.map Prod.fst) : see seen e = seen :=
  if_pos (any_fst_iff.2 h)

theorem see_of_not_mem {e : Text × Text} (h : e.1 ∉ seen.map Prod.fst) : see seen e = e :: seen :=
  if_neg (mt any_fst_iff.1 h)

private theorem mem_names_see {e : Text × Text} :
    n ∈ (see seen e).map Prod.fst ↔ n ∈ seen.map Prod.fst ∨ n = e.1 := by
  by_cases h : e.1 ∈ seen.map Prod.fst
  · rw [see_of_mem h]
    exact (or_iff_left_of_imp fun heq => heq ▸ h).symm
  · rw [see_of_not_mem h, List.map_cons, List.mem_cons, or_comm]

theorem mem_names_foldl_see : n ∈ (es.foldl see seen).map Prod.fst ↔
    n ∈ seen.map Prod.fst ∨ n ∈ es.map Prod.fst := by
  induction es generalizing seen with
  | nil => simp
  | cons e es ih => rw [List.foldl_cons, ih, mem_names_see, or_assoc, List.map_cons, List.mem_cons]

theorem mem_names_table : n ∈ (table as).map Prod.fst ↔ ∃ a ∈ as, lower a.name = n := by
  rw [table_eq, List.map_reverse, List.mem_reverse, mem_names_foldl_see]
  simp [entry]

private theorem foldl_see_fresh (h : (es.map Prod.fst).Nodup)
    (fresh : ∀ e ∈ es, e.1 ∉ seen.map Prod.fst) : es.foldl see seen = es.reverse ++ seen := by
  induction es generalizing seen with
  | nil => rfl
  | cons e es ih =>
    obtain ⟨he, h⟩ := List.nodup_cons.1 h
    obtain ⟨hnew, fresh⟩ := List.forall_mem_cons.1 fresh
    rw [List.foldl_cons, see_of_not_mem hnew, ih h fun x hx => ?_, List.reverse_cons,
      List.append_assoc]
    · rfl
    · rw [List.map_cons, List.mem_cons, not_or]
      exact ⟨fun heq => he (heq ▸ List.mem_map_of_mem hx), fresh x hx⟩

/-- Attributes with new names go to the end of the table. -/
theorem table_append (h : ((bs.map entry).map Prod.fst).Nodup)
    (fresh : ∀ b ∈ bs, lower b.name ∉ (table as).map Prod.fst) :
    table (as ++ bs) = table as ++ bs.map entry := by
  rw [table_eq, table_eq, List.map_append, List.foldl_append, foldl_see_fresh h,
    List.reverse_append, List.reverse_reverse]
  refine List.forall_mem_map.2 fun b hb hm => fresh b hb ?_
  rwa [table_eq, List.map_reverse, List.mem_reverse]

/-! ### Tables written out -/

private theorem find?_foldl_see : (es.foldl see seen).reverse.find? (·.1 == n) =
    (seen.reverse ++ es).find? (·.1 == n) := by
  induction es generalizing seen with
  | nil => rw [List.append_nil]; rfl
  | cons e es ih =>
    rw [List.foldl_cons, ih]
    by_cases h : e.1 ∈ seen.map Prod.fst
    · rw [see_of_mem h, List.find?_append, List.find?_append, List.find?_cons]
      cases hn : e.1 == n with
      | false => rfl
      | true =>
        obtain ⟨x, hx, heq⟩ := List.mem_map.1 h
        have hsome : (seen.reverse.find? (·.1 == n)).isSome = true :=
          List.find?_isSome.2 ⟨x, List.mem_reverse.2 hx, by rwa [heq]⟩
        obtain ⟨y, hy⟩ := Option.isSome_iff_exists.1 hsome
        rw [hy, Option.some_or, Option.some_or]
    · rw [see_of_not_mem h, List.reverse_cons, List.append_assoc]
      rfl

/-- Attributes as a table has them. -/
def reread (es : List (Text × Text)) : List Attribute := es.map fun e => .of e.1 e.2

/-- Of an attribute, the table keeps its first occurrence. -/
theorem find?_reread (as : List Attribute) (n : Text) :
    find? (reread (table as)) n =
      (find? as n).map fun a => .of (lower a.name) (a.value.getD []) := by
  have hlower : ∀ e ∈ table as, lower e.1 = e.1 := fun e he => by
    obtain ⟨a, -, ha⟩ := mem_names_table.1 (List.mem_map_of_mem he)
    rw [← ha, lower_lower]
  have hfind : find? (reread (table as)) n =
      ((table as).find? (·.1 == lower n)).map fun e => .of e.1 e.2 := by
    have hsame : ∀ e ∈ table as, ((·.is n) ∘ fun e => of e.1 e.2) e = (e.1 == lower n) :=
      fun e he => by rw [Function.comp_apply, is, sameLetters, of, hlower e he]
    rw [find?, reread, List.find?_map, ← List.head?_filter, List.filter_congr hsame,
      List.head?_filter]
  rw [hfind, table_eq, find?_foldl_see, List.reverse_nil, List.nil_append, List.find?_map,
    Option.map_map]
  rfl

theorem has_eq (as : List Attribute) (n : Text) : has as n = (find? as n).isSome := by
  rw [has, find?, Bool.eq_iff_iff, List.any_eq_true, List.find?_isSome]

theorem has_reread (as : List Attribute) (n : Text) :
    has (reread (table as)) n = has as n := by
  rw [has_eq, has_eq, find?_reread, Option.isSome_map]

end MailMarkup.Attribute
