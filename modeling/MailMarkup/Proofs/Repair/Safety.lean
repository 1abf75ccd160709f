import MailMarkup.Proofs.Decimal.Truncation
import MailMarkup.Proofs.Repair.Judgement
import MailMarkup.Proofs.Rule.Sanitizing
import MailMarkup.Proofs.Text.Search

/-!
# What a run of repairs keeps safe

The repairs may do what they like, and something else at each call. What is taken from them is a
chain of texts, each within the growth ceiling, without broken tokens and no less balanced than the
one before, so the outcome is too. The rules it names are those of the chain, in the order in which
they first occur there.
-/
namespace MailMarkup.Repair
open Text Decimal
variable {c : Conduct} {s : Settings} {ceiling : Nat} {rules : List Rule} {t u v : Text}
  {names more : List String}

/-- Repairs that were taken one after the other, and the names of their rules. -/
inductive Chain (c : Conduct) (s : Settings) (ceiling : Nat) (rules : List Rule) :
    Text → List String → Text → Prop where
  | refl (t : Text) : Chain c s ceiling rules t [] t
  | step {r : Rule} {n : Nat} {t u v : Text} {names : List String} (mem : r ∈ rules)
      (accepts : Accepts s (c.act n r) t u) (size : byteSize u ≤ ceiling)
      (rest : Chain c s ceiling rules u names v) : Chain c s ceiling rules t (r.name :: names) v

namespace Chain

theorem trans (h : Chain c s ceiling rules t names u) (h' : Chain c s ceiling rules u more v) :
    Chain c s ceiling rules t (names ++ more) v := by
  induction h with
  | refl t => exact h'
  | step mem accepts size rest ih => exact .step mem accepts size (ih h')

theorem mono {rules' : List Rule} (h : Chain c s ceiling rules t names u)
    (hs : rules ⊆ rules') : Chain c s ceiling rules' t names u := by
  induction h with
  | refl t => exact .refl t
  | step mem accepts size rest ih => exact .step (hs mem) accepts size ih

theorem eq_of_nil (h : Chain c s ceiling rules t [] u) : u = t := by
  cases h
  rfl

theorem byteSize_le {bound : Nat} (h : Chain c s ceiling rules t names u)
    (ht : byteSize t ≤ bound) (hc : ceiling ≤ bound) : byteSize u ≤ bound := by
  induction h with
  | refl t => exact ht
  | step mem accepts size rest ih => exact ih (size.trans hc)

private theorem byteSize_le_ceiling (h : Chain c s ceiling rules t names u) (hn : names ≠ []) :
    byteSize u ≤ ceiling := by
  cases h with
  | refl t => exact absurd rfl hn
  | step mem accepts size rest => exact rest.byteSize_le size (Nat.le_refl _)

private theorem imbalance_le (h : Chain c s ceiling rules t names u) {p : Pattern}
    (hp : Task.compile ⟨tagSource, .none⟩ = .ok p) : imbalance p u ≤ imbalance p t := by
  induction h with
  | refl t => exact Nat.le_refl _
  | step mem accepts size rest ih =>
    obtain ⟨-, q, hq, hle⟩ := accepts.whole
    obtain rfl := Except.ok.inj (hp.symm.trans hq)
    exact Nat.le_trans ih hle

private theorem isBroken_eq_false (h : Chain c s ceiling rules t names u) (hn : names ≠ []) :
    isBroken u = false := by
  induction h with
  | refl t => exact absurd rfl hn
  | @step r n t u v names mem accepts size rest ih =>
    by_cases hr : names = []
    · subst hr
      rw [rest.eq_of_nil]
      exact accepts.whole.1
    · exact ih hr

private theorem mem_names (h : Chain c s ceiling rules t names u) {name : String}
    (hn : name ∈ names) :
    ∃ r ∈ rules, r.name = name ∧ r.info.fixable = true ∧ s.enables r.info = true := by
  induction h with
  | refl t => simp at hn
  | @step r n t u v names mem accepts size rest ih =>
    rcases List.mem_cons.1 hn with rfl | hn
    · have hi := c.info n r
      exact ⟨r, mem, rfl, hi ▸ accepts.fixable, hi ▸ accepts.enabled⟩
    · exact ih hn

end Chain

/-- One pass, from a call on: each rule in turn has its repair taken, or has none at that call that
is worth taking and short enough. The names are those of the rules whose repairs were taken. -/
inductive PassTakes (c : Conduct) (s : Settings) (ceiling : Nat) :
    Nat → List Rule → Text → List String → Text → Prop where
  | done (n : Nat) (t : Text) : PassTakes c s ceiling n [] t [] t
  | taken {n : Nat} {r : Rule} {rules : List Rule} {t u v : Text} {names : List String}
      (accepts : Accepts s (c.act n r) t u) (size : byteSize u ≤ ceiling)
      (rest : PassTakes c s ceiling (n + 1) rules u names v) :
      PassTakes c s ceiling n (r :: rules) t (r.name :: names) v
  | passed {n : Nat} {r : Rule} {rules : List Rule} {t v : Text} {names : List String}
      (refused : ∀ u, Accepts s (c.act n r) t u → ceiling < byteSize u)
      (rest : PassTakes c s ceiling (n + 1) rules t names v) :
      PassTakes c s ceiling n (r :: rules) t names v

/-- So many passes over the rules, from a call on, and the names of those whose repairs were taken,
in order. -/
inductive Takes (c : Conduct) (s : Settings) (ceiling : Nat) (rules : List Rule) :
    Nat → Nat → Text → List String → Text → Prop where
  | done (n : Nat) (t : Text) : Takes c s ceiling rules n 0 t [] t
  | pass {n k : Nat} {t u v : Text} {names more : List String}
      (first : PassTakes c s ceiling n rules t names u)
      (rest : Takes c s ceiling rules (n + rules.length) k u more v) :
      Takes c s ceiling rules n (k + 1) t (names ++ more) v

theorem PassTakes.chain {n : Nat} (h : PassTakes c s ceiling n rules t names u) :
    Chain c s ceiling rules t names u := by
  induction h with
  | done n t => exact .refl t
  | taken accepts size rest ih =>
    exact .step List.mem_cons_self accepts size (ih.mono (List.subset_cons_self _ _))
  | passed refused rest ih => exact ih.mono (List.subset_cons_self _ _)

theorem Takes.chain {n k : Nat} (h : Takes c s ceiling rules n k t names u) :
    Chain c s ceiling rules t names u := by
  induction h with
  | done n t => exact .refl t
  | pass first rest ih => exact first.chain.trans ih

theorem Pass.foldl_takes (c : Conduct) (s : Settings) (ceiling : Nat) (rules : List Rule)
    (p : Pass) (hw : p.workshop.Faithful) :
    ∃ names, PassTakes c s ceiling p.calls rules p.html names
        (rules.foldl (Pass.apply c s ceiling) p).html ∧
      (rules.foldl (Pass.apply c s ceiling) p).changed.reverse = p.changed.reverse ++ names := by
  induction rules generalizing p with
  | nil => exact ⟨[], .done _ _, by simp⟩
  | cons r rules ih =>
    obtain ⟨names, ht, hc⟩ := ih _ (Pass.apply_faithful c s ceiling r hw)
    rw [List.foldl_cons]
    rw [Pass.apply_calls] at ht
    by_cases ha : ∃ u, Accepts s (c.act p.calls r) p.html u
    · obtain ⟨u, ha⟩ := ha
      rcases Nat.lt_or_ge ceiling (byteSize u) with hl | hl
      · obtain ⟨hh, hn, -⟩ := Pass.apply_tooLong hw ha hl
        rw [hh] at ht
        rw [hn] at hc
        refine ⟨names, .passed ?_ ht, hc⟩
        intro v hv
        obtain rfl := Except.ok.inj (ha.repaired.symm.trans hv.repaired)
        exact hl
      · obtain ⟨hh, hn, -⟩ := Pass.apply_accepted hw ha hl
        rw [hh] at ht
        exact ⟨r.name :: names, .taken ha hl ht, by rw [hc, hn]; simp⟩
    · obtain ⟨hh, hn, -⟩ := Pass.apply_refused ceiling hw fun u hu => ha ⟨u, hu⟩
      rw [hh] at ht
      rw [hn] at hc
      exact ⟨names, .passed (fun u hu => absurd ⟨u, hu⟩ ha) ht, hc⟩

private theorem Progress.pass_takes (c : Conduct) (s : Settings) (ceiling : Nat) (rules : List Rule)
    {p : Progress} (hw : p.workshop.Faithful) :
    ∃ names, PassTakes c s ceiling p.calls rules p.outcome.html names
        (p.pass c s ceiling rules).html ∧
      (p.pass c s ceiling rules).changed.reverse = names := by
  obtain ⟨names, ht, hc⟩ := Pass.foldl_takes c s ceiling rules p.start hw
  exact ⟨names, ht, hc.trans (List.nil_append names)⟩

private theorem passes_takes (c : Conduct) (s : Settings) (ceiling : Nat) (rules : List Rule)
    (n : Nat) {p : Progress} (hw : p.workshop.Faithful) :
    ∃ k names, k ≤ n ∧ (passes c s ceiling rules n p).passes = p.passes + k ∧
      Takes c s ceiling rules p.calls k p.outcome.html names
        (passes c s ceiling rules n p).outcome.html ∧
      (passes c s ceiling rules n p).outcome.fixed = addNew p.outcome.fixed names := by
  induction n generalizing p with
  | zero => exact ⟨0, [], Nat.le_refl 0, rfl, .done _ _, rfl⟩
  | succ n ih =>
    have hq := Progress.pass_faithful c s ceiling rules hw
    obtain ⟨names, ht, hc⟩ := Progress.pass_takes c s ceiling rules hw
    by_cases he : (p.pass c s ceiling rules).changed = []
    · obtain rfl : names = [] := by simpa [he] using hc.symm
      rw [ht.chain.eq_of_nil] at ht
      rw [passes_of_unchanged n he]
      exact ⟨1, [], by omega, rfl, .pass ht (.done _ _), rfl⟩
    · obtain ⟨k, more, hk, hp, hm, hf⟩ := ih (p := p.advanced _) hq
      have hcalls : (p.advanced (p.pass c s ceiling rules)).calls = p.calls + rules.length :=
        Pass.foldl_calls rules p.start
      have hn : (p.advanced (p.pass c s ceiling rules)).passes = p.passes + 1 := rfl
      have ha : (p.advanced (p.pass c s ceiling rules)).outcome.fixed =
          addNew p.outcome.fixed (p.pass c s ceiling rules).changed.reverse := rfl
      rw [hcalls] at hm
      rw [passes_of_changed n he]
      refine ⟨k + 1, names ++ more, by omega, by omega, .pass ht hm, ?_⟩
      rw [hf, ha, hc]
      exact (List.foldl_append ..).symm

private theorem addNew_eq (names more : List String) :
    addNew names more = names ++ (more.filter (! names.contains ·)).eraseDups := by
  induction more generalizing names with
  | nil => simp [addNew]
  | cons n more ih =>
    have hs : addNew names (n :: more) =
        addNew (if names.contains n then names else names ++ [n]) more := rfl
    rw [hs, ih]
    by_cases hn : n ∈ names
    · simp [hn]
    · have hf : (more.filter fun x => !(names ++ [n]).contains x) =
          (more.filter fun x => !names.contains x).filter fun x => !x == n := by
        rw [List.filter_filter]
        congr 1
        funext x
        by_cases hx : x = n <;> simp [hx]
      have hc : names.contains n = false := by simpa using hn
      rw [hc, if_neg (by simp), hf, List.filter_cons_of_pos (by simpa using hn),
        List.eraseDups_cons]
      simp

theorem addNew_nil (more : List String) : addNew [] more = more.eraseDups := by
  simp [addNew_eq]

private theorem nodup_addNew {names : List String} (h : names.Nodup) (more : List String) :
    (addNew names more).Nodup := by
  induction more generalizing names with
  | nil => exact h
  | cons n more ih =>
    refine ih ?_
    dsimp only
    split
    · exact h
    · rename_i hn
      simpa [List.nodup_append, h] using fun a ha (he : a = n) => hn (by simpa [he] using ha)

section tags
open Pattern Forbidden

/-- What the pattern for tags is read as. -/
def tagExpr : Expr :=
  opened [.group 1 (.repeated (.letter '/') 0 (some 1) true),
    .group 2 (.sequence [.one ⟨[(65, 90), (97, 122)]⟩,
      .repeated (.one ⟨[(48, 57), (65, 90), (97, 122)]⟩) 0 none true]),
    .edge (.wordEdge .wide), .repeated (.one notAngle) 0 none false,
    .group 3 (.repeated (.letter '/') 0 (some 1) true), .letter '>']

private theorem read_tagSource : Source.read tagSource.toList .none = .ok tagExpr := by
  rw [tagSource, String.toList_ofList]
  cbv

private theorem ordered_tagExpr : tagExpr.Ordered := by
  have hsets : ∀ set ∈ [⟨[(65, 90), (97, 122)]⟩, ⟨[(48, 57), (65, 90), (97, 122)]⟩, notAngle],
      CharSet.Ordered set := by decide
  refine ordered_opened ?_
  simp only [List.forall_mem_cons] at hsets ⊢
  exact ⟨Expr.ordered_letter _, ⟨hsets.1, hsets.2.1⟩, trivial, hsets.2.2.1,
    Expr.ordered_letter _, Expr.ordered_letter _, nofun⟩

theorem exists_compile_tagSource :
    ∃ p : Pattern, p.Means tagExpr ∧ Task.compile ⟨tagSource, .none⟩ = .ok p := by
  obtain ⟨p, hp, hc⟩ := exists_compile read_tagSource ordered_tagExpr
  exact ⟨p, hp, by rw [Task.compile, hc]⟩

private theorem imbalance_eq_zero {p : Pattern} (hp : p.Means tagExpr) (ht : '<' ∉ t) :
    imbalance p t = 0 := by
  have hnone : p.occurrences t = [] := by
    rw [(hp.occurrences_successive (readsSome_opened _) t).eq_nil_iff]
    rintro s hs ⟨u, hu⟩
    obtain ⟨v, hv⟩ := reads_opened hu
    exact ht (hs.suffix.subset (hv ▸ List.mem_cons_self))
  rw [imbalance, hnone]
  rfl

end tags

theorem isBroken_eq_false_iff : isBroken t = false ↔ ∀ token ∈ brokenTokens, ¬ token <:+: t := by
  simp [isBroken, List.any_eq_false, contains_iff]

/-- A repair that leaves plain text keeps the markup whole. -/
theorem keepsWhole_of_not_mem (hopen : '<' ∉ u) (hclose : '>' ∉ u) : KeepsWhole t u := by
  refine ⟨isBroken_eq_false_iff.2 fun token htoken hin => ?_, ?_⟩
  · have hmark : ∀ token ∈ brokenTokens, '<' ∈ token ∨ '>' ∈ token := by decide
    exact (hmark token htoken).elim (fun h => hopen (hin.subset h)) fun h => hclose (hin.subset h)
  · obtain ⟨p, hp, hc⟩ := exists_compile_tagSource
    exact ⟨p, hc, by rw [imbalance_eq_zero hp hopen]; exact Nat.zero_le _⟩

/-- What no repair takes a document beyond, with the product as the doubles have it. -/
def growthBound (r : RepairSettings) (size : Nat) : Nat :=
  max (Float.ofNat size * r.growthLimit).toUInt64.toNat (size + r.growthAllowance)

private theorem le_growthBound (r : RepairSettings) (size : Nat) : size ≤ growthBound r size :=
  (Nat.le_add_right _ _).trans (Nat.le_max_right _ _)

private theorem growthCeiling_le (r : RepairSettings) (size : Nat) :
    growthCeiling r size ≤ growthBound r size :=
  max_le_max (Nat.le_refl _) (Nat.mod_le _ _)

private theorem growthBound_le {r : RepairSettings} {size : Nat} {limit product : ℚ}
    (hp : value? (Float.ofNat size * r.growthLimit) = some product) (hl : product ≤ size * limit) :
    growthBound r size ≤ max ⌊size * limit⌋₊ (size + r.growthAllowance) :=
  max_le_max ((toUInt64_le_floor hp).trans (Nat.floor_le_floor hl)) (Nat.le_refl _)

/-- What is certain of a run on a text, whatever its rules do. -/
structure Safe (c : Conduct) (s : Settings) (rules : List Rule) (html : Text) (p : Progress) :
    Prop where
  size : byteSize p.outcome.html ≤ growthBound s.repair (byteSize html)
  /-- The bound in exact numbers, as long as the product of doubles was not rounded up. -/
  exactSize : ∀ limit product : ℚ, value? s.repair.growthLimit = some limit →
    value? (Float.ofNat (byteSize html) * s.repair.growthLimit) = some product →
    product ≤ byteSize html * limit →
    byteSize p.outcome.html ≤
      max ⌊byteSize html * limit⌋₊ (byteSize html + s.repair.growthAllowance)
  /-- What was changed is within the ceiling of the run, where the sum is cut off. -/
  ceiling : p.outcome.fixed ≠ [] →
    byteSize p.outcome.html ≤ growthCeiling s.repair (byteSize html)
  balance : ∃ tags, Task.compile ⟨tagSource, .none⟩ = .ok tags ∧
    imbalance tags p.outcome.html ≤ imbalance tags html
  whole : p.outcome.fixed ≠ [] → ∀ token ∈ brokenTokens, ¬ token <:+: p.outcome.html
  unchanged : p.outcome.fixed = [] → p.outcome.html = html
  nodup : p.outcome.fixed.Nodup
  named : ∀ name ∈ p.outcome.fixed,
    ∃ r ∈ rules, r.name = name ∧ r.info.fixable = true ∧ s.enables r.info = true
  /-- The rules are named in the order of their first repairs that were taken. -/
  order : ∃ names,
    Takes c s (growthCeiling s.repair (byteSize html)) rules 0 p.passes html names
        p.outcome.html ∧
      p.outcome.fixed = names.eraseDups
  passes : p.passes ≤ s.repair.maxPasses

theorem Takes.safe {p : Progress} {html : Text}
    (h : Takes c s (growthCeiling s.repair (byteSize html)) rules 0 p.passes html names
      p.outcome.html)
    (hf : p.outcome.fixed = names.eraseDups) (hp : p.passes ≤ s.repair.maxPasses) :
    Safe c s rules html p := by
  have hsize := h.chain.byteSize_le (le_growthBound s.repair _) (growthCeiling_le s.repair _)
  have hnil : p.outcome.fixed = [] ↔ names = [] := by
    cases names <;> simp [hf, List.eraseDups_cons]
  exact
    { size := hsize
      exactSize := fun _ _ _ hp hl => hsize.trans (growthBound_le hp hl)
      ceiling := fun hn => h.chain.byteSize_le_ceiling (mt hnil.2 hn)
      balance := by
        obtain ⟨tags, -, ht⟩ := exists_compile_tagSource
        exact ⟨tags, ht, h.chain.imbalance_le ht⟩
      whole := fun hn => isBroken_eq_false_iff.1 (h.chain.isBroken_eq_false (mt hnil.2 hn))
      unchanged := fun hn => by
        obtain rfl := hnil.1 hn
        exact h.chain.eq_of_nil
      nodup := by
        rw [hf, ← addNew_nil]
        exact nodup_addNew .nil names
      named := fun name hn => h.chain.mem_names (by simpa [hf] using hn)
      order := ⟨names, h, hf⟩
      passes := hp }

/-- Every run is safe, whatever the repairs of its rules do at each call and however they fail. The
patterns that are kept have to be those of their keys, which they are at first
(`Workshop.faithful_new`) and after every run (`run_faithful`). -/
theorem run_safe (c : Conduct) (s : Settings) (rules : List Rule) (html : Text) {w : Workshop}
    (hw : w.Faithful) : Safe c s rules html (run s rules html w c) := by
  cases ha : admits s rules html with
  | true =>
    rw [run_of_admitted ha]
    obtain ⟨k, names, hk, hp, ht, hf⟩ := passes_takes c s
      (growthCeiling s.repair (byteSize html)) rules s.repair.maxPasses
      (p := ⟨⟨html, []⟩, 0, true, 0, 0, w⟩) hw
    simp only [Nat.zero_add] at hp
    exact Takes.safe (hp ▸ ht) (hf.trans (addNew_nil names)) (hp ▸ hk)
  | false =>
    rw [run_of_not_admitted ha]
    exact Takes.safe (.done 0 html) rfl (Nat.zero_le _)

/-- A repair that crashes and one that breaks the markup at every other call do no harm. -/
theorem run_safe_hostile :
    let info : RuleInfo :=
      { name := "hostile", displayName := "Hostile", severity := .error, category := .structural,
        fixable := true }
    let rules : List Rule :=
      [⟨info, fun _ _ => .done [], none, some fun _ => .fail (.crashed "hostile")⟩,
        ⟨info, fun _ _ => .done [], none, some fun s => .done ("<<".toList ++ s.html)⟩]
    let c : Conduct :=
      { act := fun n r => if n % 4 = 3 then { r with fix := some fun s => .done s.html.reverse }
          else r
        info := fun n r => by split <;> rfl }
    let html := "<b>x</b>".toList
    (Workshop.new {}).Faithful ∧ Safe c {} rules html (run {} rules html (.new {}) c) :=
  ⟨Workshop.faithful_new _, run_safe _ _ _ _ (Workshop.faithful_new _)⟩

/-- The double nearest to 1.9 is less than 1.9, so ten times it is less than 19, but not in doubles:
ten characters may grow to 19, one more than the product allows. -/
theorem run_outgrows :
    let s : Settings := { repair := { growthLimit := 1.9, growthAllowance := 0, maxPasses := 1 } }
    let grower : Rule :=
      ⟨{ name := "grow", displayName := "Grow", severity := .info, category := .structural,
         fixable := true }, fun _ _ => .done [], none,
        some fun s => .done (s.html ++ "xxxxxxxxx".toList)⟩
    let html := "0123456789".toList
    ∃ limit : ℚ, value? s.repair.growthLimit = some limit ∧
      max ⌊byteSize html * limit⌋₊ (byteSize html + s.repair.growthAllowance) <
        byteSize (run s [grower] html (.new {})).outcome.html := by
  intro s grower html
  have hw : (Workshop.new {}).Faithful := Workshop.faithful_new _
  have hacc : Accepts s grower html "0123456789xxxxxxxxx".toList :=
    ⟨rfl, by decide +kernel, rfl, by decide, keepsWhole_of_not_mem (by decide) (by decide)⟩
  let start : Progress := ⟨⟨html, []⟩, 0, true, 0, 0, .new {}⟩
  have hsize : byteSize "0123456789xxxxxxxxx".toList ≤ growthCeiling s.repair 10 := by
    decide +kernel
  obtain ⟨hh, hc, -⟩ := Progress.pass_accepted (c := .steady) (p := start) hw hacc hsize
  have hrun : (run s [grower] html (.new {})).outcome.html = "0123456789xxxxxxxxx".toList := by
    rw [run_of_admitted (by decide +kernel)]
    exact (congrArg (·.outcome.html)
      (passes_of_changed 0 (ne_of_eq_of_ne hc (List.cons_ne_nil _ _)))).trans hh
  have hold : byteSize html = 10 := by decide
  have hnew : byteSize "0123456789xxxxxxxxx".toList = 19 := by decide
  refine ⟨4278419646001971 / 2251799813685248, by decide +kernel, ?_⟩
  rw [hrun, hold, hnew]
  refine max_lt ?_ (by decide)
  rw [Nat.floor_lt (by positivity)]
  norm_num

end MailMarkup.Repair
