import MailMarkup.Proofs.Engine.Operation
import MailMarkup.Proofs.Repair.Judgement

/-!
# Validation does not depend on history

An engine remembers trees, patterns and answers, and drops them by age, score and size. None of this
shows in a report: it is the report that the settings and the rules in force call for, with the
document read afresh and every rule run by itself.
-/
namespace MailMarkup

namespace Rule

/-- What a rule gives on a document by itself: the document is read afresh, and the rule has an
index of its own and no patterns compiled before. -/
def verdict (r : Rule) (s : Settings) (html : Text) : Except Failure (List Finding) :=
  match r.treeCheck with
  | some check =>
    let forest := (Document.read s.limits html).nodes
    (check ⟨html, s⟩ forest r.info).eval (.new forest s.cache.maxResults)
  | none => (r.check ⟨html, s⟩ r.info).evalAlone

/-- What a rule adds to a report: its findings with the severity that is set for it, or one error
that says why it failed. -/
def findings (r : Rule) (s : Settings) (html : Text) : List Finding :=
  match r.verdict s html with
  | .ok found =>
    let severity := (s.rule? r.name).bind (·.severity)
    found.map fun f => { f with severity := severity.getD f.severity }
  | .error f =>
    [{ rule := r.name, severity := .error, category := r.info.category, fixable := false
       message := "Rule '" ++ r.name ++ "' failed: " ++ f.message }]

end Rule

/-- The report on a document under settings and rules, with nothing remembered. -/
def Report.direct (s : Settings) (g : Registry) (html : Text) : Report :=
  if (Text.trim html).isEmpty then
    .rejected (Engine.inputFinding .structural "HTML content is empty"
      "Provide the HTML of the email body")
  else if s.maxHtmlSize < Text.byteSize html then
    .rejected (Engine.inputFinding .performance
      ("HTML is " ++ toString (Text.byteSize html) ++ " bytes, larger than the " ++
        toString s.maxHtmlSize ++ " byte limit")
      "Reduce the size of the email")
  else
    let rules := g.rules.filter (s.enables ·.info)
    .ofFindings (rules.flatMap (·.findings s html)) s.scoring s.strict

namespace Engine
variable {e : Engine}

/-- Trees that are kept are those of their documents under the limits in force, and patterns those
of their keys. -/
structure Faithful (e : Engine) : Prop where
  trees : e.trees.Holds fun html forest => (Document.read e.settings.limits html).nodes = forest
  workshop : e.workshop.Faithful

theorem faithful_build (s : Settings) : (build s).Faithful :=
  ⟨Cache.holds_new _ 0, Workshop.faithful_new _⟩

theorem Faithful.treeOf_fst (h : e.Faithful) (html : Text) :
    (e.treeOf html).1 = (Document.read e.settings.limits html).nodes := by
  unfold treeOf
  split
  · rename_i forest trees hg
    exact (h.trees.of_get (congrArg Prod.fst hg)).symm
  · rfl

theorem Faithful.treeOf_snd (h : e.Faithful) (html : Text) :
    ∃ trees workshop, (e.treeOf html).2 = { e with trees, workshop } ∧
      ({ e with trees, workshop } : Engine).Faithful := by
  have hg := h.trees.get e.workshop.clock html
  unfold treeOf
  split
  · rename_i forest trees hc
    rw [hc] at hg
    exact ⟨_, _, rfl, hg, h.workshop.advance⟩
  · rename_i trees hc
    rw [hc] at hg
    exact ⟨_, _, rfl, hg.insert _ rfl, h.workshop.advance.advance⟩

theorem Faithful.withCounters (h : e.Faithful) (c : Counters) :
    Faithful { e with counters := c } :=
  ⟨h.trees, h.workshop⟩

private theorem settle_verdict (s : Settings) (html : Text) (r : Rule) :
    settle s r.info (r.verdict s html) = r.findings s html := by
  unfold settle Rule.findings
  cases r.verdict s html with
  | ok found =>
    dsimp only
    split <;> rename_i hs <;> simp [Rule.name, hs]
  | error f => rfl

variable {s : Settings} {html : Text} {v : Survey}

/-- A validation under way that has kept its index and workshop faithful. -/
structure Survey.Faithful (s : Settings) (html : Text) (v : Survey) : Prop where
  index : v.index.Faithful (Document.read s.limits html).nodes (max s.cache.maxResults 1)
  workshop : v.workshop.Faithful

theorem Survey.faithful_new (s : Settings) (html : Text) {w : Workshop} (hw : w.Faithful) :
    Survey.Faithful s html
      { index := .new (Document.read s.limits html).nodes s.cache.maxResults, workshop := w } :=
  ⟨Index.faithful_new _ _, hw⟩

/-- One rule adds its own findings, whatever the rules before it asked for. -/
theorem Survey.Faithful.apply (h : v.Faithful s html) (r : Rule) :
    (Survey.apply ⟨html, s⟩ (Document.read s.limits html).nodes v r).Faithful s html ∧
      (Survey.apply ⟨html, s⟩ (Document.read s.limits html).nodes v r).found =
        if s.enables r.info then r.findings s html :: v.found else v.found := by
  unfold Survey.apply
  by_cases he : s.enables r.info
  · simp only [he, if_true]
    rw [← settle_verdict, Rule.verdict]
    cases ht : r.treeCheck with
    | some check =>
      have hc := Index.faithful_new (Document.read s.limits html).nodes s.cache.maxResults
      have hr := Task.run_faithful (check ⟨html, s⟩ (Document.read s.limits html).nodes r.info)
        h.index h.workshop
      refine ⟨⟨hr.1, hr.2⟩, ?_⟩
      simp only
      rw [Task.run_fst _ h.index h.workshop, Task.eval_congr _ h.index hc]
    | none =>
      refine ⟨⟨h.index, Task.runAlone_snd _ h.workshop⟩, ?_⟩
      simp only
      rw [Task.runAlone_fst _ h.workshop]
  · simp only [he]
    exact ⟨h, rfl⟩

/-- All rules together give the findings of those that are enabled, each by itself and in order. -/
theorem Survey.Faithful.foldl (h : v.Faithful s html) (rules : List Rule) :
    (rules.foldl (Survey.apply ⟨html, s⟩ (Document.read s.limits html).nodes) v).Faithful s html ∧
      (rules.foldl (Survey.apply ⟨html, s⟩ (Document.read s.limits html).nodes) v).found.reverse =
        v.found.reverse ++ (rules.filter (s.enables ·.info)).map (·.findings s html) := by
  induction rules generalizing v with
  | nil => exact ⟨h, by simp⟩
  | cons r rules ih =>
    obtain ⟨hv, hf⟩ := h.apply r
    obtain ⟨hr, hg⟩ := ih hv
    refine ⟨hr, ?_⟩
    rw [List.foldl_cons, hg, hf]
    by_cases he : s.enables r.info <;> simp [he]

private theorem direct_rejected {f : Finding} (h : rejection? s html = some f) (g : Registry) :
    Report.direct s g html = .rejected f := by
  unfold rejection? at h
  unfold Report.direct
  split at h
  · rename_i hb; rw [if_pos hb, Option.some.inj h]
  · rename_i hb
    dsimp only at h
    split at h
    · rename_i hl; rw [if_neg hb, if_pos hl, Option.some.inj h]
    · exact absurd h nofun

private theorem direct_checked (h : rejection? s html = none) (g : Registry) :
    Report.direct s g html =
      .ofFindings ((g.rules.filter (s.enables ·.info)).flatMap (·.findings s html)) s.scoring
        s.strict := by
  unfold rejection? at h
  unfold Report.direct
  split at h
  · exact absurd h nofun
  · rename_i hb
    dsimp only at h
    split at h
    · exact absurd h nofun
    · rename_i hl; rw [if_neg hb, if_neg hl]

theorem Faithful.validate_fst (h : e.Faithful) (hd : e.disposed = false) (html : Text) :
    (e.validate html).1 = .ok (Report.direct e.settings e.registry html) := by
  unfold validate
  rw [whenActive_fst hd]
  dsimp only
  split
  · rename_i f hr
    rw [direct_rejected hr]
  · rename_i hr
    have hc := h.withCounters { e.counters with validations := e.counters.validations + 1 }
    obtain ⟨trees, w, ht, hf⟩ := hc.treeOf_snd html
    rw [direct_checked hr, ht, hc.treeOf_fst html,
      Conduct.acting_steady,
      ((Survey.faithful_new e.settings html hf.workshop).foldl e.registry.rules).2]
    simp [List.flatMap]

private theorem Faithful.validate_snd (h : e.Faithful) (html : Text) (c : Conduct) :
    (e.validate html c).2.Faithful := by
  refine whenActive_snd h ?_
  dsimp only
  split
  · exact h.withCounters _
  · have hc := h.withCounters { e.counters with validations := e.counters.validations + 1 }
    obtain ⟨trees, w, ht, hf⟩ := hc.treeOf_snd html
    have hv := Survey.faithful_new e.settings html hf.workshop
    rw [ht, hc.treeOf_fst html]
    exact ⟨hf.trees, (hv.foldl (c.acting e.registry.rules)).1.workshop⟩

theorem Faithful.repairWith (h : e.Faithful) (html : Text) (include_ : Rule → Bool) (c : Conduct) :
    (e.repairWith html include_ c).2.Faithful := by
  refine whenActive_snd h ⟨h.trees, ?_⟩
  have hw := Repair.run_faithful (s := e.settings) c
    (Repair.sequence e.registry e.settings include_) html h.workshop
  simp only [Repair.Ledger.repair]
  split
  · exact hw.advance
  · exact hw

theorem Faithful.setRule (h : e.Faithful) (name : String) (f : RuleSetting → RuleSetting) :
    (e.setRule name f).2.Faithful := by
  refine whenActive_snd h ?_
  split
  · exact ⟨h.trees, h.workshop⟩
  · exact h

theorem Faithful.compatibility (h : e.Faithful) (html : Text) :
    (e.compatibility html).2.Faithful := by
  refine whenActive_snd h ?_
  have hw := (Compatibility.report ⟨html, e.settings⟩).runAlone_snd h.workshop
  split <;> rename_i hr <;> rw [hr] at hw <;> exact ⟨h.trees, hw⟩

/-- Trees read under other limits do not outlive them. -/
theorem Faithful.update (h : e.Faithful) (p : Patch) : (e.update p).2.Faithful := by
  refine whenActive_snd h ?_
  dsimp only
  split
  · exact h
  · have ht : (if (e.settings.patched p).limits = e.settings.limits then e.trees
        else e.trees.clear).Holds
        fun html forest => (Document.read (e.settings.patched p).limits html).nodes = forest := by
      split
      · rename_i hl; rw [hl]; exact h.trees
      · exact .clear _
    refine ⟨?_, ?_⟩
    · dsimp only
      split
      · exact ht
      · exact ht.setPolicy _ _
    · change Cache.Holds _ (if _ then _ else _)
      split
      · exact h.workshop
      · exact Cache.Holds.setPolicy h.workshop _ _

theorem Faithful.dispose (h : e.Faithful) : e.dispose.Faithful := by
  unfold Engine.dispose
  split
  · exact h
  · exact ⟨.clear _, Cache.Holds.clear _⟩

theorem Faithful.apply (h : e.Faithful) (op : Operation) : (Operation.apply e op).Faithful := by
  cases op with
  | validate html c => exact h.validate_snd html c
  | repair html c => exact h.repairWith html _ c
  | repairOnly html names c => exact h.repairWith html _ c
  | repairAtLeast html severity c => exact h.repairWith html _ c
  | repairCategory html category c => exact h.repairWith html _ c
  | addRule r => exact whenActive_snd h ⟨h.trees, h.workshop⟩
  | removeRule name => exact whenActive_snd h ⟨h.trees, h.workshop⟩
  | setRuleEnabled name enabled => exact h.setRule name _
  | setRuleSeverity name severity => exact h.setRule name _
  | compatibility html => exact h.compatibility html
  | update p => exact h.update p
  | resetStats => exact whenActive_snd h ⟨h.trees.resetStats, Cache.Holds.resetStats h.workshop⟩
  | dispose => exact h.dispose
  | wait time => exact ⟨h.trees, h.workshop⟩
  | sweep => exact ⟨h.trees.sweep _, Cache.Holds.sweep h.workshop _⟩
  | _ => exact whenActive_snd h h

theorem Faithful.after (h : e.Faithful) (ops : List Operation) : (e.after ops).Faithful :=
  after_induction (P := Faithful) (fun _ op h => h.apply op) h ops

/-- Whatever was asked of an engine before, however long ago, and whatever was swept meanwhile, its
report on a document is the direct one under the settings and rules it now has, unless it has been
disposed of. -/
theorem validate_after {s : Settings} {e : Engine} (h : Engine.new s = .ok e)
    (ops : List Operation) (html : Text) :
    ((e.after ops).validate html).1 =
      if ops.any Operation.disposes then .error .disposed
      else .ok (Report.direct (e.after ops).settings (e.after ops).registry html) := by
  have he : e = build s := by
    unfold Engine.new at h
    split at h
    · exact absurd h nofun
    · exact (Except.ok.inj h).symm
  have hf : (e.after ops).Faithful := by rw [he]; exact (faithful_build s).after ops
  have hd : (e.after ops).disposed = ops.any Operation.disposes := by
    rw [disposed_after, he]; rfl
  split
  · rename_i hops
    simp [validate, whenActive, hd, hops]
  · rename_i hops
    exact hf.validate_fst (by simpa [hops] using hd) html

/-- A tree that was read under other limits and grew old plays no part. -/
theorem validate_after_changed_limits :
    let html := "<b><i>x</i></b>".toList
    let ops : List Operation :=
      [.validate html, .update { limits := some { maxDepth := 1 } }, .wait (400 * second), .sweep,
        .repair html]
    Engine.new {} = .ok (build {}) ∧
      (((build {}).after ops).validate html).1 =
        .ok (Report.direct ((build {}).after ops).settings ((build {}).after ops).registry html) :=
  ⟨by rfl, validate_after (s := {}) (by rfl) _ _⟩

end Engine
end MailMarkup
