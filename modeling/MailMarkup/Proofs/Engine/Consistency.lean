import Mathlib
import MailMarkup.Proofs.Engine.Frames
import MailMarkup.Proofs.Rule.Registration

/-!
# Engines stay consistent

Settings, registry and the policies of three caches are changed by different operations. Whatever is
done to an engine, and in whatever order: its settings are sound, the policies are the ones the
settings call for, and no two rules have one name. An operation that is refused changes nothing, and
an engine that was disposed of refuses all that can be refused.
-/
namespace MailMarkup

/-- A number with the sign of zero left out, by which two equal numbers may still differ. -/
def withoutZeroSign (x : Float) : Float := if x == 0.0 then 0.0 else x

theorem withoutZeroSign_eq {x y : Float} (h : (x == y) = true) :
    withoutZeroSign x = withoutZeroSign y := by
  obtain ⟨-, -, rfl | ⟨rfl, rfl⟩ | ⟨rfl, rfl⟩⟩ := Float.beq_iff_ne_nan_and_eq.1 h
  · rfl
  · decide +kernel
  · decide +kernel

/-- A policy with the signs of zeros left out. -/
def Policy.unsigned (p : Policy) : Policy :=
  { p with
    threshold := withoutZeroSign p.threshold
    evictFraction := withoutZeroSign p.evictFraction
    accessWeight := withoutZeroSign p.accessWeight
    ageWeight := withoutZeroSign p.ageWeight
    minScore := p.minScore.map withoutZeroSign }

theorem CacheSettings.unsigned_policies {c d : CacheSettings} (h : (c == d) = true) :
    c.treePolicy.unsigned = d.treePolicy.unsigned ∧
      c.patternPolicy.unsigned = d.patternPolicy.unsigned := by
  cases c
  cases d
  change instBEqCacheSettings.beq _ _ = true at h
  simp only [instBEqCacheSettings.beq, Bool.and_eq_true, beq_iff_eq] at h
  obtain ⟨rfl, rfl, rfl, ht, he, ha, hg, rfl, hm, -⟩ := h
  simp [treePolicy, patternPolicy, policy, Policy.unsigned, withoutZeroSign_eq ht,
    withoutZeroSign_eq he, withoutZeroSign_eq ha, withoutZeroSign_eq hg, withoutZeroSign_eq hm]

namespace Engine

/-- The settings are sound, trees and history follow them, and each rule has a name of its own. -/
structure Consistent (e : Engine) : Prop where
  sound : e.settings.fault? = none
  trees : e.trees.policy.unsigned = e.settings.cache.treePolicy.unsigned
  history :
    e.ledger.history.policy = e.settings.cache.historyPolicy e.settings.repair.historyCapacity
  names : e.registry.Distinct

/-- The patterns follow the settings, and no rule gives them another policy. -/
structure Unmeddled (e : Engine) : Prop where
  rules : ∀ r ∈ e.registry.rules, r.LeavesPolicy
  patterns : e.workshop.patterns.policy.unsigned = e.settings.cache.patternPolicy.unsigned

/-- The operation brings in no rule that gives the patterns another policy. -/
def Operation.LeavesPolicy : Operation → Prop
  | .validate _ c | .repair _ c | .repairOnly _ _ c | .repairAtLeast _ _ c
  | .repairCategory _ _ c => c.LeavesPolicy
  | .addRule r => r.LeavesPolicy
  | _ => True

variable {e e' : Engine}

private theorem new_eq_ok_iff {s : Settings} :
    Engine.new s = .ok e ↔ s.fault? = none ∧ build s = e := by
  unfold Engine.new
  split <;> simp [*]

private theorem consistent_build {s : Settings} (h : s.fault? = none) : (build s).Consistent :=
  ⟨h, rfl, rfl, Registry.distinct_standard⟩

private theorem unmeddled_build (s : Settings) : (build s).Unmeddled :=
  ⟨fun r hr => leavesPolicy_builtin r (Registry.mem_rules_standard hr), rfl⟩

theorem Consistent.keeps (h : e.Consistent) (hk : Keeps e e') : e'.Consistent := by
  refine ⟨?_, ?_, ?_, ?_⟩
  · rw [hk.settings]
    exact h.sound
  · rw [hk.settings, hk.trees]
    exact h.trees
  · rw [hk.settings, hk.history]
    exact h.history
  · rw [hk.registry]
    exact h.names

theorem Unmeddled.keeps (h : e.Unmeddled) (hk : Keeps e e')
    (hp : e'.workshop.patterns.policy = e.workshop.patterns.policy) : e'.Unmeddled := by
  refine ⟨?_, ?_⟩
  · rw [hk.registry]
    exact h.rules
  · rw [hk.settings, hp]
    exact h.patterns

private theorem Consistent.setRule (h : e.Consistent) (name : String)
    (f : RuleSetting → RuleSetting) : (e.setRule name f).2.Consistent := by
  refine whenActive_snd h ?_
  split
  · exact ⟨h.sound, h.trees, h.history, h.names⟩
  · exact h

private theorem Unmeddled.setRule (h : e.Unmeddled) (name : String)
    (f : RuleSetting → RuleSetting) : (e.setRule name f).2.Unmeddled := by
  refine whenActive_snd h ?_
  split
  · exact ⟨h.rules, h.patterns⟩
  · exact h

/-- The policies are set again unless the cache settings compare as equal to the ones before. -/
private theorem Consistent.update (h : e.Consistent) (p : Patch) : (e.update p).2.Consistent := by
  refine whenActive_snd h ?_
  dsimp only
  split
  · exact h
  · rename_i hf
    have hl : (if (e.settings.patched p).limits = e.settings.limits then e.trees
        else e.trees.clear).policy = e.trees.policy := by
      split <;> rfl
    refine ⟨hf, ?_, Cache.policy_setPolicy _ _ _, h.names⟩
    by_cases hc : ((e.settings.patched p).cache == e.settings.cache) = true
    · simp only [hc, if_true, hl]
      exact h.trees.trans (CacheSettings.unsigned_policies hc).1.symm
    · simp [hc]

private theorem Unmeddled.update (h : e.Unmeddled) (p : Patch) : (e.update p).2.Unmeddled := by
  refine whenActive_snd h ?_
  dsimp only
  split
  · exact h
  · refine ⟨h.rules, ?_⟩
    by_cases hc : ((e.settings.patched p).cache == e.settings.cache) = true
    · simp only [hc, if_true]
      exact h.patterns.trans (CacheSettings.unsigned_policies hc).2.symm
    · simp [hc]

private theorem Consistent.dispose (h : e.Consistent) : e.dispose.Consistent := by
  unfold Engine.dispose
  split
  · exact h
  · exact ⟨h.sound, h.trees, h.history, List.nodup_nil⟩

private theorem Unmeddled.dispose (h : e.Unmeddled) : e.dispose.Unmeddled := by
  unfold Engine.dispose
  split
  · exact h
  · exact ⟨fun _ hr => absurd hr List.not_mem_nil, h.patterns⟩

theorem Consistent.apply (h : e.Consistent) (op : Operation) :
    (Operation.apply e op).Consistent := by
  cases op with
  | validate html c => exact h.keeps (keeps_validate e html c)
  | repair html c => exact h.keeps (keeps_repairWith e html _ c)
  | repairOnly html names c => exact h.keeps (keeps_repairWith e html _ c)
  | repairAtLeast html severity c => exact h.keeps (keeps_repairWith e html _ c)
  | repairCategory html category c => exact h.keeps (keeps_repairWith e html _ c)
  | addRule r => exact whenActive_snd h ⟨h.sound, h.trees, h.history, h.names.addCustom r⟩
  | removeRule name => exact whenActive_snd h ⟨h.sound, h.trees, h.history, h.names.remove name⟩
  | setRuleEnabled name enabled => exact h.setRule name _
  | setRuleSeverity name severity => exact h.setRule name _
  | compatibility html => exact h.keeps (keeps_compatibility e html).1
  | update p => exact h.update p
  | resetStats => exact whenActive_snd h ⟨h.sound, h.trees, h.history, h.names⟩
  | dispose => exact h.dispose
  | wait time => exact ⟨h.sound, h.trees, h.history, h.names⟩
  | sweep => exact ⟨h.sound, h.trees, h.history, h.names⟩
  | _ => exact whenActive_snd h h

theorem Unmeddled.apply (h : e.Unmeddled) {op : Operation} (ho : op.LeavesPolicy) :
    (Operation.apply e op).Unmeddled := by
  have repairs (html : Text) (p : Rule → Bool) {c : Conduct} (hc : c.LeavesPolicy) :
      (e.repairWith html p c).2.Unmeddled :=
    h.keeps (keeps_repairWith e html p c) (patterns_repairWith hc h.rules html p)
  cases op with
  | validate html c => exact h.keeps (keeps_validate e html c) (patterns_validate ho h.rules html)
  | repair html c => exact repairs html _ ho
  | repairOnly html names c => exact repairs html _ ho
  | repairAtLeast html severity c => exact repairs html _ ho
  | repairCategory html category c => exact repairs html _ ho
  | addRule r =>
    refine whenActive_snd h ⟨fun r' hr => ?_, h.patterns⟩
    rcases Registry.mem_rules_addCustom hr with rfl | hr
    · exact ho
    · exact h.rules r' hr
  | removeRule name =>
    exact whenActive_snd h ⟨fun r hr => h.rules r (Registry.mem_rules_remove hr), h.patterns⟩
  | setRuleEnabled name enabled => exact h.setRule name _
  | setRuleSeverity name severity => exact h.setRule name _
  | compatibility html =>
    obtain ⟨hk, hp⟩ := keeps_compatibility e html
    exact h.keeps hk hp
  | update p => exact h.update p
  | resetStats => exact whenActive_snd h ⟨h.rules, h.patterns⟩
  | dispose => exact h.dispose
  | wait time => exact ⟨h.rules, h.patterns⟩
  | sweep => exact ⟨h.rules, h.patterns⟩
  | _ => exact whenActive_snd h h

theorem Unmeddled.after (h : e.Unmeddled) {ops : List Operation}
    (ho : ∀ op ∈ ops, op.LeavesPolicy) : (e.after ops).Unmeddled := by
  induction ops generalizing e with
  | nil => exact h
  | cons op ops ih =>
    obtain ⟨hop, hops⟩ := List.forall_mem_cons.1 ho
    exact ih (h.apply hop) hops

/-- The error an operation ends with, if it does. -/
def Result.error? {α : Type} : Result α → Option EngineError
  | .ok _ => none
  | .error err => some err

def Operation.error? (e : Engine) : Operation → Option EngineError
  | .validate html c => Result.error? (e.validate html c).1
  | .repair html c => Result.error? (e.repair html c).1
  | .repairOnly html names c => Result.error? (e.repairOnly html names c).1
  | .repairAtLeast html severity c => Result.error? (e.repairAtLeast html severity c).1
  | .repairCategory html category c => Result.error? (e.repairCategory html category c).1
  | .addRule r => Result.error? (e.addRule r).1
  | .removeRule name => Result.error? (e.removeRule name).1
  | .setRuleEnabled name enabled => Result.error? (e.setRuleEnabled name enabled).1
  | .setRuleSeverity name severity => Result.error? (e.setRuleSeverity name severity).1
  | .availableRules => Result.error? e.availableRules.1
  | .rulesIn category => Result.error? (e.rulesIn category).1
  | .fixableRules => Result.error? e.fixableRules.1
  | .compatibility html => Result.error? (e.compatibility html).1
  | .currentSettings => Result.error? e.currentSettings.1
  | .update p => Result.error? (e.update p).1
  | .stats => Result.error? e.stats.1
  | .resetStats => Result.error? e.resetStats.1
  | .history => Result.error? e.history.1
  | .startMaintenance scheduler => Result.error? (e.startMaintenance scheduler).1
  | .dispose | .wait _ | .sweep => none

/-- Operations that have a result to give, and so can fail. -/
def Operation.canFail : Operation → Bool
  | .dispose | .wait _ | .sweep => false
  | _ => true

/-- The errors of an operation that was not let through: the engine is disposed of, the rule is not
registered, or the settings are not sound. -/
def Refusal : EngineError → Prop
  | .disposed | .unknownRule _ | .settings _ => True
  | _ => False

section refused
variable {α : Type} {f : Unit → Result α × Engine} {err : EngineError}

private theorem error?_eq_some {r : Result α} : Result.error? r = some err ↔ r = .error err := by
  cases r <;> simp [Result.error?]

/-- It is enough to look at an operation that is let through the first check. -/
private theorem refused_whenActive (hf : (f ()).1 = .error err → (f ()).2 = e)
    (h : Result.error? (e.whenActive f).1 = some err) : (e.whenActive f).2 = e := by
  rw [error?_eq_some] at h
  cases hd : e.disposed with
  | true => simp [whenActive, hd]
  | false =>
    simp only [whenActive, hd, Bool.false_eq_true, if_false] at h ⊢
    exact hf h

private theorem refused_validate (html : Text) (c : Conduct)
    (h : Result.error? (e.validate html c).1 = some err) : (e.validate html c).2 = e := by
  refine refused_whenActive ?_ h
  dsimp only
  split <;> exact nofun

private theorem refused_setRule (name : String) (g : RuleSetting → RuleSetting)
    (h : Result.error? (e.setRule name g).1 = some err) : (e.setRule name g).2 = e := by
  refine refused_whenActive ?_ h
  split
  · exact nofun
  · exact fun _ => rfl

private theorem refused_compatibility (html : Text) (hr : Refusal err)
    (h : Result.error? (e.compatibility html).1 = some err) : (e.compatibility html).2 = e := by
  refine refused_whenActive ?_ h
  split
  · exact nofun
  · intro herr
    obtain rfl := Except.error.inj herr
    exact hr.elim

private theorem refused_update (p : Patch) (h : Result.error? (e.update p).1 = some err) :
    (e.update p).2 = e := by
  refine refused_whenActive ?_ h
  dsimp only
  split
  · exact fun _ => rfl
  · exact nofun

private theorem refused_apply {op : Operation} (hr : Refusal err) (h : op.error? e = some err) :
    op.apply e = e := by
  cases op with
  | validate html c => exact refused_validate html c h
  | setRuleEnabled name enabled => exact refused_setRule name _ h
  | setRuleSeverity name severity => exact refused_setRule name _ h
  | compatibility html => exact refused_compatibility html hr h
  | update p => exact refused_update p h
  | dispose => exact absurd h nofun
  | wait time => exact absurd h nofun
  | sweep => exact absurd h nofun
  | _ => exact refused_whenActive nofun h

private theorem error?_disposed {op : Operation} (hd : e.disposed = true) (hc : op.canFail = true) :
    op.error? e = some .disposed := by
  have refuses {β : Type} (g : Unit → Result β × Engine) :
      Result.error? (e.whenActive g).1 = some .disposed := by
    rw [whenActive, if_pos hd]
    rfl
  cases op with
  | dispose => exact absurd hc Bool.false_ne_true
  | wait time => exact absurd hc Bool.false_ne_true
  | sweep => exact absurd hc Bool.false_ne_true
  | _ => exact refuses _

end refused

/-- Every engine that can be reached is consistent, a refused operation leaves no trace in it, and
once disposed of it refuses everything. The patterns follow the settings unless a rule was added
that gives them another policy. -/
theorem consistent_after {s : Settings} (h : Engine.new s = .ok e) (ops : List Operation) :
    (e.after ops).Consistent ∧
      ((∀ op ∈ ops, op.LeavesPolicy) →
        (e.after ops).workshop.patterns.policy.unsigned =
          (e.after ops).settings.cache.patternPolicy.unsigned) ∧
      (∀ op err, Operation.error? (e.after ops) op = some err → Refusal err →
        op.apply (e.after ops) = e.after ops) ∧
      (.dispose ∈ ops → ∀ op : Operation, op.canFail = true →
        op.error? (e.after ops) = some .disposed) := by
  obtain ⟨hs, rfl⟩ := new_eq_ok_iff.1 h
  refine ⟨?_, fun ho => ?_, fun op err herr hr => refused_apply hr herr, fun hops op hc => ?_⟩
  · exact after_induction (fun _ op h => h.apply op) (consistent_build hs) ops
  · exact ((unmeddled_build s).after ho).patterns
  · have hd : ops.any Operation.disposes = true := List.any_eq_true.2 ⟨.dispose, hops, rfl⟩
    apply error?_disposed _ hc
    rw [disposed_after, hd, Bool.or_true]

/-- After a change to cache settings that compare as equal, with one rule gone and another added:
setting the rule that is gone and unsound settings are refused without a trace. -/
theorem consistent_after_refusals :
    let note : RuleInfo :=
      { name := "note", displayName := "Note", severity := .info, category := .structural }
    let added := Rule.custom note .none none (some (.append "!".toList))
    let ops : List Operation := [.update { cache := some { minScore := -0.0 } },
      .removeRule "html-size", .addRule added, .validate "<p>x</p>".toList]
    let e := (build {}).after ops
    Engine.new {} = .ok (build {}) ∧ (∀ op ∈ ops, op.LeavesPolicy) ∧ e.Consistent ∧
      e.workshop.patterns.policy.unsigned = e.settings.cache.patternPolicy.unsigned ∧
      Operation.error? e (.setRuleEnabled "html-size" false) = some (.unknownRule "html-size") ∧
      Operation.apply e (.setRuleEnabled "html-size" false) = e ∧
      Operation.error? e (.update { maxHtmlSize := some 0 }) =
        some (.settings (.invalid "max_html_size must be greater than 0")) ∧
      Operation.apply e (.update { maxHtmlSize := some 0 }) = e ∧
      Operation.error? (e.after [.dispose]) .stats = some .disposed := by
  intro note added ops e
  have hn : Engine.new {} = .ok (build {}) := by rfl
  have ho : ∀ op ∈ ops, op.LeavesPolicy := by
    simp only [ops, List.forall_mem_cons]
    exact ⟨trivial, trivial, leavesPolicy_custom _ _ _ _, Conduct.leavesPolicy_steady,
      List.forall_mem_nil _⟩
  have hu : Operation.error? e (.setRuleEnabled "html-size" false) =
      some (.unknownRule "html-size") := by decide +kernel
  have hs : Operation.error? e (.update { maxHtmlSize := some 0 }) =
      some (.settings (.invalid "max_html_size must be greater than 0")) := by decide +kernel
  obtain ⟨hc, hp, hr, -⟩ := consistent_after hn ops
  rw [show (build {}).after ops = e from rfl] at hp
  obtain ⟨-, -, -, hd⟩ := consistent_after hn (ops ++ [.dispose])
  exact ⟨hn, ho, hc, hp ho, hu, hr _ _ hu trivial, hs, hr _ _ hs trivial, hd (by simp) .stats rfl⟩

/-- A rule that gives the patterns another policy whenever it checks a document. -/
def meddler (p : Policy) : Rule :=
  .onText
    { name := "meddler", displayName := "Meddler", severity := .info, category := .structural }
    fun _ _ => .tend (.setPolicy p) (.done [])

private theorem policy_validate_meddler {e : Engine} {p : Policy} {rules : List Rule} {html : Text}
    (hd : e.disposed = false) (hh : rejection? e.settings html = none)
    (hr : e.registry.rules = rules ++ [meddler p])
    (hs : e.settings.enables (meddler p).info = true) :
    (e.validate html).2.workshop.patterns.policy = p := by
  have hlast (forest : Forest) (v : Survey) :
      ((rules ++ [meddler p]).foldl (Survey.apply ⟨html, e.settings⟩ forest)
        v).workshop.patterns.policy = p := by
    rw [List.foldl_append, List.foldl_cons, List.foldl_nil, Survey.apply, if_pos hs]
    exact Cache.policy_setPolicy _ _ p
  obtain ⟨⟨ht, hg, -, -⟩, -⟩ := keeps_treeOf
    { e with counters := { e.counters with validations := e.counters.validations + 1 } } html
  unfold validate whenActive
  rw [if_neg (by simp [hd])]
  dsimp only
  rw [hh]
  dsimp only
  rw [Conduct.acting_steady, ht, hg, hr]
  exact hlast _ _

/-- A rule that was added has the patterns follow its policy instead of the settings. -/
theorem patterns_after_meddler :
    let p := { CacheSettings.patternPolicy {} with capacity := 1 }
    let e := (build {}).after [.addRule (meddler p), .validate "x".toList]
    Engine.new {} = .ok (build {}) ∧ e.disposed = false ∧
      e.workshop.patterns.policy.unsigned ≠ e.settings.cache.patternPolicy.unsigned := by
  intro p e
  let e₁ := ((build {}).addRule (meddler p)).2
  have hr : e₁.registry.rules =
      Registry.without Registry.standard.builtin "meddler" ++ [meddler p] := by rfl
  have hh : rejection? {} "x".toList = none := by rfl
  have hp := policy_validate_meddler (e := e₁) rfl hh hr rfl
  rw [show (e₁.validate "x".toList).2 = e from rfl] at hp
  refine ⟨rfl, by rw [disposed_after]; rfl, fun h => ?_⟩
  have hs : e.settings = {} := rfl
  rw [hp, hs] at h
  exact absurd (congrArg (·.capacity) h) (by decide)

end Engine
end MailMarkup
