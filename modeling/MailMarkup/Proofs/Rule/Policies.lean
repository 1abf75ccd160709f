import MailMarkup.Compatibility
import MailMarkup.Proofs.Cache.Contents
import MailMarkup.Repair.Soundness
import MailMarkup.Rule.Custom
import MailMarkup.Rule.Registry

/-!
# Rules that leave the policy of the patterns alone

A task may give the cache of patterns another policy. Those of the built-in rules and of rules that
are made of parts do not, nor does the report on compatibility. They are put together from questions
for patterns and elements, and what each part leaves alone is left alone by the whole.
-/
namespace MailMarkup

@[simp] theorem Workshop.policy_fetch (w : Workshop) (key : PatternKey) :
    (w.fetch key).2.patterns.policy = w.patterns.policy := by
  simp [fetch]

namespace Task
variable {α β : Type} {t : Task α} {f : α → Task β}

/-- The policy of the patterns is the same after the task as before. -/
def LeavesPolicy (t : Task α) : Prop :=
  ∀ ix w, (t.run ix w).2.2.patterns.policy = w.patterns.policy

theorem LeavesPolicy.runAlone (h : t.LeavesPolicy) (w : Workshop) :
    (t.runAlone w).2.patterns.policy = w.patterns.policy :=
  h _ w

theorem run_bind (t : Task α) (f : α → Task β) (ix : Index) (w : Workshop) :
    (t >>= f).run ix w =
      match t.run ix w with
      | (.ok a, ix, w) => (f a).run ix w
      | (.error e, ix, w) => (.error e, ix, w) := by
  induction t generalizing ix w with
  | done a => rfl
  | fail e => rfl
  | pattern key next ih =>
    have hb : (pattern key next >>= f) = .pattern key fun p => next p >>= f := rfl
    simp only [hb, run]
    rcases w.fetch key with ⟨_ | p, w'⟩
    · rfl
    · exact ih p ix w'
  | find q next ih => exact ih _ _ w
  | tend u next ih => exact ih ix (w.tend u)

private theorem run_answered (t : Task α) (asked ix : Index) (w : Workshop) :
    ((t.answered asked).run ix w).2.2 = (t.run asked w).2.2 := by
  induction t generalizing asked w with
  | done a => rfl
  | fail e => rfl
  | pattern key next ih =>
    simp only [answered, run]
    rcases w.fetch key with ⟨_ | p, w'⟩
    · rfl
    · exact ih p asked w'
  | find q next ih => exact ih _ _ w
  | tend u next ih => exact ih asked (w.tend u)

@[simp] theorem leavesPolicy_pure (a : α) : (pure a : Task α).LeavesPolicy := fun _ _ => rfl

@[simp] theorem leavesPolicy_done (a : α) : (done a).LeavesPolicy := fun _ _ => rfl

@[simp] theorem leavesPolicy_fail (e : Failure) : (fail e : Task α).LeavesPolicy := fun _ _ => rfl

private theorem leavesPolicy_pattern {key : PatternKey} {next : Pattern → Task α}
    (h : ∀ p, (next p).LeavesPolicy) : (pattern key next).LeavesPolicy := by
  intro ix w
  have hw := w.policy_fetch key
  simp only [run]
  rcases hf : w.fetch key with ⟨_ | p, w'⟩ <;> rw [hf] at hw
  · exact hw
  · exact (h p ix w').trans hw

@[simp] theorem leavesPolicy_askWith (source : String) (flags : Pattern.Flags) :
    (askWith source flags).LeavesPolicy :=
  leavesPolicy_pattern leavesPolicy_done

@[simp] theorem leavesPolicy_ask (source : String) : (ask source).LeavesPolicy :=
  leavesPolicy_askWith source .anyCase

@[simp] theorem leavesPolicy_elements (q : Query) : (elements q).LeavesPolicy := fun _ _ => rfl

@[simp] theorem leavesPolicy_ofExcept (r : Except Failure α) : (ofExcept r).LeavesPolicy := by
  cases r <;> exact fun _ _ => rfl

@[simp] theorem leavesPolicy_bind (ht : t.LeavesPolicy) (hf : ∀ a, (f a).LeavesPolicy) :
    (t >>= f).LeavesPolicy := by
  intro ix w
  have hw := ht ix w
  rw [run_bind]
  rcases hr : t.run ix w with ⟨_ | a, ix', w'⟩ <;> rw [hr] at hw
  · exact hw
  · exact (hf a ix' w').trans hw

@[simp] theorem leavesPolicy_ite {c : Prop} [Decidable c] {t u : Task α} (ht : t.LeavesPolicy)
    (hu : u.LeavesPolicy) : (if c then t else u).LeavesPolicy := by
  split
  · exact ht
  · exact hu

theorem LeavesPolicy.answered (h : t.LeavesPolicy) (asked : Index) :
    (t.answered asked).LeavesPolicy := fun ix w =>
  (congrArg (·.patterns.policy) (t.run_answered asked ix w)).trans (h asked w)

end Task

namespace Rule

/-- The rule gives the patterns no other policy, whatever it is asked for. -/
structure LeavesPolicy (r : Rule) : Prop where
  check : ∀ s info, (r.check s info).LeavesPolicy
  treeCheck : ∀ check, r.treeCheck = some check →
    ∀ s forest info, (check s forest info).LeavesPolicy
  fix : ∀ fix, r.fix = some fix → ∀ s, (fix s).LeavesPolicy

variable {r : Rule} {info : RuleInfo}

theorem LeavesPolicy.repaired (h : r.LeavesPolicy) (s : Subject) :
    (r.repaired s).LeavesPolicy := by
  unfold Rule.repaired
  split
  · rename_i fix hf
    exact h.fix fix hf s
  · exact Task.leavesPolicy_done _

theorem leavesPolicy_onText {check : TextCheck} (h : ∀ s info, (check s info).LeavesPolicy) :
    (onText info check).LeavesPolicy :=
  ⟨h, by simp [onText], by simp [onText]⟩

theorem leavesPolicy_onTree {check : TreeCheck}
    (h : ∀ s forest info, (check s forest info).LeavesPolicy) : (onTree info check).LeavesPolicy :=
  ⟨fun _ _ => (h _ _ _).answered _, by simpa [onTree] using h, by simp [onTree]⟩

theorem LeavesPolicy.withFix (h : r.LeavesPolicy) {fix : Fix} (hf : ∀ s, (fix s).LeavesPolicy) :
    (r.withFix fix).LeavesPolicy :=
  ⟨h.check, h.treeCheck, by simpa [Rule.withFix] using hf⟩

end Rule

open Rule

private theorem leavesPolicy_strip (html : Text) (tags : List String) :
    (Forbidden.strip html tags).LeavesPolicy := by
  induction tags generalizing html with
  | nil => exact Task.leavesPolicy_done html
  | cons tag tags ih => exact Task.leavesPolicy_bind (Task.leavesPolicy_askWith _ _) fun _ => ih _

private theorem leavesPolicy_dangerous : Forbidden.noDangerousTags.LeavesPolicy :=
  (leavesPolicy_onText fun _ _ => by simp [Forbidden.checkDangerous]).withFix fun _ => by
    simp [Forbidden.fixDangerous, leavesPolicy_strip]

private theorem leavesPolicy_toSpans {info : RuleInfo} (tags : List String) (suggestion : String)
    (style : String → String) :
    ((onText info (Forbidden.check tags suggestion)).withFix
      (Forbidden.toSpans tags style)).LeavesPolicy :=
  (leavesPolicy_onText fun _ _ => by simp [Forbidden.check]).withFix fun _ => by
    simp [Forbidden.toSpans]

private theorem leavesPolicy_tagFormat : TagFormat.rule.LeavesPolicy :=
  (leavesPolicy_onText fun _ _ => by simp [TagFormat.check]).withFix fun _ =>
    Task.leavesPolicy_bind (Task.leavesPolicy_askWith _ _) fun _ => by simp

private theorem leavesPolicy_malformed : Malformed.rule.LeavesPolicy :=
  (leavesPolicy_onText fun _ _ => by simp [Malformed.check]).withFix fun _ => by
    simp [Malformed.fix]

private theorem leavesPolicy_scriptUrls : Script.scriptUrls.LeavesPolicy :=
  (leavesPolicy_onText fun _ _ => by simp [Script.checkAddresses]).withFix fun _ => by
    simp [Script.fixAddresses]

private theorem leavesPolicy_noEventHandlers : Script.noEventHandlers.LeavesPolicy :=
  (leavesPolicy_onText fun _ _ => by simp [Script.checkHandlers]).withFix fun _ => by
    simp [Script.fixHandlers]

private theorem leavesPolicy_demand {info : RuleInfo} (d : Missing.Demand)
    (report : RuleInfo → Match → List Missing.Default → List Finding) :
    (onText info (d.check report)).LeavesPolicy :=
  leavesPolicy_onText fun _ _ => by simp [Missing.Demand.check]

private theorem leavesPolicy_filled {info : RuleInfo} (d : Missing.Demand)
    (report : RuleInfo → Match → List Missing.Default → List Finding) :
    ((onText info (d.check report)).withFix d.fix).LeavesPolicy :=
  (leavesPolicy_demand d report).withFix fun _ => by simp [Missing.Demand.fix]

private theorem leavesPolicy_linkText : LinkText.rule.LeavesPolicy :=
  leavesPolicy_onTree fun _ _ _ => by simp [LinkText.check]

private theorem leavesPolicy_features (s : Subject) (info : RuleInfo)
    (features : List Support.Feature) : (Support.checkFeatures s info features).LeavesPolicy := by
  induction features with
  | nil => exact Task.leavesPolicy_done []
  | cons f fs ih =>
    rw [Support.checkFeatures]
    split
    · exact ih
    · simp [ih]

private theorem leavesPolicy_external : Support.externalStylesheets.LeavesPolicy :=
  (leavesPolicy_onText fun _ _ => by simp [Support.checkExternal]).withFix fun _ => by
    simp [Support.fixExternal]

private theorem leavesPolicy_tableNesting : TableNesting.rule.LeavesPolicy :=
  (leavesPolicy_onTree fun _ _ _ => by simp [TableNesting.check]).withFix fun _ => by
    simp [TableNesting.fix]

private theorem leavesPolicy_duplicateStyle : DuplicateStyle.rule.LeavesPolicy :=
  (leavesPolicy_onText fun _ _ => by simp [DuplicateStyle.check]).withFix fun _ => by
    simp [DuplicateStyle.fix]

private theorem leavesPolicy_emptyElements : Tidy.emptyElements.LeavesPolicy :=
  (leavesPolicy_onText fun _ _ => by simp [Tidy.checkEmpty]).withFix fun _ => by
    simp [Tidy.fixEmpty]

private theorem leavesPolicy_undeclared (html : Text) : (Tidy.undeclared? html).LeavesPolicy := by
  simp [Tidy.undeclared?]

private theorem leavesPolicy_missingDoctype : Tidy.missingDoctype.LeavesPolicy :=
  (leavesPolicy_onText fun _ _ =>
    Task.leavesPolicy_bind (leavesPolicy_undeclared _) fun _ => Task.leavesPolicy_pure _).withFix
    fun _ => Task.leavesPolicy_bind (leavesPolicy_undeclared _) fun _ => Task.leavesPolicy_pure _

/-- No rule that is built in gives the patterns another policy. -/
theorem leavesPolicy_builtin : ∀ r ∈ builtinRules, r.LeavesPolicy := by
  simp only [builtinRules, List.forall_mem_cons]
  refine ⟨leavesPolicy_dangerous, leavesPolicy_toSpans _ _ _, leavesPolicy_toSpans _ _ _,
    leavesPolicy_toSpans _ _ _, leavesPolicy_tagFormat, leavesPolicy_malformed,
    leavesPolicy_scriptUrls, leavesPolicy_noEventHandlers, leavesPolicy_filled _ _,
    leavesPolicy_linkText, leavesPolicy_filled _ _, leavesPolicy_filled _ _,
    leavesPolicy_onText fun _ _ => ?_, leavesPolicy_onText fun _ _ => leavesPolicy_features _ _ _,
    leavesPolicy_onText fun _ _ => ?_, leavesPolicy_external, leavesPolicy_onText fun _ _ => ?_,
    leavesPolicy_onText fun _ _ => ?_, leavesPolicy_onText fun _ _ => ?_, leavesPolicy_demand _ _,
    leavesPolicy_tableNesting, leavesPolicy_filled _ _, leavesPolicy_filled _ _,
    leavesPolicy_duplicateStyle, leavesPolicy_emptyElements, leavesPolicy_missingDoctype,
    List.forall_mem_nil _⟩
  · simp [Support.checkTags]
  · simp [Support.checkEmbedded]
  · simp [Support.checkBackgrounds]
  · simp [Support.checkWidths]
  · simp [Weight.check]

theorem leavesPolicy_custom (info : RuleInfo) (check : CustomCheck) (tree : Option Query)
    (fix : Option CustomFix) : (Rule.custom info check tree fix).LeavesPolicy where
  check s info := by cases check <;> simp [Rule.custom, Custom.check]
  treeCheck check' h s forest info := by
    obtain ⟨q, -, rfl⟩ := Option.map_eq_some_iff.1 h
    simp [Custom.treeCheck]
  fix fix' h s := by
    obtain ⟨f, -, rfl⟩ := Option.map_eq_some_iff.1 h
    cases f <;> simp [Custom.fix]

theorem Repair.leavesPolicy_isSound (before after : Text) :
    (Repair.isSound before after).LeavesPolicy :=
  Task.leavesPolicy_ite (Task.leavesPolicy_pure false) <|
    Task.leavesPolicy_bind (Task.leavesPolicy_askWith _ _) fun _ => by simp

namespace Compatibility

@[simp] private theorem leavesPolicy_occurs (html : Text) (source : String) :
    (occurs html source).LeavesPolicy := by
  simp [occurs]

@[simp] private theorem leavesPolicy_probe (html : Text) (probes : List Probe) :
    (probe html probes).LeavesPolicy := by
  induction probes with
  | nil => exact Task.leavesPolicy_done []
  | cons p probes ih => simp [probe, ih]

private theorem leavesPolicy_outlook (html : Text) : (outlook html).LeavesPolicy :=
  Task.leavesPolicy_bind (leavesPolicy_probe _ _) fun _ =>
    Task.leavesPolicy_bind (leavesPolicy_occurs _ _) fun _ => by simp

private theorem leavesPolicy_widthIssues (html : Text) (limit : Nat) :
    (widthIssues html limit).LeavesPolicy := by
  simp [widthIssues]

private theorem leavesPolicy_mobile (html : Text) (t : Thresholds) :
    (mobile html t).LeavesPolicy := by
  refine Task.leavesPolicy_bind (leavesPolicy_occurs _ _) fun fluid => ?_
  cases fluid with
  | false =>
    exact Task.leavesPolicy_bind (leavesPolicy_widthIssues _ _) fun _ => by simp
  | true => exact Task.leavesPolicy_bind (Task.leavesPolicy_pure _) fun _ => by simp

private theorem leavesPolicy_issues (html : Text) (t : Thresholds) (c : Client) :
    (issues html t c).LeavesPolicy := by
  cases c with
  | outlook => exact leavesPolicy_outlook html
  | gmail => simp [issues, gmail]
  | appleMail => exact leavesPolicy_probe html _
  | thunderbird => exact leavesPolicy_probe html _
  | mobile => exact leavesPolicy_mobile html t

theorem leavesPolicy_report (s : Subject) : (report s).LeavesPolicy := by
  unfold report
  induction s.settings.clients.toList with
  | nil => exact Task.leavesPolicy_done []
  | cons c cs ih => simp [reportOn, leavesPolicy_issues, ih]

end Compatibility

namespace Registry
variable {g : Registry} {r r' : Rule}

theorem mem_place {rules : List Rule} (h : r' ∈ place rules r) : r' = r ∨ r' ∈ rules := by
  induction rules with
  | nil => exact .inl (List.mem_singleton.1 h)
  | cons x rules ih =>
    rw [place] at h
    split at h
    · exact (List.mem_cons.1 h).imp_right (List.mem_cons_of_mem x)
    · rcases List.mem_cons.1 h with rfl | h
      · exact .inr List.mem_cons_self
      · exact (ih h).imp_right (List.mem_cons_of_mem x)

private theorem mem_rules_insertBuiltin (h : r' ∈ (g.insertBuiltin r).rules) :
    r' = r ∨ r' ∈ g.rules := by
  rcases List.mem_append.1 h with h | h
  · exact (mem_place h).imp_right (List.mem_append_left _)
  · exact .inr (List.mem_append_right _ (List.mem_filter.1 h).1)

theorem mem_rules_addCustom (h : r' ∈ (g.addCustom r).rules) : r' = r ∨ r' ∈ g.rules := by
  rcases List.mem_append.1 h with h | h
  · exact .inr (List.mem_append_left _ (List.mem_filter.1 h).1)
  · exact (mem_place h).imp_right (List.mem_append_right _)

theorem mem_rules_remove {name : String} (h : r' ∈ (g.remove name).2.rules) : r' ∈ g.rules := by
  rcases List.mem_append.1 h with h | h
  · exact List.mem_append_left _ (List.mem_filter.1 h).1
  · exact List.mem_append_right _ (List.mem_filter.1 h).1

theorem mem_rules_standard (h : r ∈ standard.rules) : r ∈ builtinRules := by
  have hfold (rules : List Rule) (g : Registry) (h : r ∈ (rules.foldl insertBuiltin g).rules) :
      r ∈ rules ∨ r ∈ g.rules := by
    induction rules generalizing g with
    | nil => exact .inr h
    | cons x rules ih =>
      rcases ih _ h with h | h
      · exact .inl (List.mem_cons_of_mem x h)
      · rcases mem_rules_insertBuiltin h with rfl | h
        · exact .inl List.mem_cons_self
        · exact .inr h
  exact (hfold builtinRules {} h).resolve_right (List.not_mem_nil)

end Registry
end MailMarkup
