import MailMarkup.Engine.Basic

/-!
# Histories of an engine

What can happen to an engine between two looks at it: every operation that is offered, time that
passes, and the sweeps of the maintenance in the background. An operation that calls rules comes
with the conduct they have in the course of it.
-/
namespace MailMarkup.Engine

inductive Operation where
  | validate (html : Text) (c : Conduct := .steady)
  | repair (html : Text) (c : Conduct := .steady)
  | repairOnly (html : Text) (names : List String) (c : Conduct := .steady)
  | repairAtLeast (html : Text) (severity : Severity) (c : Conduct := .steady)
  | repairCategory (html : Text) (category : Category) (c : Conduct := .steady)
  | addRule (r : Rule)
  | removeRule (name : String)
  | setRuleEnabled (name : String) (enabled : Bool)
  | setRuleSeverity (name : String) (severity : Severity)
  | availableRules
  | rulesIn (category : Category)
  | fixableRules
  | compatibility (html : Text)
  | currentSettings
  | update (p : Patch)
  | stats
  | resetStats
  | history
  | startMaintenance (scheduler : Bool)
  | dispose
  | wait (time : Time)
  | sweep

/-- The clock goes on. -/
def wait (e : Engine) (time : Time) : Engine :=
  { e with workshop := { e.workshop with clock := e.workshop.clock + time } }

/-- What the maintenance does each time its interval has passed. -/
def sweep (e : Engine) : Engine :=
  { e with
    trees := e.trees.sweep e.workshop.clock
    workshop :=
      { e.workshop with patterns := e.workshop.patterns.sweep e.workshop.clock } }

def Operation.apply (e : Engine) : Operation → Engine
  | .validate html c => (e.validate html c).2
  | .repair html c => (e.repair html c).2
  | .repairOnly html names c => (e.repairOnly html names c).2
  | .repairAtLeast html severity c => (e.repairAtLeast html severity c).2
  | .repairCategory html category c => (e.repairCategory html category c).2
  | .addRule r => (e.addRule r).2
  | .removeRule name => (e.removeRule name).2
  | .setRuleEnabled name enabled => (e.setRuleEnabled name enabled).2
  | .setRuleSeverity name severity => (e.setRuleSeverity name severity).2
  | .availableRules => e.availableRules.2
  | .rulesIn category => (e.rulesIn category).2
  | .fixableRules => e.fixableRules.2
  | .compatibility html => (e.compatibility html).2
  | .currentSettings => e.currentSettings.2
  | .update p => (e.update p).2
  | .stats => e.stats.2
  | .resetStats => e.resetStats.2
  | .history => e.history.2
  | .startMaintenance scheduler => (e.startMaintenance scheduler).2
  | .dispose => e.dispose
  | .wait time => e.wait time
  | .sweep => e.sweep

def Operation.disposes : Operation → Bool
  | .dispose => true
  | _ => false

/-- The engine after operations, one after the other. -/
def after (e : Engine) (ops : List Operation) : Engine := ops.foldl Operation.apply e

/-- What every operation keeps is kept along every history. -/
theorem after_induction {P : Engine → Prop} (step : ∀ e op, P e → P (Operation.apply e op))
    {e : Engine} (h : P e) (ops : List Operation) : P (e.after ops) := by
  induction ops generalizing e with
  | nil => exact h
  | cons op ops ih => exact ih (step e op h)

theorem whenActive_snd {α : Type} {P : Engine → Prop} {e : Engine}
    {f : Unit → Result α × Engine} (he : P e) (hf : P (f ()).2) : P (e.whenActive f).2 := by
  unfold whenActive
  split
  · exact he
  · exact hf

theorem whenActive_fst {α : Type} {e : Engine} {f : Unit → Result α × Engine}
    (h : e.disposed = false) : (e.whenActive f).1 = (f ()).1 := by
  simp [whenActive, h]

section Disposed
variable {e : Engine}

private theorem disposed_whenActive {α : Type} {f : Unit → Result α × Engine}
    (hf : (f ()).2.disposed = e.disposed) : (e.whenActive f).2.disposed = e.disposed :=
  whenActive_snd (P := fun e' => e'.disposed = e.disposed) rfl hf

private theorem disposed_validate (e : Engine) (html : Text) (c : Conduct) :
    (e.validate html c).2.disposed = e.disposed := by
  refine disposed_whenActive ?_
  dsimp only
  split
  · rfl
  · unfold treeOf
    split <;> rfl

private theorem disposed_setRule (e : Engine) (name : String) (f : RuleSetting → RuleSetting) :
    (e.setRule name f).2.disposed = e.disposed := by
  refine disposed_whenActive ?_
  split <;> rfl

private theorem disposed_compatibility (e : Engine) (html : Text) :
    (e.compatibility html).2.disposed = e.disposed := by
  refine disposed_whenActive ?_
  split <;> rfl

private theorem disposed_update (e : Engine) (p : Patch) :
    (e.update p).2.disposed = e.disposed := by
  refine disposed_whenActive ?_
  dsimp only
  split <;> rfl

private theorem disposed_dispose (e : Engine) : e.dispose.disposed = true := by
  unfold dispose
  split
  · assumption
  · rfl

private theorem disposed_apply (e : Engine) (op : Operation) :
    (Operation.apply e op).disposed = (e.disposed || op.disposes) := by
  have keeps {e' : Engine} (h : e'.disposed = e.disposed) :
      e'.disposed = (e.disposed || false) := by simpa using h
  cases op with
  | validate html c => exact keeps (disposed_validate e html c)
  | setRuleEnabled name enabled => exact keeps (disposed_setRule e name _)
  | setRuleSeverity name severity => exact keeps (disposed_setRule e name _)
  | compatibility html => exact keeps (disposed_compatibility e html)
  | update p => exact keeps (disposed_update e p)
  | dispose => exact (disposed_dispose e).trans (Bool.or_true _).symm
  | wait time => exact keeps rfl
  | sweep => exact keeps rfl
  | _ => exact keeps (disposed_whenActive rfl)

/-- An engine is disposed of exactly when it was told so. -/
theorem disposed_after (e : Engine) (ops : List Operation) :
    (e.after ops).disposed = (e.disposed || ops.any Operation.disposes) := by
  induction ops generalizing e with
  | nil => simp [after]
  | cons op ops ih =>
    have hs : e.after (op :: ops) = (Operation.apply e op).after ops := rfl
    rw [hs, ih, disposed_apply, List.any_cons, Bool.or_assoc]

end Disposed
end MailMarkup.Engine
