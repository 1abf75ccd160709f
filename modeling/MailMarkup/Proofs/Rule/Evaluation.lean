import MailMarkup.Proofs.Cache.Contents
import MailMarkup.Proofs.Document.Queries
import MailMarkup.Rule.Task

/-!
# Tasks through caches

A task run through a pattern cache and a memoising index ends as it does when every pattern is
compiled and every query answered on the spot. The cache and the index only have to be faithful,
which they are when new and stay, whatever is run through them.
-/
namespace MailMarkup

namespace Workshop

/-- Every pattern that is kept is what its key compiles to. -/
def Faithful (w : Workshop) : Prop := w.patterns.Holds fun key p => Task.compile key = .ok p

variable {w : Workshop}

theorem faithful_new (p : Policy) : (Workshop.new p).Faithful := Cache.holds_new p 0

theorem Faithful.advance (h : w.Faithful) : w.advance.Faithful := h

theorem Faithful.fetch_fst (h : w.Faithful) (key : PatternKey) :
    (w.fetch key).1 = Task.compile key :=
  Cache.getOrInsert_eq h w.clock key

theorem Faithful.fetch_snd (h : w.Faithful) (key : PatternKey) : (w.fetch key).2.Faithful :=
  Cache.Holds.getOrInsert h w.clock key

theorem Faithful.tend (h : w.Faithful) (u : Upkeep) : (w.tend u).Faithful := by
  cases u with
  | setPolicy p => exact Cache.Holds.setPolicy h w.clock p
  | clear => exact Cache.Holds.clear _
  | sweep => exact Cache.Holds.sweep h w.clock
  | resetStats => exact Cache.Holds.resetStats h

end Workshop

namespace Task
variable {α : Type} {forest : Forest} {maxResults : Nat} {ix ix' : Index} {w : Workshop}

/-- Indexes over one forest give the same result, whatever they were asked before. -/
theorem eval_congr (t : Task α) (h : ix.Faithful forest maxResults)
    (h' : ix'.Faithful forest maxResults) : t.eval ix = t.eval ix' := by
  induction t generalizing ix ix' with
  | done a => rfl
  | fail e => rfl
  | pattern key next ih =>
    simp only [eval]
    split
    · exact ih _ h h'
    · rfl
  | find q next ih =>
    simp only [eval]
    rw [h.find_fst q, h'.find_fst q]
    exact ih _ (h.find_snd q) (h'.find_snd q)
  | tend u next ih => exact ih h h'

theorem run_fst (t : Task α) (h : ix.Faithful forest maxResults) (hw : w.Faithful) :
    (t.run ix w).1 = t.eval ix := by
  induction t generalizing ix w with
  | done a => rfl
  | fail e => rfl
  | pattern key next ih =>
    have hr := hw.fetch_fst key
    have hk := hw.fetch_snd key
    simp only [run, eval, ← hr]
    rcases hf : w.fetch key with ⟨_ | p, w'⟩
    · rfl
    · rw [hf] at hk
      exact ih p h hk
  | find q next ih =>
    simp only [run, eval]
    exact ih _ (h.find_snd q) hw
  | tend u next ih => exact ih h (hw.tend u)

theorem run_faithful (t : Task α) (h : ix.Faithful forest maxResults) (hw : w.Faithful) :
    (t.run ix w).2.1.Faithful forest maxResults ∧ (t.run ix w).2.2.Faithful := by
  induction t generalizing ix w with
  | done a => exact ⟨h, hw⟩
  | fail e => exact ⟨h, hw⟩
  | pattern key next ih =>
    have hk := hw.fetch_snd key
    simp only [run]
    rcases hf : w.fetch key with ⟨_ | p, w'⟩ <;> rw [hf] at hk
    · exact ⟨h, hk⟩
    · exact ih p h hk
  | find q next ih =>
    simp only [run]
    exact ih _ (h.find_snd q) hw
  | tend u next ih => exact ih h (hw.tend u)

private theorem eval_bind {β : Type} (t : Task α) (f : α → Task β)
    (h : ix.Faithful forest maxResults) :
    (t >>= f).eval ix =
      match t.eval ix with
      | .ok a => (f a).eval ix
      | .error e => .error e := by
  induction t generalizing ix with
  | done a => rfl
  | fail e => rfl
  | pattern key next ih =>
    have hb : (pattern key next >>= f) = .pattern key fun p => next p >>= f := rfl
    simp only [hb, eval]
    cases compile key with
    | ok p => exact ih p h
    | error e => rfl
  | find q next ih =>
    have hn := h.find_snd q
    have hb : (find q next >>= f) = .find q fun es => next es >>= f := rfl
    simp only [hb, eval]
    rw [ih _ hn]
    split
    · exact eval_congr _ hn h
    · rfl
  | tend u next ih => exact ih h

/-- The result of a task that has no document to ask about, with no cache. -/
def evalAlone (t : Task α) : Except Failure α := t.eval (.new [] 1)

theorem evalAlone_bind {β : Type} (t : Task α) (f : α → Task β) :
    (t >>= f).evalAlone =
      match t.evalAlone with
      | .ok a => (f a).evalAlone
      | .error e => .error e :=
  t.eval_bind f (Index.faithful_new [] 1)

theorem evalAlone_askWith (source : String) (flags : Pattern.Flags) :
    (askWith source flags).evalAlone = compile ⟨source, flags⟩ := by
  simp only [evalAlone, askWith, eval]
  cases compile ⟨source, flags⟩ <;> rfl

theorem runAlone_fst (t : Task α) (hw : w.Faithful) : (t.runAlone w).1 = t.evalAlone :=
  t.run_fst (Index.faithful_new [] 1) hw

theorem runAlone_snd (t : Task α) (hw : w.Faithful) : (t.runAlone w).2.Faithful :=
  (t.run_faithful (Index.faithful_new [] 1) hw).2

end Task
end MailMarkup
