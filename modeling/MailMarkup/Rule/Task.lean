import MailMarkup.Cache.Basic
import MailMarkup.Document.Index
import MailMarkup.Pattern.Basic

/-!
# Tasks

A rule's work is a task: it asks for compiled patterns and for elements of the document, one after
the other, and ends with a result or fails. A task says nothing about where the answers come from.
`Task.eval` answers directly, `Task.run` through caches. A task may also see to the cache of
patterns, which tells it nothing in return.
-/
namespace MailMarkup

inductive Failure where
  | badPattern (source : String) (error : Pattern.SourceError)
  | failed (message : String)
  | crashed (message : String)
  deriving DecidableEq, Repr

def Failure.message : Failure → String
  | .badPattern source e => "Invalid pattern '" ++ source ++ "': " ++ e.message source
  | .failed m => "Rule failed: " ++ m
  | .crashed m => m

/-- What a task can do to the cache of patterns. -/
inductive Upkeep where
  | setPolicy (p : Policy)
  | clear
  | sweep
  | resetStats

inductive Task (α : Type) where
  | done (a : α)
  | fail (f : Failure)
  | pattern (key : PatternKey) (next : Pattern → Task α)
  | find (q : Query) (next : List Element → Task α)
  | tend (u : Upkeep) (next : Task α)

namespace Task

def bind {α β : Type} : Task α → (α → Task β) → Task β
  | .done a, f => f a
  | .fail e, _ => .fail e
  | .pattern key next, f => .pattern key fun p => (next p).bind f
  | .find q next, f => .find q fun es => (next es).bind f
  | .tend u next, f => .tend u (next.bind f)

instance : Monad Task where
  pure := .done
  bind := Task.bind

/-- A pattern in which the case of letters does not matter. -/
def ask (source : String) : Task Pattern := .pattern ⟨source, .anyCase⟩ .done

def askWith (source : String) (flags : Pattern.Flags) : Task Pattern :=
  .pattern ⟨source, flags⟩ .done

def elements (q : Query) : Task (List Element) := .find q .done

def ofExcept {α : Type} : Except Failure α → Task α
  | .ok a => .done a
  | .error e => .fail e

def compile (key : PatternKey) : Except Failure Pattern :=
  match Pattern.compile key with
  | .ok p => .ok p
  | .error e => .error (.badPattern key.source e)

/-- The result when every pattern is compiled and every query answered on the spot. -/
def eval {α : Type} : Task α → Index → Except Failure α
  | .done a, _ => .ok a
  | .fail e, _ => .error e
  | .pattern key next, ix =>
    match compile key with
    | .ok p => (next p).eval ix
    | .error e => .error e
  | .find q next, ix => (next (ix.find q).1).eval (ix.find q).2
  | .tend _ next, ix => next.eval ix

/-- The task with its queries answered by an index. -/
def answered {α : Type} : Task α → Index → Task α
  | .done a, _ => .done a
  | .fail e, _ => .fail e
  | .pattern key next, ix => .pattern key fun p => (next p).answered ix
  | .find q next, ix => (next (ix.find q).1).answered (ix.find q).2
  | .tend u next, ix => .tend u (next.answered ix)

end Task

/-- Compiled patterns that are kept between tasks, and the time. -/
structure Workshop where
  patterns : Cache PatternKey Pattern
  clock : Time

namespace Workshop

/-- How much later each use of a cache is than the one before. -/
def tick : Time := 2

def new (policy : Policy) : Workshop := ⟨.new policy 0, tick⟩

def advance (w : Workshop) : Workshop := { w with clock := w.clock + tick }

/-- A pattern from the cache, compiled if it is not there. -/
def fetch (w : Workshop) (key : PatternKey) : Except Failure Pattern × Workshop :=
  let r := w.patterns.getOrInsert w.clock key fun _ => Task.compile key
  (r.1, { w with patterns := r.2, clock := w.clock + tick })

def tend (w : Workshop) (u : Upkeep) : Workshop :=
  let patterns := match u with
    | .setPolicy p => w.patterns.setPolicy w.clock p
    | .clear => w.patterns.clear
    | .sweep => w.patterns.sweep w.clock
    | .resetStats => w.patterns.resetStats
  { w with patterns, clock := w.clock + tick }

end Workshop

/-- The result with patterns taken from a workshop and queries answered by an index. -/
def Task.run {α : Type} : Task α → Index → Workshop → Except Failure α × Index × Workshop
  | .done a, ix, w => (.ok a, ix, w)
  | .fail e, ix, w => (.error e, ix, w)
  | .pattern key next, ix, w =>
    match w.fetch key with
    | (.ok p, w) => (next p).run ix w
    | (.error e, w) => (.error e, ix, w)
  | .find q next, ix, w => (next (ix.find q).1).run (ix.find q).2 w
  | .tend u next, ix, w => next.run ix (w.tend u)

/-- As `run`, for a task that has no document to ask about. -/
def Task.runAlone {α : Type} (t : Task α) (w : Workshop) : Except Failure α × Workshop :=
  let r := t.run (.new [] 1) w
  (r.1, r.2.2)

end MailMarkup
