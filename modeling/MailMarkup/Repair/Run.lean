import MailMarkup.Repair.Soundness

/-!
# Repairing a document

The repairs run in order, pass after pass, until a pass changes nothing or the passes are used up. A
repair that fails, changes nothing, harms the markup or grows the document too much is dropped. The
calls of a run are counted through all its passes, and a rule acts at each as the conduct says.
-/
namespace MailMarkup.Repair
open Text

/-- The repaired text, and the rules that changed it in the order of their first change. -/
structure Outcome where
  html : Text
  fixed : List String
  deriving DecidableEq, Repr, Inhabited

def Outcome.changed (o : Outcome) : Bool := !o.fixed.isEmpty

inductive Verdict where
  | skipped
  | unsound
  | accepted (html : Text)
  deriving DecidableEq, Repr

/-- Runs one rule's repair, if the rule is enabled and has one, and judges it. -/
def attempt (s : Settings) (r : Rule) (html : Text) (w : Workshop) : Verdict × Workshop :=
  if !r.info.fixable || !s.enables r.info then (.skipped, w)
  else
    match (r.repaired ⟨html, s⟩).runAlone w with
    | (.error _, w) => (.skipped, w)
    | (.ok new, w) =>
      if new == html then (.skipped, w)
      else
        match (isSound html new).runAlone w with
        | (.ok true, w) => (.accepted new, w)
        | (_, w) => (.unsound, w)

/-- A pass under way: the text so far, the rules that changed it, last first, whether no repair grew
it too much, how many were unsound, the calls so far, and the workshop. -/
structure Pass where
  html : Text
  changed : List String := []
  withinBounds : Bool
  unsound : Nat
  calls : Nat
  workshop : Workshop

def Pass.apply (c : Conduct) (s : Settings) (ceiling : Nat) (p : Pass) (r : Rule) : Pass :=
  let attempted := attempt s (c.act p.calls r) p.html p.workshop
  let p := { p with calls := p.calls + 1 }
  match attempted with
  | (.skipped, w) => { p with workshop := w }
  | (.unsound, w) => { p with unsound := p.unsound + 1, workshop := w }
  | (.accepted new, w) =>
    if ceiling < byteSize new then { p with withinBounds := false, workshop := w }
    else { p with html := new, changed := r.name :: p.changed, workshop := w }

structure Progress where
  outcome : Outcome
  passes : Nat := 0
  success : Bool := true
  unsound : Nat := 0
  calls : Nat := 0
  workshop : Workshop

def addNew (names : List String) (more : List String) : List String :=
  more.foldl (fun ns n => if ns.contains n then ns else ns ++ [n]) names

def passes (c : Conduct) (s : Settings) (ceiling : Nat) (rules : List Rule) :
    Nat → Progress → Progress
  | 0, p => p
  | n + 1, p =>
    let q := rules.foldl (Pass.apply c s ceiling)
      { html := p.outcome.html, withinBounds := p.success, unsound := p.unsound,
        calls := p.calls, workshop := p.workshop }
    let next : Progress :=
      { p with
        passes := p.passes + 1, success := q.withinBounds, unsound := q.unsound,
        calls := q.calls, workshop := q.workshop }
    if q.changed.isEmpty then next
    else
      passes c s ceiling rules n
        { next with outcome := ⟨q.html, addNew p.outcome.fixed q.changed.reverse⟩ }

/-- The greatest size a repaired document may have. The product is cut off at the greatest number of
64 bits, and the sum wraps around. -/
def growthCeiling (s : RepairSettings) (size : Nat) : Nat :=
  max (Float.ofNat size * s.growthLimit).toUInt64.toNat ((size + s.growthAllowance) % UInt64.size)

def admits (s : Settings) (rules : List Rule) (html : Text) : Bool :=
  !(trim html).isEmpty && byteSize html ≤ s.maxHtmlSize && !rules.isEmpty

/-- Repairs a document, unless it is blank or too large or there is nothing to do. -/
def run (s : Settings) (rules : List Rule) (html : Text) (w : Workshop)
    (c : Conduct := .steady) : Progress :=
  let start : Progress := { outcome := ⟨html, []⟩, workshop := w }
  if admits s rules html then
    passes c s (growthCeiling s.repair (byteSize html)) rules s.repair.maxPasses start
  else start

end MailMarkup.Repair
