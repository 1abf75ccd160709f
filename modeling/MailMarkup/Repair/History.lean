import MailMarkup.Repair.Run

/-!
# A record of repairs

Repairs are remembered by the size of the document and the rules that changed it.
-/
namespace MailMarkup.Repair

structure Record where
  key : String
  time : Time
  passes : Nat
  /-- False when a repair was dropped because the document grew too much. -/
  success : Bool
  occurrences : Nat
  deriving DecidableEq, Repr, Inhabited

structure Ledger where
  history : Cache String Record
  runs : Nat := 0
  fixesApplied : Nat := 0
  rejected : Nat := 0

namespace Ledger

def new (policy : Policy) (now : Time) : Ledger := { history := .new policy now }

def records (l : Ledger) : List Record :=
  l.history.values.mergeSort fun a b =>
    b.time < a.time || (a.time == b.time && a.key ≤ b.key)

def resetStats (l : Ledger) : Ledger := { l with runs := 0, fixesApplied := 0, rejected := 0 }

def recordKey (size : Nat) (fixed : List String) : String :=
  toString size ++ ":" ++ String.intercalate "," fixed

def enter (l : Ledger) (now : Time) (size : Nat) (p : Progress) : Ledger :=
  let key := recordKey size p.outcome.fixed
  let fresh : Record := ⟨key, now, p.passes, p.success, 1⟩
  let update (r : Record) : Record :=
    { r with
      time := now, passes := p.passes, success := p.success, occurrences := r.occurrences + 1 }
  { l with
    history := l.history.upsert now key update fresh,
    fixesApplied := l.fixesApplied + p.outcome.fixed.length }

def repair (l : Ledger) (s : Settings) (rules : List Rule) (html : Text) (w : Workshop)
    (c : Conduct := .steady) : Outcome × Ledger × Workshop :=
  let l := { l with runs := l.runs + 1 }
  let p := run s rules html w c
  let w := p.workshop
  if admits s rules html then
    (p.outcome,
      { l.enter w.clock (Text.byteSize html) p with rejected := l.rejected + p.unsound },
      w.advance)
  else (p.outcome, l, w)

end Ledger
end MailMarkup.Repair
