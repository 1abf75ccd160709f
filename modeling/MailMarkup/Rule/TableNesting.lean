import MailMarkup.Rule.Basic

/-!
# Tables inside tables

Tables nested too deeply are reported where the limit is passed. The repair replaces a table that
only wraps another one by the table inside.
-/
namespace MailMarkup.TableNesting

def tableTag : Text := "table".toList

/-- The nodes of a forest as the next ones on a walk, with `d` tables around them. -/
def within (d : Nat) (ns : Forest) : List (Node × Nat) := ns.map (·, d)

/-- The number of nodes still to come on a walk with these next ones. -/
def ahead : List (Node × Nat) → Nat
  | [] => 0
  | p :: stack => p.1.size + ahead stack

theorem ahead_append (s t : List (Node × Nat)) : ahead (s ++ t) = ahead s + ahead t := by
  induction s with
  | nil => exact (Nat.zero_add _).symm
  | cons p s ih => rw [List.cons_append, ahead, ahead, ih, Nat.add_assoc]

theorem ahead_reverse (s : List (Node × Nat)) : ahead s.reverse = ahead s := by
  induction s with
  | nil => rfl
  | cons p s ih => rw [List.reverse_cons, ahead_append, ih, Nat.add_comm]; rfl

theorem size_within (d : Nat) (ns : Forest) : ahead (within d ns) = Forest.size ns := by
  induction ns with
  | nil => rfl
  | cons n ns ih => rw [Forest.size, ← ih]; rfl

theorem ahead_cons (p : Node × Nat) (stack : List (Node × Nat)) :
    ahead stack < ahead (p :: stack) :=
  Nat.lt_add_of_pos_left p.1.size_pos

theorem ahead_within (h : Head) (cs : Forest) (d d' : Nat) (stack : List (Node × Nat)) :
    ahead (within d' cs ++ stack) < ahead ((.element h cs, d) :: stack) := by
  rw [ahead_append, size_within, ahead, Node.size]
  omega

theorem ahead_within_reverse (h : Head) (cs : Forest) (d d' : Nat) (stack : List (Node × Nat)) :
    ahead ((within d' cs).reverse ++ stack) < ahead ((.element h cs, d) :: stack) := by
  rw [ahead_append, ahead_reverse, ← ahead_append]
  exact ahead_within h cs d d' stack

/-- Goes on with a walk, told the next nodes and the number of tables around each of them; of the
children of an element the last one is next. `best` is the greatest number of tables inside one
another so far. -/
def descend (best : Nat) : List (Node × Nat) → Nat
  | [] => best
  | (.element h cs, d) :: stack =>
    let d := if h.tag == tableTag then d + 1 else d
    descend (max best d) ((within d cs).reverse ++ stack)
  | _ :: stack => descend best stack
termination_by stack => ahead stack
decreasing_by
  · exact ahead_within_reverse ..
  · exact ahead_cons ..

/-- The greatest number of tables inside one another. -/
def depth (ns : Forest) : Nat := descend 0 (within 0 ns).reverse

/-- Goes on with a walk in document order. The tables that it finds, last first, are those with
exactly `limit` tables around them, each with the depth reached in it; what they hold is passed
over. The limit may be any number of 64 bits: where `limit + 1` is none, no table is found
(`tooDeep_of_size_le`). -/
def tooDeep (limit : Nat) (found : List (Head × Nat)) : List (Node × Nat) → List (Head × Nat)
  | [] => found.reverse
  | (.element h cs, d) :: stack =>
    let d := if h.tag == tableTag then d + 1 else d
    if h.tag == tableTag && d == limit + 1 then
      tooDeep limit ((h, d - 1 + depth [.element h cs]) :: found) stack
    else tooDeep limit found (within d cs ++ stack)
  | _ :: stack => tooDeep limit found stack
termination_by stack => ahead stack
decreasing_by
  · exact ahead_cons ..
  · exact ahead_within ..
  · exact ahead_cons ..

def check : TreeCheck := fun s forest info => do
  let limit := s.settings.thresholds.maxTableDepth
  return (tooDeep limit [] (within 0 forest)).map fun (h, total) =>
    let message := "Tables are nested " ++ toString total ++ " levels deep (maximum " ++
      toString limit ++ ")"
    ((Finding.of info message).at_ h.start).suggest "Flatten wrapper tables that hold a single cell"

/-- The only child of an element, if that is an element. -/
def onlyChild? (children : Forest) : Option (Head × Forest) :=
  match children with
  | [.element h cs] => some (h, cs)
  | _ => none

def closedChild? (tag : String) (children : Forest) : Option (Head × Forest) :=
  (onlyChild? children).filter fun c => c.1.tag == tag.toList && c.1.closed

/-- Attributes of a cell that say nothing about its looks. -/
def neutralAttributes : List Text := ["width", "align", "valign"].map String.toList

/-- The children of the only row: directly in the table or in its only body. -/
def rowContent? (children : Forest) : Option Forest :=
  match onlyChild? children with
  | some (h, cs) =>
    if h.tag == "tbody".toList then
      if h.closed then (closedChild? "tr" cs).map Prod.snd else none
    else (closedChild? "tr" children).map Prod.snd
  | none => none

/-- The table inside, for a table of one row with one cell of no looks of its own that holds nothing
but a table. -/
def wrapped? (h : Head) (children : Forest) : Option Head :=
  if h.tag == tableTag && h.closed then
    (rowContent? children).bind fun row =>
    (closedChild? "td" row).bind fun (cell, inner) =>
      if cell.attributes.all (fun a => neutralAttributes.contains a.1) then
        ((onlyChild? inner).filter (·.1.tag == tableTag)).map Prod.fst
      else none
  else none

mutual

/-- The outermost wrappers with the tables inside, last first. -/
def wrappers (acc : List (Head × Head)) : Node → List (Head × Head)
  | .element h cs =>
    match wrapped? h cs with
    | some inner => (h, inner) :: acc
    | none => wrappersIn acc cs
  | .text _ _ => acc
  | .comment _ _ => acc

def wrappersIn (acc : List (Head × Head)) : Forest → List (Head × Head)
  | [] => acc
  | n :: ns => wrappersIn (wrappers acc n) ns

end

/-- The text from index `i` on, with each outer range replaced by its inner one. -/
def splice (i : Nat) (rest : Text) : List (Head × Head) → Text
  | [] => rest
  | (outer, inner) :: more =>
    rest.take (outer.start.index - i) ++
      ((rest.drop (inner.start.index - i)).take (inner.stop.index - inner.start.index) ++
        splice outer.stop.index (rest.drop (outer.stop.index - i)) more)

def fix : Fix := fun s => do
  let forest := (Document.read s.settings.limits s.html).nodes
  if depth forest ≤ s.settings.thresholds.maxTableDepth then return s.html
  else return splice 0 s.html (wrappersIn [] forest).reverse

def rule : Rule :=
  (Rule.onTree {
    name := "table-nesting", displayName := "Table nesting",
    description := "Deeply nested tables are slow to render and fragile in Outlook",
    severity := .warning, category := .performance } check).withFix fix

end MailMarkup.TableNesting
