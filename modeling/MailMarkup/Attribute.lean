import MailMarkup.Text.Basic

/-!
# Attributes as written

The attribute text of an opening tag is scanned leniently: nothing is refused, stray characters are
passed over, and each attribute keeps what is wrong with the way it was written. Rendering writes
attributes in one normal form.
-/
namespace MailMarkup
open Text

/-- One attribute as written. An absent quote with a value means that the value was bare. -/
structure Attribute where
  name : Text
  value : Option Text := none
  quote : Option Char := none
  spacedEquals : Bool := false
  unterminated : Bool := false
  deriving DecidableEq, Repr, Inhabited

namespace Attribute

def of (name value : Text) : Attribute := { name, value := some value, quote := some '"' }

def is (a : Attribute) (name : Text) : Bool := sameLetters a.name name

def isUnquoted (a : Attribute) : Bool := a.value.isSome && a.quote.isNone

def isMalformed (a : Attribute) : Bool := a.isUnquoted || a.spacedEquals || a.unterminated

/-- Lower-case name and quoted value: in double quotes, unless only those occur in the value. -/
def render (a : Attribute) : Text :=
  let name := lower a.name
  match a.value with
  | none => name
  | some v =>
    if v.any (· == '"') && !v.any (· == '\'') then name ++ ['=', '\''] ++ v ++ ['\'']
    else name ++ ['=', '"'] ++ replaceChar '"' "&quot;".toList v ++ ['"']

def isNameChar (c : Char) : Bool :=
  !(isBlank c || c == '=' || c == '"' || c == '\'' || c == '/')

/-- Value, quote and whether the quote is missing its partner; then what follows. -/
def scanValue (t : Text) : (Text × Option Char × Bool) × Text :=
  let bare (t : Text) : Text × Text := (t.takeWhile (!isBlank ·), t.dropWhile (!isBlank ·))
  match t with
  | [] => (([], none, false), [])
  | q :: inner =>
    if q == '"' || q == '\'' then
      match inner.dropWhile (· != q) with
      | _ :: rest => ((inner.takeWhile (· != q), some q, false), rest)
      | [] => (((bare inner).1, some q, true), (bare inner).2)
    else (((bare t).1, none, false), (bare t).2)

/-- The attribute that starts here, if one does, and what follows. -/
def scanOne (t : Text) : Option Attribute × Text :=
  match t.takeWhile isNameChar with
  | [] => (none, t.drop 1)
  | c :: cs =>
    let name := c :: cs
    let rest := t.dropWhile isNameChar
    match trimStart rest with
    | '=' :: afterEq =>
      let v := scanValue (trimStart afterEq)
      (some {
        name, value := some v.1.1, quote := v.1.2.1, unterminated := v.1.2.2,
        spacedEquals := rest.head?.any isBlank || afterEq.head?.any isBlank }, v.2)
    | _ => (some { name }, rest)

theorem length_dropWhile_le (p : Char → Bool) (t : Text) : (t.dropWhile p).length ≤ t.length :=
  (List.dropWhile_sublist p).length_le

theorem scanValue_le (t : Text) : (scanValue t).2.length ≤ t.length := by
  unfold scanValue
  split
  · simp
  · rename_i q inner
    dsimp only
    split
    · split
      · rename_i x rest h
        have := length_dropWhile_le (· != q) inner
        rw [h] at this
        simp only [List.length_cons] at this ⊢
        omega
      · have := length_dropWhile_le (!isBlank ·) inner
        simp only [List.length_cons]
        omega
    · exact length_dropWhile_le _ _

theorem scanOne_lt {t : Text} (h : t ≠ []) : (scanOne t).2.length < t.length := by
  have hpos := List.length_pos_iff.2 h
  unfold scanOne
  split
  · simp only [List.length_drop]; omega
  · rename_i c cs hname
    have hrest : (t.dropWhile isNameChar).length < t.length := by
      have := congrArg List.length (List.takeWhile_append_dropWhile (p := isNameChar) (l := t))
      rw [hname] at this
      simp only [List.length_append, List.length_cons] at this
      omega
    dsimp only
    split
    · rename_i afterEq heq
      have h1 := scanValue_le (trimStart afterEq)
      have h2 : (trimStart afterEq).length ≤ afterEq.length := length_dropWhile_le _ _
      have h3 : (trimStart (t.dropWhile isNameChar)).length ≤ (t.dropWhile isNameChar).length :=
        length_dropWhile_le _ _
      rw [heq] at h3
      simp only [List.length_cons] at h3 ⊢
      omega
    · exact hrest

/-- The attributes in a text, after those in `acc`, which stand last first. -/
def scanFrom (t : Text) (acc : List Attribute) : List Attribute :=
  if _ : trimStart t = [] then acc.reverse
  else
    let r := scanOne (trimStart t)
    scanFrom r.2 (match r.1 with
      | some a => a :: acc
      | none => acc)
termination_by t.length
decreasing_by exact Nat.lt_of_lt_of_le (scanOne_lt (by assumption)) (length_dropWhile_le _ _)

def scan (t : Text) : List Attribute := scanFrom t []

/-- Attribute text for a tag: every attribute after a space. -/
def renderAll (as : List Attribute) : Text := as.flatMap fun a => ' ' :: a.render

def find? (as : List Attribute) (name : Text) : Option Attribute := as.find? (·.is name)

def has (as : List Attribute) (name : Text) : Bool := as.any (·.is name)

/-- A tag with more attribute text, before its `>` or `/>`. -/
def insertInto (tag extra : Text) : Text :=
  match tag.reverse with
  | '>' :: '/' :: head => trimEnd head.reverse ++ [' '] ++ extra ++ [' ', '/', '>']
  | '>' :: head => trimEnd head.reverse ++ [' '] ++ extra ++ ['>']
  | _ => tag ++ [' '] ++ extra

end Attribute
end MailMarkup
