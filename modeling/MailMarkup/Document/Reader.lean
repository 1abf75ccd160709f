import MailMarkup.Document.Limits
import MailMarkup.Document.Node

/-!
# Reading a document

One forward pass that never fails. The elements that are open are kept on a stack, innermost first.
A closing tag closes the innermost element if it names it, closes the innermost element without
being read if it names another open one, and is skipped otherwise. Every round of the main loop
reads something or leaves an element, which bounds the number of rounds.
-/
namespace MailMarkup.Reader
open Text

def voidTags : List Text :=
  ["br", "hr", "img", "area", "base", "col", "input"].map String.toList

/-- Elements whose content is taken as it stands up to their closing tag. -/
def rawTags : List Text := ["script", "style"].map String.toList

inductive Markup where
  | comment | closing | declaration | element | text
  deriving DecidableEq, Repr

def classify : Text → Markup
  | '<' :: '!' :: '-' :: '-' :: _ => .comment
  | '<' :: '/' :: _ => .closing
  | '<' :: '!' :: _ => .declaration
  | '<' :: '?' :: _ => .declaration
  | '<' :: c :: _ => if isLetter c then .element else .text
  | _ => .text

def isTagChar (c : Char) : Bool :=
  isLetter c || isDigit c || c == '-' || c == ':' || c == '_' || c == '.'

def isNameChar (c : Char) : Bool :=
  !(isBlank c || c == '=' || c == '>' || c == '/' || c == '<' || c == '"' || c == '\'')

def isBareChar (c : Char) : Bool := !(isBlank c || c == '>' || c == '<')

def tagName (c : Cursor) : Text × Cursor :=
  let name := c.rest.takeWhile isTagChar
  (lower name, c.advance name.length)

/-- Past the next `>`, or at a `<` that comes before it. -/
def recover (c : Cursor) : Cursor :=
  let c' := c.skipWhile fun x => x != '<' && x != '>'
  if c'.peek == some '>' then c'.next else c'

def bareValue (c : Cursor) : Text × Cursor :=
  let v := c.rest.takeWhile isBareChar
  (v, c.advance v.length)

/-- A value after its opening quote. Without a closing quote it ends like a bare one. -/
def quotedValue (q : Char) (c : Cursor) : Text × Cursor :=
  let v := c.rest.takeWhile (· != q)
  if (c.rest.drop v.length).isEmpty then bareValue c else (v, c.advance (v.length + 1))

def attributeValue (c : Cursor) : Text × Cursor :=
  match c.peek with
  | some q => if q == '"' || q == '\'' then quotedValue q c.next else bareValue c
  | none => bareValue c

/-- An attribute, unless its name would be empty. -/
def attribute? (c : Cursor) : Option ((Text × Text) × Cursor) :=
  let name := c.rest.takeWhile isNameChar
  if name.isEmpty then none
  else
    let afterName := c.advance name.length
    let eq := afterName.skipBlanks
    if eq.peek == some '=' then
      let value := attributeValue eq.next.skipBlanks
      some ((lower name, value.1), value.2)
    else some ((lower name, []), afterName)

/-- A tag read up to its end: where, the counters, the attributes, and whether it closes itself. -/
structure TagEnd where
  cursor : Cursor
  stats : ReadStats
  attributes : List (Text × Text)
  selfClosing : Bool := false

def bailOut (c : Cursor) (st : ReadStats) (seen : List (Text × Text)) : TagEnd :=
  ⟨recover c, { st with attributeBailouts := st.attributeBailouts + 1 }, seen.reverse, false⟩

theorem skipBlanks_lt {c : Cursor} (h : c.peek.any isBlank = true) :
    c.skipBlanks.rest.length < c.rest.length := by
  rw [Cursor.skipBlanks, Cursor.rest_skipWhile]
  cases hr : c.rest with
  | nil => simp [Cursor.peek, hr] at h
  | cons x t =>
    have hx : isBlank x = true := by simpa [Cursor.peek, hr] using h
    have := List.dropWhile_sublist (p := isBlank) (l := t)
    have := this.length_le
    simp only [List.dropWhile_cons, hx, ↓reduceIte, List.length_cons]
    omega

theorem skipBlanks_le (c : Cursor) : c.skipBlanks.rest.length ≤ c.rest.length :=
  Cursor.rest_skipWhile_le _ c

theorem next_le (c : Cursor) : c.next.rest.length ≤ c.rest.length := by simp

theorem next_lt {c : Cursor} (h : c.rest ≠ []) : c.next.rest.length < c.rest.length := by
  cases hr : c.rest with
  | nil => exact absurd hr h
  | cons x t => simp [hr]

theorem recover_le (c : Cursor) : (recover c).rest.length ≤ c.rest.length := by
  have h := Cursor.rest_skipWhile_le (fun x => x != '<' && x != '>') c
  unfold recover
  dsimp only
  split
  · exact Nat.le_trans (next_le _) h
  · exact h

theorem bareValue_le (c : Cursor) : (bareValue c).2.rest.length ≤ c.rest.length := by
  simp [bareValue]

theorem quotedValue_le (q : Char) (c : Cursor) :
    (quotedValue q c).2.rest.length ≤ c.rest.length := by
  unfold quotedValue
  dsimp only
  split
  · exact bareValue_le c
  · simp

theorem attributeValue_le (c : Cursor) : (attributeValue c).2.rest.length ≤ c.rest.length := by
  unfold attributeValue
  split
  · split
    · exact Nat.le_trans (quotedValue_le _ _) (next_le c)
    · exact bareValue_le c
  · exact bareValue_le c

theorem attribute?_lt {c c' : Cursor} {a : Text × Text} (h : attribute? c = some (a, c')) :
    c'.rest.length < c.rest.length := by
  unfold attribute? at h
  dsimp only at h
  split at h
  · exact absurd h nofun
  · rename_i hne
    have hpos : 0 < (c.rest.takeWhile isNameChar).length := by
      rw [List.length_pos_iff]; intro hn; simp [hn] at hne
    have hle := (List.takeWhile_sublist (p := isNameChar) (l := c.rest)).length_le
    have hafter : (c.advance (c.rest.takeWhile isNameChar).length).rest.length < c.rest.length := by
      rw [Cursor.rest_advance, List.length_drop]; omega
    split at h
    · simp only [Option.some.injEq, Prod.mk.injEq] at h
      rw [← h.2]
      have h1 := attributeValue_le
        (c.advance (c.rest.takeWhile isNameChar).length).skipBlanks.next.skipBlanks
      have h2 := skipBlanks_le (c.advance (c.rest.takeWhile isNameChar).length).skipBlanks.next
      have h3 := next_le (c.advance (c.rest.takeWhile isNameChar).length).skipBlanks
      have h4 := skipBlanks_le (c.advance (c.rest.takeWhile isNameChar).length)
      omega
    · simp only [Option.some.injEq, Prod.mk.injEq] at h
      rw [← h.2]
      exact hafter

/-- Reads the attributes of a tag and its end. A repeated name keeps its first value; a character
that starts nothing is passed over. -/
def attributes (l : Limits) (c : Cursor) (st : ReadStats) (round : Nat)
    (seen : List (Text × Text)) : TagEnd :=
  if l.maxAttributeIterations ≤ round then bailOut c st seen
  else
    match st.tick l with
    | (st, false) => bailOut c st seen
    | (st, true) =>
      let c' := c.skipBlanks
      if _ : c'.rest = [] then ⟨c', st, seen.reverse, false⟩
      else if c'.peek == some '>' then ⟨c'.next, st, seen.reverse, false⟩
      else if c'.peek == some '/' then
        if c'.next.peek == some '>' then ⟨c'.next.next, st, seen.reverse, true⟩
        else attributes l c'.next st (round + 1) seen
      else if c'.peek == some '<' then ⟨c', st, seen.reverse, false⟩
      else
        match ha : attribute? c' with
        | some (a, c'') =>
          attributes l c'' st (round + 1) (if seen.any (·.1 == a.1) then seen else a :: seen)
        | none =>
          if hb : c.peek.any isBlank = true then attributes l c' st (round + 1) seen
          else
            attributes l c'.next { st with forcedAdvances := st.forcedAdvances + 1 } (round + 1)
              seen
termination_by c.rest.length
decreasing_by
  · exact Nat.lt_of_lt_of_le (next_lt (by assumption)) (skipBlanks_le c)
  · exact Nat.lt_of_lt_of_le (attribute?_lt ha) (skipBlanks_le c)
  · exact skipBlanks_lt hb
  · exact Nat.lt_of_lt_of_le (next_lt (by assumption)) (skipBlanks_le c)

theorem attributes_le (l : Limits) (c : Cursor) (st : ReadStats) (round : Nat)
    (seen : List (Text × Text)) :
    (attributes l c st round seen).cursor.rest.length ≤ c.rest.length := by
  fun_induction attributes l c st round seen with
  | case1 => exact recover_le _
  | case2 => exact recover_le _
  | case3 => exact skipBlanks_le _
  | case4 => exact Nat.le_trans (next_le _) (skipBlanks_le _)
  | case5 => exact Nat.le_trans (next_le _) (Nat.le_trans (next_le _) (skipBlanks_le _))
  | case6 c _ _ _ _ _ _ _ _ _ _ _ ih =>
    exact Nat.le_trans ih (Nat.le_trans (next_le _) (skipBlanks_le c))
  | case7 => exact skipBlanks_le _
  | case8 c _ _ _ _ _ _ _ _ _ _ _ _ _ ha ih =>
    exact Nat.le_trans ih (Nat.le_trans (Nat.le_of_lt (attribute?_lt ha)) (skipBlanks_le c))
  | case9 c _ _ _ _ _ _ _ _ _ _ _ _ _ ih => exact Nat.le_trans ih (skipBlanks_le c)
  | case10 c _ _ _ _ _ _ _ _ _ _ _ _ _ ih =>
    exact Nat.le_trans ih (Nat.le_trans (next_le _) (skipBlanks_le c))

/-- The text that starts here: up to the next `<` that opens markup, or the end. -/
def textRun : Text → Text → Text
  | [], acc => acc.reverse
  | c :: t, acc => if classify (c :: t) = .text then textRun t (c :: acc) else acc.reverse

def closingTag (c : Cursor) : Text × Cursor :=
  let name := tagName (c.advance 2)
  (name.1, recover name.2)

def commentBody (c : Cursor) : Text × Cursor :=
  match cut? ['-', '-', '>'] (c.rest.drop 4) with
  | some (body, _) => (body, c.advance (4 + body.length + 3))
  | none => (c.rest.drop 4, c.advance c.rest.length)

def afterDeclaration (c : Cursor) : Cursor :=
  c.advance ((c.rest.takeWhile (· != '>')).length + 1)

/-- The content of a raw element: its text if there is any, whether it is closed, and the place
after it. -/
def rawContent (tag : Text) (c : Cursor) : Forest × Bool × Cursor :=
  let closer := '<' :: '/' :: tag
  let (size, found) := match cut? closer (lower c.rest) with
    | some (body, _) => (body.length, true)
    | none => (c.rest.length, false)
  let content := trim (c.rest.take size)
  let nodes : Forest := if content.isEmpty then [] else [.text content c.pos]
  (nodes, found, if found then recover (c.advance (size + closer.length)) else c.advance size)

/-- An open element: what its tag said, where it starts, and the siblings before it, last first. -/
structure Frame where
  tag : Text
  attributes : List (Text × Text)
  start : Position
  earlier : Forest

/-- The place, the counters, the children of the innermost open element read so far, last first, and
the open elements, innermost first. -/
structure State where
  cursor : Cursor
  stats : ReadStats
  nodes : Forest
  frames : List Frame

/-- The element an open one becomes, given its children, last first, and where it ends. -/
def Frame.close (f : Frame) (nodes : Forest) (stop : Position) (closed : Bool) : Node :=
  .element ⟨f.tag, f.attributes, f.start, stop, closed⟩ nodes.reverse

def State.push (s : State) (n : Node) : State := { s with nodes := n :: s.nodes }

/-- Ends the innermost open element at `c`. -/
def State.leave (s : State) (c : Cursor) (closed : Bool) : State :=
  match s.frames with
  | [] => { s with cursor := c }
  | f :: fs =>
    { s with cursor := c, nodes := f.close s.nodes c.pos closed :: f.earlier, frames := fs }

def openTag (l : Limits) (s : State) : State :=
  let start := s.cursor.pos
  let name := tagName s.cursor.next
  let tag := name.1
  let e := attributes l name.2 s.stats 0 []
  let whole (c : Cursor) (stats : ReadStats) (children : Forest) (closed : Bool) : State :=
    { s with
      cursor := c, stats := stats,
      nodes := .element ⟨tag, e.attributes, start, c.pos, closed⟩ children :: s.nodes }
  if e.selfClosing || voidTags.contains tag then whole e.cursor e.stats [] true
  else if rawTags.contains tag then
    let raw := rawContent tag e.cursor
    whole raw.2.2 e.stats raw.1 raw.2.1
  else if l.maxDepth ≤ s.frames.length then
    whole e.cursor { e.stats with depthLimitHits := e.stats.depthLimitHits + 1 } [] false
  else
    ⟨e.cursor, e.stats, [], ⟨tag, e.attributes, start, s.nodes⟩ :: s.frames⟩

def markup (l : Limits) (s : State) : State :=
  match classify s.cursor.rest with
  | .comment =>
    let body := commentBody s.cursor
    { s.push (.comment body.1 s.cursor.pos) with cursor := body.2 }
  | .declaration => { s with cursor := afterDeclaration s.cursor }
  | .closing =>
    let closer := closingTag s.cursor
    match s.frames with
    | [] => { s with cursor := closer.2 }
    | f :: fs =>
      if f.tag == closer.1 then s.leave closer.2 true
      else if fs.any (·.tag == closer.1) then s.leave s.cursor false
      else { s with cursor := closer.2 }
  | .element => openTag l s
  | .text =>
    let run := textRun s.cursor.rest []
    let content := trim run
    let s' := if content.isEmpty then s else s.push (.text content s.cursor.pos)
    { s' with cursor := s.cursor.advance run.length }

/-- One round of the main loop; `false` when there is nothing more to do. -/
def step (l : Limits) (s : State) : State × Bool :=
  if s.cursor.atEnd then (s, false)
  else
    match s.stats.tick l with
    | (st, false) => ({ s with stats := st }, false)
    | (st, true) =>
      let c := s.cursor.skipBlanks
      let s' := { s with cursor := c, stats := st }
      if c.atEnd then (s', false) else (markup l s', true)

/-- Characters left and open elements: what every round of the main loop makes smaller. -/
def State.size (s : State) : Nat := s.cursor.rest.length + s.frames.length

theorem tagName_le (c : Cursor) : (tagName c).2.rest.length ≤ c.rest.length := by
  simp [tagName]

theorem closingTag_lt {c : Cursor} (h : c.rest ≠ []) :
    (closingTag c).2.rest.length < c.rest.length := by
  have h1 := recover_le (tagName (c.advance 2)).2
  have h2 := tagName_le (c.advance 2)
  have h3 : (c.advance 2).rest.length < c.rest.length := by
    have := List.length_pos_iff.2 h
    rw [Cursor.rest_advance, List.length_drop]; omega
  simp only [closingTag]
  omega

theorem commentBody_lt {c : Cursor} (h : c.rest ≠ []) :
    (commentBody c).2.rest.length < c.rest.length := by
  have := List.length_pos_iff.2 h
  unfold commentBody
  split <;> (simp only [Cursor.rest_advance, List.length_drop]; omega)

theorem afterDeclaration_lt {c : Cursor} (h : c.rest ≠ []) :
    (afterDeclaration c).rest.length < c.rest.length := by
  have := List.length_pos_iff.2 h
  simp only [afterDeclaration, Cursor.rest_advance, List.length_drop]
  omega

theorem rawContent_le (tag : Text) (c : Cursor) :
    (rawContent tag c).2.2.rest.length ≤ c.rest.length := by
  simp only [rawContent]
  split
  · exact Nat.le_trans (recover_le _) (Cursor.rest_advance_le _ _)
  · exact Cursor.rest_advance_le _ _

theorem length_le_textRun (t acc : Text) : acc.length ≤ (textRun t acc).length := by
  induction t generalizing acc with
  | nil => simp [textRun]
  | cons c t ih =>
    rw [textRun]
    split
    · have := ih (c :: acc); simp at this; omega
    · simp

theorem textRun_pos {t : Text} (hne : t ≠ []) (h : classify t = .text) :
    0 < (textRun t []).length := by
  cases t with
  | nil => exact absurd rfl hne
  | cons c t =>
    rw [textRun, if_pos h]
    exact Nat.lt_of_lt_of_le (by simp) (length_le_textRun t [c])

theorem openTag_size {l : Limits} {s : State} (h : classify s.cursor.rest = .element) :
    (openTag l s).size < s.size := by
  have hlen : 2 ≤ s.cursor.rest.length := by
    match hr : s.cursor.rest with
    | [] => rw [hr] at h; exact absurd h (by decide)
    | [x] => rw [hr] at h; unfold classify at h; split at h <;> simp_all
    | _ :: _ :: _ => simp
  have hletter : 0 < (s.cursor.rest.tail.takeWhile isTagChar).length := by
    match hr : s.cursor.rest with
    | [] => rw [hr] at hlen; simp at hlen
    | [_] => rw [hr] at hlen; simp at hlen
    | x :: y :: t =>
      rw [hr] at h
      unfold classify at h
      split at h <;> simp_all [isTagChar]
  have hname : (tagName s.cursor.next).2.rest.length + 2 ≤ s.cursor.rest.length := by
    simp only [tagName, Cursor.rest_advance, Cursor.rest_next, List.length_drop, List.length_tail]
    omega
  have hattrs := attributes_le l (tagName s.cursor.next).2 s.stats 0 []
  unfold openTag
  simp only [State.size]
  split
  · simp only; omega
  · split
    · have := rawContent_le (tagName s.cursor.next).1
        (attributes l (tagName s.cursor.next).2 s.stats 0 []).cursor
      simp only; omega
    · split
      · simp only; omega
      · simp only [List.length_cons]; omega

theorem markup_size {l : Limits} {s : State} (h : s.cursor.rest ≠ []) :
    (markup l s).size < s.size := by
  unfold markup
  split
  · have := commentBody_lt h
    simp only [State.size, State.push]; omega
  · have := afterDeclaration_lt h
    simp only [State.size]; omega
  · have hc := closingTag_lt h
    split
    · simp only [State.size]; omega
    · rename_i f fs hf
      dsimp only
      split
      · simp only [State.leave, hf, State.size, List.length_cons]; omega
      · split
        · simp only [State.leave, hf, State.size, List.length_cons]; omega
        · simp only [State.size]; omega
  · exact openTag_size ‹_›
  · rename_i hc
    have hpos := textRun_pos h hc
    have hrest := List.length_pos_iff.2 h
    simp only [State.size, Cursor.rest_advance, List.length_drop]
    split
    · omega
    · simp only [State.push]; omega

theorem step_size {l : Limits} {s s' : State} (h : step l s = (s', true)) : s'.size < s.size := by
  unfold step at h
  split at h
  · exact absurd (congrArg Prod.snd h) nofun
  · split at h
    · exact absurd (congrArg Prod.snd h) nofun
    · dsimp only at h
      split at h
      · exact absurd (congrArg Prod.snd h) nofun
      · rename_i hend
        obtain rfl := (Prod.mk.inj h).1
        have hne : s.cursor.skipBlanks.rest ≠ [] := by
          intro hr; simp [Cursor.atEnd, hr] at hend
        refine Nat.lt_of_lt_of_le (markup_size hne) ?_
        have := skipBlanks_le s.cursor
        simp only [State.size]; omega

def run (l : Limits) (s : State) : State :=
  match _ : step l s with
  | (s', false) => s'
  | (s', true) => run l s'
termination_by s.size
decreasing_by exact step_size (by assumption)

/-- The forest once the elements that are still open end at `stop`, innermost first. -/
def finish (stop : Position) : Forest → List Frame → Forest
  | nodes, [] => nodes.reverse
  | nodes, f :: fs => finish stop (f.close nodes stop false :: f.earlier) fs

end MailMarkup.Reader

namespace MailMarkup

structure Document where
  nodes : Forest
  stats : ReadStats

def Document.read (l : Limits) (t : Text) : Document :=
  let s := Reader.run l ⟨.start t, {}, [], []⟩
  ⟨Reader.finish s.cursor.pos s.nodes s.frames, s.stats⟩

end MailMarkup
