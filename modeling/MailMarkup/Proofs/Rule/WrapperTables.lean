import MailMarkup.Proofs.Document.Transplant
import MailMarkup.Rule.TableNesting

/-!
# Wrapper tables

A table that only wraps another one is found in the tree and removed in the text: its range is
replaced by that of the table inside. Main statement: `fix_collapses`, the text so made reads as the
tree in which the outermost wrappers are replaced by the tables inside. The splice is followed along
the reading of the document. What lies between wrappers is copied, and in the place of a wrapper the
table inside is read with fewer elements open.
-/
namespace MailMarkup

namespace TableNesting
open Reader

/-! ### Wrappers and what they wrap -/

/-- The table inside a wrapper, with its content. -/
def inner? (h : Head) (children : Forest) : Option (Head × Forest) :=
  if h.tag == tableTag && h.closed then
    (rowContent? children).bind fun row =>
    (closedChild? "td" row).bind fun (cell, inner) =>
      if cell.attributes.all (fun a => neutralAttributes.contains a.1) then
        (onlyChild? inner).filter (·.1.tag == tableTag)
      else none
  else none

theorem wrapped?_eq (h : Head) (cs : Forest) : wrapped? h cs = (inner? h cs).map Prod.fst := by
  unfold wrapped? inner?
  split
  · rw [Option.map_bind]
    congr 1
    funext row
    rw [Function.comp_apply, Option.map_bind]
    congr 1
    funext ⟨cell, inner⟩
    dsimp only [Function.comp_apply]
    split <;> rfl
  · rfl

mutual

/-- A node with each outermost wrapper in it replaced by the table inside. -/
def collapse : Node → Node
  | .element h cs =>
    match inner? h cs with
    | some (h', cs') => .element h' cs'
    | none => .element h (collapseIn cs)
  | .text t p => .text t p
  | .comment t p => .comment t p

def collapseIn : Forest → Forest
  | [] => []
  | n :: ns => collapse n :: collapseIn ns

end

/-- A forest is in another one when only closed elements without siblings are around it. -/
inductive Holds (inner : Forest) : Forest → Prop where
  | self : Holds inner inner
  | child {h : Head} {cs : Forest} (closed : h.closed = true)
      (notRaw : rawTags.contains h.tag = false) (held : Holds inner cs) :
      Holds inner [.element h cs]

theorem onlyChild?_eq_some {cs : Forest} {c : Head × Forest} (h : onlyChild? cs = some c) :
    cs = [.element c.1 c.2] := by
  unfold onlyChild? at h
  split at h
  · obtain rfl := Option.some.inj h
    rfl
  · exact absurd h nofun

private theorem closedChild?_eq_some {tag : String} {cs : Forest} {c : Head × Forest}
    (h : closedChild? tag cs = some c) :
    cs = [.element c.1 c.2] ∧ c.1.tag = tag.toList ∧ c.1.closed = true := by
  obtain ⟨honly, hc⟩ := Option.filter_eq_some_iff.1 h
  rw [Bool.and_eq_true, beq_iff_eq] at hc
  exact ⟨onlyChild?_eq_some honly, hc⟩

theorem closedChild?_holds {tag : String} {cs : Forest} {c : Head × Forest} {inner : Forest}
    (h : closedChild? tag cs = some c) (notRaw : rawTags.contains tag.toList = false)
    (held : Holds inner c.2) : Holds inner cs := by
  obtain ⟨rfl, htag, closed⟩ := closedChild?_eq_some h
  exact .child closed (htag ▸ notRaw) held

private theorem rowContent?_holds {cs row inner : Forest} (h : rowContent? cs = some row)
    (held : Holds inner row) : Holds inner cs := by
  unfold rowContent? at h
  split at h
  · rename_i body content honly
    obtain rfl := onlyChild?_eq_some honly
    have hrow {cs : Forest} (h : (closedChild? "tr" cs).map Prod.snd = some row) :
        Holds inner cs := by
      obtain ⟨c, hc, rfl⟩ := Option.map_eq_some_iff.1 h
      exact closedChild?_holds hc (by decide) held
    split at h
    · rename_i htag
      split at h
      · rename_i closed
        exact .child closed (beq_iff_eq.1 htag ▸ by decide) (hrow h)
      · exact absurd h nofun
    · exact hrow h
  · exact absurd h nofun

theorem inner?_holds {h h' : Head} {cs cs' : Forest} (hi : inner? h cs = some (h', cs')) :
    h'.tag = tableTag ∧ Holds [.element h' cs'] cs := by
  unfold inner? at hi
  split at hi
  · obtain ⟨row, hrow, hi⟩ := Option.bind_eq_some_iff.1 hi
    obtain ⟨⟨cell, content⟩, hcell, hi⟩ := Option.bind_eq_some_iff.1 hi
    dsimp only at hi
    split at hi
    · obtain ⟨honly, htag⟩ := Option.filter_eq_some_iff.1 hi
      refine ⟨beq_iff_eq.1 htag, rowContent?_holds hrow (closedChild?_holds hcell (by decide) ?_)⟩
      exact onlyChild?_eq_some honly ▸ .self
    · exact absurd hi nofun
  · exact absurd hi nofun

section Reading
variable {l : Limits} {names : List Text} {c c' : Cursor} {st st' : ReadStats} {ns : Forest}

/-- What is in elements was read in them. -/
theorem Holds.siblings {inner outer : Forest} (held : Holds inner outer) (ne : inner ≠ [])
    (siblings : Siblings l names c st outer c' st') :
    ∃ names' a sa b sb, names ⊆ names' ∧ names.length ≤ names'.length ∧ Onward c st a sa ∧
      Siblings l names' a sa inner b sb ∧ Onward b sb c' st' := by
  induction held generalizing names c st c' st' with
  | self => exact ⟨names, c, st, c', st', List.Subset.refl _, Nat.le_refl _, .refl c st, siblings,
      .refl c' st'⟩
  | @child h cs closed notRaw held ih =>
    obtain ⟨before, tick, entire, behind⟩ := siblings.leading closed notRaw
    cases entire with
    | alone => exact absurd (by cases held; rfl) ne
    | @closed tag e cs b sb opens content =>
      obtain ⟨children, tick', kind, closer⟩ := content
      obtain ⟨names', a', sa'', b', sb', fewer, less, before', found, behind'⟩ := ih children
      refine ⟨names', a', sa'', b', sb', List.Subset.trans (List.subset_cons_self _ _) fewer,
        Nat.le_of_succ_le less, ?_, found, ?_⟩
      · exact before.trans ((onward_tick _ tick).trans (opens.onward.trans before'))
      · exact behind'.trans ((onward_closingTag _ tick').trans behind.onward)

end Reading

/-! ### The list of wrappers -/

mutual

private theorem wrappers_eq (acc : List (Head × Head)) :
    ∀ n : Node, wrappers acc n = wrappers [] n ++ acc
  | .element h cs => by
    unfold wrappers
    split
    · rfl
    · exact wrappersIn_eq acc cs
  | .text _ _ => rfl
  | .comment _ _ => rfl

theorem wrappersIn_eq (acc : List (Head × Head)) :
    ∀ ns : Forest, wrappersIn acc ns = wrappersIn [] ns ++ acc
  | [] => rfl
  | n :: ns => by
    rw [wrappersIn, wrappersIn, wrappers_eq acc n, wrappersIn_eq (wrappers [] n ++ acc) ns,
      wrappersIn_eq (wrappers [] n) ns, List.append_assoc]

end

/-- The outermost wrappers with the tables inside, in order. -/
def found (ns : Forest) : List (Head × Head) := (wrappersIn [] ns).reverse

theorem found_cons (n : Node) (ns : Forest) : found (n :: ns) = found [n] ++ found ns := by
  simp only [found, wrappersIn]
  rw [wrappersIn_eq (wrappers [] n) ns, List.reverse_append]

theorem found_append (ms ns : Forest) : found (ms ++ ns) = found ms ++ found ns := by
  induction ms with
  | nil => rfl
  | cons n ms ih => rw [List.cons_append, found_cons, ih, found_cons n ms, List.append_assoc]

private theorem collapseIn_append (ms ns : Forest) :
    collapseIn (ms ++ ns) = collapseIn ms ++ collapseIn ns := by
  induction ms with
  | nil => rfl
  | cons n ms ih => rw [List.cons_append, collapseIn, ih, collapseIn, List.cons_append]

theorem found_wrapper {h h' : Head} {cs cs' : Forest} (hi : inner? h cs = some (h', cs')) :
    found [.element h cs] = [(h, h')] := by
  simp [found, wrappersIn, wrappers, wrapped?_eq, hi]

theorem found_element {h : Head} {cs : Forest} (hi : inner? h cs = none) :
    found [.element h cs] = found cs := by
  simp [found, wrappersIn, wrappers, wrapped?_eq, hi]

private theorem collapse_wrapper {h h' : Head} {cs cs' : Forest}
    (hi : inner? h cs = some (h', cs')) :
    collapse (.element h cs) = .element h' cs' := by
  simp [collapse, hi]

theorem collapse_element {h : Head} {cs : Forest} (hi : inner? h cs = none) :
    collapse (.element h cs) = .element h (collapseIn cs) := by
  simp [collapse, hi]

theorem inner?_eq_none_of_open {h : Head} {cs : Forest} (hopen : h.closed = false) :
    inner? h cs = none := by
  simp [inner?, hopen]

theorem found_open {h : Head} {cs : Forest} (hopen : h.closed = false) :
    found [.element h cs] = found cs :=
  found_element (inner?_eq_none_of_open hopen)

theorem collapse_open {h : Head} {cs : Forest} (hopen : h.closed = false) :
    collapse (.element h cs) = .element h (collapseIn cs) :=
  collapse_element (inner?_eq_none_of_open hopen)

theorem inner?_eq_none_of_tag {h : Head} {cs : Forest} (htag : h.tag ≠ tableTag) :
    inner? h cs = none := by
  simp [inner?, htag]

/-- What is read at once is no wrapper and has none in it. -/
theorem found_token {l : Limits} {names : List Text} {c c' : Cursor} {st st' : ReadStats}
    {ns : Forest} (token : Token l names c st ns c' st') : found ns = [] ∧ collapseIn ns = ns := by
  cases token with
  | comment kind => exact ⟨rfl, rfl⟩
  | declaration kind => exact ⟨rfl, rfl⟩
  | stray kind unopened => exact ⟨rfl, rfl⟩
  | text kind trimmed => split <;> exact ⟨rfl, rfl⟩
  | @alone kind tag e name tagEnd unmet all =>
    have hi : inner? ⟨tag, e.attributes, c.pos, e.cursor.pos, true⟩ [] = none := by
      simp [inner?, rowContent?, onlyChild?]
    rw [found_element hi, collapseIn, collapse_element hi]
    exact ⟨rfl, rfl⟩
  | @raw kind tag e name tagEnd unmet more raw =>
    have htag : tag ≠ tableTag := by
      rintro rfl
      exact absurd raw (by decide)
    rw [found_element (inner?_eq_none_of_tag htag), collapseIn,
      collapse_element (inner?_eq_none_of_tag htag)]
    rcases rawContent_nodes tag e.cursor with hnil | ⟨t, htext, -⟩
    · rw [hnil]
      exact ⟨rfl, rfl⟩
    · rw [htext]
      exact ⟨rfl, rfl⟩

/-! ### Splicing along a reading -/

/-- The ranges of a wrapper and of the table inside do not start before an index. -/
structure Behind (i : Nat) (w : Head × Head) : Prop where
  start : i ≤ w.1.start.index
  inner : i ≤ w.2.start.index
  stop : i ≤ w.1.stop.index

private theorem splice_append {i : Nat} {x rest : Text} {ws : List (Head × Head)}
    (behind : ∀ w ∈ ws, Behind (i + x.length) w) :
    splice i (x ++ rest) ws = x ++ splice (i + x.length) rest ws := by
  cases ws with
  | nil => rfl
  | cons w ws =>
    obtain ⟨start, inner, stop⟩ := behind w List.mem_cons_self
    have hsub {j : Nat} (hj : i + x.length ≤ j) : j - i = x.length + (j - (i + x.length)) := by
      omega
    simp only [splice, hsub start, hsub inner, hsub stop, List.take_length_add_append,
      List.drop_length_add_append, List.append_assoc]

/-- From one place to another, splicing for the wrappers given makes the text `r`. -/
structure Spliced (c c' : Cursor) (ws : List (Head × Head)) (r : Text) : Prop where
  reaches : c.Reaches c'
  behind : ∀ w ∈ ws, Behind c.pos.index w
  splice_eq {ws' : List (Head × Head)} (h : ∀ w ∈ ws', Behind c'.pos.index w) :
    splice c.pos.index c.rest (ws ++ ws') = r ++ splice c'.pos.index c'.rest ws'

theorem Spliced.pass {c c' : Cursor} (h : c.Reaches c') : Spliced c c' [] (c.upTo c') where
  reaches := h
  behind := nofun
  splice_eq hws := by
    obtain ⟨hrest, hindex⟩ := h.upTo
    rw [hindex] at hws ⊢
    rw [List.nil_append, hrest]
    exact splice_append hws

theorem Spliced.trans {a b c : Cursor} {ws ws' : List (Head × Head)} {r r' : Text}
    (h : Spliced a b ws r) (h' : Spliced b c ws' r') : Spliced a c (ws ++ ws') (r ++ r') where
  reaches := h.reaches.trans h'.reaches
  behind w hw := by
    rcases List.mem_append.1 hw with hw | hw
    · exact h.behind w hw
    · have hle := h.reaches.index_le
      obtain ⟨start, inner, stop⟩ := h'.behind w hw
      exact ⟨hle.trans start, hle.trans inner, hle.trans stop⟩
  splice_eq {ws''} hws := by
    have hmore : ∀ w ∈ ws' ++ ws'', Behind b.pos.index w := by
      intro w hw
      rcases List.mem_append.1 hw with hw | hw
      · exact h'.behind w hw
      · have hle := h'.reaches.index_le
        obtain ⟨start, inner, stop⟩ := hws w hw
        exact ⟨hle.trans start, hle.trans inner, hle.trans stop⟩
    rw [List.append_assoc, h.splice_eq hmore, h'.splice_eq hws, List.append_assoc]

/-- A wrapper goes, and the table inside stays. -/
theorem Spliced.swap {c a b c' : Cursor} {h h' : Head} (before : c.Reaches a) (inside : a.Reaches b)
    (behind : b.Reaches c') (hstart : h.start = c.pos) (hstop : h.stop = c'.pos)
    (hstart' : h'.start = a.pos) (hstop' : h'.stop = b.pos) :
    Spliced c c' [(h, h')] (a.upTo b) where
  reaches := before.trans (inside.trans behind)
  behind w hw := by
    obtain rfl := List.mem_singleton.1 hw
    refine ⟨?_, ?_, ?_⟩
    · rw [hstart]
    · rw [hstart']
      exact before.index_le
    · rw [hstop]
      exact (before.trans (inside.trans behind)).index_le
  splice_eq hws := by
    rw [List.singleton_append, splice, hstart, hstop, hstart', hstop', before.drop_rest,
      (before.trans (inside.trans behind)).drop_rest, Nat.sub_self, List.take_zero, List.nil_append]
    rfl

/-! ### What is read of the spliced text -/

/-- The table inside a wrapper is closed by a tag that has its `>`, or else what follows the wrapper
cannot be taken for a part of that tag. -/
def Settled (html : Text) (w : Head × Head) : Prop :=
  w.2.closed = true ∧ ((html.take w.2.stop.index).getLast? = some '>' ∨
    (html.drop w.1.stop.index).head?.all (· == '<') = true)

instance (html : Text) (w : Head × Head) : Decidable (Settled html w) :=
  inferInstanceAs (Decidable (_ ∧ _))

section Collapse
variable {l : Limits} {names : List Text} {c c' : Cursor} {st st' : ReadStats} {ns : Forest}
  {html : Text}

private theorem shut_of_settled {w : Head × Head} {a b : Cursor} (settled : Settled html w)
    (ha : a.In html) (hb : c.In html) (h : a.Reaches b) (less : b.rest.length < a.rest.length)
    (hinner : w.2.stop = b.pos) (houter : w.1.stop = c.pos) : Shut a b c.rest := by
  have hend := settled.2
  rw [hinner, houter, ha.take_index h, List.getLast?_append_of_ne_nil _ (h.upTo_ne_nil less),
    hb.drop_index] at hend
  exact hend

section Element
variable {c₁ : Cursor} {st₁ st₂ st₃ : ReadStats} {tag : Text} {e : TagEnd} {cs cs' ms : Forest}
  {h' : Head} {ws : List (Head × Head)} {r : Text}

private theorem wrapper_collapsed (tick : st.tick l = (st₁, true))
    (opens : Opens l names c.skipBlanks st₁ tag e)
    (children : Siblings l (tag :: names) e.cursor e.stats cs c₁ st₂)
    (tick' : st₂.tick l = (st₃, true)) {h : Head}
    (hstart : h.start = c.skipBlanks.pos) (hstop : h.stop = (closingTag c₁.skipBlanks).2.pos)
    (hi : inner? h cs = some (h', cs')) (hc : c.In html) (settled : Settled html (h, h'))
    (spliced : Spliced (closingTag c₁.skipBlanks).2 c' ws r)
    (rest : ReadsAs l names (closingTag c₁.skipBlanks).2 st₃ c' st' r ms) :
    ∃ r', Spliced c c' ((h, h') :: ws) r' ∧
      ReadsAs l names c st c' st' r' (.element h' cs' :: ms) := by
  obtain ⟨htag, held⟩ := inner?_holds hi
  obtain ⟨names', a₁, sa₁, b₁, sb₁, fewer, less, before₁, inside, behind₁⟩ :=
    held.siblings (List.cons_ne_nil _ _) children
  obtain @⟨a, b, sa, sa', sb, before, tick'', entire, behind⟩ :=
    inside.leading settled.1 (htag ▸ by decide)
  have hbefore : Onward c.skipBlanks st a sa :=
    (Onward.trans ⟨.refl _, ReadStats.le_tick tick⟩ opens.onward).trans (before₁.trans before)
  have hbehind : Onward b sb (closingTag c₁.skipBlanks).2 st₃ :=
    behind.onward.trans (behind₁.trans (onward_closingTag c₁ tick'))
  have hreach := hbefore.reaches.trans a.reaches_skipBlanks
  have hin := hreach.mem (c.reaches_skipBlanks.mem hc)
  obtain ⟨hstart', hstop'⟩ := entire.places
  have htwo := entire.two.2
  have shut := shut_of_settled settled hin
    (hbehind.reaches.mem (entire.onward.reaches.mem hin)) entire.onward.reaches (by omega) hstop'
    hstop
  refine ⟨_, (Spliced.pass c.reaches_skipBlanks).trans
    ((Spliced.swap hreach entire.onward.reaches hbehind.reaches hstart hstop hstart' hstop').trans
      spliced), ?_⟩
  exact .replace opens.kind hbefore tick'' entire hbehind
    (List.Subset.trans (List.subset_cons_self _ _) fewer) (Nat.le_of_succ_le less)
    (htag ▸ by decide) shut rest

end Element

/-- Along a reading, splicing makes a text that reads as the collapsed forest. -/
theorem exists_collapsed (siblings : Siblings l names c st ns c' st') (hc : c.In html)
    (settled : ∀ w ∈ found ns, Settled html w) :
    ∃ r, Spliced c c' (found ns) r ∧ ReadsAs l names c st c' st' r (collapseIn ns) := by
  induction siblings with
  | @nil names c st =>
    have hself : c.upTo c = [] := by simp [Cursor.upTo]
    exact ⟨[], hself ▸ .pass (.refl c), .nil⟩
  | @token names c c₁ c' st st₁ st₂ st' ms ns tick more token rest ih =>
    obtain ⟨hfound, hsame⟩ := found_token token
    have hreach := c.reaches_skipBlanks.trans token.reaches
    rw [found_append, hfound, List.nil_append] at settled
    obtain ⟨r, spliced, reads⟩ := ih (hreach.mem hc) settled
    rw [found_append, hfound, collapseIn_append, hsame]
    exact ⟨_, (Spliced.pass hreach).trans spliced, .token tick more token reads⟩
  | @closed names c c₁ c' st st₁ st₂ st₃ st' tag e cs ns tick opens children tick' kind closer rest
      ihc ih =>
    have hopen := c.reaches_skipBlanks.trans opens.reaches
    have hclose := c₁.reaches_skipBlanks.trans (reaches_closingTag c₁.skipBlanks)
    have hin := hopen.mem hc
    rw [found_cons] at settled
    obtain ⟨r, spliced, reads⟩ := ih (hclose.mem (children.reaches.mem hin))
      fun w hw => settled w (List.mem_append_right _ hw)
    rw [found_cons, collapseIn]
    generalize hh : (⟨tag, e.attributes, c.skipBlanks.pos, (closingTag c₁.skipBlanks).2.pos, true⟩ :
      Head) = h at settled ⊢
    cases hi : inner? h cs with
    | some inner =>
      obtain ⟨h', cs'⟩ := inner
      rw [found_wrapper hi] at settled ⊢
      rw [collapse_wrapper hi]
      exact wrapper_collapsed tick opens children tick' (hh ▸ rfl) (hh ▸ rfl) hi hc
        (settled _ List.mem_cons_self) spliced reads
    | none =>
      rw [found_element hi] at settled ⊢
      obtain ⟨r₁, spliced₁, reads₁⟩ := ihc hin fun w hw => settled w (List.mem_append_left _ hw)
      rw [collapse_element hi, ← hh]
      exact ⟨_, (Spliced.pass hopen).trans (spliced₁.trans ((Spliced.pass hclose).trans spliced)),
        .closed tick opens reads₁ tick' kind closer reads⟩
  | @left names c c₁ st st₁ st₂ st₃ tag e cs tick opens children tick' kind other outer ihc =>
    have hopen := c.reaches_skipBlanks.trans opens.reaches
    rw [found_open rfl] at settled ⊢
    obtain ⟨r, spliced, reads⟩ := ihc (hopen.mem hc) settled
    rw [collapseIn, collapse_open rfl]
    have hall := (Spliced.pass hopen).trans (spliced.trans (.pass c₁.reaches_skipBlanks))
    rw [List.nil_append, List.append_nil] at hall
    exact ⟨_, hall, .left tick opens reads tick' kind other outer⟩
  | @ended names c c₁ st st₁ st₂ tag e cs tick opens children ends last ihc =>
    have hopen := c.reaches_skipBlanks.trans opens.reaches
    rw [found_open rfl] at settled ⊢
    obtain ⟨r, spliced, reads⟩ := ihc (hopen.mem hc) settled
    rw [collapseIn, collapse_open rfl]
    exact ⟨_, (Spliced.pass hopen).trans spliced, .ended tick opens reads ends last⟩

end Collapse

private theorem read_splice {l : Limits} {html : Text} (unmet : (Document.read l html).stats.Unmet)
    (settled : ∀ w ∈ found (Document.read l html).nodes, Settled html w) :
    let out := splice 0 html (found (Document.read l html).nodes)
    (Document.read l out).stats.Unmet ∧
      Forest.unplaced (Document.read l out).nodes =
        Forest.unplaced (collapseIn (Document.read l html).nodes) := by
  intro out
  obtain ⟨c, st, siblings, ends, last⟩ := read_siblings unmet
  obtain ⟨r, spliced, reads⟩ := exists_collapsed siblings (Cursor.in_start html) settled
  have hout : out = r ++ c.rest := by
    have behind : ∀ w ∈ ([] : List (Head × Head)), Behind c.pos.index w := nofun
    have hsplice := spliced.splice_eq behind
    rw [List.append_nil] at hsplice
    exact hsplice
  rw [hout]
  exact reads.read ends last

theorem fix_eq (s : Subject) :
    fix s = .done (if depth (Document.read s.settings.limits s.html).nodes ≤
        s.settings.thresholds.maxTableDepth then s.html
      else splice 0 s.html (found (Document.read s.settings.limits s.html).nodes)) :=
  (apply_ite Task.done _ _ _).symm

/-- Where no ceiling is met and each table in a wrapper is settled, the repair of tables that are
nested too deeply gives the text of the same document in which the outermost wrappers are replaced
by the tables inside. Other documents it leaves as they are. -/
theorem fix_collapses (s : Subject) (unmet : (Document.read s.settings.limits s.html).stats.Unmet) :
    let forest := (Document.read s.settings.limits s.html).nodes
    ∃ out, fix s = .done out ∧
      (depth forest ≤ s.settings.thresholds.maxTableDepth → out = s.html) ∧
      (s.settings.thresholds.maxTableDepth < depth forest →
        (∀ w ∈ wrappersIn [] forest, Settled s.html w) →
        (Document.read s.settings.limits out).stats.Unmet ∧
          Forest.unplaced (Document.read s.settings.limits out).nodes =
            Forest.unplaced (collapseIn forest)) := by
  intro forest
  refine ⟨_, fix_eq s, fun hle => if_pos hle, fun hlt settled => ?_⟩
  rw [if_neg (Nat.not_le.2 hlt)]
  exact read_splice unmet fun w hw => settled w (List.mem_reverse.1 hw)

set_option maxRecDepth 2000 in
/-- Two wrappers, the second with a body and around a table that closes itself. -/
theorem fix_collapses_two :
    let html := "a<table><tr><td width=1> <table><tr><td>x</td></tr></table></td></tr></table>b" ++
      "<table><tbody><tr><td><table/></td></tr></tbody></table>c"
    let s : Subject := ⟨html.toList, { thresholds := { maxTableDepth := 1 } }⟩
    let out := "a<table><tr><td>x</td></tr></table>b<table/>c".toList
    fix s = .done out ∧ (Document.read {} out).stats.Unmet ∧
      Forest.unplaced (Document.read {} out).nodes =
        Forest.unplaced (collapseIn (Document.read {} s.html).nodes) := by
  intro html s out
  have hhtml : html.toList = _ := String.toList_append
  rw [String.toList_ofList, String.toList_ofList] at hhtml
  change s.html = _ at hhtml
  have hout : out = _ := String.toList_ofList
  obtain ⟨text, hfix, -, hread⟩ := fix_collapses s (by rw [hhtml]; decide +kernel)
  have htext : text = out := by
    have heq := hfix.symm.trans (fix_eq s)
    rw [Task.done.inj heq, hhtml, hout]
    decide +kernel
  subst htext
  exact ⟨hfix, hread (by rw [hhtml]; decide +kernel) (by rw [hhtml]; decide +kernel)⟩

/-- A document whose tables are not too deep keeps its wrapper. A table inside that is not closed,
or whose closing tag has no `>`, takes in what follows the wrapper. -/
theorem fix_collapses_unsettled :
    let wrapping (inner : String) (max : Nat) : Subject :=
      ⟨("<table><tr><td>" ++ inner ++ "</td></tr></table>after").toList,
        { thresholds := { maxTableDepth := max } }⟩
    ∀ s ∈ [wrapping "<table><tr><td>x</td></tr></table>" 4, wrapping "<table><tr><td>x</td></tr>" 1,
        wrapping "<table><tr><td>x</td></tr></table" 1],
      (Document.read {} s.html).stats.Unmet ∧
        ∃ out, fix s = .done out ∧ (Document.read {} out).stats.Unmet ∧
          Forest.unplaced (Document.read {} out).nodes ≠
            Forest.unplaced (collapseIn (Document.read {} s.html).nodes) := by
  have differ {ms ns : Forest} (h : ms.preorder.map Prod.fst ≠ ns.preorder.map Prod.fst) :
      ms ≠ ns := fun heq => h (congrArg (fun ns => ns.preorder.map Prod.fst) heq)
  intro wrapping
  simp only [wrapping, String.toList_append]
  repeat rw [String.toList_ofList]
  refine List.forall_mem_cons.2 ⟨?_, List.forall_mem_cons.2 ⟨?_, List.forall_mem_singleton.2 ?_⟩⟩
  · exact ⟨by decide +kernel, _, fix_eq _, by decide +kernel, differ (by decide +kernel)⟩
  · exact ⟨by decide +kernel, _, fix_eq _, by decide +kernel, differ (by decide +kernel)⟩
  · exact ⟨by decide +kernel, _, fix_eq _, by decide +kernel, differ (by decide +kernel)⟩

end TableNesting
end MailMarkup
