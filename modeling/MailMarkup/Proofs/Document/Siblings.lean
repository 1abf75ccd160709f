import MailMarkup.Proofs.Document.Attributes
import MailMarkup.Proofs.Document.Nesting

/-!
# Reading siblings

The main loop keeps the open elements on a stack. Seen from one element, it reads the children one
after the other, and each child that is entered is read to its end before the next one. That view
is the relation `Siblings`: with certain elements open, reading goes from one place to another and
finds a forest in between. Every reading that meets no ceiling is of this form, and every reading of
this form is what the main loop does.
-/
namespace MailMarkup.Reader
open Text

/-- Markup that takes one round and leaves nothing open: what is found and where it ends. The names
are those of the open elements. -/
inductive Token (l : Limits) (names : List Text) (c : Cursor) (st : ReadStats) :
    Forest → Cursor → ReadStats → Prop where
  | comment (kind : classify c.rest = .comment) :
      Token l names c st [.comment (commentBody c).1 c.pos] (commentBody c).2 st
  | declaration (kind : classify c.rest = .declaration) :
      Token l names c st [] (afterDeclaration c) st
  /-- A closing tag of an element that is not open. -/
  | stray (kind : classify c.rest = .closing) (unopened : (closingTag c).1 ∉ names) :
      Token l names c st [] (closingTag c).2 st
  | text (kind : classify c.rest = .text) {content : Text}
      (trimmed : content = trim (textRun c.rest [])) :
      Token l names c st (if content.isEmpty then [] else [.text content c.pos])
        (c.advance (textRun c.rest []).length) st
  /-- An element that is its tag. -/
  | alone (kind : classify c.rest = .element) {tag : Text} {e : TagEnd}
      (name : tag = (tagName c.next).1) (tagEnd : e = attributes l (tagName c.next).2 st 0 [])
      (unmet : e.stats.Unmet) (all : (e.selfClosing || voidTags.contains tag) = true) :
      Token l names c st [.element ⟨tag, e.attributes, c.pos, e.cursor.pos, true⟩ []] e.cursor
        e.stats
  | raw (kind : classify c.rest = .element) {tag : Text} {e : TagEnd}
      (name : tag = (tagName c.next).1) (tagEnd : e = attributes l (tagName c.next).2 st 0 [])
      (unmet : e.stats.Unmet) (more : (e.selfClosing || voidTags.contains tag) = false)
      (raw : rawTags.contains tag = true) :
      Token l names c st
        [.element ⟨tag, e.attributes, c.pos, (rawContent tag e.cursor).2.2.pos,
          (rawContent tag e.cursor).2.1⟩ (rawContent tag e.cursor).1]
        (rawContent tag e.cursor).2.2 e.stats

/-- The opening tag of an element that is entered. -/
structure Opens (l : Limits) (names : List Text) (c : Cursor) (st : ReadStats) (tag : Text)
    (e : TagEnd) : Prop where
  kind : classify c.rest = .element
  name : tag = (tagName c.next).1
  tagEnd : e = attributes l (tagName c.next).2 st 0 []
  unmet : e.stats.Unmet
  more : (e.selfClosing || voidTags.contains tag) = false
  notRaw : rawTags.contains tag = false
  room : names.length < l.maxDepth

/-- With the elements of the given names open, innermost first, reading goes from one place to
another and finds the nodes of a forest as siblings. -/
inductive Siblings (l : Limits) :
    List Text → Cursor → ReadStats → Forest → Cursor → ReadStats → Prop where
  | nil {names : List Text} {c : Cursor} {st : ReadStats} : Siblings l names c st [] c st
  | token {names : List Text} {c c₁ c' : Cursor} {st st₁ st₂ st' : ReadStats} {ms ns : Forest}
      (tick : st.tick l = (st₁, true)) (more : c.skipBlanks.rest ≠ [])
      (token : Token l names c.skipBlanks st₁ ms c₁ st₂)
      (rest : Siblings l names c₁ st₂ ns c' st') :
      Siblings l names c st (ms ++ ns) c' st'
  /-- An element that its closing tag ends. -/
  | closed {names : List Text} {c c₁ c' : Cursor} {st st₁ st₂ st₃ st' : ReadStats} {tag : Text}
      {e : TagEnd} {cs ns : Forest} (tick : st.tick l = (st₁, true))
      (opens : Opens l names c.skipBlanks st₁ tag e)
      (children : Siblings l (tag :: names) e.cursor e.stats cs c₁ st₂)
      (tick' : st₂.tick l = (st₃, true)) (kind : classify c₁.skipBlanks.rest = .closing)
      (closer : (closingTag c₁.skipBlanks).1 = tag)
      (rest : Siblings l names (closingTag c₁.skipBlanks).2 st₃ ns c' st') :
      Siblings l names c st
        (.element ⟨tag, e.attributes, c.skipBlanks.pos, (closingTag c₁.skipBlanks).2.pos, true⟩
          cs :: ns) c' st'
  /-- An element that the closing tag of an outer one ends. -/
  | left {names : List Text} {c c₁ : Cursor} {st st₁ st₂ st₃ : ReadStats} {tag : Text}
      {e : TagEnd} {cs : Forest} (tick : st.tick l = (st₁, true))
      (opens : Opens l names c.skipBlanks st₁ tag e)
      (children : Siblings l (tag :: names) e.cursor e.stats cs c₁ st₂)
      (tick' : st₂.tick l = (st₃, true)) (kind : classify c₁.skipBlanks.rest = .closing)
      (other : (closingTag c₁.skipBlanks).1 ≠ tag)
      (outer : (closingTag c₁.skipBlanks).1 ∈ names) :
      Siblings l names c st
        [.element ⟨tag, e.attributes, c.skipBlanks.pos, c₁.skipBlanks.pos, false⟩ cs]
        c₁.skipBlanks st₃
  /-- An element that the end of the text ends. -/
  | ended {names : List Text} {c c₁ : Cursor} {st st₁ st₂ : ReadStats} {tag : Text}
      {e : TagEnd} {cs : Forest} (tick : st.tick l = (st₁, true))
      (opens : Opens l names c.skipBlanks st₁ tag e)
      (children : Siblings l (tag :: names) e.cursor e.stats cs c₁ st₂)
      (ends : c₁.skipBlanks.rest = []) (last : c₁.rest ≠ [] → (st₂.tick l).2 = true) :
      Siblings l names c st
        [.element ⟨tag, e.attributes, c.skipBlanks.pos, c₁.skipBlanks.pos, false⟩ cs] c₁ st₂

/-- Siblings end here: with the text, or at a closing tag of an open element. -/
def Rests (names : List Text) (c : Cursor) : Prop :=
  c.skipBlanks.rest = [] ∨
    classify c.skipBlanks.rest = .closing ∧ (closingTag c.skipBlanks).1 ∈ names

/-! ### What the main loop does -/

section Sound
variable {l : Limits} {names : List Text} {c c' : Cursor} {st st' : ReadStats} {ns : Forest}

/-- The document that reading on gives. -/
def outcome (l : Limits) (s : State) : Document :=
  ⟨finish (run l s).cursor.pos (run l s).nodes (run l s).frames, (run l s).stats⟩

private theorem outcome_of_step {s s' : State} (h : step l s = (s', true)) :
    outcome l s = outcome l s' := by
  rw [outcome, run_of_step h]
  rfl

theorem outcome_markup {st₁ : ReadStats} {nodes : Forest} {frames : List Frame}
    (tick : st.tick l = (st₁, true)) (more : c.skipBlanks.rest ≠ []) :
    outcome l ⟨c, st, nodes, frames⟩ = outcome l (markup l ⟨c.skipBlanks, st₁, nodes, frames⟩) :=
  outcome_of_step (step_of_tick (s := ⟨c, st, nodes, frames⟩) tick more)

theorem any_tag_iff {fs : List Frame} {name : Text} :
    fs.any (·.tag == name) = true ↔ name ∈ fs.map Frame.tag := by
  simp [List.any_eq_true, List.mem_map]

section Markup
variable {nodes : Forest} {f : Frame} {fs : List Frame}

theorem Token.markup_eq (h : Token l (fs.map Frame.tag) c st ns c' st') :
    markup l ⟨c, st, nodes, fs⟩ = ⟨c', st', ns.reverse ++ nodes, fs⟩ := by
  cases h with
  | comment kind => simp [markup, kind, State.push]
  | declaration kind => simp [markup, kind]
  | stray kind unopened =>
    simp only [markup, kind]
    cases fs with
    | nil => simp
    | cons f fs =>
      rw [List.map_cons, List.mem_cons, not_or, ← any_tag_iff] at unopened
      have hne : (f.tag == (closingTag c).1) = false := by simpa using Ne.symm unopened.1
      simp [hne, unopened.2]
  | @text kind content trimmed =>
    subst trimmed
    simp only [markup, kind]
    by_cases he : (trim (textRun c.rest [])).isEmpty = true
    · simp [he]
    · simp [he, State.push]
  | alone kind name tagEnd unmet all =>
    subst name tagEnd
    simp only [markup, kind, openTag]
    rw [if_pos all]
    rfl
  | raw kind name tagEnd unmet more raw =>
    subst name tagEnd
    simp only [markup, kind, openTag]
    rw [if_neg (by simpa using more), if_pos raw]
    rfl

theorem Opens.markup_eq {tag : Text} {e : TagEnd} (h : Opens l (fs.map Frame.tag) c st tag e) :
    markup l ⟨c, st, nodes, fs⟩ =
      ⟨e.cursor, e.stats, [], ⟨tag, e.attributes, c.pos, nodes⟩ :: fs⟩ := by
  obtain ⟨kind, rfl, rfl, unmet, more, notRaw, room⟩ := h
  rw [List.length_map] at room
  simp only [markup, kind, openTag]
  rw [if_neg (by simpa using more), if_neg (by simpa using notRaw), if_neg (by omega)]

theorem markup_close (kind : classify c.rest = .closing) (closer : (closingTag c).1 = f.tag) :
    markup l ⟨c, st, nodes, f :: fs⟩ =
      ⟨(closingTag c).2, st, f.close nodes (closingTag c).2.pos true :: f.earlier, fs⟩ := by
  simp [markup, kind, closer, State.leave]

private theorem markup_leave (kind : classify c.rest = .closing) (other : (closingTag c).1 ≠ f.tag)
    (outer : (closingTag c).1 ∈ fs.map Frame.tag) :
    markup l ⟨c, st, nodes, f :: fs⟩ = ⟨c, st, f.close nodes c.pos false :: f.earlier, fs⟩ := by
  have hne : (f.tag == (closingTag c).1) = false := by simpa using Ne.symm other
  simp only [markup, kind, hne, Bool.false_eq_true, if_false, any_tag_iff.2 outer, if_true,
    State.leave]

end Markup

theorem ne_nil_of_classify {t : Text} {k : Markup} (h : classify t = k) (hk : k ≠ .text) :
    t ≠ [] := by
  rintro rfl
  exact hk h.symm

/-- What is counted where only blanks are left. -/
def lastStats (l : Limits) (c : Cursor) (st : ReadStats) : ReadStats :=
  if c.rest = [] then st else (st.tick l).1

theorem run_blank {s : State} (ends : s.cursor.skipBlanks.rest = [])
    (last : s.cursor.rest ≠ [] → (s.stats.tick l).2 = true) :
    run l s = { s with cursor := s.cursor.skipBlanks, stats := lastStats l s.cursor s.stats } := by
  unfold lastStats
  by_cases hr : s.cursor.rest = []
  · rw [run_at_end hr, if_pos hr]
    have hs : s.cursor.skipBlanks = s.cursor :=
      skipBlanks_eq_self (by simp [Cursor.peek, hr])
    rw [hs]
  · rw [if_neg hr]
    have htick : s.stats.tick l = ((s.stats.tick l).1, true) := by rw [← last hr]
    refine run_of_stop ?_
    unfold step
    rw [htick]
    simp only [Cursor.atEnd, ends, List.isEmpty_nil, if_true]
    rw [if_neg (by simpa using hr)]

private theorem outcome_ended {s : State} {f : Frame} {fs : List Frame} (hf : s.frames = f :: fs)
    (ends : s.cursor.skipBlanks.rest = []) (last : s.cursor.rest ≠ [] → (s.stats.tick l).2 = true) :
    outcome l s = outcome l { s with
      nodes := f.close s.nodes s.cursor.skipBlanks.pos false :: f.earlier, frames := fs } := by
  have hrun := run_blank (l := l) (s := { s with
    nodes := f.close s.nodes s.cursor.skipBlanks.pos false :: f.earlier, frames := fs }) ends last
  rw [outcome, outcome, run_blank ends last, hrun]
  simp [hf, finish]

theorem Siblings.outcome_eq (h : Siblings l names c st ns c' st') {frames : List Frame}
    (hf : frames.map Frame.tag = names) (acc : Forest) :
    outcome l ⟨c, st, acc, frames⟩ = outcome l ⟨c', st', ns.reverse ++ acc, frames⟩ := by
  induction h generalizing frames acc with
  | nil => rfl
  | token tick more token rest ih =>
    subst hf
    rw [outcome_markup tick more, token.markup_eq, ih rfl, List.reverse_append, List.append_assoc]
  | closed tick opens children tick' kind closer rest ihc ih =>
    subst hf
    have hne := ne_nil_of_classify opens.kind nofun
    have hne' := ne_nil_of_classify kind nofun
    rw [outcome_markup tick hne, opens.markup_eq, ihc rfl, outcome_markup tick' hne',
      markup_close kind closer, ih rfl]
    simp [Frame.close]
  | left tick opens children tick' kind other outer ihc =>
    subst hf
    have hne := ne_nil_of_classify opens.kind nofun
    have hne' := ne_nil_of_classify kind nofun
    rw [outcome_markup tick hne, opens.markup_eq, ihc rfl, outcome_markup tick' hne',
      markup_leave kind other outer]
    simp [Frame.close]
  | ended tick opens children ends last ihc =>
    subst hf
    have hne := ne_nil_of_classify opens.kind nofun
    rw [outcome_markup tick hne, opens.markup_eq, ihc rfl, outcome_ended rfl ends last]
    simp [Frame.close]

end Sound

/-! ### Every reading is of this form -/

section Complete
variable {l : Limits} {names : List Text} {c c' : Cursor} {st st' : ReadStats} {ns : Forest}

/-- Reading goes on: from one place to another, with rounds added to those made before. -/
structure Onward (c : Cursor) (st : ReadStats) (c' : Cursor) (st' : ReadStats) : Prop where
  reaches : c.Reaches c'
  rounds : st.iterations ≤ st'.iterations

theorem Onward.refl (c : Cursor) (st : ReadStats) : Onward c st c st := ⟨.refl c, Nat.le_refl _⟩

theorem Onward.trans {c₁ c₂ c₃ : Cursor} {st₁ st₂ st₃ : ReadStats} (h : Onward c₁ st₁ c₂ st₂)
    (h' : Onward c₂ st₂ c₃ st₃) : Onward c₁ st₁ c₃ st₃ :=
  ⟨h.reaches.trans h'.reaches, Nat.le_trans h.rounds h'.rounds⟩

theorem onward_tick (c : Cursor) {b : Bool} (tick : st.tick l = (st', b)) :
    Onward c st c.skipBlanks st' := ⟨c.reaches_skipBlanks, ReadStats.le_tick tick⟩

private theorem rounds_attributes (l : Limits) (c : Cursor) (st : ReadStats) (round : Nat)
    (seen : List (Text × Text)) :
    st.iterations ≤ (attributes l c st round seen).stats.iterations := by
  induction c, st, round, seen using attributes_induction (l := l) with
  | spent c st round seen hr =>
    rw [attributes_spent hr]
    exact Nat.le_refl _
  | stopped c st round seen st' hr ht =>
    have hle := ReadStats.le_tick ht
    rw [attributes_stopped hr ht]
    exact hle
  | ended c st round seen st' c' closing hr ht h =>
    rw [attributes_round hr ht h]
    exact ReadStats.le_tick ht
  | found c st round seen st' a c' hr ht h ih =>
    rw [attributes_round hr ht h]
    exact Nat.le_trans (ReadStats.le_tick ht) ih
  | passed c st round seen st' c' n hr ht h ih =>
    rw [attributes_round hr ht h]
    exact Nat.le_trans (ReadStats.le_tick ht) ih

theorem onward_openingTag (l : Limits) (c : Cursor) (st : ReadStats) :
    Onward c st (attributes l (tagName c.next).2 st 0 []).cursor
      (attributes l (tagName c.next).2 st 0 []).stats :=
  ⟨c.reaches_next.trans ((reaches_tagName _).trans (reaches_attributes _ _ _ _ _)),
    rounds_attributes _ _ _ _ _⟩

theorem Token.onward (h : Token l names c st ns c' st') : Onward c st c' st' := by
  cases h with
  | comment kind => exact ⟨reaches_commentBody c, Nat.le_refl _⟩
  | declaration kind => exact ⟨c.reaches_advance _, Nat.le_refl _⟩
  | stray kind unopened => exact ⟨reaches_closingTag c, Nat.le_refl _⟩
  | text kind trimmed => exact ⟨c.reaches_advance _, Nat.le_refl _⟩
  | alone kind name tagEnd unmet all => exact tagEnd ▸ onward_openingTag l c st
  | raw kind name tagEnd unmet more raw =>
    exact (tagEnd ▸ onward_openingTag l c st).trans ⟨reaches_rawContent _ _, Nat.le_refl _⟩

theorem Opens.onward {tag : Text} {e : TagEnd} (h : Opens l names c st tag e) :
    Onward c st e.cursor e.stats := h.tagEnd ▸ onward_openingTag l c st

theorem onward_closingTag (c : Cursor) {b : Bool} (tick : st.tick l = (st', b)) :
    Onward c st (closingTag c.skipBlanks).2 st' :=
  (onward_tick c tick).trans ⟨reaches_closingTag _, Nat.le_refl _⟩

theorem Siblings.onward (h : Siblings l names c st ns c' st') : Onward c st c' st' := by
  induction h with
  | nil => exact .refl _ _
  | token tick more token rest ih => exact (onward_tick _ tick).trans (token.onward.trans ih)
  | closed tick opens children tick' kind closer rest ihc ih =>
    exact (onward_tick _ tick).trans (opens.onward.trans
      (ihc.trans ((onward_closingTag _ tick').trans ih)))
  | left tick opens children tick' kind other outer ihc =>
    exact (onward_tick _ tick).trans (opens.onward.trans (ihc.trans (onward_tick _ tick')))
  | ended tick opens children ends last ihc =>
    exact (onward_tick _ tick).trans (opens.onward.trans ihc)

theorem Token.reaches (h : Token l names c st ns c' st') : c.Reaches c' := h.onward.reaches

theorem Opens.reaches {tag : Text} {e : TagEnd} (h : Opens l names c st tag e) :
    c.Reaches e.cursor := h.onward.reaches

theorem Siblings.reaches (h : Siblings l names c st ns c' st') : c.Reaches c' := h.onward.reaches

/-- Where something is left, a reading that meets no ceiling makes a round. -/
theorem tick_of_unmet {nodes : Forest} {frames : List Frame}
    (hu : (outcome l ⟨c, st, nodes, frames⟩).stats.Unmet) (hc : c.rest ≠ []) :
    ∃ st₁, st.tick l = (st₁, true) := by
  cases htick : st.tick l with
  | mk st₁ b =>
    cases b with
    | true => exact ⟨st₁, rfl⟩
    | false =>
      have hrun : run l ⟨c, st, nodes, frames⟩ = ⟨c, st₁, nodes, frames⟩ :=
        run_of_stop (by simp [step, Cursor.atEnd, hc, htick])
      rw [outcome, hrun] at hu
      exact absurd (tick_unmet (.refl l) htick hu).1 Bool.false_ne_true

private theorem token_or_opens {nodes : Forest} {frames : List Frame}
    (hu : (markup l ⟨c, st, nodes, frames⟩).stats.Unmet)
    (unopened : classify c.rest = .closing → (closingTag c).1 ∉ frames.map Frame.tag) :
    (∃ ns c' st', Token l (frames.map Frame.tag) c st ns c' st') ∨
      ∃ tag e, Opens l (frames.map Frame.tag) c st tag e := by
  cases kind : classify c.rest with
  | comment => exact .inl ⟨_, _, _, .comment kind⟩
  | closing => exact .inl ⟨_, _, _, .stray kind (unopened kind)⟩
  | declaration => exact .inl ⟨_, _, _, .declaration kind⟩
  | text => exact .inl ⟨_, _, _, .text kind rfl⟩
  | element =>
    simp only [markup, kind] at hu
    have unmet := openTag_attributes_unmet hu
    unfold openTag at hu
    dsimp only at hu unmet
    cases hall : ((attributes l (tagName c.next).2 st 0 []).selfClosing ||
        voidTags.contains (tagName c.next).1) with
    | true => exact .inl ⟨_, _, _, .alone kind rfl rfl unmet hall⟩
    | false =>
      rw [hall, if_neg Bool.false_ne_true] at hu
      cases hraw : rawTags.contains (tagName c.next).1 with
      | true => exact .inl ⟨_, _, _, .raw kind rfl rfl unmet hall hraw⟩
      | false =>
        rw [hraw, if_neg Bool.false_ne_true] at hu
        split at hu
        · exact absurd hu.depth (Nat.succ_ne_zero _)
        · rename_i hroom
          rw [Nat.not_le, ← List.length_map (f := Frame.tag)] at hroom
          exact .inr ⟨_, _, kind, rfl, rfl, unmet, hall, hraw, hroom⟩

/-- Whoever meets no ceiling reads siblings as long as there are any. -/
theorem exists_siblings {nodes : Forest} {frames : List Frame}
    (hu : (outcome l ⟨c, st, nodes, frames⟩).stats.Unmet) :
    ∃ ns c' st', Siblings l (frames.map Frame.tag) c st ns c' st' ∧
      Rests (frames.map Frame.tag) c' := by
  induction hn : c.rest.length + frames.length using Nat.strongRecOn
    generalizing c st nodes frames with
  | _ n ih =>
    subst hn
    by_cases hend : c.skipBlanks.rest = []
    · exact ⟨[], c, st, .nil, .inl hend⟩
    by_cases hcloser : classify c.skipBlanks.rest = .closing ∧
        (closingTag c.skipBlanks).1 ∈ frames.map Frame.tag
    · exact ⟨[], c, st, .nil, .inr hcloser⟩
    have hle := skipBlanks_le c
    have hne : c.rest ≠ [] := by
      intro hr
      rw [hr, List.length_nil, Nat.le_zero] at hle
      exact hend (List.length_eq_zero_iff.1 hle)
    obtain ⟨st₁, tick⟩ := tick_of_unmet hu hne
    rw [outcome_markup tick hend] at hu
    have hlt := markup_size (l := l) (s := ⟨c.skipBlanks, st₁, nodes, frames⟩) hend
    rcases token_or_opens (run_unmet (.refl l) hu).1 fun kind hmem => hcloser ⟨kind, hmem⟩ with
      ⟨ms, c₁, st₂, token⟩ | ⟨tag, e, opens⟩
    · rw [token.markup_eq] at hu hlt
      obtain ⟨ns, c', st', rest, hrest⟩ := ih _ (by simp only [State.size] at hlt; omega) hu rfl
      exact ⟨ms ++ ns, c', st', .token tick hend token rest, hrest⟩
    · rw [opens.markup_eq] at hu hlt
      simp only [State.size, List.length_cons] at hlt
      obtain ⟨cs, c₁, st₂, children, hrest⟩ := ih _ (by rw [List.length_cons]; omega) hu rfl
      rw [children.outcome_eq rfl] at hu
      have hle₁ := children.reaches.length_le
      rcases hrest with hend₁ | ⟨kind, hmem⟩
      · refine ⟨_, c₁, st₂, .ended tick opens children hend₁ fun hr => ?_, .inl hend₁⟩
        obtain ⟨st₃, tick'⟩ := tick_of_unmet hu hr
        rw [tick']
      · have hne₁ := ne_nil_of_classify kind (by decide)
        have hr₁ : c₁.rest ≠ [] := by
          intro hr
          have := skipBlanks_le c₁
          rw [hr, List.length_nil, Nat.le_zero] at this
          exact hne₁ (List.length_eq_zero_iff.1 this)
        obtain ⟨st₃, tick'⟩ := tick_of_unmet hu hr₁
        by_cases hc : (closingTag c₁.skipBlanks).1 = tag
        · rw [outcome_markup tick' hne₁, markup_close kind hc] at hu
          have hlt₁ := closingTag_lt hne₁
          have := skipBlanks_le c₁
          obtain ⟨ns, c', st', rest, hrest⟩ := ih _ (by omega) hu rfl
          exact ⟨_, c', st', .closed tick opens children tick' kind hc rest, hrest⟩
        · have hmem := (List.mem_cons.1 hmem).resolve_left hc
          refine ⟨_, _, _, .left tick opens children tick' kind hc hmem, .inr ?_⟩
          rw [skipBlanks_idem]
          exact ⟨kind, hmem⟩

end Complete

/-- Siblings with nothing open, up to blanks at the end, are a document. -/
theorem Siblings.read_eq {l : Limits} {t : Text} {ns : Forest} {c : Cursor} {st : ReadStats}
    (h : Siblings l [] (.start t) {} ns c st) (ends : c.skipBlanks.rest = [])
    (last : c.rest ≠ [] → (st.tick l).2 = true) :
    Document.read l t = ⟨ns, lastStats l c st⟩ := by
  have hread : Document.read l t = outcome l ⟨.start t, {}, [], []⟩ := rfl
  rw [hread, h.outcome_eq rfl, outcome, run_blank ends last]
  simp [finish]

/-- Where no ceiling is met, a document is read that way. -/
theorem read_siblings {l : Limits} {t : Text} (hu : (Document.read l t).stats.Unmet) :
    ∃ c st, Siblings l [] (.start t) {} (Document.read l t).nodes c st ∧
      c.skipBlanks.rest = [] ∧ (c.rest ≠ [] → (st.tick l).2 = true) := by
  have hu' : (outcome l ⟨.start t, {}, [], []⟩).stats.Unmet := hu
  obtain ⟨ns, c, st, h, hrest⟩ := exists_siblings hu'
  have ends : c.skipBlanks.rest = [] := hrest.resolve_right fun hc => absurd hc.2 List.not_mem_nil
  have last : c.rest ≠ [] → (st.tick l).2 = true := by
    intro hr
    rw [h.outcome_eq rfl] at hu'
    obtain ⟨st', tick⟩ := tick_of_unmet hu' hr
    rw [tick]
  rw [h.read_eq ends last]
  exact ⟨c, st, h, ends, last⟩

/-! ### Elements that are closed -/

section Closed
variable {l : Limits} {names : List Text} {c c' : Cursor} {st st' : ReadStats} {ns cs : Forest}
  {tag : Text} {e : TagEnd}

/-- The children of an element, and its closing tag behind them. -/
inductive Content (l : Limits) (names : List Text) (tag : Text) (c : Cursor) (st : ReadStats)
    (cs : Forest) : Cursor → ReadStats → Prop where
  | intro {c₁ : Cursor} {st₁ st₂ : ReadStats} (children : Siblings l (tag :: names) c st cs c₁ st₁)
      (tick : st₁.tick l = (st₂, true)) (kind : classify c₁.skipBlanks.rest = .closing)
      (closer : (closingTag c₁.skipBlanks).1 = tag) :
      Content l names tag c st cs (closingTag c₁.skipBlanks).2 st₂

theorem Siblings.of_content {c₁ : Cursor} {st₁ st₂ : ReadStats} (tick : st.tick l = (st₁, true))
    (opens : Opens l names c.skipBlanks st₁ tag e)
    (content : Content l names tag e.cursor e.stats cs c₁ st₂)
    (rest : Siblings l names c₁ st₂ ns c' st') :
    Siblings l names c st
      (.element ⟨tag, e.attributes, c.skipBlanks.pos, c₁.pos, true⟩ cs :: ns) c' st' := by
  obtain ⟨children, tick', kind, closer⟩ := content
  exact .closed tick opens children tick' kind closer rest

/-- An element that its own tag ends, the opening one or the closing one. -/
inductive Entire (l : Limits) (names : List Text) (c : Cursor) (st : ReadStats) :
    Head → Forest → Cursor → ReadStats → Prop where
  | alone {tag : Text} {e : TagEnd} (kind : classify c.rest = .element)
      (name : tag = (tagName c.next).1) (tagEnd : e = attributes l (tagName c.next).2 st 0 [])
      (unmet : e.stats.Unmet) (all : (e.selfClosing || voidTags.contains tag) = true) :
      Entire l names c st ⟨tag, e.attributes, c.pos, e.cursor.pos, true⟩ [] e.cursor e.stats
  | closed {tag : Text} {e : TagEnd} {cs : Forest} {c' : Cursor} {st' : ReadStats}
      (opens : Opens l names c st tag e)
      (content : Content l names tag e.cursor e.stats cs c' st') :
      Entire l names c st ⟨tag, e.attributes, c.pos, c'.pos, true⟩ cs c' st'

theorem Entire.onward {h : Head} (entire : Entire l names c st h cs c' st') :
    Onward c st c' st' := by
  cases entire with
  | alone kind name tagEnd unmet all => exact tagEnd ▸ onward_openingTag l c st
  | closed opens content =>
    obtain ⟨children, tick, kind, closer⟩ := content
    exact opens.onward.trans (children.onward.trans (onward_closingTag _ tick))

theorem Entire.places {h : Head} (entire : Entire l names c st h cs c' st') :
    h.start = c.pos ∧ h.stop = c'.pos := by
  cases entire <;> exact ⟨rfl, rfl⟩

/-- The first node is an element that is closed, behind what leaves no node. -/
inductive Leading (l : Limits) (names : List Text) (c : Cursor) (st : ReadStats) (h : Head)
    (cs ns : Forest) (c' : Cursor) (st' : ReadStats) : Prop where
  | intro {a b : Cursor} {sa sa' sb : ReadStats} (before : Onward c st a sa)
      (tick : sa.tick l = (sa', true)) (entire : Entire l names a.skipBlanks sa' h cs b sb)
      (rest : Siblings l names b sb ns c' st') : Leading l names c st h cs ns c' st'

theorem Leading.behind {c₁ : Cursor} {st₁ : ReadStats} {h : Head} (onward : Onward c st c₁ st₁)
    (leading : Leading l names c₁ st₁ h cs ns c' st') : Leading l names c st h cs ns c' st' := by
  obtain ⟨before, tick, entire, rest⟩ := leading
  exact ⟨onward.trans before, tick, entire, rest⟩

theorem Siblings.leading {h : Head} (siblings : Siblings l names c st (.element h cs :: ns) c' st')
    (closed : h.closed = true) (notRaw : rawTags.contains h.tag = false) :
    Leading l names c st h cs ns c' st' := by
  generalize hall : Node.element h cs :: ns = all at siblings
  induction siblings with
  | nil => exact absurd hall nofun
  | token tick more token rest ih =>
    have onward := (onward_tick _ tick).trans token.onward
    cases token with
    | comment kind => exact absurd (List.cons.inj hall).1 nofun
    | declaration kind => exact (ih hall).behind onward
    | stray kind unopened => exact (ih hall).behind onward
    | @text kind content trimmed =>
      cases hempty : content.isEmpty with
      | true => exact (ih (by simpa [hempty] using hall)).behind onward
      | false => simp [hempty] at hall
    | alone kind name tagEnd unmet all =>
      obtain ⟨hnode, rfl⟩ := List.cons.inj hall
      obtain ⟨rfl, rfl⟩ := Node.element.inj hnode
      exact ⟨.refl _ _, tick, .alone kind name tagEnd unmet all, rest⟩
    | raw kind name tagEnd unmet more raw =>
      obtain ⟨hnode, -⟩ := List.cons.inj hall
      obtain ⟨rfl, -⟩ := Node.element.inj hnode
      exact absurd (raw.symm.trans notRaw) nofun
  | closed tick opens children tick' kind closer rest =>
    obtain ⟨hnode, rfl⟩ := List.cons.inj hall
    obtain ⟨rfl, rfl⟩ := Node.element.inj hnode
    exact ⟨.refl _ _, tick, .closed opens (.intro children tick' kind closer), rest⟩
  | left tick opens children tick' kind other outer =>
    obtain ⟨hnode, -⟩ := List.cons.inj hall
    obtain ⟨rfl, -⟩ := Node.element.inj hnode
    exact absurd closed nofun
  | ended tick opens children ends last =>
    obtain ⟨hnode, -⟩ := List.cons.inj hall
    obtain ⟨rfl, -⟩ := Node.element.inj hnode
    exact absurd closed nofun

end Closed

end MailMarkup.Reader
