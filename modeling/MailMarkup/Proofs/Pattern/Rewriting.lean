import MailMarkup.Proofs.Pattern.Replace

/-!
# Replacing matches part by part

A text is often written from parts, and it is known of each part whether a match starts in it and
where that match ends. The replacement of the whole is then put together from those of the parts.
-/
namespace MailMarkup

private theorem Cursor.upTo_self (c : Cursor) : c.upTo c = [] := by
  rw [Cursor.upTo, Nat.sub_self]
  rfl

theorem Cursor.upTo_advance {c : Cursor} {v r : Text} (h : c.rest = v ++ r) :
    c.upTo (c.advance v.length) = v := by
  have hle : v.length ≤ c.rest.length := by simp [h]
  rw [Cursor.upTo, Cursor.index_advance hle, Nat.add_sub_cancel_left, h, List.take_left]

private theorem Cursor.Reaches.eq_of_index {c d : Cursor} (h : c.Reaches d)
    (hi : d.pos.index = c.pos.index) : d = c := by
  rw [h.eq_advance_index, hi, Nat.sub_self]
  rfl

/-- Where a reading from a cursor ends is told by what is left. -/
theorem Cursor.Reaches.eq_advance {c d : Cursor} {t : Text} (h : c.Reaches d)
    (hc : c.rest = t ++ d.rest) : d = c.advance t.length := by
  obtain ⟨hrest, hindex⟩ := h.upTo
  have hbetween : c.upTo d = t := List.append_cancel_right (hrest.symm.trans hc)
  rw [h.eq_advance_index, hindex, hbetween, Nat.add_sub_cancel_left]

namespace Pattern
variable {e : Expr} {f : Match → Text} {c : Cursor} {ms : List Match} {t t' u u' : Text}

/-- With its matches replaced one text becomes another, whatever it stands in. -/
def Rewrites (e : Expr) (f : Match → Text) (t t' : Text) : Prop :=
  ∀ ⦃c r ms⦄, c.rest = t ++ r → Successive e c ms →
    ∃ ms', Successive e (c.advance t.length) ms' ∧
      rebuild f c ms = t' ++ rebuild f (c.advance t.length) ms'

theorem Rewrites.nil (e : Expr) (f : Match → Text) : Rewrites e f [] [] :=
  fun _ _ ms _ h => ⟨ms, h, rfl⟩

theorem Rewrites.append (h : Rewrites e f t t') (h' : Rewrites e f u u') :
    Rewrites e f (t ++ u) (t' ++ u') := by
  intro c r ms hc hms
  rw [List.append_assoc] at hc
  obtain ⟨ms₁, hms₁, heq₁⟩ := h hc hms
  obtain ⟨ms₂, hms₂, heq₂⟩ := h' (Cursor.rest_advance_append hc) hms₁
  rw [List.length_append, Cursor.advance_add]
  exact ⟨ms₂, hms₂, by rw [heq₁, heq₂, List.append_assoc]⟩

/-- What stands in a text after matches are replaced stood there before or in a replacement. -/
theorem mem_rebuild {x : Char} (h : Successive e c ms) (hx : x ∈ rebuild f c ms) :
    x ∈ c.rest ∨ ∃ m ∈ ms, x ∈ f m := by
  induction h with
  | done => exact .inl hx
  | @found c m ms hs hr hf h ih =>
    rw [rebuild, List.mem_append, List.mem_append] at hx
    rw [hr.rest_eq hs]
    rcases hx with (hx | hx) | hx
    · exact .inl (List.mem_append_left _ hx)
    · exact .inr ⟨m, List.mem_cons_self, hx⟩
    · rcases ih hx with hx | ⟨m', hm', hx⟩
      · exact .inl (List.mem_append_right _ (List.mem_append_right _ hx))
      · exact .inr ⟨m', List.mem_cons_of_mem _ hm', hx⟩

theorem Successive.reads {m : Match} (h : Successive e c ms) (hm : m ∈ ms) :
    e.Reads ⟨m.start, []⟩ ⟨m.stop, m.notes⟩ := by
  induction h with
  | done => nomatch hm
  | found hs hr hf h ih =>
    rcases List.mem_cons.1 hm with rfl | hm
    · exact hr
    · exact ih hm

theorem Successive.reaches {m : Match} (h : Successive e c ms) (hm : m ∈ ms) :
    c.Reaches m.start := by
  induction h with
  | done => nomatch hm
  | found hs hr hf h ih =>
    rcases List.mem_cons.1 hm with rfl | hm
    · exact hs
    · exact hs.trans (hr.reaches.trans (ih hm))

theorem Successive.infix_text {m : Match} (h : Successive e c ms) (hm : m ∈ ms) :
    m.text <:+: c.rest := by
  refine List.IsInfix.trans ?_ (h.reaches hm).suffix.isInfix
  exact List.IsPrefix.isInfix ⟨m.stop.rest, (h.reads hm).text_eq.1.symm⟩

theorem Successive.next {x : Char} {r : Text} (f : Match → Text) (hc : c.rest = x :: r)
    (hn : ¬ e.MatchesAt c) (h : Successive e c ms) :
    Successive e c.next ms ∧ rebuild f c ms = x :: rebuild f c.next ms := by
  have hnext : c.next.rest = r := by simp [hc]
  cases h with
  | done hd =>
    refine ⟨.done fun s hs => hd s (c.reaches_next.trans hs), ?_⟩
    rw [rebuild, rebuild, hc, hnext]
  | @found _ m ms hs hr hf h =>
    have hreach : c.next.Reaches m.start := by
      obtain ⟨_ | n, hm⟩ := hs
      · have hm : m.start = c := hm
        exact absurd (hm ▸ ⟨_, hr⟩) hn
      · exact ⟨n, hm⟩
    have hup : c.upTo m.start = x :: c.next.upTo m.start := by
      refine (List.append_left_inj m.start.rest).1 ?_
      rw [← hs.upTo.1, List.cons_append, ← hreach.upTo.1, hc, hnext]
    refine ⟨.found hreach hr (fun s hs' => hf s (c.reaches_next.trans hs')) h, ?_⟩
    rw [rebuild, rebuild, hup]
    rfl

theorem Rewrites.same
    (h : ∀ ⦃c w r⦄, w <:+ t → w ≠ [] → c.rest = w ++ r → ¬ e.MatchesAt c) :
    Rewrites e f t t := by
  induction t with
  | nil => exact .nil e f
  | cons x t ih =>
    intro c r ms hc hms
    have hn : ¬ e.MatchesAt c := h (List.suffix_refl _) (List.cons_ne_nil x t) hc
    obtain ⟨hms', heq⟩ := hms.next f hc hn
    have hnext : c.next.rest = t ++ r := by simp [hc]
    obtain ⟨ms', hms', heq'⟩ := ih (fun c w r hw => h (hw.trans (List.suffix_cons x t))) hnext hms'
    exact ⟨ms', hms', by rw [heq, heq']; rfl⟩

/-- A text that is matched as a whole, and only as a whole, is replaced. -/
theorem Rewrites.whole (hm : ∀ ⦃c r⦄, c.rest = t ++ r → e.MatchesAt c)
    (hr : ∀ ⦃c r d⦄, c.rest = t ++ r → e.Reads ⟨c, []⟩ d →
      d.place = c.advance t.length ∧ f ⟨c, d.place, d.notes⟩ = t') : Rewrites e f t t' := by
  intro c r ms hc hms
  cases hms with
  | done hd => exact absurd (hm hc) (hd c (.refl c))
  | @found _ m ms hs hread hf h =>
    have hstart : m.start = c := by
      refine hs.eq_of_index (Nat.le_antisymm (Nat.not_lt.1 fun hlt => ?_) hs.index_le)
      exact hf c (.refl c) hlt (hm hc)
    rw [hstart] at hread
    obtain ⟨hstop, hvalue⟩ := hr hc hread
    dsimp only at hstop hvalue
    refine ⟨ms, hstop ▸ h, ?_⟩
    rw [rebuild, hstart, Cursor.upTo_self, ← hstop, List.nil_append, ← hvalue, ← hstart]

theorem Rewrites.replace_eq {p : Pattern} (hp : p.Means e) (he : e.readsSome)
    (h : Rewrites e f t t') : p.replace f t = t' := by
  have hms := hp.occurrences_successive he t
  obtain ⟨ms, hms', heq⟩ := h (c := .start t) (r := []) (List.append_nil t).symm hms
  have hend : ((Cursor.start t).advance t.length).rest = [] := by simp [Cursor.start]
  rw [Pattern.replace_eq, heq]
  cases hms' with
  | done => rw [rebuild, hend, List.append_nil]
  | @found _ m ms hs hr hf h =>
    have hlt : m.stop.rest.length < m.start.rest.length := hr.length_lt he
    have hle := hs.length_le
    rw [hend, List.length_nil] at hle
    omega

end Pattern
end MailMarkup
