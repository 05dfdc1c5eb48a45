import StepCode.Proofs.Form.Grammar

/-!
# The layout of a source

Where the forms of a source stand: in order and apart from each other, each inside the parentheses of
the list that it is an item of, with nothing but white space and comments in between.
-/

namespace StepCode

open Text (size)

namespace Form

/-- The forms of a source, their items, the items of these, and so on. -/
inductive NestedIn (forms : List Form) : Form → Prop where
  | top {form : Form} (mem : form ∈ forms) : NestedIn forms form
  | item {items : List Form} {span : Span} {form : Form} (outer : NestedIn forms (.list items span))
      (mem : form ∈ items) : NestedIn forms form

/-- Between two places there are only white space and comments, but for the forms; what stands
behind the last one is `final`. -/
def Apart (source : String) (final : List Char → Prop) (start stop : Nat) : List Form → Prop
  | [] => ∃ gap, Span.Covers source ⟨start, stop⟩ gap ∧ final gap
  | form :: rest =>
      (∃ gap, Span.Covers source ⟨start, form.span.start⟩ gap ∧ Trivia gap) ∧
        Apart source final form.span.stop stop rest

/-- The forms stand between two places one behind the other. -/
structure Spread (source : String) (final : List Char → Prop) (start stop : Nat)
    (forms : List Form) : Prop where
  ordered : start ≤ stop
  inside : ∀ form ∈ forms,
    start ≤ form.span.start ∧ form.span.start < form.span.stop ∧ form.span.stop ≤ stop
  increasing : forms.Pairwise fun form later => form.span.stop ≤ later.span.start
  apart : Apart source final start stop forms

/-- A list stands in parentheses, with its items spread between them. -/
def Parenthesised (source : String) : Form → Prop
  | .atom _ _ => True
  | .list items span =>
      Span.Covers source ⟨span.start, span.start + 1⟩ ['('] ∧
        Span.Covers source ⟨span.stop - 1, span.stop⟩ [')'] ∧
        Spread source Trivia (span.start + 1) (span.stop - 1) items

/-- The span of the form covers a text which, read on its own, gives the form with its places
counted from the start of the text. -/
def ReadsAlone (source : String) (form : Form) : Prop :=
  ∃ text alone, form.span.Covers source text ∧ readAll (String.ofList text) = .ok [alone] ∧
    alone.moved form.span.start = form

section

variable {source : String} {at_ : Nat} {text rest : List Char}

theorem Written.size_pos {form : Form} (written : form.Written text) : 0 < size text := by
  have nonempty : text ≠ [] := by
    cases form with
    | atom value span =>
        cases written.2 with
        | word bare => exact bare.nonempty
        | text quoted => exact List.cons_ne_nil _ _
    | list items span =>
        obtain ⟨-, inner, rfl, -⟩ := written
        exact List.cons_ne_nil _ _
  obtain ⟨c, others, rfl⟩ := List.exists_cons_of_ne_nil nonempty
  have := c.utf8Size_pos
  rw [Text.size_cons]
  omega

/-- A row of forms is spread over the place of its text and of what stands behind its last gap. -/
theorem Row.spread {forms : List Form} (row : Row at_ forms text) (final : List Char → Prop)
    (last : List Char) (stands : StandsAt source at_ (text ++ (last ++ rest)))
    (ends : ∀ gap, Trivia gap → final (gap ++ last)) :
    Spread source final at_ (at_ + size (text ++ last)) forms := by
  induction forms generalizing at_ text with
  | nil =>
      rw [← List.append_assoc] at stands
      exact ⟨Nat.le_add_right _ _, by simp, .nil, text ++ last, stands.covers _, ends text row⟩
  | cons form forms ih =>
      obtain ⟨gap, own, others, rfl, trivia, starts, written, -, row⟩ := row
      have positive := written.size_pos
      have stops := written.stop_eq
      rw [List.append_assoc, List.append_assoc] at stands
      have standsBehind : StandsAt source form.span.stop (others ++ (last ++ rest)) := by
        rw [stops, starts]
        exact (stands.behind gap).behind own
      obtain ⟨ordered, inside, increasing, apart⟩ := ih row standsBehind
      have bytes : at_ + size (gap ++ (own ++ others) ++ last) =
          form.span.stop + size (others ++ last) := by
        rw [stops, starts]
        simp [Nat.add_assoc]
      have before : Span.Covers source ⟨at_, form.span.start⟩ gap := starts ▸ stands.covers gap
      have first : at_ ≤ form.span.start := before.proper.ordered
      rw [bytes]
      refine ⟨by omega, List.forall_mem_cons.mpr ⟨⟨first, by omega, ordered⟩, fun later mem => ?_⟩,
        .cons (fun later mem => (inside later mem).1) increasing, ⟨gap, before, trivia⟩, apart⟩
      obtain ⟨starts, nonempty, stops⟩ := inside later mem
      exact ⟨by omega, nonempty, stops⟩

/-- Each form of a row has its text in the source. -/
theorem Row.stands {forms : List Form} (row : Row at_ forms text)
    (stands : StandsAt source at_ (text ++ rest)) {form : Form} (mem : form ∈ forms) :
    ∃ own behind, StandsAt source form.span.start (own ++ behind) ∧ form.Written own := by
  induction forms generalizing at_ text with
  | nil => simp at mem
  | cons first forms ih =>
      obtain ⟨gap, own, others, rfl, -, starts, written, -, row⟩ := row
      rw [List.append_assoc, List.append_assoc] at stands
      have standsOwn : StandsAt source first.span.start (own ++ (others ++ rest)) :=
        starts ▸ stands.behind gap
      rcases List.mem_cons.mp mem with rfl | later
      · exact ⟨own, others ++ rest, standsOwn, written⟩
      · exact ih row (written.stop_eq ▸ standsOwn.behind own) later

/-- Behind the parenthesis that opens a list. -/
theorem stands_inner {start : Nat} {inner : List Char}
    (stands : StandsAt source start ('(' :: (inner ++ [')']) ++ rest)) :
    StandsAt source (start + 1) (inner ++ (')' :: rest)) := by
  have same : '(' :: (inner ++ [')']) ++ rest = '(' :: (inner ++ (')' :: rest)) := by simp
  rw [same] at stands
  exact stands.next

/-- Each form of a source has its text in the source, however deep it is nested. -/
theorem NestedIn.stands {forms : List Form} (row : Row at_ forms text)
    (stands : StandsAt source at_ (text ++ rest)) {form : Form} (nested : NestedIn forms form) :
    ∃ own behind, StandsAt source form.span.start (own ++ behind) ∧ form.Written own := by
  induction nested with
  | top mem => exact row.stands stands mem
  | @item items span form _ mem ih =>
      obtain ⟨own, behind, standsList, -, inner, rfl, row⟩ := ih
      exact row.stands (stands_inner standsList) mem

theorem Written.covers {form : Form} (written : form.Written text)
    (stands : StandsAt source form.span.start (text ++ rest)) : form.span.Covers source text := by
  have covers := stands.covers text
  rwa [← written.stop_eq] at covers

theorem Written.parenthesised {form : Form} (written : form.Written text)
    (stands : StandsAt source form.span.start (text ++ rest)) : form.Parenthesised source := by
  match form with
  | .atom _ _ => trivial
  | .list items ⟨start, stop⟩ =>
      obtain ⟨stops, inner, rfl, row⟩ := written
      have bytes : stop = start + (size inner + 2) := stops.trans (by rw [size_listed])
      obtain rfl : stop = start + 1 + size inner + 1 := by omega
      have standsInner := stands_inner stands
      have standsClose : StandsAt source (start + 1 + size inner) (')' :: rest) :=
        standsInner.behind inner
      refine ⟨stands.covers ['('], standsClose.covers [')'], ?_⟩
      have spread := row.spread Trivia [] standsInner fun gap trivia => by
        rwa [List.append_nil]
      rwa [List.append_nil] at spread

theorem Written.readsAlone {form : Form} (written : form.Written text)
    (stands : StandsAt source form.span.start (text ++ rest)) : form.ReadsAlone source := by
  obtain ⟨alone, read, isMoved⟩ := written.alone
  exact ⟨text, alone, written.covers stands, read, isMoved⟩

end

/-! ## Depth -/

mutual

/-- How many lists stand inside each other at the most. -/
def depth : Form → Nat
  | .atom _ _ => 0
  | .list items _ => depthAll items + 1

def depthAll : List Form → Nat
  | [] => 0
  | form :: rest => max form.depth (depthAll rest)

end

theorem depth_le_depthAll {form : Form} {forms : List Form} (mem : form ∈ forms) :
    form.depth ≤ depthAll forms := by
  induction forms with
  | nil => simp at mem
  | cons first rest ih =>
      rw [depthAll]
      rcases List.mem_cons.mp mem with rfl | later
      · exact Nat.le_max_left _ _
      · exact Nat.le_trans (ih later) (Nat.le_max_right _ _)

mutual

/-- Every list takes its parentheses. -/
theorem Written.depth_le {form : Form} {text : List Char} (written : form.Written text) :
    form.depth ≤ text.length := by
  match form with
  | .atom _ _ => exact Nat.zero_le _
  | .list items span =>
      obtain ⟨-, inner, rfl, row⟩ := written
      have inside := row.depthAll_le
      rw [depth, List.length_cons, List.length_append]
      omega

theorem Row.depthAll_le {at_ : Nat} {forms : List Form} {text : List Char}
    (row : Row at_ forms text) : depthAll forms ≤ text.length := by
  match forms with
  | [] => exact Nat.zero_le _
  | form :: forms =>
      obtain ⟨gap, own, others, rfl, -, -, written, -, row⟩ := row
      have here := written.depth_le
      have there := row.depthAll_le
      rw [depthAll, List.length_append, List.length_append]
      omega

end

end Form

end StepCode
