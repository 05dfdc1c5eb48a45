import StepCode.Proofs.Checked.Lexical

/-!
# The reader, position by position

The checked reader goes down into the lists of a source.  It ends within its steps, it has the result
of the reader, and the forms that it finds fill the source.
-/

namespace StepCode

open Text (size)
open Token (endsWord ofWord scan)

namespace Checked

/-- The form at a position; there has to be one.  A list is read on by `list`, given where it
started and the position behind its parenthesis. -/
def form (source : String) (list : Nat → Nat → Checked (Form × Nat)) (start : Nat) :
    Checked (Form × Nat) := do
  match ← peek source start with
  | none => stuck
  | some c =>
      if c = '(' then do
        let (_, next) ← bump source start
        list start next
      else if c = ')' then blame .unexpectedClose ⟨start, start + 1⟩
      else if c = '"' then do
        let (_, next) ← bump source start
        text source start (steps source) [] next
      else word source start

/-- A list that started at `start` and of which some items have been read, last first. -/
def items (source : String) : (fuel start : Nat) → (read : List Form) → (at_ : Nat) →
    Checked (Form × Nat)
  | 0, _, _, _ => stuck
  | fuel + 1, start, read, at_ => do
      let here ← skipTrivia source (steps source) at_
      match ← peek source here with
      | none => blame .unclosedList ⟨start, start + 1⟩
      | some c =>
          if c = ')' then do
            let (_, stop) ← bump source here
            return (.list read.reverse ⟨start, stop⟩, stop)
          else do
            let (item, next) ← form source (fun start => items source fuel start []) here
            items source fuel start (item :: read) next

/-- A form outside any list. -/
def outerForm (source : String) (start : Nat) : Checked (Form × Nat) :=
  form source (fun start => items source (steps source) start []) start

/-- The forms of the source, of which some have been read, last first. -/
def forms (source : String) : (fuel : Nat) → (read : List Form) → (at_ : Nat) → Checked (List Form)
  | 0, _, _ => stuck
  | fuel + 1, read, at_ => do
      let here ← skipTrivia source (steps source) at_
      if source.utf8ByteSize ≤ here then return read.reverse
      else do
        let (one, next) ← outerForm source here
        forms source fuel (one :: read) next

/-- Every top-level form of a source. -/
def readAll (source : String) : Checked (List Form) := forms source (steps source) [] 0

/-! ## What is read -/

section

variable {source : String} {at_ fuel : Nat} {rest : List Char} {c : Char}

/-- An error of the checked reader at a form, which the scanner and the reader come to as well. -/
def Fails (source : String) (start : Nat) (rest : List Char) (checked : Checked (Form × Nat)) :
    Prop :=
  ∃ error, Reports source error checked ∧
    ∀ assembly : Form.Assembly, assembly.complete (scan .gap start rest) = .error error

/-- What the checked reader makes of the rest of a list. -/
def ReadsList (source : String) (start : Nat) (read : List Form) (at_ : Nat) (rest : List Char)
    (checked : Checked (Form × Nat)) : Prop :=
  (∃ more text behind, rest = text ++ ')' :: behind ∧ Form.Row at_ more text ∧
    checked =
      pure (.list (read.reverse ++ more) ⟨start, at_ + size text + 1⟩, at_ + size text + 1)) ∨
  ∃ error, Reports source error checked ∧ ∀ outer done,
    Form.Assembly.complete ⟨⟨start, read⟩ :: outer, done⟩ (scan .gap at_ rest) = .error error

/-- A form that is no lone parenthesis, given what the reader makes of lists that start in it. -/
theorem form_spec (list : Nat → Nat → Checked (Form × Nat))
    (stands : StandsAt source at_ (c :: rest)) (notBlank : Text.isBlank c = false)
    (noNote : c ≠ ';') (noClose : c ≠ ')')
    (inner : c = '(' → ReadsList source at_ [] (at_ + 1) rest (list at_ (at_ + 1))) :
    Finds at_ (c :: rest) (form source list at_) ∨
      Fails source at_ (c :: rest) (form source list at_) := by
  rw [form, peek_eq stands]
  simp only [List.head?_cons, pure_bind, if_neg noClose]
  split
  next opens =>
    subst opens
    rw [bump_eq_some stands, pure_bind]
    change Finds _ _ (list at_ (at_ + 1)) ∨ Fails _ _ _ (list at_ (at_ + 1))
    obtain ⟨more, text, behind, rfl, row, found⟩ | ⟨error, reports, fails⟩ := inner rfl
    · refine .inl ⟨.list more ⟨at_, at_ + size ('(' :: (text ++ [')']))⟩, '(' :: (text ++ [')']),
        behind, by simp, by simp, rfl, ⟨rfl, text, rfl, row⟩, by simp [Form.isWord], ?_⟩
      have bytes : at_ + size ('(' :: (text ++ [')'])) = at_ + 1 + size text + 1 := by
        rw [Form.size_listed]
        omega
      rw [found, bytes]
      rfl
    · refine .inr ⟨error, reports, fun assembly => ?_⟩
      change assembly.complete (.cons (.openList at_) (scan .gap (at_ + 1) rest)) = _
      rw [Form.Assembly.complete_openList, fails]
  next noOpen =>
    split
    next quotes =>
      subst quotes
      rw [bump_eq_some stands, pure_bind]
      change Finds _ _ (text source at_ (steps source) [] (at_ + 1)) ∨
        Fails _ _ _ (text source at_ (steps source) [] (at_ + 1))
      obtain ⟨body, content, behind, rfl, quoted, found⟩ | ⟨error, reports, scanned⟩ :=
        text_spec [] ['"'] stands (rfl : at_ + 1 = at_ + size ['"']) (length_lt_steps stands.next)
      · refine .inl ⟨.atom (.text (String.ofList content))
            ⟨at_, at_ + size ('"' :: (body ++ ['"']))⟩, '"' :: (body ++ ['"']), behind, by simp,
          by simp, rfl, ⟨rfl, .text quoted⟩, by simp [Form.isWord], ?_⟩
        have bytes : at_ + size ('"' :: (body ++ ['"'])) = at_ + 1 + size body + 1 := by
          rw [Form.size_quoted]
          omega
        rw [found, bytes]
        rfl
      · refine .inr ⟨error, reports, fun assembly => ?_⟩
        change assembly.complete (scan (.text at_ []) (at_ + 1) rest) = _
        rw [scanned, Form.Assembly.complete_fault]
    next noQuote =>
      refine .inl (word_spec stands ?_)
      simp [endsWord, notBlank, noNote, noClose, noOpen, noQuote]

theorem endsWord_of_append {text behind : List Char} (ends : EndsWord (text ++ behind)) :
    EndsWord text := by
  cases text with
  | nil => trivial
  | cons c text => exact ends

/-- A form behind a gap.  The reader goes on behind it with the form put together, and whatever row
of forms follows is a row with the form in front. -/
structure GoesOn (source : String) (at_ : Nat) (rest : List Char) (form : Form)
    (behind : List Char) : Prop where
  stands : StandsAt source form.span.stop behind
  shorter : behind.length < rest.length
  complete : ∀ assembly : Form.Assembly, assembly.complete (scan .gap at_ rest) =
    (assembly.push form).complete (scan .gap form.span.stop behind)
  row : ∀ {more others last}, behind = others ++ last → Form.Row form.span.stop more others →
    ∃ text, rest = text ++ last ∧ Form.Row at_ (form :: more) text ∧
      form.span.stop + size others = at_ + size text

theorem Finds.goesOn {gap : List Char} {checked : Checked (Form × Nat)}
    (stands : StandsAt source at_ (gap ++ rest)) (trivia : Trivia gap)
    (finds : Finds (at_ + size gap) rest checked) :
    ∃ form behind, checked = pure (form, form.span.stop) ∧
      GoesOn source at_ (gap ++ rest) form behind := by
  obtain ⟨form, text, behind, rfl, nonempty, starts, written, bare, found⟩ := finds
  have stops : form.span.stop = at_ + size gap + size text := by
    rw [written.stop_eq, starts]
  refine ⟨form, behind, found, ⟨stops ▸ (stands.behind gap).behind text, ?_, fun assembly => ?_, ?_⟩⟩
  · have := List.length_pos_iff.mpr nonempty
    simp only [List.length_append]
    omega
  · rw [Token.scan_trivia trivia, ← starts, written.complete bare]
  · rintro more others last rfl row
    refine ⟨gap ++ (text ++ others), by simp, ⟨gap, text, others, rfl, trivia, starts, written,
      fun isWord => endsWord_of_append (bare isWord), row⟩, ?_⟩
    rw [stops, Text.size_append, Text.size_append]
    omega

/-- Reading a list goes on to its closing parenthesis, or it reports an error of the reader. -/
theorem items_spec {start : Nat} (read : List Form) (stands : StandsAt source at_ rest)
    (opened : Span.Covers source ⟨start, start + 1⟩ ['(']) (enough : rest.length < fuel) :
    ReadsList source start read at_ rest (items source fuel start read at_) := by
  induction fuel generalizing at_ rest start read with
  | zero => exact absurd enough (Nat.not_lt_zero _)
  | succ fuel ih =>
      obtain ⟨gap, behind, rfl, stops, skipped⟩ :=
        skipTrivia_spec stands (length_lt_steps stands)
      have standsBehind : StandsAt source (at_ + size gap) behind := stands.behind gap
      unfold ReadsList
      rw [items, skipped, pure_bind, peek_eq standsBehind]
      simp only [pure_bind]
      obtain ⟨final, rfl⟩ | ⟨trivia, c, rest, rfl, notBlank, noNote⟩ := stops
      · refine .inr ⟨⟨.unclosedList, ⟨start, start + 1⟩⟩, ⟨rfl, _, opened⟩, fun outer done => ?_⟩
        rw [List.append_nil, Token.scan_finalTrivia final]
        rfl
      · simp only [List.head?_cons]
        split
        next closes =>
          subst closes
          refine .inl ⟨[], gap, rest, rfl, trivia, ?_⟩
          rw [bump_eq_some standsBehind, List.append_nil]
          rfl
        next noClose =>
          have inner : c = '(' → ReadsList source (at_ + size gap) [] (at_ + size gap + 1) rest
              (items source fuel (at_ + size gap) [] (at_ + size gap + 1)) := by
            rintro rfl
            have shorter : rest.length < fuel := by
              rw [List.length_append, List.length_cons] at enough
              omega
            exact ih [] standsBehind.next (standsBehind.covers ['(']) shorter
          obtain finds | ⟨error, reports, fails⟩ :=
            form_spec (fun start => items source fuel start []) standsBehind notBlank noNote noClose
              inner
          · obtain ⟨form, behind, found, goesOn⟩ := finds.goesOn stands trivia
            rw [found]
            simp only [pure_bind]
            obtain ⟨more, others, last, same, row, foundMore⟩ | ⟨error, reports, fails⟩ :=
              ih (form :: read) goesOn.stands opened
                (Nat.lt_of_lt_of_le goesOn.shorter (Nat.le_of_lt_succ enough))
            · obtain ⟨text, parts, row, bytes⟩ := goesOn.row same row
              refine .inl ⟨form :: more, text, last, parts, row, ?_⟩
              rw [foundMore, bytes, List.reverse_cons, List.append_assoc]
              rfl
            · refine .inr ⟨error, reports, fun outer done => ?_⟩
              rw [goesOn.complete]
              exact fails outer done
          · refine .inr ⟨error, ⟨?_, reports.2⟩, fun outer done => ?_⟩
            · rw [reports.1]
              rfl
            · rw [Token.scan_trivia trivia, fails]

/-- A form outside any list, and what stands behind it; or an error of the reader. -/
theorem outer_form_spec (stands : StandsAt source at_ (c :: rest))
    (notBlank : Text.isBlank c = false) (noNote : c ≠ ';') :
    Finds at_ (c :: rest) (outerForm source at_) ∨
    ∃ error, Reports source error (outerForm source at_) ∧
      ∀ done, Form.Assembly.complete ⟨[], done⟩ (scan .gap at_ (c :: rest)) = .error error := by
  by_cases closes : c = ')'
  · subst closes
    refine .inr ⟨⟨.unexpectedClose, ⟨at_, at_ + 1⟩⟩, ⟨?_, [')'], ?_⟩, fun done => rfl⟩
    · rw [outerForm, form, peek_eq stands]
      rfl
    · exact stands.covers [')']
  · have inner : c = '(' → ReadsList source at_ [] (at_ + 1) rest
        (items source (steps source) at_ [] (at_ + 1)) := by
      rintro rfl
      exact items_spec [] stands.next (stands.covers ['(']) (length_lt_steps stands.next)
    obtain finds | ⟨error, reports, fails⟩ := form_spec
        (fun start => items source (steps source) start []) stands notBlank noNote closes inner
    · exact .inl finds
    · exact .inr ⟨error, reports, fun done => fails _⟩

/-- Reading the forms of a source goes on to its end, or it reports an error of the reader. -/
theorem forms_spec (read : List Form) (stands : StandsAt source at_ rest)
    (enough : rest.length < fuel) :
    (∃ more text last, rest = text ++ last ∧ Form.Row at_ more text ∧ LastNote last ∧
      forms source fuel read at_ = pure (read.reverse ++ more)) ∨
    ∃ error, Reports source error (forms source fuel read at_) ∧
      Form.Assembly.complete ⟨[], read⟩ (scan .gap at_ rest) = .error error := by
  induction fuel generalizing at_ rest read with
  | zero => exact absurd enough (Nat.not_lt_zero _)
  | succ fuel ih =>
      obtain ⟨gap, behind, rfl, stops, skipped⟩ :=
        skipTrivia_spec stands (length_lt_steps stands)
      have standsBehind : StandsAt source (at_ + size gap) behind := stands.behind gap
      have bytes := standsBehind.utf8ByteSize_eq
      rw [forms, skipped, pure_bind]
      obtain ⟨⟨gap, last, rfl, trivia, isLast⟩, rfl⟩ | ⟨trivia, c, rest, rfl, notBlank, noNote⟩ :=
        stops
      · refine .inl ⟨[], gap, last, by simp, trivia, isLast, ?_⟩
        have ended : source.utf8ByteSize ≤ at_ + size (gap ++ last) := Nat.le_of_eq bytes
        rw [if_pos ended, List.append_nil]
      · have inside : ¬ source.utf8ByteSize ≤ at_ + size gap := by
          have := c.utf8Size_pos
          rw [bytes, Text.size_cons]
          omega
        rw [if_neg inside]
        obtain finds | ⟨error, reports, fails⟩ := outer_form_spec standsBehind notBlank noNote
        · obtain ⟨form, behind, found, goesOn⟩ := finds.goesOn stands trivia
          rw [found]
          simp only [pure_bind]
          obtain ⟨more, others, last, same, row, isLast, foundMore⟩ | ⟨error, reports, fails⟩ :=
            ih (form :: read) goesOn.stands
              (Nat.lt_of_lt_of_le goesOn.shorter (Nat.le_of_lt_succ enough))
          · obtain ⟨text, parts, row, -⟩ := goesOn.row same row
            refine .inl ⟨form :: more, text, last, parts, row, isLast, ?_⟩
            rw [foundMore, List.reverse_cons, List.append_assoc]
            rfl
          · refine .inr ⟨error, reports, ?_⟩
            rw [goesOn.complete]
            exact fails
        · refine .inr ⟨error, ⟨?_, reports.2⟩, ?_⟩
          · rw [reports.1]
            rfl
          · rw [Token.scan_trivia trivia, fails]

end

/-- What the reader makes of a source, the checked reader makes of it as well: forms that fill the
source, or an error whose span covers a part of it. -/
theorem readAll_spec (source : String) :
    (∃ forms text last, source.toList = text ++ last ∧ Form.Row 0 forms text ∧ LastNote last ∧
      readAll source = pure forms ∧ Form.readAll source = .ok forms) ∨
    ∃ error, Reports source error (readAll source) ∧ Form.readAll source = .error error := by
  obtain ⟨forms, text, last, parts, row, isLast, found⟩ | ⟨error, reports, fails⟩ :=
    forms_spec [] (.start source) (length_lt_steps (.start source))
  · refine .inl ⟨forms, text, last, parts, row, isLast, found, ?_⟩
    have ends : EndsWord last := by
      obtain rfl | ⟨note, rfl, -⟩ := isLast
      · trivial
      · rfl
    rw [Form.readAll_eq, parts, row.complete ends, Token.scan_lastNote isLast, Form.Assembly.start,
      Form.Assembly.pushAll_done, List.append_nil]
    exact congrArg Except.ok (List.reverse_reverse forms)
  · exact .inr ⟨error, reports, fails⟩

end Checked

end StepCode
