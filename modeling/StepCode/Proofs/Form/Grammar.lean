import StepCode.Proofs.Form.Places
import StepCode.Proofs.Form.Spelling

/-!
# The text of a form

What stands in the source between the ends of a form, and what stands between forms in a row.  Behind
such a text the reader has put together just that form, whatever follows; so the text can be read on
its own as well, and then gives the form with its places counted from the start of the text.
-/

namespace StepCode

open Text (size)
open Token (endsWord ofWord escape? scan)

/-! ## Pieces of a source -/

/-- White space and comments; each comment goes up to the end of its line. -/
inductive Trivia : List Char → Prop where
  | nothing : Trivia []
  | blank {c : Char} {rest : List Char} (isBlank : Text.isBlank c = true) (behind : Trivia rest) :
      Trivia (c :: rest)
  | comment {note rest : List Char} (inLine : '\n' ∉ note) (behind : Trivia rest) :
      Trivia (';' :: (note ++ '\n' :: rest))

/-- What the end of a source may leave open: a comment in the last line. -/
def LastNote (last : List Char) : Prop := last = [] ∨ ∃ note, last = ';' :: note ∧ '\n' ∉ note

/-- White space and comments at the end of a source. -/
def FinalTrivia (text : List Char) : Prop :=
  ∃ gap last, text = gap ++ last ∧ Trivia gap ∧ LastNote last

theorem Trivia.append {gap more : List Char} (trivia : Trivia gap) (others : Trivia more) :
    Trivia (gap ++ more) := by
  induction trivia with
  | nothing => exact others
  | blank isBlank _ ih => exact .blank isBlank ih
  | comment inLine _ ih =>
      rw [List.cons_append, List.append_assoc]
      exact .comment inLine ih

theorem FinalTrivia.append {gap more : List Char} (trivia : Trivia gap) (others : FinalTrivia more) :
    FinalTrivia (gap ++ more) := by
  obtain ⟨first, last, rfl, behind, isLast⟩ := others
  exact ⟨gap ++ first, last, (List.append_assoc ..).symm, trivia.append behind, isLast⟩

theorem Trivia.final {gap : List Char} (trivia : Trivia gap) : FinalTrivia gap :=
  ⟨gap, [], (List.append_nil gap).symm, trivia, .inl rfl⟩

/-- What stands between the quotes of a text. -/
inductive Quoted : (body content : List Char) → Prop where
  | nothing : Quoted [] []
  | plain {c : Char} {body content : List Char} (noQuote : c ≠ '"') (noSlash : c ≠ '\\')
      (behind : Quoted body content) : Quoted (c :: body) (c :: content)
  | escaped {c plain : Char} {body content : List Char} (known : escape? c = some plain)
      (behind : Quoted body content) : Quoted ('\\' :: c :: body) (plain :: content)

/-- The characters of a bare word. -/
structure IsBare (word : List Char) : Prop where
  nonempty : word ≠ []
  plain : ∀ c ∈ word, endsWord c = false

namespace Token

theorem scan_note {note : List Char} (inLine : '\n' ∉ note) (at_ : Nat) (rest : List Char) :
    scan .comment at_ (note ++ rest) = scan .comment (at_ + size note) rest := by
  induction note generalizing at_ with
  | nil => rfl
  | cons c note ih =>
      rw [List.mem_cons, not_or] at inLine
      rw [List.cons_append, scan, if_neg (Ne.symm inLine.1), ih inLine.2, Text.size_cons,
        Nat.add_assoc]

/-- The scanner drops white space and comments. -/
theorem scan_trivia {gap : List Char} (trivia : Trivia gap) (at_ : Nat) (rest : List Char) :
    scan .gap at_ (gap ++ rest) = scan .gap (at_ + size gap) rest := by
  induction trivia generalizing at_ with
  | nothing => rfl
  | @blank c gap isBlank _ ih =>
      have begun : begin c at_ = (none, .gap) := by rw [begin, if_pos isBlank]
      rw [List.cons_append, scan, begun]
      change scan .gap (at_ + c.utf8Size) _ = _
      rw [ih, Text.size_cons, Nat.add_assoc]
  | @comment note gap inLine _ ih =>
      have ends : scan .comment (at_ + 1 + size note) ('\n' :: (gap ++ rest)) =
          scan .gap (at_ + 1 + size note + 1) (gap ++ rest) := rfl
      rw [List.cons_append, List.append_assoc, List.cons_append]
      change scan .comment (at_ + 1) _ = _
      rw [scan_note inLine, ends, ih]
      congr 1
      have bytes : size (';' :: (note ++ '\n' :: gap)) = 1 + (size note + (1 + size gap)) :=
        congrArg (1 + ·) (Text.size_append note ('\n' :: gap))
      omega

theorem scan_lastNote {last : List Char} (isLast : LastNote last) (at_ : Nat) :
    scan .gap at_ last = .done := by
  obtain rfl | ⟨note, rfl, inLine⟩ := isLast
  · rw [scan]
  · change scan .comment _ note = _
    rw [← List.append_nil note, scan_note inLine, scan]

theorem scan_finalTrivia {text : List Char} (trivia : FinalTrivia text) (at_ : Nat) :
    scan .gap at_ text = .done := by
  obtain ⟨gap, last, rfl, trivia, isLast⟩ := trivia
  rw [scan_trivia trivia, scan_lastNote isLast]

theorem scan_word_read {read word rest : List Char} (plain : ∀ c ∈ word, endsWord c = false)
    (ends : EndsWord rest) (start at_ : Nat) :
    scan (.word start read) at_ (word ++ rest) =
      .cons (.atom (ofWord (read.reverse ++ word)) ⟨start, at_ + size word⟩)
        (scan .gap (at_ + size word) rest) := by
  induction word generalizing read at_ with
  | nil =>
      cases rest with
      | nil => simp [scan, Token.word]
      | cons c rest =>
          have ends : endsWord c = true := ends
          simp only [List.nil_append, scan, ends, if_true, Token.word, List.append_nil,
            Text.size_nil, Nat.add_zero]
  | cons c word ih =>
      have inside : endsWord c = false := plain c List.mem_cons_self
      rw [List.cons_append, scan, inside, if_neg Bool.false_ne_true,
        ih fun d mem => plain d (List.mem_cons_of_mem c mem), Text.size_cons, Nat.add_assoc]
      simp

/-- The scanner finds a bare word that is not part of a longer one. -/
theorem scan_bare {word rest : List Char} (bare : IsBare word) (ends : EndsWord rest) (at_ : Nat) :
    scan .gap at_ (word ++ rest) =
      .cons (.atom (ofWord word) ⟨at_, at_ + size word⟩) (scan .gap (at_ + size word) rest) := by
  obtain ⟨c, word, rfl⟩ := List.exists_cons_of_ne_nil bare.nonempty
  obtain ⟨first, others⟩ := List.forall_mem_cons.mp bare.plain
  have begun : begin c at_ = (none, .word at_ [c]) := by
    simp only [endsWord, Bool.or_eq_false_iff, beq_eq_false_iff_ne] at first
    simp [begin, first]
  rw [List.cons_append, scan, begun]
  change scan (.word at_ [c]) _ _ = _
  rw [scan_word_read others ends, Text.size_cons, Nat.add_assoc]
  rfl

theorem scan_quoted {body content : List Char} (quoted : Quoted body content) (start at_ : Nat)
    (read rest : List Char) :
    scan (.text start read) at_ (body ++ '"' :: rest) =
      .cons (.atom (.text (String.ofList (read.reverse ++ content))) ⟨start, at_ + size body + 1⟩)
        (scan .gap (at_ + size body + 1) rest) := by
  induction quoted generalizing read at_ with
  | nothing => simp [scan]
  | @plain c body content noQuote noSlash _ ih =>
      rw [List.cons_append, scan, if_neg noQuote, if_neg noSlash, ih, Text.size_cons]
      simp [Nat.add_assoc]
  | @escaped c plain body content known _ ih =>
      change scan (.escape start read) (at_ + 1) (c :: (body ++ '"' :: rest)) = _
      rw [scan, known]
      change scan (.text start (plain :: read)) _ _ = _
      have bytes : size ('\\' :: c :: body) = 1 + (c.utf8Size + size body) := rfl
      rw [ih, bytes]
      simp [Nat.add_assoc]

/-- The scanner finds a text that stands in quotes. -/
theorem scan_text {body content : List Char} (quoted : Quoted body content) (at_ : Nat)
    (rest : List Char) :
    scan .gap at_ ('"' :: (body ++ '"' :: rest)) =
      .cons (.atom (.text (String.ofList content)) ⟨at_, at_ + size body + 2⟩)
        (scan .gap (at_ + size body + 2) rest) := by
  change scan (.text at_ []) (at_ + 1) _ = _
  rw [scan_quoted quoted, Nat.add_right_comm at_ 1]
  rfl

end Token

/-! ## Forms -/

/-- The text of an atom. -/
inductive Atom.Written : Atom → (text : List Char) → Prop where
  | word {word : List Char} (bare : IsBare word) : Written (ofWord word) word
  | text {body content : List Char} (quoted : Quoted body content) :
      Written (.text (String.ofList content)) ('"' :: (body ++ ['"']))

namespace Form

theorem size_quoted (body : List Char) : size ('"' :: (body ++ ['"'])) = size body + 2 := by
  have bytes : size ('"' :: (body ++ ['"'])) = 1 + (size body + 1) :=
    congrArg (1 + ·) (Text.size_append body ['"'])
  omega

theorem size_listed (inner : List Char) : size ('(' :: (inner ++ [')'])) = size inner + 2 := by
  have bytes : size ('(' :: (inner ++ [')'])) = 1 + (size inner + 1) :=
    congrArg (1 + ·) (Text.size_append inner [')'])
  omega

mutual

/-- The text is that of the form, and the span of the form has its size. -/
def Written : Form → (text : List Char) → Prop
  | .atom value span, text => span.stop = span.start + size text ∧ value.Written text
  | .list items span, text =>
      span.stop = span.start + size text ∧
        ∃ inner, text = '(' :: (inner ++ [')']) ∧ Row (span.start + 1) items inner

/-- The text holds the forms one behind the other, from byte `at_` on, with white space and comments
around them.  Behind a bare word something has to end it. -/
def Row (at_ : Nat) : List Form → (text : List Char) → Prop
  | [], text => Trivia text
  | form :: rest, text =>
      ∃ gap own others, text = gap ++ (own ++ others) ∧ Trivia gap ∧
        form.span.start = at_ + size gap ∧ form.Written own ∧
        (isWord form = true → EndsWord others) ∧ Row form.span.stop rest others

end

theorem Written.stop_eq {form : Form} {text : List Char} (written : form.Written text) :
    form.span.stop = form.span.start + size text := by
  cases form with
  | atom value span => exact written.1
  | list items span => exact written.1

/-! ### Reading the text of a form -/

/-- What the forms put together so far and the tokens behind them are read as. -/
def Assembly.complete (assembly : Assembly) (tokens : Tokens) : Except ParseError (List Form) :=
  assemble tokens.fault assembly tokens.list

theorem readAll_eq (source : String) :
    readAll source = Assembly.start.complete (scan .gap 0 source.toList) := rfl

theorem Assembly.complete_atom (value : Atom) (span : Span) (assembly : Assembly) (tokens : Tokens) :
    assembly.complete (.cons (.atom value span) tokens) =
      (assembly.push (.atom value span)).complete tokens := by
  simp only [complete, Tokens.cons, assemble]

theorem Assembly.complete_openList (start : Nat) (assembly : Assembly) (tokens : Tokens) :
    assembly.complete (.cons (.openList start) tokens) =
      Assembly.complete ⟨⟨start, []⟩ :: assembly.pending, assembly.done⟩ tokens := by
  simp only [complete, Tokens.cons, assemble]

theorem Assembly.complete_closeList (start stop : Nat) (read : List Form) (outer : List Pending)
    (done : List Form) (tokens : Tokens) :
    Assembly.complete ⟨⟨start, read⟩ :: outer, done⟩ (.cons (.closeList stop) tokens) =
      (Assembly.push (.list read.reverse ⟨start, stop + 1⟩) ⟨outer, done⟩).complete tokens := by
  simp only [complete, Tokens.cons, assemble]

theorem Assembly.complete_fault (assembly : Assembly) (error : ParseError) :
    assembly.complete ⟨[], some error⟩ = .error error := by
  simp only [complete, assemble]

/-- Behind a row something that ends words ends its last word too. -/
theorem endsWord_append {others rest : List Char} (inside : EndsWord others)
    (behind : EndsWord rest) : EndsWord (others ++ rest) := by
  cases others with
  | nil => exact behind
  | cons c others => exact inside

theorem isWord_ofWord (word : List Char) (span : Span) :
    isWord (.atom (ofWord word) span) = true := by
  unfold ofWord
  split
  · split <;> rfl
  · rfl

mutual

/-- Behind the text of a form the reader goes on with the form put together. -/
theorem Written.complete {form : Form} {text rest : List Char} (written : form.Written text)
    (ends : isWord form = true → EndsWord rest) (assembly : Assembly) :
    assembly.complete (scan .gap form.span.start (text ++ rest)) =
      (assembly.push form).complete (scan .gap form.span.stop rest) := by
  match form with
  | .atom value ⟨start, stop⟩ =>
      obtain ⟨stops, written⟩ := written
      obtain rfl : stop = start + size text := stops
      cases written with
      | word bare =>
          change assembly.complete (scan .gap start (text ++ rest)) = _
          rw [Token.scan_bare bare (ends (isWord_ofWord text _)), Assembly.complete_atom]
          rfl
      | @text body content quoted =>
          have parts : '"' :: (body ++ ['"']) ++ rest = '"' :: (body ++ '"' :: rest) := by simp
          change assembly.complete (scan .gap start _) = Assembly.complete _ (scan .gap (_ + _) _)
          rw [parts, size_quoted, ← Nat.add_assoc, Token.scan_text quoted, Assembly.complete_atom]
  | .list items ⟨start, stop⟩ =>
      obtain ⟨stops, inner, rfl, row⟩ := written
      have bytes : stop = start + (size inner + 2) := stops.trans (by rw [size_listed])
      obtain rfl : stop = start + 1 + size inner + 1 := by omega
      have parts : '(' :: (inner ++ [')']) ++ rest = '(' :: (inner ++ ')' :: rest) := by simp
      have opens (behind : List Char) : scan .gap start ('(' :: behind) =
          .cons (.openList start) (scan .gap (start + 1) behind) := rfl
      have endsWord_close : EndsWord (')' :: rest) := rfl
      have closes (at_ : Nat) : scan .gap at_ (')' :: rest) =
          .cons (.closeList at_) (scan .gap (at_ + 1) rest) := rfl
      change assembly.complete (scan .gap start _) = _
      rw [parts, opens, Assembly.complete_openList, row.complete endsWord_close,
        Assembly.pushAll_pending, closes, Assembly.complete_closeList, List.append_nil,
        List.reverse_reverse]
      rfl

theorem Row.complete {at_ : Nat} {forms : List Form} {text rest : List Char}
    (row : Row at_ forms text) (ends : EndsWord rest) (assembly : Assembly) :
    assembly.complete (scan .gap at_ (text ++ rest)) =
      (assembly.pushAll forms).complete (scan .gap (at_ + size text) rest) := by
  match forms with
  | [] =>
      rw [Token.scan_trivia row]
      rfl
  | form :: forms =>
      obtain ⟨gap, own, others, rfl, trivia, starts, written, bare, row⟩ := row
      have stops := written.stop_eq
      rw [List.append_assoc, List.append_assoc, Token.scan_trivia trivia, ← starts,
        written.complete (fun isWord => endsWord_append (bare isWord) ends), row.complete ends]
      have bytes : form.span.stop + size others = at_ + size (gap ++ (own ++ others)) := by
        rw [stops, starts, Text.size_append, Text.size_append]
        omega
      rw [bytes]
      rfl

end

/-! ### Reading the text on its own -/

end Form

/-- The span, with its places counted from `by_` bytes further in front. -/
def Span.moved (by_ : Nat) (span : Span) : Span := ⟨span.start + by_, span.stop + by_⟩

namespace Form

mutual

/-- The form with its places counted from `by_` bytes further in front. -/
def moved (by_ : Nat) : Form → Form
  | .atom value span => .atom value (span.moved by_)
  | .list items span => .list (movedAll by_ items) (span.moved by_)

def movedAll (by_ : Nat) : List Form → List Form
  | [] => []
  | form :: rest => form.moved by_ :: movedAll by_ rest

end

theorem span_moved (by_ : Nat) (form : Form) : (form.moved by_).span = form.span.moved by_ := by
  cases form <;> rfl

theorem isWord_moved (by_ : Nat) (form : Form) : isWord (form.moved by_) = isWord form := by
  cases form with
  | atom value span => cases value <;> rfl
  | list items span => rfl

mutual

/-- The text of a form is that of a form at any place further in front as well. -/
theorem Written.exists_moved {form : Form} {text : List Char} (written : form.Written text)
    (at_ by_ : Nat) (starts : form.span.start = at_ + by_) :
    ∃ alone : Form, alone.moved by_ = form ∧ alone.span.start = at_ ∧ alone.Written text := by
  match form with
  | .atom value ⟨start, stop⟩ =>
      obtain ⟨stops, written⟩ := written
      obtain rfl : stop = start + size text := stops
      obtain rfl : start = at_ + by_ := starts
      refine ⟨.atom value ⟨at_, at_ + size text⟩, ?_, rfl, rfl, written⟩
      simp only [moved, Span.moved, Nat.add_right_comm]
  | .list items ⟨start, stop⟩ =>
      obtain ⟨stops, inner, isText, row⟩ := written
      obtain rfl : stop = start + size text := stops
      obtain rfl : start = at_ + by_ := starts
      obtain ⟨alone, rfl, aloneRow⟩ := Row.exists_moved (at_ + 1) by_
        (by rwa [Nat.add_right_comm] at row)
      refine ⟨.list alone ⟨at_, at_ + size text⟩, ?_, rfl, rfl, inner, isText, aloneRow⟩
      simp only [moved, Span.moved, Nat.add_right_comm]

theorem Row.exists_moved {forms : List Form} {text : List Char} (at_ by_ : Nat)
    (row : Row (at_ + by_) forms text) :
    ∃ alone, movedAll by_ alone = forms ∧ Row at_ alone text := by
  match forms with
  | [] => exact ⟨[], rfl, row⟩
  | form :: forms =>
      obtain ⟨gap, own, others, isText, trivia, starts, written, bare, row⟩ := row
      obtain ⟨alone, rfl, aloneStarts, aloneWritten⟩ :=
        written.exists_moved (at_ + size gap) by_ (by rw [starts, Nat.add_right_comm])
      have stops : (alone.moved by_).span.stop = alone.span.stop + by_ := by
        rw [span_moved, Span.moved]
      rw [stops] at row
      obtain ⟨behind, rfl, behindRow⟩ := Row.exists_moved alone.span.stop by_ row
      rw [isWord_moved] at bare
      exact ⟨alone :: behind, rfl, gap, own, others, isText, trivia, aloneStarts, aloneWritten, bare,
        behindRow⟩

end

/-- The text of a form, read on its own, gives the form with its places counted from the start of
the text. -/
theorem Written.alone {form : Form} {text : List Char} (written : form.Written text) :
    ∃ alone : Form, readAll (String.ofList text) = .ok [alone] ∧
      alone.moved form.span.start = form := by
  obtain ⟨alone, isMoved, starts, written⟩ :=
    written.exists_moved 0 form.span.start (Nat.zero_add form.span.start).symm
  refine ⟨alone, ?_, isMoved⟩
  have ends : isWord alone = true → EndsWord [] := fun _ => trivial
  have read := written.complete ends .start
  rw [starts, List.append_nil] at read
  rw [readAll_eq, String.toList_ofList, read]
  rfl

end Form

end StepCode
