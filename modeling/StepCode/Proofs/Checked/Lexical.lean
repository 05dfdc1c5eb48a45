import StepCode.Proofs.Checked
import StepCode.Proofs.Form.Grammar

/-!
# Atoms, position by position

All that the checked reader keeps of the source is a byte position.  Whatever it looks at it cuts
out of the source at that position.  Every loop is given a number of steps that it has to end in, one
for each byte of the source and one more.  White space, comments, words and texts are read in turn;
where the scanner finds a fault, the checked reader reports the same error.
-/

namespace StepCode

open Text (size)
open Token (endsWord ofWord escape? scan)

namespace Checked

/-! ## Looking at the source -/

/-- The character at a position, if it is not the end of the source. -/
def peek (source : String) (at_ : Nat) : Checked (Option Char) := do
  let (_, behind) ← need (Text.split? source.toList at_)
  return behind.head?

/-- The characters between two positions. -/
def slice (source : String) (start stop : Nat) : Checked (List Char) := do
  let (front, _) ← need (Text.split? source.toList stop)
  let (_, chars) ← need (Text.split? front start)
  return chars

/-- The character at a position, and the position behind it, which has to be one of the source. -/
def bump (source : String) (at_ : Nat) : Checked (Option Char × Nat) := do
  match ← peek source at_ with
  | none => return (none, at_)
  | some c =>
      let next := at_ + c.utf8Size
      let _ ← need (Text.split? source.toList next)
      return (some c, next)

/-! ## Reading -/

/-- The steps that a loop through the source is given. -/
def steps (source : String) : Nat := source.utf8ByteSize + 1

/-- Up to the end of the line. -/
def skipComment (source : String) : (fuel at_ : Nat) → Checked Nat
  | 0, _ => stuck
  | fuel + 1, at_ => do
      match ← bump source at_ with
      | (none, next) => return next
      | (some c, next) => if c = '\n' then return next else skipComment source fuel next

/-- Up to the next character that is neither white space nor part of a comment. -/
def skipTrivia (source : String) : (fuel at_ : Nat) → Checked Nat
  | 0, _ => stuck
  | fuel + 1, at_ => do
      match ← peek source at_ with
      | none => return at_
      | some c =>
          if Text.isBlank c then do
            let (_, next) ← bump source at_
            skipTrivia source fuel next
          else if c = ';' then do
            let next ← skipComment source (steps source) at_
            skipTrivia source fuel next
          else return at_

/-- Up to the end of the bare word. -/
def wordEnd (source : String) : (fuel at_ : Nat) → Checked Nat
  | 0, _ => stuck
  | fuel + 1, at_ => do
      match ← peek source at_ with
      | none => return at_
      | some c =>
          if endsWord c then return at_
          else do
            let (_, next) ← bump source at_
            wordEnd source fuel next

def word (source : String) (start : Nat) : Checked (Form × Nat) := do
  let stop ← wordEnd source (steps source) start
  let chars ← slice source start stop
  return (.atom (ofWord chars) ⟨start, stop⟩, stop)

/-- A text that started at `start` and of which some characters have been read, last first. -/
def text (source : String) (start : Nat) : (fuel : Nat) → (read : List Char) → (at_ : Nat) →
    Checked (Form × Nat)
  | 0, _, _ => stuck
  | fuel + 1, read, at_ => do
      match ← bump source at_ with
      | (none, stop) => blame .unterminatedText ⟨start, stop⟩
      | (some c, next) =>
          if c = '"' then return (.atom (.text (String.ofList read.reverse)) ⟨start, next⟩, next)
          else if c = '\\' then do
            match ← bump source next with
            | (none, stop) => blame .unterminatedText ⟨start, stop⟩
            | (some c, stop) =>
                match escape? c with
                | some plain => text source start fuel (plain :: read) stop
                | none => blame (.unknownEscape c) ⟨next - 1, stop⟩
          else text source start fuel (c :: read) next

/-! ## What is read -/

section

variable {source : String} {at_ fuel : Nat} {rest piece : List Char} {c : Char}

/-- A walk through the rest of the source ends within its steps. -/
theorem length_lt_steps (stands : StandsAt source at_ rest) : rest.length < steps source := by
  have bytes := stands.utf8ByteSize_eq
  have shorter := Text.length_le_size rest
  rw [steps]
  omega

theorem peek_eq (stands : StandsAt source at_ rest) : peek source at_ = pure rest.head? := by
  obtain ⟨front, split⟩ := stands.split?
  rw [peek, split]
  rfl

theorem slice_eq (stands : StandsAt source at_ (piece ++ rest)) :
    slice source at_ (at_ + size piece) = pure piece := by
  obtain ⟨front, parts, rfl⟩ := stands
  have outer : Text.split? source.toList (size front + size piece) =
      some (front ++ piece, rest) := by
    rw [parts, ← List.append_assoc, ← Text.size_append, Text.split?_append]
  have inner := Text.split?_append front piece
  simp only [slice, outer, need, pure_bind, inner]

theorem bump_eq_none (stands : StandsAt source at_ []) : bump source at_ = pure (none, at_) := by
  rw [bump, peek_eq stands]
  rfl

theorem bump_eq_some (stands : StandsAt source at_ (c :: rest)) :
    bump source at_ = pure (some c, at_ + c.utf8Size) := by
  obtain ⟨front, split⟩ := stands.next.split?
  rw [bump, peek_eq stands]
  simp only [List.head?_cons, pure_bind, split, need]

theorem skipComment_spec (stands : StandsAt source at_ rest) (enough : rest.length < fuel) :
    ∃ note behind, rest = note ++ behind ∧ '\n' ∉ note ∧
      (behind = [] ∧ skipComment source fuel at_ = pure (at_ + size note) ∨
        ∃ others, behind = '\n' :: others ∧
          skipComment source fuel at_ = pure (at_ + size note + 1)) := by
  induction fuel generalizing at_ rest with
  | zero => exact absurd enough (Nat.not_lt_zero _)
  | succ fuel ih =>
      rw [skipComment]
      cases rest with
      | nil =>
          refine ⟨[], [], rfl, List.not_mem_nil, .inl ⟨rfl, ?_⟩⟩
          rw [bump_eq_none stands]
          rfl
      | cons c rest =>
          rw [bump_eq_some stands]
          simp only [pure_bind]
          by_cases ends : c = '\n'
          · subst ends
            exact ⟨[], '\n' :: rest, rfl, List.not_mem_nil, .inr ⟨rest, rfl, rfl⟩⟩
          · rw [if_neg ends]
            obtain ⟨note, behind, rfl, inLine, skipped⟩ :=
              ih stands.next (Nat.lt_of_succ_lt_succ enough)
            refine ⟨c :: note, behind, rfl, by simp [Ne.symm ends, inLine], ?_⟩
            rw [Text.size_cons, ← Nat.add_assoc]
            exact skipped

/-- White space and comments stop at the end of the source or at the start of a token. -/
def Stops (gap behind : List Char) : Prop :=
  FinalTrivia gap ∧ behind = [] ∨
    Trivia gap ∧ ∃ c others, behind = c :: others ∧ Text.isBlank c = false ∧ c ≠ ';'

theorem Stops.append {front gap behind : List Char} (trivia : Trivia front)
    (stops : Stops gap behind) : Stops (front ++ gap) behind := by
  obtain ⟨final, ends⟩ | ⟨more, token⟩ := stops
  · exact .inl ⟨.append trivia final, ends⟩
  · exact .inr ⟨trivia.append more, token⟩

/-- From its first character on, a comment ends with its line or with the source. -/
theorem comment_spec (stands : StandsAt source at_ (';' :: rest)) :
    ∃ note, '\n' ∉ note ∧
      (rest = note ∧ skipComment source (steps source) at_ = pure (at_ + size (';' :: note)) ∨
        ∃ others, rest = note ++ '\n' :: others ∧
          skipComment source (steps source) at_ = pure (at_ + size (';' :: note) + 1)) := by
  obtain ⟨line, behind, parts, inLine, ends⟩ := skipComment_spec stands (length_lt_steps stands)
  cases line with
  | nil => obtain ⟨rfl, -⟩ | ⟨others, rfl, -⟩ := ends <;> cases parts
  | cons first note =>
      obtain ⟨rfl, rfl⟩ := List.cons.inj parts
      rw [List.mem_cons, not_or] at inLine
      obtain ⟨rfl, skipped⟩ | ⟨others, rfl, skipped⟩ := ends
      · exact ⟨note, inLine.2, .inl ⟨List.append_nil note, skipped⟩⟩
      · exact ⟨note, inLine.2, .inr ⟨others, rfl, skipped⟩⟩

theorem skipTrivia_at_end (stands : StandsAt source at_ []) (positive : 0 < fuel) :
    skipTrivia source fuel at_ = pure at_ := by
  obtain ⟨fuel, rfl⟩ := Nat.exists_eq_succ_of_ne_zero (Nat.ne_of_gt positive)
  rw [skipTrivia, peek_eq stands]
  rfl

theorem skipTrivia_spec (stands : StandsAt source at_ rest) (enough : rest.length < fuel) :
    ∃ gap behind, rest = gap ++ behind ∧ Stops gap behind ∧
      skipTrivia source fuel at_ = pure (at_ + size gap) := by
  induction fuel generalizing at_ rest with
  | zero => exact absurd enough (Nat.not_lt_zero _)
  | succ fuel ih =>
      rw [skipTrivia, peek_eq stands]
      cases rest with
      | nil => exact ⟨[], [], rfl, .inl ⟨Trivia.nothing.final, rfl⟩, rfl⟩
      | cons c rest =>
          have shorter : rest.length < fuel := Nat.lt_of_succ_lt_succ enough
          simp only [List.head?_cons, pure_bind]
          split
          next isBlank =>
            obtain ⟨gap, behind, rfl, stops, skipped⟩ := ih stands.next shorter
            refine ⟨c :: gap, behind, rfl, stops.append (.blank isBlank .nothing), ?_⟩
            rw [bump_eq_some stands, pure_bind, skipped, Text.size_cons, Nat.add_assoc]
          next notBlank =>
            split
            next isNote =>
              subst isNote
              obtain ⟨note, inLine, ⟨rfl, skipped⟩ | ⟨others, rfl, skipped⟩⟩ := comment_spec stands
              · have last : LastNote (';' :: rest) := .inr ⟨rest, rfl, inLine⟩
                have atEnd : StandsAt source (at_ + size (';' :: rest)) [] :=
                  StandsAt.behind (';' :: rest) (by rwa [List.append_nil])
                refine ⟨';' :: rest, [], by simp, .inl ⟨⟨[], _, rfl, .nothing, last⟩, rfl⟩, ?_⟩
                rw [skipped, pure_bind, skipTrivia_at_end atEnd (by omega)]
              · have later : StandsAt source (at_ + size (';' :: note) + 1) others :=
                  (stands.behind (';' :: note)).next
                have shorter : others.length < fuel := by
                  rw [List.length_append, List.length_cons] at shorter
                  omega
                obtain ⟨gap, behind, rfl, stops, skippedMore⟩ := ih later shorter
                refine ⟨';' :: (note ++ ['\n']) ++ gap, behind, by simp,
                  stops.append (.comment inLine .nothing), ?_⟩
                have bytes : size (';' :: (note ++ ['\n']) ++ gap) =
                    size (';' :: note) + 1 + size gap := by
                  rw [Text.size_append, ← List.cons_append, Text.size_append]
                  rfl
                rw [skipped, pure_bind, skippedMore, bytes, ← Nat.add_assoc, ← Nat.add_assoc]
            next noNote =>
              exact ⟨[], c :: rest, rfl,
                .inr ⟨.nothing, c, rest, rfl, by simpa using notBlank, noNote⟩, rfl⟩

theorem wordEnd_spec (stands : StandsAt source at_ rest) (enough : rest.length < fuel) :
    ∃ word behind, rest = word ++ behind ∧ (∀ c ∈ word, endsWord c = false) ∧ EndsWord behind ∧
      wordEnd source fuel at_ = pure (at_ + size word) := by
  induction fuel generalizing at_ rest with
  | zero => exact absurd enough (Nat.not_lt_zero _)
  | succ fuel ih =>
      rw [wordEnd, peek_eq stands]
      cases rest with
      | nil => exact ⟨[], [], rfl, by simp, trivial, rfl⟩
      | cons c rest =>
          simp only [List.head?_cons, pure_bind]
          split
          next ends => exact ⟨[], c :: rest, rfl, by simp, ends, rfl⟩
          next inside =>
            obtain ⟨word, behind, rfl, plain, ends, walked⟩ :=
              ih stands.next (Nat.lt_of_succ_lt_succ enough)
            refine ⟨c :: word, behind, rfl, List.forall_mem_cons.mpr ⟨by simpa using inside, plain⟩,
              ends, ?_⟩
            rw [bump_eq_some stands, pure_bind, walked, Text.size_cons, Nat.add_assoc]

/-- A form that the checked reader finds, and what stands behind its text. -/
def Finds (start : Nat) (rest : List Char) (checked : Checked (Form × Nat)) : Prop :=
  ∃ form text behind, rest = text ++ behind ∧ text ≠ [] ∧ form.span.start = start ∧
    form.Written text ∧ (form.isWord = true → EndsWord behind) ∧
    checked = pure (form, form.span.stop)

/-- An error that the checked reader reports, with a span that covers a part of the source. -/
def Reports {α : Type} (source : String) (error : ParseError) (checked : Checked α) : Prop :=
  checked = of (.error error) ∧ ∃ text, error.span.Covers source text

theorem word_spec (stands : StandsAt source at_ (c :: rest)) (inside : endsWord c = false) :
    Finds at_ (c :: rest) (word source at_) := by
  obtain ⟨chars, behind, parts, plain, ends, walked⟩ :=
    wordEnd_spec stands (length_lt_steps stands)
  rw [parts] at stands ⊢
  have nonempty : chars ≠ [] := by
    rintro rfl
    obtain rfl : c :: rest = behind := parts
    exact Bool.false_ne_true (inside.symm.trans ends)
  refine ⟨.atom (ofWord chars) ⟨at_, at_ + size chars⟩, chars, behind, rfl, nonempty, rfl,
    ⟨rfl, .word ⟨nonempty, plain⟩⟩, fun _ => ends, ?_⟩
  rw [word, walked, pure_bind, slice_eq stands]
  rfl

section

variable (start fuel : Nat) (read : List Char)

theorem text_nil (stands : StandsAt source at_ []) :
    text source start (fuel + 1) read at_ = blame .unterminatedText ⟨start, at_⟩ := by
  rw [text, bump_eq_none stands]
  rfl

theorem text_quote (stands : StandsAt source at_ ('"' :: rest)) :
    text source start (fuel + 1) read at_ =
      pure (.atom (.text (String.ofList read.reverse)) ⟨start, at_ + 1⟩, at_ + 1) := by
  rw [text, bump_eq_some stands]
  rfl

theorem text_plain (stands : StandsAt source at_ (c :: rest)) (noQuote : c ≠ '"')
    (noSlash : c ≠ '\\') :
    text source start (fuel + 1) read at_ =
      text source start fuel (c :: read) (at_ + c.utf8Size) := by
  rw [text, bump_eq_some stands]
  simp only [pure_bind, if_neg noQuote, if_neg noSlash]

theorem text_slash (stands : StandsAt source at_ ['\\']) :
    text source start (fuel + 1) read at_ = blame .unterminatedText ⟨start, at_ + 1⟩ := by
  have behind : StandsAt source (at_ + 1) [] := stands.next
  rw [text, bump_eq_some stands]
  change bump source (at_ + 1) >>= _ = _
  rw [bump_eq_none behind]
  rfl

theorem text_escaped (stands : StandsAt source at_ ('\\' :: c :: rest)) {plain : Char}
    (known : escape? c = some plain) :
    text source start (fuel + 1) read at_ =
      text source start fuel (plain :: read) (at_ + 1 + c.utf8Size) := by
  have behind : StandsAt source (at_ + 1) (c :: rest) := stands.next
  rw [text, bump_eq_some stands]
  change bump source (at_ + 1) >>= _ = _
  rw [bump_eq_some behind, pure_bind]
  simp only [known]

theorem text_unknown (stands : StandsAt source at_ ('\\' :: c :: rest))
    (unknown : escape? c = none) :
    text source start (fuel + 1) read at_ =
      blame (.unknownEscape c) ⟨at_, at_ + 1 + c.utf8Size⟩ := by
  have behind : StandsAt source (at_ + 1) (c :: rest) := stands.next
  rw [text, bump_eq_some stands]
  change bump source (at_ + 1) >>= _ = _
  rw [bump_eq_some behind, pure_bind]
  simp only [unknown]
  rfl

end

/-- A text is read up to its closing quote, or the checked reader reports the error of the scanner. -/
def EndsText (source : String) (start fuel : Nat) (read : List Char) (at_ : Nat) (rest : List Char) :
    Prop :=
  (∃ body content behind, rest = body ++ '"' :: behind ∧ Quoted body content ∧
    text source start fuel read at_ =
      pure (.atom (.text (String.ofList (read.reverse ++ content))) ⟨start, at_ + size body + 1⟩,
        at_ + size body + 1)) ∨
  ∃ error, Reports source error (text source start fuel read at_) ∧
    scan (.text start read) at_ rest = ⟨[], some error⟩

/-- A plain character or an escape is read, and then the rest of the text. -/
theorem EndsText.behind {start fuel : Nat} {read : List Char} (piece : List Char)
    (quotes : ∀ {body content : List Char}, Quoted body content → Quoted (piece ++ body) (c :: content))
    (reads : text source start (fuel + 1) read at_ =
      text source start fuel (c :: read) (at_ + size piece))
    (scans : scan (.text start read) at_ (piece ++ rest) =
      scan (.text start (c :: read)) (at_ + size piece) rest)
    (ends : EndsText source start fuel (c :: read) (at_ + size piece) rest) :
    EndsText source start (fuel + 1) read at_ (piece ++ rest) := by
  obtain ⟨body, content, behind, rfl, quoted, found⟩ | ⟨error, reports, failed⟩ := ends
  · refine .inl ⟨piece ++ body, c :: content, behind, (List.append_assoc ..).symm, quotes quoted, ?_⟩
    rw [reads, found, Text.size_append, ← Nat.add_assoc, List.reverse_cons, List.append_assoc,
      List.singleton_append]
  · exact .inr ⟨error, reads ▸ reports, scans.trans failed⟩

theorem text_spec {start : Nat} (read before : List Char)
    (stands : StandsAt source start (before ++ rest)) (here : at_ = start + size before)
    (enough : rest.length < fuel) : EndsText source start fuel read at_ rest := by
  induction fuel generalizing at_ rest read before with
  | zero => exact absurd enough (Nat.not_lt_zero _)
  | succ fuel ih =>
      have standsHere : StandsAt source at_ rest := here ▸ stands.behind before
      cases rest with
      | nil =>
          refine .inr ⟨⟨.unterminatedText, ⟨start, at_⟩⟩,
            ⟨text_nil start fuel read standsHere, before, ?_⟩, rfl⟩
          rw [here]
          exact stands.covers before
      | cons c rest =>
          have shorter : rest.length < fuel := Nat.lt_of_succ_lt_succ enough
          by_cases closes : c = '"'
          · subst closes
            refine .inl ⟨[], [], rest, rfl, .nothing, ?_⟩
            rw [text_quote start fuel read standsHere, List.append_nil]
            rfl
          by_cases escapes : c = '\\'
          · subst escapes
            cases rest with
            | nil =>
                refine .inr ⟨⟨.unterminatedText, ⟨start, at_ + 1⟩⟩,
                  ⟨text_slash start fuel read standsHere, before ++ ['\\'], ?_⟩, rfl⟩
                have standsAll : StandsAt source start ((before ++ ['\\']) ++ []) := by
                  simpa using stands
                have covers := standsAll.covers (before ++ ['\\'])
                rwa [Text.size_append, ← Nat.add_assoc, ← here] at covers
            | cons c rest =>
                have bytes : at_ + size ['\\', c] = at_ + 1 + c.utf8Size := (Nat.add_assoc ..).symm
                have scanned : scan (.text start read) at_ ('\\' :: c :: rest) =
                    scan (.escape start read) (at_ + 1) (c :: rest) := rfl
                cases known : escape? c with
                | none =>
                    refine .inr ⟨_, ⟨text_unknown start fuel read standsHere known, ['\\', c], ?_⟩, ?_⟩
                    · exact bytes ▸ standsHere.covers ['\\', c]
                    · rw [scanned, scan, known]
                      rfl
                | some plain =>
                    refine .behind ['\\', c] (.escaped known) ?_ ?_
                      (ih _ (before ++ ['\\', c]) ?_ ?_ (Nat.lt_of_succ_lt shorter))
                    · rw [text_escaped start fuel read standsHere known, bytes]
                    · rw [List.cons_append, List.singleton_append, scanned, scan, known, bytes]
                    · simpa using stands
                    · rw [here, Text.size_append, Nat.add_assoc]
          · refine .behind [c] (.plain closes escapes) ?_ ?_ (ih _ (before ++ [c]) ?_ ?_ shorter)
            · exact text_plain start fuel read standsHere closes escapes
            · rw [List.singleton_append, scan, if_neg closes, if_neg escapes]
              rfl
            · simpa using stands
            · rw [here, Text.size_append, Nat.add_assoc]

end

end Checked

end StepCode
