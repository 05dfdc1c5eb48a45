import StepCode.Form.Reader

/-!
# What a text spells

Places matter only for errors.  This module states what the scanner makes of a text without them, so
that texts can be put together piece by piece: a piece spells its tokens whatever follows it, unless
it ends in a bare word, which has to be followed by the end of the text or by a character that ends
words.
-/

namespace StepCode

/-- A token without its place. -/
inductive Lexeme where
  | openList
  | closeList
  | atom (value : Atom)
deriving DecidableEq, Repr

def Token.lexeme : Token → Lexeme
  | .openList _ => .openList
  | .closeList _ => .closeList
  | .atom value _ => .atom value

/-- What the scanner is in the middle of, without the places where it started. -/
inductive Phase where
  | gap
  | comment
  | word (read : List Char)
  | text (read : List Char)
  | escape (read : List Char)
deriving DecidableEq, Repr

def Token.Mode.phase : Token.Mode → Phase
  | .gap => .gap
  | .comment => .comment
  | .word _ read => .word read
  | .text _ read => .text read
  | .escape _ read => .escape read

namespace Phase

open Token (endsWord ofWord escape?)

/-- What a character outside any token begins. -/
def begin (c : Char) : List Lexeme × Phase :=
  if Text.isBlank c then ([], .gap)
  else if c = ';' then ([], .comment)
  else if c = '(' then ([.openList], .gap)
  else if c = ')' then ([.closeList], .gap)
  else if c = '"' then ([], .text [])
  else ([], .word [c])

/-- The atom of a finished word. -/
def wordAtom (read : List Char) : Lexeme := .atom (ofWord read.reverse)

/-- One character: the tokens that it completes and what it leads to; none at an unknown escape. -/
def next : Phase → Char → Option (List Lexeme × Phase)
  | .gap, c => some (begin c)
  | .comment, c => some ([], if c = '\n' then .gap else .comment)
  | .word read, c =>
      if endsWord c then some (wordAtom read :: (begin c).1, (begin c).2)
      else some ([], .word (c :: read))
  | .text read, c =>
      if c = '"' then some ([.atom (.text (String.ofList read.reverse))], .gap)
      else if c = '\\' then some ([], .escape read)
      else some ([], .text (c :: read))
  | .escape read, c => (escape? c).map fun plain => ([], .text (plain :: read))

/-- What is still to come at the end of the source; a text has to be closed there. -/
def finish : Phase → Option (List Lexeme)
  | .gap => some []
  | .comment => some []
  | .word read => some [wordAtom read]
  | .text _ => none
  | .escape _ => none

/-- Several characters. -/
def run : Phase → List Char → Option (List Lexeme × Phase)
  | phase, [] => some ([], phase)
  | phase, c :: rest =>
      (phase.next c).bind fun now =>
        (run now.2 rest).map fun later => (now.1 ++ later.1, later.2)

/-- The tokens of the characters up to the end of the source. -/
def lexemes? (phase : Phase) (chars : List Char) : Option (List Lexeme) :=
  (phase.run chars).bind fun read => read.2.finish.map (read.1 ++ ·)

theorem lexemes?_nil (phase : Phase) : phase.lexemes? [] = phase.finish := by
  simp [lexemes?, run]

theorem lexemes?_cons (phase : Phase) (c : Char) (rest : List Char) :
    phase.lexemes? (c :: rest) =
      (phase.next c).bind fun now => (now.2.lexemes? rest).map (now.1 ++ ·) := by
  unfold lexemes?
  simp only [run]
  cases phase.next c with
  | none => rfl
  | some now =>
      simp only [Option.bind_some]
      cases run now.2 rest with
      | none => rfl
      | some later => simp [Function.comp_def]

/-- One piece behind the other. -/
theorem run_append {phase middle stop : Phase} {chars others : List Char} {now later : List Lexeme}
    (ran : phase.run chars = some (now, middle)) (behind : middle.run others = some (later, stop)) :
    phase.run (chars ++ others) = some (now ++ later, stop) := by
  induction chars generalizing phase now with
  | nil =>
      simp only [run, Option.some.injEq, Prod.mk.injEq] at ran
      obtain ⟨rfl, rfl⟩ := ran
      exact behind
  | cons c chars ih =>
      simp only [run, Option.bind_eq_some_iff, Option.map_eq_some_iff] at ran
      obtain ⟨first, step, rest, ran, eq⟩ := ran
      obtain ⟨rfl, rfl⟩ := Prod.mk.inj eq
      simp [run, step, ih ran]

theorem lexemes?_append_of_run {phase stop : Phase} {chars : List Char} {now : List Lexeme}
    (ran : phase.run chars = some (now, stop)) (rest : List Char) :
    phase.lexemes? (chars ++ rest) = (stop.lexemes? rest).map (now ++ ·) := by
  induction chars generalizing phase now with
  | nil =>
      simp only [run, Option.some.injEq, Prod.mk.injEq] at ran
      obtain ⟨rfl, rfl⟩ := ran
      simp
  | cons c chars ih =>
      rw [List.cons_append, lexemes?_cons]
      simp only [run, Option.bind_eq_some_iff, Option.map_eq_some_iff] at ran
      obtain ⟨first, step, later, ran, eq⟩ := ran
      obtain ⟨rfl, rfl⟩ := Prod.mk.inj eq
      rw [step, Option.bind_some, ih ran, Option.map_map]
      congr 1
      funext others
      simp

/-! ### Texts -/

/-- How much of a text has been read. -/
def textRead : Phase → Nat
  | .text read => read.length
  | .escape read => read.length
  | _ => 0

theorem wordAtom_ne_text (read : List Char) (s : String) : wordAtom read ≠ .atom (.text s) := by
  unfold wordAtom ofWord
  split
  · split <;> simp
  · simp

theorem textRead_begin (c : Char) : (begin c).2.textRead = 0 := by
  unfold begin
  repeat' split
  all_goals rfl

theorem text_notMem_begin (c : Char) (s : String) : .atom (.text s) ∉ (begin c).1 := by
  unfold begin
  repeat' split
  all_goals simp

/-- A character adds at most one to a text, and a text that it completes has been read before. -/
theorem textRead_next {phase later : Phase} {c : Char} {now : List Lexeme}
    (step : phase.next c = some (now, later)) :
    later.textRead ≤ phase.textRead + 1 ∧
      ∀ s, .atom (.text s) ∈ now → s.length ≤ phase.textRead := by
  cases phase with
  | gap =>
      have begun : begin c = (now, later) := Option.some.inj step
      have nothing := textRead_begin c
      have noText := text_notMem_begin c
      rw [begun] at nothing noText
      exact ⟨by simp [nothing], fun s mem => absurd mem (noText s)⟩
  | comment =>
      obtain ⟨rfl, rfl⟩ := Prod.mk.inj (Option.some.inj step)
      exact ⟨by split <;> simp [textRead], by simp⟩
  | word read =>
      simp only [next] at step
      split at step <;> obtain ⟨rfl, rfl⟩ := Prod.mk.inj (Option.some.inj step)
      · refine ⟨by simp [textRead_begin], fun s mem => ?_⟩
        rcases List.mem_cons.mp mem with here | begun
        · exact absurd here.symm (wordAtom_ne_text read s)
        · exact absurd begun (text_notMem_begin c s)
      · exact ⟨by simp [textRead], by simp⟩
  | text read =>
      simp only [next] at step
      split at step
      · obtain ⟨rfl, rfl⟩ := Prod.mk.inj (Option.some.inj step)
        exact ⟨by simp [textRead], by simp +contextual [textRead]⟩
      · split at step <;> obtain ⟨rfl, rfl⟩ := Prod.mk.inj (Option.some.inj step) <;>
          exact ⟨by simp [textRead], by simp⟩
  | escape read =>
      obtain ⟨plain, -, same⟩ := Option.map_eq_some_iff.mp step
      obtain ⟨rfl, rfl⟩ := Prod.mk.inj same
      exact ⟨by simp [textRead], by simp⟩

/-- A text is shorter than the characters that spell it. -/
theorem length_lt_of_lexemes? {phase : Phase} {chars : List Char} {lexemes : List Lexeme} {s : String}
    (spelt : phase.lexemes? chars = some lexemes) (mem : .atom (.text s) ∈ lexemes) :
    s.length < phase.textRead + chars.length := by
  induction chars generalizing phase lexemes with
  | nil =>
      rw [lexemes?_nil] at spelt
      cases phase with
      | word read =>
          obtain rfl := Option.some.inj spelt
          exact absurd (List.mem_singleton.mp mem).symm (wordAtom_ne_text read s)
      | _ => simp_all [finish]
  | cons c rest ih =>
      rw [lexemes?_cons] at spelt
      obtain ⟨⟨now, later⟩, step, behind⟩ := Option.bind_eq_some_iff.mp spelt
      obtain ⟨others, rests, rfl⟩ := Option.map_eq_some_iff.mp behind
      obtain ⟨adds, completed⟩ := textRead_next step
      rw [List.length_cons]
      rcases List.mem_append.mp mem with here | behind
      · have shorter := completed s here
        omega
      · have shorter : s.length < later.textRead + rest.length := ih rests behind
        omega

end Phase

/-! ## The scanner without places -/

namespace Tokens

/-- The tokens without their places, if there is no fault. -/
def lexemes? (tokens : Tokens) : Option (List Lexeme) :=
  match tokens.fault with
  | none => some (tokens.list.map Token.lexeme)
  | some _ => none

@[simp] theorem lexemes?_done : done.lexemes? = some [] := rfl

@[simp] theorem lexemes?_failed (problem : Problem) (start stop : Nat) :
    (failed problem start stop).lexemes? = none := rfl

@[simp] theorem lexemes?_cons (token : Token) (rest : Tokens) :
    (cons token rest).lexemes? = rest.lexemes?.map (token.lexeme :: ·) := by
  obtain ⟨list, fault⟩ := rest
  cases fault <;> rfl

theorem lexemes?_eq_some {tokens : Tokens} {lexemes : List Lexeme} :
    tokens.lexemes? = some lexemes ↔ tokens.fault = none ∧ tokens.list.map Token.lexeme = lexemes := by
  obtain ⟨list, fault⟩ := tokens
  cases fault <;> simp [lexemes?]

end Tokens

namespace Token

open Phase (wordAtom)

theorem begin_eq (c : Char) (at_ : Nat) :
    Phase.begin c = ((begin c at_).1.toList.map lexeme, (begin c at_).2.phase) := by
  unfold begin Phase.begin
  repeat (split; · rfl)
  rfl

/-- The scanner finds what the characters spell; it reports a fault if they spell nothing. -/
theorem lexemes?_scan (mode : Mode) (at_ : Nat) (chars : List Char) :
    (scan mode at_ chars).lexemes? = mode.phase.lexemes? chars := by
  induction chars generalizing mode at_ with
  | nil =>
      rw [Phase.lexemes?_nil]
      cases mode <;> simp [scan, Mode.phase, Phase.finish, word, lexeme, wordAtom]
  | cons c rest ih =>
      rw [Phase.lexemes?_cons]
      cases mode with
      | gap =>
          have next : Mode.gap.phase.next c = some (Phase.begin c) := rfl
          simp only [next, begin_eq c at_, scan, Option.bind_some]
          cases begun : (begin c at_).1 <;> simp [ih]
      | comment =>
          have next : Mode.comment.phase.next c =
              some ([], (if c = '\n' then Mode.gap else .comment).phase) := by
            simp only [Mode.phase, Phase.next]
            split <;> rfl
          simp [next, scan, ih]
      | word start read =>
          simp only [scan, Mode.phase, Phase.next]
          split
          next ends =>
            simp only [Option.bind_some, begin_eq c at_]
            cases begun : (begin c at_).1 <;>
              simp [ih, word, lexeme, wordAtom, Function.comp_def]
          next inside => simp [ih, Mode.phase]
      | text start read =>
          simp only [scan, Mode.phase, Phase.next]
          split
          next closes => simp [ih, Mode.phase, lexeme]
          next inside => split <;> simp [ih, Mode.phase]
      | escape start read =>
          simp only [scan, Mode.phase, Phase.next]
          cases escape? c <;> simp [ih, Mode.phase]

end Token

end StepCode
