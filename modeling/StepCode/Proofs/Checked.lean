import StepCode.Proofs.Form.Places
import StepCode.Script.Parser

/-!
# Checked computations

A parser that walks through its source by byte positions and cuts lists of forms at fixed indices
could ask for what is not there.  A checked computation has no result then, and none either once a
loop or a descent takes more steps than it is given.  The parsers are written down once more as
checked computations, position by position and slice by slice; that they have the results of the
parsers says that no position is off a character boundary, that no slice is out of range and that
they end, within one step more than the source has bytes.
-/

namespace StepCode

/-- A computation that has no result, a value or a parse error. -/
abbrev Checked (α : Type) := ExceptT ParseError Option α

namespace Checked

variable {α β : Type}

/-- A result of a parser. -/
def of (parsed : Parsed α) : Checked α := ExceptT.mk (some parsed)

def stuck : Checked α := ExceptT.mk none

def blame (problem : Problem) (span : Span) : Checked α := of (fail problem span)

/-- What has to be there. -/
def need : Option α → Checked α
  | some value => return value
  | none => stuck

/-- The items from a position on; the list has to go up to there. -/
def sliceFrom (items : List α) (start : Nat) : Checked (List α) :=
  if start ≤ items.length then return items.drop start else stuck

/-- The item at a position. -/
def itemAt (items : List α) (index : Nat) : Checked α := need items[index]?

/-- The computation has the result of the parser; and if that is an error, it is `known`. -/
structure Follows (known : ParseError → Prop) (checked : Checked α) (parsed : Parsed α) : Prop where
  result : checked = of parsed
  error : ∀ error, parsed = .error error → known error

namespace Follows

variable {known : ParseError → Prop} {checked : Checked α} {parsed : Parsed α}

theorem ok (value : α) : Follows known (pure value) (.ok value) :=
  ⟨rfl, fun _ isError => nomatch isError⟩

theorem blame {problem : Problem} {span : Span} (isKnown : known ⟨problem, span⟩) :
    Follows known (blame problem span : Checked α) (fail problem span) :=
  ⟨rfl, fun _ isError => Except.error.inj isError ▸ isKnown⟩

theorem bind {next : α → Checked β} {later : α → Parsed β} (first : Follows known checked parsed)
    (rest : ∀ value, parsed = .ok value → Follows known (next value) (later value)) :
    Follows known (checked >>= next) (parsed >>= later) := by
  obtain ⟨rfl, isKnown⟩ := first
  cases parsed with
  | error error => exact ⟨rfl, fun _ isError => Except.error.inj isError ▸ isKnown error rfl⟩
  | ok value => exact rest value rfl

theorem ite {p : Prop} [Decidable p] {other : Checked α} {otherwise : Parsed α}
    (yes : Follows known checked parsed) (no : Follows known other otherwise) :
    Follows known (if p then checked else other) (if p then parsed else otherwise) := by
  by_cases holds : p
  · rwa [if_pos holds, if_pos holds]
  · rwa [if_neg holds, if_neg holds]

/-- Parsing the forms of a list one after the other. -/
theorem mapM {step : Form → Checked β} {one : Form → Parsed β} (all : List Form → Parsed (List β))
    (nil : all [] = .ok [])
    (cons : ∀ form rest, all (form :: rest) = do
      let value ← one form
      return value :: (← all rest))
    {forms : List Form} (each : ∀ form ∈ forms, Follows known (step form) (one form)) :
    Follows known (forms.mapM step) (all forms) := by
  induction forms with
  | nil =>
      rw [List.mapM_nil, nil]
      exact .ok []
  | cons form rest ih =>
      obtain ⟨here, there⟩ := List.forall_mem_cons.mp each
      rw [List.mapM_cons, cons]
      refine .bind here fun value _ => ?_
      exact .bind (ih there) fun values _ => .ok _

end Follows

end Checked

end StepCode
