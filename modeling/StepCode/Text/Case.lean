import StepCode.Text.Blank
import StepCode.Text.CaseTable

/-!
# Lower case

Full Unicode lower-casing.  Two letters are special: U+0130 becomes two characters, and a capital
sigma becomes the final form when it ends a word, that is when a cased letter stands before it and
none after it, case-ignorable characters not counted.
-/

namespace StepCode.Text

/-- The lower case of a single code point; runs are sorted, so the search stops at the first run
that starts beyond it. -/
def lowerCode (code : Nat) : List CaseRun → Nat
  | [] => code
  | run :: rest =>
      if code < run.first then code
      else if code ≤ run.last then
        if (code - run.first) % run.stride = 0 then ((code : Int) + run.shift).toNat else code
      else lowerCode code rest

def isCased (c : Char) : Bool :=
  inRanges casedRanges c.toNat

def isCaseIgnorable (c : Char) : Bool :=
  inRanges caseIgnorableRanges c.toNat

/-- The first character that is not case-ignorable is cased. -/
def meetsCased (chars : List Char) : Bool :=
  match chars.dropWhile isCaseIgnorable with
  | [] => false
  | c :: _ => isCased c

def capitalSigma : Char := Char.ofNat 0x3A3

/-- Lower one character, given what stands before it (nearest first) and after it. -/
def lowerChar (before : List Char) (c : Char) (after : List Char) : List Char :=
  if c = capitalSigma then
    if meetsCased before && !meetsCased after then [Char.ofNat 0x3C2] else [Char.ofNat 0x3C3]
  else if c = Char.ofNat 0x130 then ['i', Char.ofNat 0x307]
  else [Char.ofNat (lowerCode c.toNat lowerRuns)]

/-- Lower a text left to right; `before` holds the characters already passed, nearest first. -/
def lowerChars (before : List Char) : List Char → List Char
  | [] => []
  | c :: after => lowerChar before c after ++ lowerChars (c :: before) after

def lower (text : String) : String :=
  String.ofList (lowerChars [] text.toList)

end StepCode.Text
