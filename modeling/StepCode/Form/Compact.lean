import StepCode.Form.Reader
import StepCode.Number

/-!
# Compact forms

The text of forms with the least white space that still reads the same: inside a list only two bare
words in a row need a blank between them.  `minify` reduces a source to that text; comments and
other white space go.
-/

namespace StepCode.Form

def quoteChar (c : Char) : List Char :=
  if c = '"' then ['\\', '"']
  else if c = '\\' then ['\\', '\\']
  else if c = '\n' then ['\\', 'n']
  else if c = '\t' then ['\\', 't']
  else if c = '\r' then ['\\', 'r']
  else [c]

/-- A text as a string of step code. -/
def quote (s : String) : String :=
  String.ofList ('"' :: s.toList.flatMap quoteChar ++ ['"'])

/-- The text of a number.  Infinities and NaN have no literal; they are written as a conversion. -/
def numberText (x : Float) : String :=
  if x.isNaN then "(num \"NaN\")"
  else if x.isInf then (if x > 0.0 then "(num \"Infinity\")" else "(num \"-Infinity\")")
  else Number.text x

def atomText : Atom → String
  | .number x => numberText x
  | .text s => quote s
  | .symbol s => s

/-- A bare word: a number or a symbol. -/
def isWord : Form → Bool
  | .atom (.number _) _ => true
  | .atom (.symbol _) _ => true
  | _ => false

def isAtom : Form → Bool
  | .atom _ _ => true
  | .list _ _ => false

mutual

def compact : Form → String
  | .atom value _ => atomText value
  | .list items _ => "(" ++ compactItems false items ++ ")"

/-- The items of a list, behind a bare word or not. -/
def compactItems (afterWord : Bool) : List Form → String
  | [] => ""
  | item :: rest =>
      (if afterWord && isWord item then " " else "") ++ compact item ++
        compactItems (isWord item) rest

end

/-- Top-level forms; any two atoms in a row are kept apart. -/
def compactAll (afterAtom : Bool) : List Form → String
  | [] => ""
  | form :: rest =>
      (if afterAtom && isAtom form then " " else "") ++ compact form ++
        compactAll (isAtom form) rest

/-- Size-reduce a source. -/
def minify (source : String) : Except ParseError String :=
  (readAll source).map (compactAll false)

end StepCode.Form
