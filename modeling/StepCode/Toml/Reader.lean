import StepCode.Toml.Quoted

/-!
# Reading TOML

A reader of TOML documents.  An error is the byte offset of the place where the document stops being
one.
-/

namespace StepCode.Toml.Grammar

open Rule

/-- Containers may be nested this deep, and keys may have this many parts. -/
def nestingLimit : Nat := 79

def isBareKeyChar (c : Char) : Bool := c.isAlphanum || c == '_' || c == '-'

/-- A bare word. -/
def bareKey : Rule String := do
  let first ← satisfy isBareKeyChar
  return String.ofList (first :: (← span isBareKeyChar))

/-- One part of a key: a bare word or a string on one line, with blanks around it. -/
def keyPart : Rule Part := do
  blanks
  let start ← place
  let name ← match ← next? with
    | none => miss
    | some c =>
        if c = '"' then basicText else if c = apostrophe then rawText else bareKey
  blanks
  return ⟨name, start⟩

/-- A key: parts with points between them, the last one apart. -/
def key : Rule (List Part × Part) :=
  checked (separated1 keyPart '.') fun parts =>
    match parts.getLast? with
    | some last => if parts.length ≤ nestingLimit then some (parts.dropLast, last) else none
    | none => none

/-- A value that holds no other values. -/
def scalar : Rule Toml := do
  match ← next? with
  | some c =>
      if c = '"' ∨ c = apostrophe then return .text (← text)
      else if c = '+' ∨ c = '-' ∨ c.isDigit then number
      else if c = 't' then do word ['t', 'r', 'u', 'e']; return .bool true
      else if c = 'f' then do word ['f', 'a', 'l', 's', 'e']; return .bool false
      else if c = 'i' then do word ['i', 'n', 'f']; return .float (1.0 / 0.0)
      else if c = 'n' then do word ['n', 'a', 'n']; return .float (0.0 / 0.0)
      else miss
  | none => miss

/-- An item of an array with its byte offset. -/
def item (value : Rule Toml) : Rule (Nat × Toml) := do
  blankLines
  let start ← place
  let item ← value
  blankLines
  return (start, item)

/-- An array; a comma may stand behind the last item. -/
def array (value : Rule Toml) : Rule Toml := do
  expect '['
  commit do
    let items ← separated (item value) ','
    if items.isEmpty then blankLines
    else
      discard (optional (expect ','))
      blankLines
    expect ']'
    return .array items

/-- A key, an equals sign and a value. -/
structure Pair where
  path : List Part
  last : Key
  value : Toml

/-- A pair; behind the key the rest has to follow, up to what `ends` reads. -/
def pair (value : Rule Toml) (ends : Rule Unit) : Rule Pair := do
  let (path, last) ← key
  commit do
    expect '='
    blanks
    let start ← place
    let value ← value
    ends
    return ⟨path, ⟨last.name, last.start, start⟩, value⟩

/-- The table of some pairs, if no key comes twice. -/
def entriesOf? (pairs : List Pair) : Option Entries :=
  pairs.foldlM (fun entries pair => store [] pair.path pair.last pair.value entries) []

/-- A table in braces. -/
def inlineTable (value : Rule Toml) : Rule Toml := do
  expect '\x7b'
  let entries ← required
    (do
      let pairs ← separated (pair value blanks) ','
      blanks
      return pairs)
    entriesOf?
  commit (expect '\x7d')
  return .table .inline entries

/-- A value in which containers are nested at most `depth` deep. -/
def value : (depth : Nat) → Rule Toml
  | 0 => scalar
  | depth + 1 => do
      match ← next? with
      | some '[' => array (value depth)
      | some '\x7b' => inlineTable (value depth)
      | _ => scalar

/-- What a header leads to, and the document so far. -/
structure State where
  root : Entries
  here : List Part

/-- A header in brackets up to the end of its line; `width` is the number of brackets. -/
def header (width : Nat) (change : List Part → Part → Option Entries) : Rule State :=
  required
    (do
      word (List.replicate width '[')
      commit do
        let path ← key
        word (List.replicate width ']')
        lineEnd
        return path)
    fun (path, last) => (change path last).map fun root => ⟨root, path ++ [last]⟩

/-- A header line, from its first bracket on. -/
def headerLine (state : State) : Rule State := fun cursor =>
  match cursor.rest with
  | '[' :: '[' :: _ =>
      header 2 (fun path last => openArray path last cursor.offset state.root) cursor
  | _ :: _ :: _ =>
      header 1 (fun path last => openTable path last cursor.offset state.root) cursor
  | _ => .miss cursor.offset

/-- A line with a key and a value. -/
def pairLine (state : State) : Rule State :=
  required (pair (value nestingLimit) lineEnd) fun pair =>
    (store state.here pair.path pair.last pair.value state.root).map
      fun root => { state with root := root }

/-- A comment up to the end of its line. -/
def commentLine (state : State) : Rule State := do
  comment
  newline <|> atEnd
  return state

/-- One line, maybe an empty one. -/
def line (state : State) : Rule State := do
  match ← next? with
  | some '#' => commit (commentLine state)
  | some '[' => commit (headerLine state)
  | some '\n' => do newline; return state
  | some '\r' => do newline; return state
  | some _ => commit (pairLine state)
  | none => miss

/-- The lines of a document; `fuel` bounds their number. -/
def linesUpTo : (fuel : Nat) → State → Rule State
  | 0, state => pure state
  | fuel + 1, state => do
      blanks
      match ← optional (line state) with
      | some state => linesUpTo fuel state
      | none => return state

/-- A whole document; a byte order mark in front of it does not count. -/
def document : Rule Entries := do
  discard (optional (satisfy fun c => c.toNat == 0xFEFF))
  let state ← fun cursor => linesUpTo (cursor.rest.length + 1) ⟨[], []⟩ cursor
  atEnd
  return state.root

end StepCode.Toml.Grammar

namespace StepCode.Toml

/-- The entries of a document. -/
def read (text : String) : Except Nat Entries :=
  match Grammar.document ⟨text.toList, 0⟩ with
  | .read entries _ => .ok entries
  | .miss offset => .error offset
  | .fault offset => .error offset

end StepCode.Toml
