import StepCode.Json.NumberReader

/-!
# Reading JSON

A recursive reader of JSON text.  When the text has a fault, the reader also gives the tree as far
as it had come, so that a reader of a particular shape can tell whether the shape was wrong before
the fault was met.  `locate` finds the place in the text that belongs to a place in the tree.
-/

namespace StepCode.Json

/-- Containers may be nested this deep, less one. -/
def depthLimit : Nat := 128

/-- Pass the letters of a keyword behind its first one. -/
def readWord (value : Json) : (letters : List Char) → Cursor → Except Fault (Json × Cursor)
  | [], cursor => .ok (value, cursor)
  | letter :: letters, ⟨c :: rest, offset⟩ =>
      if c = letter then readWord value letters ⟨rest, offset + 1⟩
      else .error ⟨.malformed, offset + 1⟩
  | _ :: _, ⟨[], offset⟩ => .error ⟨.truncated, offset⟩

def hexValue? (c : Char) : Option Nat :=
  if c.isDigit then some (c.toNat - 48)
  else if 'a' ≤ c ∧ c ≤ 'f' then some (c.toNat - 87)
  else if 'A' ≤ c ∧ c ≤ 'F' then some (c.toNat - 55)
  else none

def hexQuad? (a b c d : Char) : Option Nat := do
  let a ← hexValue? a
  let b ← hexValue? b
  let c ← hexValue? c
  let d ← hexValue? d
  return ((a * 16 + b) * 16 + c) * 16 + d

/-- The character behind a backslash that stands for itself or a control character. -/
def simpleEscape? (c : Char) : Option Char :=
  if c = '"' ∨ c = '\\' ∨ c = '/' then some c
  else if c = 'b' then some (Char.ofNat 8)
  else if c = 'f' then some (Char.ofNat 12)
  else if c = 'n' then some '\n'
  else if c = 'r' then some '\r'
  else if c = 't' then some '\t'
  else none

def byteSize (chars : List Char) : Nat :=
  chars.foldl (fun size c => size + c.utf8Size) 0

/-- Four bytes that are no hexadecimal number, or too few bytes. -/
def badHex (rest : List Char) (offset : Nat) : Fault :=
  if byteSize (rest.take 4) < 4 then ⟨.truncated, offset + byteSize rest⟩
  else ⟨.malformed, offset + 4⟩

def isLowSurrogate (n : Nat) : Bool := 0xDC00 ≤ n && n ≤ 0xDFFF

def isHighSurrogate (n : Nat) : Bool := 0xD800 ≤ n && n ≤ 0xDBFF

/-- Read the rest of a string behind its opening quote; `read` holds what was read, last first. -/
def readText (read : List Char) : List Char → Nat → Except Fault (String × Cursor)
  | [], offset => .error ⟨.truncated, offset⟩
  | c :: rest, offset =>
      if c = '"' then .ok (String.ofList read.reverse, ⟨rest, offset + 1⟩)
      else if c = '\\' then
        match rest with
        | [] => .error ⟨.truncated, offset + 1⟩
        | e :: rest =>
            if e = 'u' then
              match rest with
              | h₁ :: h₂ :: h₃ :: h₄ :: rest =>
                  match hexQuad? h₁ h₂ h₃ h₄ with
                  | none => .error (badHex [h₁, h₂, h₃, h₄] (offset + 2))
                  | some n =>
                      if isLowSurrogate n then .error ⟨.malformed, offset + 6⟩
                      else if isHighSurrogate n then
                        match rest with
                        | [] => .error ⟨.truncated, offset + 6⟩
                        | [b] =>
                            .error (if b = '\\' then ⟨.truncated, offset + 7⟩
                              else ⟨.malformed, offset + 7⟩)
                        | b :: u :: rest =>
                            if b ≠ '\\' then .error ⟨.malformed, offset + 7⟩
                            else if u ≠ 'u' then .error ⟨.malformed, offset + 8⟩
                            else
                              match rest with
                              | l₁ :: l₂ :: l₃ :: l₄ :: rest =>
                                  match hexQuad? l₁ l₂ l₃ l₄ with
                                  | none => .error (badHex [l₁, l₂, l₃, l₄] (offset + 8))
                                  | some m =>
                                      if isLowSurrogate m then
                                        let code := (n - 0xD800) * 1024 + (m - 0xDC00) + 0x10000
                                        readText (Char.ofNat code :: read) rest (offset + 12)
                                      else .error ⟨.malformed, offset + 12⟩
                              | short => .error (badHex short (offset + 8))
                      else readText (Char.ofNat n :: read) rest (offset + 6)
              | short => .error (badHex short (offset + 2))
            else
              match simpleEscape? e with
              | some plain => readText (plain :: read) rest (offset + 2)
              | none => .error ⟨.malformed, offset + 2⟩
      else if c.toNat < 32 then .error ⟨.malformed, offset + 1⟩
      else readText (c :: read) rest (offset + c.utf8Size)

/-- A tree as far as it was read, with the fault that stopped the reading. -/
structure Broken where
  fault : Fault
  tree : Json
deriving Repr

/-- A fault met where a value was expected. -/
def Fault.broken (fault : Fault) : Broken := ⟨fault, .null⟩

mutual

/-- Read one value.  `fuel` bounds the number of nested calls and `depth` the open containers. -/
def readValue : (fuel depth : Nat) → Cursor → Except Broken (Json × Cursor)
  | 0, _, cursor => .error cursor.faultAhead.broken
  | fuel + 1, depth, cursor =>
      let cursor := cursor.skipBlanks
      match cursor.rest with
      | [] => .error cursor.faultAhead.broken
      | c :: rest =>
          let next : Cursor := ⟨rest, cursor.offset + c.utf8Size⟩
          if c = '[' then
            if depth ≤ 1 then .error cursor.faultAhead.broken
            else readItems fuel (depth - 1) [] next
          else if c = '\x7b' then
            if depth ≤ 1 then .error cursor.faultAhead.broken
            else readMembers fuel (depth - 1) [] next
          else
            let scalar :=
              if c = '"' then
                (readText [] rest next.offset).map fun (s, after) => (Json.text s, after)
              else if c = 'n' then readWord .null ['u', 'l', 'l'] next
              else if c = 't' then readWord (.bool true) ['r', 'u', 'e'] next
              else if c = 'f' then readWord (.bool false) ['a', 'l', 's', 'e'] next
              else if c = '-' then readNumber true next
              else if c.isDigit then readNumber false cursor
              else .error cursor.faultAhead
            scalar.mapError Fault.broken

/-- Read the items of an array behind `[` or an earlier item; `read` holds those, last first. -/
def readItems : (fuel depth : Nat) → (read : List Json) → Cursor → Except Broken (Json × Cursor)
  | 0, _, read, cursor => .error ⟨cursor.faultAhead, .array read.reverse⟩
  | fuel + 1, depth, read, cursor =>
      let cursor := cursor.skipBlanks
      let stop (fault : Fault) : Except Broken (Json × Cursor) :=
        .error ⟨fault, .array read.reverse⟩
      let item (at_ : Cursor) : Except Broken (Json × Cursor) :=
        match readValue fuel depth at_ with
        | .ok (value, after) => readItems fuel depth (value :: read) after
        | .error broken => .error ⟨broken.fault, .array (broken.tree :: read).reverse⟩
      match cursor.rest with
      | [] => stop cursor.faultAhead
      | c :: rest =>
          let next : Cursor := ⟨rest, cursor.offset + c.utf8Size⟩
          if c = ']' then .ok (.array read.reverse, next)
          else if read.isEmpty then item cursor
          else if c = ',' then
            let after := next.skipBlanks
            match after.rest with
            | [] => stop after.faultAhead
            | d :: _ => if d = ']' then stop after.faultAhead else item after
          else stop cursor.faultAhead

/-- Read the members of an object behind the brace or an earlier member; a name whose value is
missing or broken is kept with what was read of the value. -/
def readMembers : (fuel depth : Nat) → (read : List (String × Json)) → Cursor →
    Except Broken (Json × Cursor)
  | 0, _, read, cursor => .error ⟨cursor.faultAhead, .object read.reverse⟩
  | fuel + 1, depth, read, cursor =>
      let cursor := cursor.skipBlanks
      let stop (fault : Fault) : Except Broken (Json × Cursor) :=
        .error ⟨fault, .object read.reverse⟩
      let member (rest : List Char) (offset : Nat) : Except Broken (Json × Cursor) :=
        match readText [] rest offset with
        | .error fault => stop fault
        | .ok (name, after) =>
            let stopIn (fault : Fault) (value : Json) : Except Broken (Json × Cursor) :=
              .error ⟨fault, .object ((name, value) :: read).reverse⟩
            let after := after.skipBlanks
            match after.rest with
            | [] => stopIn after.faultAhead .null
            | colon :: rest =>
                if colon = ':' then
                  match readValue fuel depth ⟨rest, after.offset + 1⟩ with
                  | .ok (value, after) => readMembers fuel depth ((name, value) :: read) after
                  | .error broken => stopIn broken.fault broken.tree
                else stopIn after.faultAhead .null
      match cursor.rest with
      | [] => stop cursor.faultAhead
      | c :: rest =>
          let next : Cursor := ⟨rest, cursor.offset + c.utf8Size⟩
          if c = '\x7d' then .ok (.object read.reverse, next)
          else if read.isEmpty then
            if c = '"' then member rest next.offset else stop cursor.faultAhead
          else if c = ',' then
            let after := next.skipBlanks
            match after.rest with
            | [] => stop after.faultAhead
            | d :: rest => if d = '"' then member rest (after.offset + 1) else stop after.faultAhead
          else stop cursor.faultAhead

end

/-- Fuel that no reading of what is left exhausts: two calls a character, and two more. -/
def Cursor.fuel (cursor : Cursor) : Nat := 2 * cursor.rest.length + 2

/-- Read a whole text as one value with blanks around it. -/
def read (text : String) : Except Broken Json :=
  let cursor := Cursor.start text
  match readValue cursor.fuel depthLimit cursor with
  | .error broken => .error broken
  | .ok (tree, after) =>
      let after := after.skipBlanks
      if after.rest.isEmpty then .ok tree else .error ⟨after.faultAhead, tree⟩

/-- A text that is one well-formed value. -/
def parse? (text : String) : Option Json :=
  (read text).toOption

/-- What about a place in the tree is to be found in the text. -/
inductive Spot where
  /-- A value of the wrong kind: behind a scalar, in front of a container. -/
  | value
  /-- Behind the value. -/
  | close
  /-- Behind the value and, if the container ends there, behind its closing brace. -/
  | entry
  /-- Behind the member name, the blanks that follow it and, if the object ends there, its closing
  brace. -/
  | key
deriving DecidableEq, Repr

/-- The offset behind a closing brace, if one stands here. -/
def Cursor.behindBrace (cursor : Cursor) : Nat :=
  if cursor.rest.head? = some '\x7d' then cursor.offset + 1 else cursor.offset

/-- Pass a member name and the blanks behind it. -/
def skipName (cursor : Cursor) : Except Fault Cursor := do
  let (_, after) ← readText [] (cursor.rest.drop 1) (cursor.offset + 1)
  return after.skipBlanks

/-- Pass the colon behind a member name. -/
def skipColon (cursor : Cursor) : Except Fault Cursor :=
  if cursor.rest.head? = some ':' then .ok ⟨cursor.rest.drop 1, cursor.offset + 1⟩
  else .error cursor.faultAhead

/-- Pass `count` items or members that are known to be there, each with the comma behind it. -/
def skipParts (isObject : Bool) (depth : Nat) : (count : Nat) → Cursor → Except Fault Cursor
  | 0, cursor => .ok cursor.skipBlanks
  | count + 1, cursor => do
      let cursor := cursor.skipBlanks
      let cursor ← if isObject then skipName cursor >>= skipColon else pure cursor
      match readValue cursor.fuel depth cursor with
      | .error broken => .error broken.fault
      | .ok (_, after) =>
          let after := after.skipBlanks
          if after.rest.head? = some ',' then
            skipParts isObject depth count ⟨after.rest.drop 1, after.offset + 1⟩
          else .error after.faultAhead

/-- The offset of a spot, found by following member numbers from the value at the cursor.  It fails
where the text has a fault before the spot. -/
def locateFrom (spot : Spot) : (depth : Nat) → (path : List Nat) → Cursor → Except Fault Nat
  | depth, [], cursor =>
      let cursor := cursor.skipBlanks
      let opens := cursor.rest.head? = some '[' ∨ cursor.rest.head? = some '\x7b'
      if spot = .value ∧ opens then .ok cursor.offset
      else
        match readValue cursor.fuel depth cursor with
        | .error broken => .error broken.fault
        | .ok (_, after) =>
            if spot = .entry then .ok after.skipBlanks.behindBrace else .ok after.offset
  | depth, index :: path, cursor => do
      let cursor := cursor.skipBlanks
      let isObject := cursor.rest.head? == some '\x7b'
      let part ← skipParts isObject (depth - 1) index ⟨cursor.rest.drop 1, cursor.offset + 1⟩
      if isObject then
        let named ← skipName part
        if spot = .key ∧ path.isEmpty then .ok named.behindBrace
        else locateFrom spot (depth - 1) path (← skipColon named)
      else locateFrom spot (depth - 1) path part

def locate (spot : Spot) (path : List Nat) (text : String) : Except Fault Nat :=
  locateFrom spot depthLimit path (Cursor.start text)

end StepCode.Json
