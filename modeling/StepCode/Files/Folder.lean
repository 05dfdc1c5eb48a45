import StepCode.Files

/-!
# Folders of files

A working folder whose files are held as texts, and the way a path leads through it: part by part,
where each part but the last has to be a folder.  A slash at the end asks for a folder.  What lies
above the working folder is not known: nothing can be read there, and what is written there is not
kept.
-/

namespace StepCode

/-- Files by the path that leads to them from the working folder, parts joined by slashes. -/
structure Folder where
  files : Table String
deriving Repr

/-- Why a path cannot be used. -/
inductive PathError where
  | notFound
  | notFolder
  | isFolder
  | tooLong
deriving DecidableEq, Repr

def PathError.reason : PathError → String
  | .notFound => "No such file or directory (os error 2)"
  | .notFolder => "Not a directory (os error 20)"
  | .isFolder => "Is a directory (os error 21)"
  | .tooLong => "File name too long (os error 36)"

namespace Folder

/-- A path may have this many bytes. -/
def pathLimit : Nat := 4095

/-- A part of a path may have this many bytes. -/
def partLimit : Nat := 255

/-- A folder on the way. -/
inductive Spot where
  /-- At or below the working folder. -/
  | within (parts : List String)
  /-- Above the working folder or beside it. -/
  | beyond
deriving DecidableEq, Repr

/-- What a path leads to. -/
inductive Goal where
  | folder
  | file (key : String)
  /-- Nothing, in a folder that is there. -/
  | vacant (key : String)
  /-- Nothing that is known. -/
  | unknown
deriving DecidableEq, Repr

def keyOf (parts : List String) : String := "/".intercalate parts

/-- Whether some file lies below a path. -/
def isFolder (folder : Folder) (key : String) : Bool :=
  folder.files.keys.any fun name => (key ++ "/").isPrefixOf name

/-- What one more part of a path leads to. -/
def look (folder : Folder) : Spot → (part : String) → Except PathError Goal
  | .beyond, part => if partLimit < part.utf8ByteSize then .error .tooLong else .ok .unknown
  | .within parts, part =>
      let key := keyOf (parts ++ [part])
      if partLimit < part.utf8ByteSize then .error .tooLong
      else if folder.files.contains key then .ok (.file key)
      else if folder.isFolder key then .ok .folder
      else .ok (.vacant key)

/-- The folder above. -/
def Spot.up : Spot → Spot
  | .within [] => .beyond
  | .within parts => .within parts.dropLast
  | .beyond => .beyond

/-- Follow the parts of a path to its last one. -/
def follow (folder : Folder) : Spot → List String → Except PathError Goal
  | _, [] => .ok .folder
  | spot, "." :: rest => follow folder spot rest
  | spot, ".." :: rest => follow folder spot.up rest
  | spot, [part] => folder.look spot part
  | spot, part :: rest => do
      match ← folder.look spot part, spot with
      | .folder, .within parts => follow folder (.within (parts ++ [part])) rest
      | .file _, _ => .error .notFolder
      | _, _ => .error .notFound

/-- The parts of a path; slashes that stand together count once. -/
def partsOf (path : String) : List String :=
  (path.splitOn "/").filter (· != "")

/-- Where a path starts. -/
def startOf (path : String) : Spot :=
  if path.startsWith "/" then .beyond else .within []

/-- A path that can be followed at all. -/
def checkPath (path : String) : Except PathError Unit :=
  if path.isEmpty then .error .notFound
  else if pathLimit < path.utf8ByteSize then .error .tooLong
  else .ok ()

/-- The device that is always empty. -/
def isNullDevice (path : String) : Bool :=
  path.startsWith "/" && partsOf path == ["dev", "null"]

/-- The text of the file at a path. -/
def read (folder : Folder) (path : String) : Except PathError String := do
  checkPath path
  if isNullDevice path then return ""
  match ← folder.follow (startOf path) (partsOf path) with
  | .folder => .error .isFolder
  | .file key =>
      match path.endsWith "/", folder.files.get? key with
      | false, some text => .ok text
      | _, _ => .error .notFolder
  | .vacant _ => .error .notFound
  | .unknown => .error .notFound

/-- Write a file; what was there before is lost.  A path that asks for a folder is refused without a
look at its last part. -/
def write (folder : Folder) (path contents : String) : Except PathError Folder := do
  checkPath path
  if path.endsWith "/" then
    match ← folder.follow (startOf path) (partsOf path).dropLast with
    | .folder => .error .isFolder
    | .file _ => .error .notFolder
    | .vacant _ => .error .notFound
    | .unknown => .error .notFound
  else if isNullDevice path then return folder
  else
    match ← folder.follow (startOf path) (partsOf path) with
    | .folder => .error .isFolder
    | .file key => .ok ⟨folder.files.insert key contents⟩
    | .vacant key => .ok ⟨folder.files.insert key contents⟩
    | .unknown => .ok folder

/-- Access to the files of a folder that is passed along. -/
def access : FileAccess (StateM Folder) where
  read path := do return ((← get).read path).mapError PathError.reason
  write path contents := do
    match (← get).write path contents with
    | .ok folder =>
        set folder
        return .ok ()
    | .error error => return .error error.reason

end Folder

end StepCode
