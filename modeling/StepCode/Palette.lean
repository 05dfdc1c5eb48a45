import StepCode.Marker

/-!
# Extensions

What an extension shows in the palette.
-/

namespace StepCode

inductive PaletteKind where
  | label
  | button
  | command
  | reporter
deriving DecidableEq, Repr

inductive ArgumentKind where
  | text
  | number
deriving DecidableEq, Repr

structure Argument where
  kind : ArgumentKind
  default : String
deriving DecidableEq, Repr

/-- An entry of the palette. -/
structure PaletteBlock where
  kind : PaletteKind
  /-- The opcode behind the name of the extension, for commands and reporters. -/
  opcode : Option String
  /-- What a button does. -/
  handler : Option String
  text : String
  hidden : Bool
  arguments : Table Argument
deriving Repr

structure ExtensionInfo where
  id : String
  name : String
  color : String
  blocks : List PaletteBlock
  needsUnsandboxed : Bool
deriving Repr

/-- An extension of the host: the one that runs compiled code, or any other. -/
inductive Extension where
  | support
  | foreign (info : ExtensionInfo)
deriving Repr

/-- The texts of the palette in one language. -/
structure Labels where
  about : String
  compiled : String
deriving DecidableEq, Repr

/-- A locale is matched without regard to case; English serves where there is no better one. -/
def Labels.ofLocale (locale : String) : Labels :=
  if Text.sameIgnoringAsciiCase locale "zh-cn" then ⟨"关于 precomp 编译器", "(已编译)"⟩
  else if Text.sameIgnoringAsciiCase locale "ja" then
    ⟨"precomp コンパイラーについて", "(コンパイル済)"⟩
  else ⟨"About precomp", "(Compiled)"⟩

/-- What the extension for compiled code shows. -/
def supportInfo (version locale : String) : ExtensionInfo :=
  let labels := Labels.ofLocale locale
  { id := supportExtension
    name := "Precompiled Runtime"
    color := "#00ffda"
    blocks :=
      [⟨.label, none, none, s!"🛠️ precomp v{version}", false, .empty⟩,
        ⟨.button, none, some "project", s!"🤖 {labels.about}", false, .empty⟩,
        ⟨.command, some "compile", none, labels.compiled, true,
          Table.empty.insert markerInput ⟨.text, ""⟩⟩]
    needsUnsandboxed := true }

end StepCode
