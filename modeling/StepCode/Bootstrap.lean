import StepCode.Script.Parser
import StepCode.Script.Printer
import StepCode.Table
import StepCode.Text.Affix
import StepCode.Text.Base64

/-!
# The document of a program

The document that a program ships for running its compiled code: the support helpers, then those of
the compiler.  It travels as the URL of an extension.
-/

namespace StepCode.Bootstrap

/-- The version that every document is tagged with. -/
def currentVersion : String := "0.1.0"

/-- Helpers that every document carries.  They cannot be replaced. -/
def supportHelpers : List (String × String) :=
  [("compare_equal",
      "(helper compare_equal (\"a\" \"b\") (== (cmp (param \"a\") (param \"b\")) 0))"),
    ("less_than",
      "(helper less_than (\"a\" \"b\") (< (cmp (param \"a\") (param \"b\")) 0))"),
    ("greater_than",
      "(helper greater_than (\"a\" \"b\") (> (cmp (param \"a\") (param \"b\")) 0))"),
    ("is_stuck", "(helper is_stuck () (> (elapsed) 500))")]

/-- The text under which a helper is shipped; one that cannot be read is left out. -/
def shippedText? (compact : Bool) (source : String) : Option String :=
  match Helper.parse source with
  | .error _ => none
  | .ok _ => if compact then (Form.minify source).toOption else some source

/-- The texts of all helpers that are shipped: support first, then the others in table order. -/
def shippedTexts (helpers : Table String) (compact : Bool) : List String :=
  let supportNames := supportHelpers.map (·.1)
  let others := helpers.entries.filter fun (name, _) => !supportNames.contains name
  (supportHelpers ++ others).filterMap fun (_, source) => shippedText? compact source

/-- The document. -/
def document (helpers : Table String) (version : String) (compact : Bool) : String :=
  let between := if compact then " " else "\n"
  let texts := (shippedTexts helpers compact).map (between ++ ·)
  let document := "(bootstrap " ++ Form.quote version ++ String.join texts ++ ")"
  if compact then (Form.minify document).toOption.getD document else document

def urlStart : String := "data:text/plain;base64,"

/-- The first line of an encoded document: a comment for people who look into it. -/
def notice : String :=
  "; You need to allow this extension to load unsandboxed in order to run the project."

def url (bootstrap : String) : String :=
  urlStart ++ Base64.encode (notice ++ "\n" ++ bootstrap)

/-- The document in a URL, with its notice. -/
def documentOfUrl? (url : String) : Option String :=
  match Text.afterStart? url urlStart with
  | some encoded => Base64.decode? encoded
  | none => none

end StepCode.Bootstrap
