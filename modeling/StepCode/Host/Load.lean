import StepCode.Bootstrap
import StepCode.Host.Basic

/-!
# Installing the support for compiled code

A program with compiled code brings a document with the helpers it calls.
-/

namespace StepCode

/-- Why a program with compiled code cannot be loaded. -/
inductive InstallError where
  | sandboxed
  | payload
  | bootstrap (error : ParseError)
  | register (error : RunError)
deriving Repr

def InstallError.message : InstallError → String
  | .sandboxed => "the precompiled runtime needs to be loaded unsandboxed"
  | .payload => "bootstrap payload is not a base64 data URL"
  | .bootstrap error => s!"malformed bootstrap payload: {error.message}"
  | .register error => s!"cannot register the precompiled runtime: {error.message}"

namespace Host

/-- Read the document of a program and register the extension that runs compiled code. -/
def install (host : Host) (url : String) : Except InstallError Host := do
  if !host.unsandboxed then throw .sandboxed
  match Bootstrap.documentOfUrl? url with
  | none => throw .payload
  | some document =>
      let bootstrap ← (Bootstrap.parse document).mapError .bootstrap
      let host := { host with support := some (.ofBootstrap bootstrap) }
      (host.register .support).mapError .register

/-- A host for a program, with support for compiled code if the program brings any. -/
def load (project : Project) (unsandboxed : Bool) : Except InstallError Host :=
  let host := { Host.start project with unsandboxed := unsandboxed }
  match project.extensionUrls.get? supportExtension with
  | some url => host.install url
  | none => .ok host

end Host

end StepCode
