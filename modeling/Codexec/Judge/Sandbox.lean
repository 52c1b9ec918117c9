/-
**Running an untrusted command.**

The technology-independent description of a command, its limits and its outcome, and the calls the
judge makes on a sandbox box. A judging run is a `Program` over these calls; the progress events it
sends are calls too, whose answer carries nothing.
-/

import Codexec.Judge.Host
import Codexec.Library.Program

namespace Codexec

open Codexec.Library

inductive SandboxError
  | io (message : String)
  | invalidFileName (name : String)
  | backend (message : String)
  deriving DecidableEq, Repr

/-- The text a failed attempt is recorded with. -/
def SandboxError.display [Host] : SandboxError → String
  | .io message => "sandbox i/o error: " ++ message
  | .invalidFileName name => "invalid file name for sandbox: " ++ Host.debugStr name
  | .backend message => "sandbox backend failed: " ++ message

/-- Resource limits for one execution. Durations are in milliseconds. -/
structure ExecLimits where
  cpuTime : Nat
  /-- Grace period after `cpuTime`. -/
  extraTime : Nat
  wallTime : Nat
  memoryKb : UInt64
  processes : Nat
  fileSizeKb : UInt64
  /-- Bytes of stdout kept; more than this is an output-limit violation. -/
  stdoutBytes : Nat
  /-- Bytes of stderr kept; the rest is dropped silently. -/
  stderrBytes : Nat
  addressSpaceLimit : Bool
  deriving DecidableEq, Repr

/-- One command to execute inside a box. -/
structure ExecSpec where
  argv : List String
  env : List (String × String)
  dirs : List String
  limits : ExecLimits
  stderrToStdout : Bool
  syscallFlags : Option Nat
  deriving DecidableEq, Repr

inductive ExecStatus
  | ok
  | nonZeroExit (code : Int)
  | signaled (signal : Int)
  | timeLimit
  | wallTimeLimit
  | memoryLimit
  | outputLimit
  deriving DecidableEq, Repr

structure ExecOutcome where
  status : ExecStatus
  stdout : Bytes
  stderr : Bytes
  cpuTimeMs : UInt64
  wallTimeMs : UInt64
  memoryKb : UInt64
  deriving DecidableEq, Repr

/-- Accepts plain file names only: no separators, no traversal, no hidden files. -/
def validateFileName (name : String) : Except SandboxError Unit :=
  let bytes := utf8 name
  let plain := fun byte : UInt8 =>
    (0x30 ≤ byte && byte ≤ 0x39) || (0x41 ≤ byte && byte ≤ 0x5A) ||
      (0x61 ≤ byte && byte ≤ 0x7A) || byte == 0x2E || byte == 0x5F || byte == 0x2D
  if !bytes.isEmpty && bytes.length ≤ 64 && bytes.head? != some 0x2E && bytes.all plain then
    .ok ()
  else .error (.invalidFileName name)

/-- Progress of a judging run. -/
inductive Progress
  | compiling
  | running (done total : Nat)
  deriving DecidableEq, Repr

/-- A call of the judge: on the sandbox, on the acquired box, or on the progress channel. -/
inductive Call
  | acquire
  | writeFile (name : String) (contents : Bytes)
  | exec (spec : ExecSpec) (stdin : Bytes)
  | release
  | notify (progress : Progress)
  deriving DecidableEq

namespace Call

/-- What a call answers. -/
abbrev Answer : Call → Type
  | .acquire => Except SandboxError Unit
  | .writeFile _ _ => Except SandboxError Unit
  | .exec _ _ => Except SandboxError ExecOutcome
  | .release => Except SandboxError Unit
  | .notify _ => Unit

/-- The calls that reach the sandbox. -/
def isSandbox : Call → Bool
  | .notify _ => false
  | _ => true

/-- The calls that hand data to a box. -/
def isInput : Call → Bool
  | .writeFile _ _ => true
  | .exec _ _ => true
  | _ => false

end Call

/-- A judging run. -/
abbrev JudgeM (α : Type) : Type := Program Call Call.Answer α

/-- A judging run that stops at the first sandbox error, as `?` does. -/
abbrev BoxM (α : Type) : Type := ExceptT SandboxError (Program Call Call.Answer) α

def writeFile (name : String) (contents : Bytes) : BoxM Unit :=
  .mk (Program.ask (Call.writeFile name contents))

def exec (spec : ExecSpec) (stdin : Bytes) : BoxM ExecOutcome :=
  .mk (Program.ask (Call.exec spec stdin))

/-- Sends a progress event when somebody listens. -/
def notify (progress : Bool) (event : Progress) : BoxM Unit :=
  if progress then .mk (.call (Call.notify event) fun _ => .pure (.ok ())) else .mk (.pure (.ok ()))

end Codexec
