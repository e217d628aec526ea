/-
`src/packages/coordinator.rs`: what package operations ask of the host, the output of a command, the
deadlines that operations pass to the runner (in seconds), and the wrappers that turn a runner's
answer into text.
-/
import LinuxPatchApi.Packages.ErrorUtils
import LinuxPatchApi.Lib.Prog

namespace LinuxPatchApi.Packages

open Interaction

/-- `CommandOutput`. -/
structure CommandOutput where
  statusCode : Option Int
  stdout : String
  stderr : String
  timedOut : Bool
  deriving DecidableEq, Repr

def CommandOutput.success (o : CommandOutput) : Bool := o.statusCode == some 0

/-- `CACHE_REFRESH_TIMEOUT`. -/
def cacheRefreshTimeout : Nat := 300

/-- `PACKAGE_OP_TIMEOUT`. -/
def packageOpTimeout : Nat := 1800

/-- `QUICK_OP_TIMEOUT`. -/
def quickOpTimeout : Nat := 60

/-! ## Effects -/

/-- An element of a command line: text of the agent or read from the host, or text of a request. -/
inductive Arg where
  | own (text : String)
  | request (text : String)
  deriving DecidableEq, Repr

def Arg.text : Arg → String
  | .own text | .request text => text

instance : Coe String Arg := ⟨.own⟩

/-- The output of a process that is started without the runner. -/
structure ProcessOutput where
  success : Bool
  stdout : List UInt8

inductive Effect where
  /-- `CommandRunner::run_with_timeout`, or `run` when there is no deadline. -/
  | run (program : String) (args : List Arg) (timeout : Option Nat)
  | pathExists (path : String)
  /-- `fs::read_to_string`. -/
  | readFile (path : String)
  | removeFile (path : String)
  /-- `std::process::Command::output`. -/
  | output (program : String) (args : List String)
  /-- `std::process::Command::spawn`. -/
  | spawn (program : String) (args : List String)
  /-- Locking the process-wide apt mutex, which fails when it is poisoned. -/
  | lockAptMutex
  | sleep (seconds : Nat)
  /-- `Instant::elapsed`, when the sleeps since the instant add up to `slept` seconds. -/
  | elapsed (slept : Nat)
  | updateSuccess
  | updateFailure (error : String)

def Response : Effect → Type
  | .run _ _ _ => Except AnyhowError CommandOutput
  | .pathExists _ => Bool
  | .readFile _ => Option String
  | .removeFile _ => Bool
  | .output _ _ => Option ProcessOutput
  | .spawn _ _ => Except String Unit
  | .lockAptMutex => Bool
  | .sleep _ | .updateSuccess | .updateFailure _ => Unit
  | .elapsed slept => { seconds : Nat // slept ≤ seconds }

/-- An operation: a program that returns a `Result`. -/
abbrev Op := Fallible AnyhowError Effect Response

def ask (e : Effect) : Op (Response e) := Fallible.perform e

/-! ## Running commands -/

def runWithTimeout (program : String) (args : List Arg) (timeout : Option Nat) : Op CommandOutput :=
  ExceptT.mk (Prog.perform (R := Response) (Effect.run program args timeout))

def runCommandTimed (program : String) (args : List Arg) (timeout : Nat) : Op String := do
  let output ← runWithTimeout program args (some timeout)
  return output.stdout

/-- An error that is a command's exit with an acceptable code counts as success. -/
def acceptExit (acceptable : List Int) (result : Except AnyhowError CommandOutput) : Except AnyhowError String :=
  match result with
  | .ok output => .ok output.stdout
  | .error e =>
    match extractCommandOutput e with
    | none => .error e
    | some ce =>
      match ce.exitCode with
      | none => .error e
      | some code => if acceptable.contains code then .ok ce.stdout else .error e

/-- `run_command_with_acceptable_exit_timed`, and `run_command_with_acceptable_exit` when there is no
deadline. -/
def runCommandWithAcceptableExit (program : String) (args : List Arg) (acceptable : List Int)
    (timeout : Option Nat) : Op String := do
  let result ← Fallible.attempt (runWithTimeout program args timeout)
  liftExcept (acceptExit acceptable result)
where
  liftExcept (r : Except AnyhowError String) : Op String := ExceptT.mk (pure r)

/-- `unwrap_or`: the value of an operation, or another one when it fails. -/
def unwrapOr {α : Type} (fallback : α) (op : Op α) : Op α := do
  match ← Fallible.attempt op with
  | .ok a => return a
  | .error _ => return fallback

/-- A query whose failure is no answer. -/
def tryRun (program : String) (args : List Arg) : Op (Option CommandOutput) :=
  unwrapOr none do
    let output ← runWithTimeout program args (some quickOpTimeout)
    return some output

/-- `command_available`. -/
def commandAvailable (cmd : String) : Op Bool := do
  let output : Option ProcessOutput ← ask (.output "which" [cmd])
  return output.any (·.success)

end LinuxPatchApi.Packages
