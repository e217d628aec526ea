/-
`src/packages/error_utils.rs`: the structured error of a failed command, error chains as `anyhow`
keeps and prints them, their classification into stable codes, and the log lines of a failure.
-/
import LinuxPatchApi.Lib.Text

namespace LinuxPatchApi.Packages

open Text

/-- `MAX_OUTPUT_LINES`. -/
def maxOutputLines : Nat := 200

/-! ## Error codes -/

namespace ErrorCode

def pkgManagerError : String := "PKG_MANAGER_ERROR"
def commandNotFound : String := "COMMAND_NOT_FOUND"
def cacheRefreshError : String := "CACHE_REFRESH_ERROR"
def networkError : String := "NETWORK_ERROR"
def gpgError : String := "GPG_ERROR"
def pkgNotFound : String := "PKG_NOT_FOUND"
def dependencyConflict : String := "DEPENDENCY_CONFLICT"
def permissionDenied : String := "PERMISSION_DENIED"
def rebootError : String := "REBOOT_ERROR"
def timeout : String := "TIMEOUT"
def agentRebooted : String := "AGENT_REBOOTED"
def agentRestarted : String := "AGENT_RESTARTED"
def unknownError : String := "UNKNOWN_ERROR"

end ErrorCode

/-! ## Errors -/

/-- `CommandError`: a failed command with its exit code and captured output. -/
structure CommandError where
  program : String
  args : List String
  exitCode : Option Int
  stdout : String
  stderr : String
  spawnError : Option String
  timedOut : Bool
  deriving DecidableEq, Repr

/-- The innermost cause of an error: a failed command, or any other error by its text. -/
inductive RootCause where
  | message (text : String)
  | command (ce : CommandError)
  deriving DecidableEq, Repr

/-- An `anyhow::Error`: the context strings around the root cause, outermost first. -/
structure AnyhowError where
  contexts : List String
  root : RootCause
  deriving DecidableEq, Repr

/-- `anyhow!(text)`. -/
def anyhow (text : String) : AnyhowError := ⟨[], .message text⟩

/-- `anyhow::Error::new(ce)`. -/
def AnyhowError.ofCommand (ce : CommandError) : AnyhowError := ⟨[], .command ce⟩

/-- `.context(text)`. -/
def AnyhowError.context (e : AnyhowError) (text : String) : AnyhowError := ⟨text :: e.contexts, e.root⟩

def firstNonemptyLine (s : String) : Option String :=
  ((lines s).map trim).find? fun l => !l.isEmpty

/-- `CommandError::summary`, which is also its `Display`. -/
def CommandError.summary (ce : CommandError) : String :=
  match ce.spawnError with
  | some err => ce.program ++ " failed to start: " ++ err
  | none =>
    if ce.timedOut then
      ce.program ++ " timed out: " ++ (firstNonemptyLine ce.stderr).getD ""
    else
      let detail := ((firstNonemptyLine ce.stderr).or (firstNonemptyLine ce.stdout)).getD ""
      match ce.exitCode with
      | some code => ce.program ++ " failed (exit " ++ toString code ++ "): " ++ detail
      | none => ce.program ++ " failed (signal): " ++ detail

def RootCause.display : RootCause → String
  | .message text => text
  | .command ce => ce.summary

/-- `err.chain()`, each cause by its `Display`. -/
def AnyhowError.chain (e : AnyhowError) : List String := e.contexts ++ [e.root.display]

/-- `err.to_string()`: the outermost cause only. -/
def AnyhowError.display (e : AnyhowError) : String := e.chain.headD ""

/-- `extract_command_output`: only the root of a chain can be a command error. -/
def extractCommandOutput (e : AnyhowError) : Option CommandError :=
  match e.root with
  | .message _ => none
  | .command ce => some ce

def extractExitCode (e : AnyhowError) : Option Int := (extractCommandOutput e).bind (·.exitCode)

def extractStdout (e : AnyhowError) : Option String := (extractCommandOutput e).map (·.stdout)

def extractStderr (e : AnyhowError) : Option String := (extractCommandOutput e).map (·.stderr)

/-! ## Classification -/

/-- The non-empty causes joined with `" | "`, in lower case. -/
def loweredChain (e : AnyhowError) : String :=
  toLowercase (join " | " (e.chain.filter fun s => !s.isEmpty))

/-- The signature tests on the lower-cased message, in the order of the source; `none` when no
signature matches. -/
def classifySignature (lower : String) : Option String :=
  let has := contains lower
  if has "gpg" || has "signature" || has "untrusted" then some ErrorCode.gpgError
  else if has "404" || has "not found" || has "failed to fetch" || has "unable to fetch"
      || has "could not resolve" || has "connection refused" || has "network is unreachable" then
    if has "unable to locate package" || has "no package available" || has "package foo"
        || has "no such package" then some ErrorCode.pkgNotFound
    else some ErrorCode.networkError
  else if has "unable to locate package" || has "no package available" then
    some ErrorCode.pkgNotFound
  else if has "dependency" || has "dependencies" || has "conflict" || has "broken count"
      || has "held broken package" then some ErrorCode.dependencyConflict
  else if has "permission denied" || has "lock file" then some ErrorCode.permissionDenied
  else if has "reboot" || has "shutdown" then some ErrorCode.rebootError
  else if has "cache refresh" || has "check-update" then some ErrorCode.cacheRefreshError
  else none

/-- `classify_error`. -/
def classifyError (e : AnyhowError) : String :=
  let lower := loweredChain e
  match extractCommandOutput e with
  | none => (classifySignature lower).getD ErrorCode.unknownError
  | some ce =>
    if ce.timedOut then ErrorCode.timeout
    else if ce.spawnError.isSome then
      if contains lower "no such file" || contains lower "not found" then ErrorCode.commandNotFound
      else if contains lower "permission denied" then ErrorCode.permissionDenied
      else ErrorCode.commandNotFound
    else (classifySignature lower).getD ErrorCode.pkgManagerError

/-! ## Rendering -/

/-- A cause under `Caused by:`: its first line behind the number (when there are several causes)
or an indentation, the other lines indented. -/
def indentCause (number : Option Nat) (cause : String) : String :=
  let pad (n : Nat) : String := String.ofList (List.replicate (5 - (toString n).length) ' ') ++ toString n
  let first := match number with
    | some n => pad n ++ ": "
    | none => "    "
  let rest := match number with
    | some _ => "       "
    | none => "    "
  first ++ join ("\n" ++ rest) (split cause '\n')

/-- `format_error_chain`: the `Debug` text of an `anyhow::Error`, without the backtrace that follows it where
`RUST_BACKTRACE` is set. -/
def formatErrorChain (e : AnyhowError) : String :=
  match e.chain with
  | [] => ""
  | [outer] => outer
  | [outer, cause] => outer ++ "\n\nCaused by:\n" ++ indentCause none cause
  | outer :: causes =>
    outer ++ "\n\nCaused by:\n" ++
      join "\n" (causes.zipIdx.map fun (c, n) => indentCause (some n) c)

def formatCommand (program : String) (args : List String) : String :=
  let special (c : Char) : Bool := isWhitespace c || "'\"$`\\|&;><".toList.contains c
  args.foldl (fun s a =>
    if a.toList.any special then s ++ " '" ++ replaceChar a '\'' "'\\''" ++ "'" else s ++ " " ++ a)
    program

def appendStreamLines (streamName content : String) : List String :=
  match lines content with
  | [] => ["[" ++ streamName ++ "] (empty)"]
  | ls => ("[" ++ streamName ++ "]") :: ls.map ("  " ++ ·)

/-- `CommandError::output_log_lines`. -/
def CommandError.outputLogLines (ce : CommandError) : List String :=
  let cmdRepr := formatCommand ce.program ce.args
  let header := match ce.exitCode with
    | some code => "Command failed (exit " ++ toString code ++ "): " ++ cmdRepr
    | none => "Command failed (signal): " ++ cmdRepr
  match ce.spawnError with
  | some err => [header, "Spawn error: " ++ err]
  | none =>
    let all := header :: (appendStreamLines "stderr" ce.stderr ++ appendStreamLines "stdout" ce.stdout)
    if all.length > maxOutputLines then
      all.take maxOutputLines ++ ["... output truncated at " ++ toString maxOutputLines ++ " lines"]
    else all

def diagnosticLogLines (e : AnyhowError) : List String :=
  "Error chain:" :: lines (formatErrorChain e) ++
    match extractCommandOutput e with
    | some ce => ["", "Command output:"] ++ ce.outputLogLines
    | none => []

def formatErrorForCache (e : AnyhowError) : String :=
  match extractCommandOutput e with
  | some ce => ce.summary
  | none => formatErrorChain e

end LinuxPatchApi.Packages
