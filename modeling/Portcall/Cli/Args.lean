import Portcall.Cli.Check
import Portcall.Cli.Number

/-! Argument parsing: `parseArgs` with its loop over the tokens after `check`. -/
namespace Portcall

def Format.name : Format → String
  | .json => "json"
  | .html => "html"
  | .text => "text"

def formats : List Format := [.json, .html, .text]

/-- The format a text names. -/
def isFormat (value : String) : Option Format := formats.find? fun format => format.name = value

namespace Cli

/-- What a `check` is asked for, with its budget and the file it writes to. -/
structure CheckCommand extends Portcall.CheckCommand where
  timeoutMs : ℤ
  out : Option String
  deriving DecidableEq, Repr

inductive Command where
  | check (command : CheckCommand)
  | profiles
  | help
  | version
  deriving DecidableEq, Repr

abbrev ParseResult := Except String Command

def defaultTimeoutSeconds : ℕ := 60
def maxTimeoutSeconds : ℕ := 3600

/-- `[flag, inlineValue]` -/
def splitFlag (arg : String) : String × Option String :=
  let equals := arg.toList.idxOf '='
  if Text.startsWith arg "--" && 2 < equals && equals < arg.toList.length then
    (String.ofList (arg.toList.take equals), some (String.ofList (arg.toList.drop (equals + 1))))
  else (arg, none)

/-- What the loop has read so far. -/
structure CheckOptions where
  profile : Option String := none
  format : Format := .text
  redact : Bool := true
  timeoutSeconds : ℚ := defaultTimeoutSeconds
  out : Option String := none

def isHelp (arg : String) : Bool := arg = "-h" || arg = "--help"

/-- The value of a flag, unless it is missing or looks like an option. -/
def valueOf (flag : String) : Option String → Except String String
  | none => .error (flag ++ " needs a value")
  | some value =>
    if Text.startsWith value "-" then .error (flag ++ " needs a value") else .ok value

/-- The seconds a `--timeout` value gives. -/
def timeoutOf (precision : Precision) (value : String) : Except String ℚ :=
  match precision.number value with
  | .finite parsed =>
    if parsed ≤ 0 then
      .error ("--timeout must be a positive number of seconds, got '" ++ value ++ "'")
    else if (maxTimeoutSeconds : ℚ) < parsed then
      .error ("--timeout must be at most " ++ toString maxTimeoutSeconds ++ " seconds")
    else .ok parsed
  | _ => .error ("--timeout must be a positive number of seconds, got '" ++ value ++ "'")

def formatOf (value : String) : Except String Format :=
  match isFormat value with
  | none => .error ("unknown format '" ++ value ++ "'. Use json, html or text.")
  | some format => .ok format

/-- One pass of the `switch` over the flag, `value` being `inlineValue ?? args[++index]`. -/
def applyFlag (precision : Precision) (arg flag : String) (value : Option String)
    (options : CheckOptions) : Except String CheckOptions :=
  if flag = "--profile" then
    (valueOf flag value).map fun value => { options with profile := some value }
  else if flag = "--format" then do
    let format ← formatOf (← valueOf flag value)
    return { options with format := format }
  else if flag = "--out" then
    (valueOf flag value).map fun value => { options with out := some value }
  else if flag = "--timeout" then do
    let seconds ← timeoutOf precision (← valueOf flag value)
    return { options with timeoutSeconds := seconds }
  else .error ("unknown option '" ++ arg ++ "'. Try: portcall --help")

/-- The command, once every token is read. -/
def finish (precision : Precision) (options : CheckOptions) : ParseResult :=
  match options.profile with
  | none => .error "check requires --profile <name|path>. Try: portcall profiles"
  | some profile => .ok (.check
      { profile := profile
        format := options.format
        redact := options.redact
        timeoutMs := mathRound (precision.keep (options.timeoutSeconds * 1000))
        out := options.out })

/-- The loop over the tokens after `check`. -/
def checkLoop (precision : Precision) (options : CheckOptions) : List String → ParseResult
  | [] => finish precision options
  | arg :: rest =>
    if isHelp arg then .ok .help
    else if arg = "--no-redact" then checkLoop precision { options with redact := false } rest
    else
      match splitFlag arg, rest with
      | (flag, some value), rest =>
        match applyFlag precision arg flag (some value) options with
        | .error message => .error message
        | .ok options => checkLoop precision options rest
      | (flag, none), [] =>
        match applyFlag precision arg flag none options with
        | .error message => .error message
        | .ok options => finish precision options
      | (flag, none), value :: rest =>
        match applyFlag precision arg flag (some value) options with
        | .error message => .error message
        | .ok options => checkLoop precision options rest

/-- The source reads its numbers as doubles. -/
def parseArgs (argv : List String) (precision : Precision := .double) : ParseResult :=
  match argv with
  | [] => .ok .help
  | first :: rest =>
    if first = "-h" || first = "--help" || first = "help" then .ok .help
    else if first = "-v" || first = "--version" || first = "version" then .ok .version
    else if first = "profiles" then
      match rest with
      | [] => .ok .profiles
      | argument :: _ => .error ("unexpected argument '" ++ argument ++ "' after 'profiles'")
    else if first = "check" then checkLoop precision {} rest
    else .error ("unknown command '" ++ first ++ "'. Try: portcall check --profile <name>")

example : parseArgs ["check", "--profile", "p", "--timeout=15"] =
    .ok (.check ⟨⟨"p", .text, true⟩, 15000, none⟩) := by decide +kernel

end Cli
end Portcall
