import Polyad.Command.Request
import Polyad.Draft
import Polyad.Run.Generate
import Polyad.Yaml.Printer

/-!
# Calls

A call of the program from its arguments to its exit code. A request that makes no sense ends with
code 2, a failure that is reported with code 1; any other failure is passed on.
-/

namespace Polyad.Run

open Command

def say (text : String) : RunM Unit := modify fun w => { w with output := w.output ++ text }

def complain (text : String) : RunM Unit := modify fun w => { w with errors := w.errors ++ text }

def refuse (r : Refusal) : RunM Nat := do
  complain (Code.endLines r.lines)
  return 2

/-- The flags of a request that go over its configuration. -/
def flagsOf (q : Request) : Config.Flags where
  outputDir := q.outputDir
  maxArity := q.maxArity
  formatter := q.formatter
  lineLength := q.lineLength

/-- The configuration of a request: its file or else the default, with the given fields over it. -/
def configFor (q : Request) : RunM Config := do
  let base ← match q.config.filter (· != "") with
    | some file => RunM.loadConfig (Path.ofString file)
    | none => pure Config.default
  RunM.ofExcept (base.override (flagsOf q).settings)

/-- Does what a request asks for, once the log is set up. -/
def perform (q : Request) : RunM Nat := do
  let config ← configFor q
  if q.dumpModel then
    let family ← buildFamily config.maxArity
    say (Yaml.render family.toValue)
    return 0
  if q.outputDir.isNone && (q.config.filter (· != "")).isNone then
    return ← refuse .noOutputDir
  let result ← generate "utf-8" config
  say ("Wrote " ++ locationText result.contracts ++ "\n")
  say ("Wrote " ++ locationText result.concretes ++ "\n")
  return 0

/-- Logs a failure that is reported and passes on any other. -/
def reporting (act : RunM Nat) : RunM Nat :=
  tryCatch act fun e => do
    match e.report? with
    | some r =>
      RunM.log "cli" .error r.text
      return 1
    | none => throw e

/-- Performs a request with the log it asks for. -/
def fulfil (q : Request) : RunM Nat := do
  let level := Level.resolve q.logLevel (← get).environment
  let refusal ← tryCatch (do RunM.setUpLog (.ok level) q.logFile; return none) fun e =>
    match e with
    | .system cause path =>
      if cause.isRefusal then return some (.noLogFile (cause.text path)) else throw e
    | e => throw e
  match refusal with
  | some r => refuse r
  | none => reporting (perform q)

/-- Runs the program with some arguments and gives its exit code. -/
def call (arguments : List String) : RunM Nat := do
  match Request.read arguments with
  | .ok q => fulfil q
  | .error .help =>
    say (Code.endLines helpLines)
    return 0
  | .error .version =>
    say (programName ++ " " ++ versionText ++ "\n")
    return 0
  | .error (.refused r) => refuse r

end Polyad.Run
