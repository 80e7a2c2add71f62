import Polyad.Text.Quoted

/-!
# Flags

What the command line understands, what each flag takes, and everything that can be wrong with the
arguments of a call. The order of `Flag.all` is the one in which flags are looked up and listed.
-/

namespace Polyad.Command

inductive Flag where
  | help
  | maxArity
  | config
  | formatter
  | lineLength
  | dumpModel
  | logLevel
  | logFile
  | version
  deriving DecidableEq, Repr

namespace Flag

def all : List Flag :=
  [help, maxArity, config, formatter, lineLength, dumpModel, logLevel, logFile, version]

def long : Flag → String
  | help => "--help"
  | maxArity => "--max-arity"
  | config => "--config"
  | formatter => "--formatter"
  | lineLength => "--line-length"
  | dumpModel => "--dump-model"
  | logLevel => "--log-level"
  | logFile => "--log-file"
  | version => "--version"

/-- A flag as it is called in complaints. -/
def title : Flag → String
  | help => "-h/--help"
  | f => f.long

/-- Whether a flag is followed by a value. -/
def takesValue : Flag → Bool
  | help | dumpModel | version => false
  | _ => true

def ofLong? (s : String) : Option Flag := all.find? (·.long == s)

/-- The flags whose long form begins like this. -/
def beginning (start : List Char) : List Flag := all.filter fun f => start.isPrefixOf f.long.toList

end Flag

/-- What is wrong with the arguments of a call. -/
inductive Refusal where
  | ambiguous (word : String) (candidates : List Flag)
  | noValue (f : Flag)
  /-- A value for a flag that takes none. -/
  | unusedValue (f : Flag) (value : String)
  | notWhole (f : Flag) (value : String)
  | noChoice (f : Flag) (value : String) (choices : List String)
  | unknownWords (words : List String)
  | noLogFile (reason : String)
  | noOutputDir
  deriving DecidableEq, Repr

namespace Refusal

def about (f : Flag) (complaint : String) : String := "argument " ++ f.title ++ ": " ++ complaint

def message : Refusal → String
  | ambiguous word candidates => "ambiguous option: " ++ word ++ " could match " ++
      ", ".intercalate (candidates.map Flag.long)
  | noValue f => about f "expected one argument"
  | unusedValue f v => about f ("ignored explicit argument " ++ Text.quoted v)
  | notWhole f v => about f ("invalid int value: " ++ Text.quoted v)
  | noChoice f v choices => about f ("invalid choice: " ++ Text.quoted v ++ " (choose from " ++
      ", ".intercalate (choices.map Text.quoted) ++ ")")
  | unknownWords ws => "unrecognized arguments: " ++ " ".intercalate ws
  | noLogFile reason => "cannot open log file: " ++ reason
  | noOutputDir => "output_dir is required unless --config or --dump-model is given"

end Refusal

def programName : String := "tuplegen"

def versionText : String := "0.1.0"

def usage : List String := [
  "usage: tuplegen [-h] [--max-arity MAX_ARITY] [--config CONFIG]",
  "                [--formatter \x7bplain,black\x7d] [--line-length LINE_LENGTH]",
  "                [--dump-model] [--log-level LOG_LEVEL] [--log-file LOG_FILE]",
  "                [--version]",
  "                [output_dir]"]

def helpLines : List String := usage ++ [
  "",
  "Generate a family of fixed-arity, immutable tuple types as Python source",
  "",
  "positional arguments:",
  "  output_dir            Directory receiving the generated modules",
  "",
  "options:",
  "  -h, --help            show this help message and exit",
  "  --max-arity MAX_ARITY",
  "                        Largest arity with a statically typed member (default",
  "                        24)",
  "  --config CONFIG       YAML configuration file",
  "  --formatter \x7bplain,black\x7d",
  "                        Formatting applied to the generated source",
  "  --line-length LINE_LENGTH",
  "                        Line length passed to the formatter (default",
  "                        unbounded)",
  "  --dump-model          Print the family model as YAML and exit",
  "  --log-level LOG_LEVEL",
  "                        DEBUG, INFO, WARNING, ERROR or CRITICAL",
  "  --log-file LOG_FILE   Also append log records to this file",
  "  --version             show program's version number and exit"]

/-- A complaint as it is shown. -/
def Refusal.lines (r : Refusal) : List String :=
  usage ++ [programName ++ ": error: " ++ r.message]

end Polyad.Command
