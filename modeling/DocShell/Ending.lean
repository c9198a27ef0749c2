import DocShell.CommandLine.Basic
import DocShell.Session

/-!
# How a run ends

A run leaves what it has written on the standard output and on the error output, and
a code: 0 if all went well, 1 if a command or the start failed, and 2 if the command
line cannot be carried out.
-/

namespace DocShell

/-- What a run leaves. -/
structure Ending where
  output : String := ""
  errors : String := ""
  code : UInt8 := 0
  deriving DecidableEq, Repr, Inhabited

namespace Ending

/-- The version of the console. -/
def version : String :=
  "mongo-console 0.3.0"

/-- The words of the command line, as help for the user. -/
def help : String :=
  "\n".intercalate
    ["Shell command interpreter for MongoDB administration",
     "",
     "Usage: mongo-console [OPTIONS] [URI]",
     "",
     "Options:",
     "      --database <NAME>   Database selected at startup",
     "      --read-only         Reject insert, update and delete operations",
     "  -c, --config <FILE>     Configuration file path",
     "  -e, --eval <COMMAND>    Command to execute (repeatable, executed in order)",
     "      --format <FORMAT>   Output format (json, json-pretty)",
     "      --no-color          Disable colored output",
     "      --in-memory         Use an empty in-process store instead of connecting",
     "  -v, --verbose           Verbose mode (debug logging)",
     "      --vv                Very verbose mode (trace logging)",
     "  -h, --help              Print help",
     "  -V, --version           Print version"]

/-- What is wrong with a command line. -/
def complaint : CommandLine.Refusal → String
  | .unknownArgument => "unexpected argument"
  | .missingValue => "a value is required but none was supplied"
  | .unneededValue => "unexpected value"
  | .repeated => "an argument cannot be used multiple times"
  | .help | .version => ""

/-- How a run ends whose command line is not carried out. -/
def ofRefusal : CommandLine.Refusal → Ending
  | .help => { output := help ++ "\n" }
  | .version => { output := version ++ "\n" }
  | refusal => { errors := s!"error: {complaint refusal}\n", code := 2 }

/-- How a run ends that fails before its first command. -/
def ofFailure (failure : Failure) : Ending :=
  { errors := s!"Error: {failure.message}\n", code := 1 }

/-- The texts of answers, each with a line end. -/
def joined (answers : List Answer) : String :=
  String.join (answers.map fun answer => answer.text ++ "\n")

/-- What has been written when all commands are answered. -/
def ofAnswers (answers : List Answer) : Ending :=
  { output := joined (answers.filter fun answer => !answer.isFailure)
    errors := joined (answers.filter Answer.isFailure)
    code := if answers.any Answer.isFailure then 1 else 0 }

end Ending

end DocShell
