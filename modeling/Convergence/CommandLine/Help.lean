import Convergence.CommandLine
/-!
# What the command line answers

The texts for command lines that make no request: help, the version, and what is wrong with the
arguments.
-/

namespace Convergence.CommandLine

/-- What the program is for, in short. -/
def about : String := "Drives integrations toward their desired state"

/-- What the program is for, at length. -/
def longAbout : String :=
  "Integrator watches integration records, provisions or tears down their deployments and retries "
    ++ "until observed and desired state agree."

/-- The version of the program. -/
def versionText : String := "integrator 0.1.0\n"

namespace Page

/-- How a command is called. -/
def usage : Page → String
  | .program => "Usage: integrator <COMMAND>\n"
  | .run => "Usage: integrator run [OPTIONS]\n"
  | .checkConfig => "Usage: integrator check-config --config <CONFIG>\n"
  | .help => "Usage: integrator help [COMMAND]...\n"

/-- The commands, each with what it does. -/
def commands : String :=
  "Commands:\n"
    ++ "  run           Run the controller until Ctrl+C\n"
    ++ "  check-config  Validate a configuration file and print the effective configuration\n"
    ++ "  help          Print this message or the help of the given subcommand(s)\n"

/-- The options of the program, each with what it does. -/
def programOptions (long : Bool) : String :=
  if long then
    "Options:\n"
      ++ "  -h, --help\n"
      ++ "          Print help (see a summary with '-h')\n\n"
      ++ "  -V, --version\n"
      ++ "          Print version\n"
  else
    "Options:\n"
      ++ "  -h, --help     Print help (see more with '--help')\n"
      ++ "  -V, --version  Print version\n"

/-- The help text of a page; only that of the program has a longer form. -/
def helpText (long : Bool) (page : Page) : String :=
  match page with
  | .program =>
    (if long then longAbout else about) ++ "\n\n" ++ page.usage ++ "\n" ++ commands ++ "\n"
      ++ programOptions long
  | .run =>
    "Run the controller until Ctrl+C\n\n" ++ page.usage ++ "\nOptions:\n"
      ++ "  -c, --config <CONFIG>  Configuration file (TOML, or JSON with a .json extension)\n"
      ++ "  -s, --seed <SEED>      JSON file with integrations to create at start-up\n"
      ++ "  -h, --help             Print help\n"
  | .checkConfig =>
    "Validate a configuration file and print the effective configuration\n\n" ++ page.usage
      ++ "\nOptions:\n"
      ++ "  -c, --config <CONFIG>  Configuration file to check\n"
      ++ "  -h, --help             Print help\n"
  | .help =>
    "Print this message or the help of the given subcommand(s)\n\n" ++ page.usage
      ++ "\nArguments:\n  [COMMAND]...  Print help for the subcommand(s)\n"

end Page

/-- An option as texts show it, with a name for its value. -/
def Setting.shown : Setting → String
  | .config => "--config <CONFIG>"
  | .seed => "--seed <SEED>"

/-- What is wrong, on the first line of the answer, and what belongs to it below. -/
def UsageFault.message : UsageFault → String
  | .unknownCommand name => "unrecognized subcommand '" ++ name ++ "'"
  | .unknownArgument shown => "unexpected argument '" ++ shown ++ "' found"
  | .surplusValue option value =>
    "unexpected value '" ++ value ++ "' for '--" ++ option.name ++ "' found; no more were expected"
  | .noValue option =>
    "a value is required for '" ++ option.shown ++ "' but none was supplied"
  | .repeated option => "the argument '" ++ option.shown ++ "' cannot be used multiple times"
  | .required option =>
    "the following required arguments were not provided:\n  " ++ option.shown

/-- The answer to arguments with a fault. -/
def UsageFault.report (page : Page) (f : UsageFault) : String :=
  let usage : String :=
    match f with
    | .noValue _ => ""
    | _ => "\n" ++ page.usage
  "error: " ++ f.message ++ "\n" ++ usage ++ "\nFor more information, try '--help'.\n"

end Convergence.CommandLine
