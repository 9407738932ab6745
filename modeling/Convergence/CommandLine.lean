/-!
# The command line

What the program is asked to do by its arguments.  `CommandLine.read` gives the request, or why
there is none: a text was asked for, or the arguments have a fault.

An option takes the rest of its argument as its value, or else the argument behind it.  Such a value
is looked at only when the next option starts or the arguments end, so a fault in between is found
first.
-/

namespace Convergence

/-- What the program is asked to do. -/
inductive Request where
  /-- Run the controller until it is interrupted. -/
  | run (config seed : Option String)
  /-- Validate a configuration and print it. -/
  | checkConfig (config : String)
deriving DecidableEq, Repr

namespace CommandLine

/-- The parts of the command line that have a help text of their own. -/
inductive Page where
  | program
  | run
  | checkConfig
  | help
deriving DecidableEq, Repr

/-- The options that take a value. -/
inductive Setting where
  | config
  | seed
deriving DecidableEq, Repr

/-- The options that take no value. -/
inductive Switch where
  | help
  | version
deriving DecidableEq, Repr

/-- What is wrong with the arguments. -/
inductive UsageFault where
  | unknownCommand (name : String)
  | unknownArgument (shown : String)
  /-- An option that takes no value has one. -/
  | surplusValue (option : Switch) (value : String)
  /-- An option has no value, or an empty one. -/
  | noValue (option : Setting)
  | repeated (option : Setting)
  /-- The command cannot do without the option. -/
  | required (option : Setting)
deriving DecidableEq, Repr

/-- Why the arguments make no request. -/
inductive Stop where
  /-- There are no arguments. -/
  | nothingAsked
  /-- A help text is asked for, the long one or the short one. -/
  | help (page : Page) (long : Bool)
  | version
  | fault (page : Page) (f : UsageFault)
deriving DecidableEq, Repr

/-! ## Names -/

/-- The command of a name. -/
def Page.ofName? (name : String) : Option Page :=
  if name = "run" then some .run
  else if name = "check-config" then some .checkConfig
  else if name = "help" then some .help
  else none

/-- The options with a value that a command takes. -/
def Page.settings : Page → List Setting
  | .run => [.config, .seed]
  | .checkConfig => [.config]
  | _ => []

/-- The options without a value that a command takes. -/
def Page.switches : Page → List Switch
  | .program => [.help, .version]
  | _ => [.help]

/-- The long name of an option. -/
def Setting.name : Setting → String
  | .config => "config"
  | .seed => "seed"

/-- The short name of an option. -/
def Setting.letter : Setting → Char
  | .config => 'c'
  | .seed => 's'

/-- The long name of an option. -/
def Switch.name : Switch → String
  | .help => "help"
  | .version => "version"

/-- The short name of an option. -/
def Switch.letter : Switch → Char
  | .help => 'h'
  | .version => 'V'

/-- Where a switch leads. -/
def Switch.stop (page : Page) (long : Bool) : Switch → Stop
  | .help => .help page long
  | .version => .version

/-! ## Words -/

/-- How an argument reads. -/
inductive Word where
  /-- Two dashes: no options follow. -/
  | divider
  | setting (option : Setting) (attached : Option String)
  | switch (option : Switch) (long : Bool) (attached : Option String)
  /-- An option that the command does not take, as it is shown. -/
  | unknown (shown : String)
  /-- Anything else. -/
  | plain (text : String)
deriving DecidableEq, Repr

/-- An argument behind two dashes: a name, and a value behind an equals sign. -/
def longWord (page : Page) (cs : List Char) : Word :=
  let name := String.ofList (cs.takeWhile (· ≠ '='))
  let attached : Option String :=
    match cs.dropWhile (· ≠ '=') with
    | _ :: value => some (String.ofList value)
    | [] => none
  match page.settings.find? (·.name == name), page.switches.find? (·.name == name) with
  | some s, _ => .setting s attached
  | none, some s => .switch s true attached
  | none, none => .unknown ("--" ++ name)

/-- An argument behind one dash: a letter, and a value with or without an equals sign before it.
Behind a letter that takes no value anything may follow. -/
def shortWord (page : Page) (letter : Char) (cs : List Char) : Word :=
  let attached : Option String :=
    match cs with
    | [] => none
    | '=' :: value => some (String.ofList value)
    | value => some (String.ofList value)
  match page.settings.find? (·.letter == letter), page.switches.find? (·.letter == letter) with
  | some s, _ => .setting s attached
  | none, some s => .switch s false none
  | none, none => .unknown (String.ofList ['-', letter])

/-- How an argument of a command reads. -/
def word (page : Page) (argument : String) : Word :=
  match argument.toList with
  | ['-', '-'] => .divider
  | '-' :: '-' :: cs => longWord page cs
  | '-' :: c :: cs => shortWord page c cs
  | _ => .plain argument

/-! ## The arguments of a command -/

/-- What the arguments of a command have given so far. -/
structure Given where
  config : Option String := none
  seed : Option String := none
  /-- The last option, if its value was not attached, and the value found behind it. -/
  awaiting : Option (Setting × Option String) := none

namespace Given

/-- The value of an option. -/
def value? (g : Given) : Setting → Option String
  | .config => g.config
  | .seed => g.seed

/-- Gives an option its value. -/
def put (g : Given) (s : Setting) (value : String) : Given :=
  match s with
  | .config => { g with config := some value }
  | .seed => { g with seed := some value }

/-- Takes over a value: it must not be the second one, and not empty. -/
def accept (g : Given) (s : Setting) (value : String) : Except UsageFault Given :=
  if (g.value? s).isSome then .error (.repeated s)
  else if value.isEmpty then .error (.noValue s)
  else .ok (g.put s value)

/-- Takes over the value that was found behind the last option. -/
def settle (g : Given) : Except UsageFault Given :=
  match g.awaiting with
  | none => .ok g
  | some (s, none) => .error (.noValue s)
  | some (s, some value) => { g with awaiting := none }.accept s value

/-- An option with a value starts. -/
def start (g : Given) (s : Setting) (attached : Option String) : Except UsageFault Given :=
  match g.settle with
  | .error f => .error f
  | .ok g =>
    match attached with
    | some value => g.accept s value
    | none => .ok { g with awaiting := some (s, none) }

/-- A word that is no option: the value that the last option waits for. -/
def plain (g : Given) (text : String) : Except UsageFault Given :=
  match g.awaiting with
  | some (s, none) => .ok { g with awaiting := some (s, some text) }
  | _ => .error (.unknownArgument text)

end Given

/-- Reads the arguments of a command. -/
def readGiven (page : Page) : Given → List String → Except Stop Given
  | g, [] => g.settle.mapError (.fault page)
  | g, argument :: rest =>
    match word page argument with
    | .divider =>
      match rest with
      | [] => g.settle.mapError (.fault page)
      | next :: _ => .error (.fault page (.unknownArgument next))
    | .unknown shown => .error (.fault page (.unknownArgument shown))
    | .switch s _ (some value) => .error (.fault page (.surplusValue s value))
    | .switch s long none =>
      match g.settle with
      | .error f => .error (.fault page f)
      | .ok _ => .error (s.stop page long)
    | .setting s attached =>
      match g.start s attached with
      | .error f => .error (.fault page f)
      | .ok g => readGiven page g rest
    | .plain text =>
      match g.plain text with
      | .error f => .error (.fault page f)
      | .ok g => readGiven page g rest

/-! ## The whole command line -/

/-- The arguments of the command that shows help: at most one command, of which the long text is
shown. -/
def readHelp : List String → Stop
  | [] => .help .program true
  | [name] =>
    match Page.ofName? name with
    | some page => .help page true
    | none => .fault .program (.unknownCommand name)
  | name :: deeper :: _ =>
    .fault .program (.unknownCommand (if (Page.ofName? name).isSome then deeper else name))

/-- What a command is asked to do. -/
def readCommand (page : Page) (arguments : List String) : Except Stop Request :=
  match page with
  | .run => (readGiven .run {} arguments).map fun g => .run g.config g.seed
  | .checkConfig =>
    match readGiven .checkConfig {} arguments with
    | .error s => .error s
    | .ok g =>
      match g.config with
      | some config => .ok (.checkConfig config)
      | none => .error (.fault .checkConfig (.required .config))
  | _ => .error (readHelp arguments)

/-- What the program is asked to do; the arguments do not include its own name. -/
def read : List String → Except Stop Request
  | [] => .error .nothingAsked
  | argument :: rest =>
    match word .program argument with
    | .divider =>
      match rest with
      | [] => .error .nothingAsked
      | next :: _ =>
        .error (.fault .program
          (if (Page.ofName? next).isSome then .unknownArgument next else .unknownCommand next))
    | .unknown shown => .error (.fault .program (.unknownArgument shown))
    | .switch s _ (some value) => .error (.fault .program (.surplusValue s value))
    | .switch s long none => .error (s.stop .program long)
    | .setting s _ => .error (.fault .program (.unknownArgument ("--" ++ s.name)))
    | .plain name =>
      match Page.ofName? name with
      | some page => readCommand page rest
      | none => .error (.fault .program (.unknownCommand name))

end CommandLine

end Convergence
