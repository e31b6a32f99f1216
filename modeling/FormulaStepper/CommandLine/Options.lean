/-!
# Command-line arguments

The program takes one formula and a few options, in any order. An option is
known by its whole name; one with a value takes the next argument, or what
follows an equals sign. After `--` every argument is a formula. A second
formula, a repeated option other than a variable, an unknown option or a
missing value make the arguments unusable.
-/

set_option autoImplicit false

namespace FormulaStepper.CommandLine

/-- What the arguments ask for. -/
structure Options where
  formula : Option String
  assignments : List String
  config : Option String
  noStopOnEntry : Bool
  adapter : Bool
deriving Repr, DecidableEq

/-- Nothing is asked for. -/
def Options.empty : Options := ⟨none, [], none, false, false⟩

/-- What to do with the arguments. -/
inductive Request where
  | run (options : Options)
  | showVersion
  | showHelp
  | unusable
deriving Repr, DecidableEq

/-- An option that takes a value. -/
inductive ValueOption where
  | assignment
  | config
deriving Repr, DecidableEq

/-- An option that takes no value. -/
inductive Flag where
  | noStopOnEntry
  | adapter
  | version
  | help
deriving Repr, DecidableEq

/-- The option with a value of a name. -/
def ValueOption.ofName? : String → Option ValueOption
  | "--var" => some .assignment
  | "--config" => some .config
  | _ => none

/-- The option without a value of a name. -/
def Flag.ofName? : String → Option Flag
  | "--no-stop-on-entry" => some .noStopOnEntry
  | "--dap" | "--debug-adapter" => some .adapter
  | "--version" => some .version
  | "--help" => some .help
  | _ => none

/-- The option without a value of the letter after a single hyphen. -/
def Flag.ofLetter? : Char → Option Flag
  | 'V' => some .version
  | 'h' => some .help
  | _ => none

/-- Whether an argument is an option and not a value. A lone hyphen is a value. -/
def isOption (argument : String) : Bool :=
  match argument.toList with
  | '-' :: _ :: _ => true
  | _ => false

/-- An argument up to its first equals sign, and what follows it. -/
def splitValue : List Char → List Char × Option (List Char)
  | [] => ([], none)
  | c :: rest =>
    if c = '=' then ([], some rest)
    else
      let (name, value) := splitValue rest
      (c :: name, value)

/-- The options with a formula. There may be only one. -/
def Options.setFormula (options : Options) (formula : String) : Option Options :=
  if options.formula.isSome then none else some { options with formula := some formula }

/-- The options with a value. A file name may not be empty. -/
def Options.setValue (options : Options) (option : ValueOption) (value : String) :
    Option Options :=
  match option with
  | .assignment => some { options with assignments := options.assignments ++ [value] }
  | .config =>
    if options.config.isSome || value.isEmpty then none
    else some { options with config := some value }

/-- The flag that an argument of a single hyphen and letters begins with. -/
def shortFlag? (argument : String) : Option Flag :=
  match argument.toList with
  | '-' :: letter :: _ => Flag.ofLetter? letter
  | _ => none

/-- Reads arguments after `--`. -/
def readFormulas (options : Options) : List String → Request
  | [] => .run options
  | argument :: rest =>
    match options.setFormula argument with
    | some options => readFormulas options rest
    | none => .unusable

/-- What one argument does: it is taken up, waits for its value, ends the
options, or settles what the arguments ask for. -/
inductive Effect where
  | taken (options : Options)
  | awaiting (option : ValueOption)
  | optionsEnd
  | settled (request : Request)

/-- The effect of options that may have become unusable. -/
def Effect.ofOptions? : Option Options → Effect
  | some options => .taken options
  | none => .settled .unusable

/-- The effect of a flag. -/
def Options.flagEffect (options : Options) (flag : Flag) : Effect :=
  match flag with
  | .noStopOnEntry =>
    if options.noStopOnEntry then .settled .unusable
    else .taken { options with noStopOnEntry := true }
  | .adapter =>
    if options.adapter then .settled .unusable else .taken { options with adapter := true }
  | .version => .settled .showVersion
  | .help => .settled .showHelp

/-- The effect of an argument that is no value. -/
def Options.effect (options : Options) (argument : String) : Effect :=
  if argument = "--" then .optionsEnd
  else if !isOption argument then .ofOptions? (options.setFormula argument)
  else
    let (name, value) := splitValue argument.toList
    match ValueOption.ofName? (String.ofList name), value with
    | some option, some value => .ofOptions? (options.setValue option (String.ofList value))
    | some option, none => .awaiting option
    | none, _ =>
      match Flag.ofName? argument <|> shortFlag? argument with
      | some flag => options.flagEffect flag
      | none => .settled .unusable

/-- Reads arguments, the first of which may be the value that an option waits
for. -/
def readFrom (options : Options) (awaiting : Option ValueOption) : List String → Request
  | [] => if awaiting.isSome then .unusable else .run options
  | argument :: rest =>
    match awaiting with
    | some option =>
      if isOption argument then .unusable
      else
        match options.setValue option argument with
        | some options => readFrom options none rest
        | none => .unusable
    | none =>
      match options.effect argument with
      | .taken options => readFrom options none rest
      | .awaiting option => readFrom options (some option) rest
      | .optionsEnd => readFormulas options rest
      | .settled request => request

/-- What arguments ask for. -/
def read (arguments : List String) : Request :=
  readFrom .empty none arguments

end FormulaStepper.CommandLine
