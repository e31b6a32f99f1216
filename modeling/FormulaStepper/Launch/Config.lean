import FormulaStepper.Evaluation.Variables
import FormulaStepper.Json.Reading
import FormulaStepper.Launch.Name
import FormulaStepper.Text.Utf8
import FormulaStepper.Value.Json

/-!
# Launch configurations

A configuration is a JSON object with a `formula`, perhaps `variables`, and
perhaps `stopOnEntry`, which is true unless it is given; other members are
skipped. An array of the three in that order will do as well. A configuration
in a file is read in the order of its text and may not repeat a member. One
that is already a JSON value is read in the order of its names.
-/

set_option autoImplicit false

namespace FormulaStepper

open Json

/-- What to debug, and how to begin. -/
structure LaunchConfig where
  formula : String
  bindings : List (String × Json)
  stopOnEntry : Bool
deriving Inhabited

/-- A system's report on a file that could not be read. -/
inductive FileError where
  | notFound
  | invalidUtf8
  | other (report : String)
deriving Repr, DecidableEq

/-- The wording of a file error. -/
def FileError.message : FileError → String
  | .notFound => "No such file or directory (os error 2)"
  | .invalidUtf8 => "stream did not contain valid UTF-8"
  | .other report => report

/-- Why a launch configuration cannot be used. -/
inductive ConfigError where
  /-- The file cannot be read. -/
  | file (error : FileError)
  /-- The configuration is not one. -/
  | malformed (error : ReadError)
  /-- A variable cannot be set. -/
  | invalidVariable (name reason : String)
deriving Repr, DecidableEq

/-- The wording of a configuration error. -/
def ConfigError.message : ConfigError → String
  | .file error => "failed to read launch config: " ++ error.message
  | .malformed error => "malformed launch config: " ++ error.message
  | .invalidVariable name reason => "invalid variable '" ++ name ++ "': " ++ reason

/-- The wording of the error that a configuration error comes from. -/
def ConfigError.cause? : ConfigError → Option String
  | .file error => some error.message
  | .malformed error => some error.message
  | .invalidVariable _ _ => none

namespace LaunchConfig

/-- A configuration for a formula without variables. -/
def ofFormula (formula : String) : LaunchConfig :=
  ⟨formula, [], true⟩

/-- The members of a configuration that were read so far. -/
structure Members where
  formula : Option String
  bindings : Option (List (String × Json))
  stopOnEntry : Option Bool

/-- The configuration of members; the formula has to be there. -/
def ofMembers (members : Members) : Except ReadError LaunchConfig :=
  match members.formula with
  | none => .error (.missingField "formula")
  | some formula =>
    .ok ⟨formula, members.bindings.getD [], members.stopOnEntry.getD true⟩

/-- The depth that is left for the values of variables. -/
def valueRoom : Nat := maxDepth - 2

/-- Reads the variables one after the other. -/
def readVariables : List (String × Json) → List (Option String × Draft) →
    Except ReadError (List (String × Json))
  | before, [] => .ok before
  | before, (name, value) :: members => do
    let name ← Draft.asName name
    let value ← value.asJson valueRoom
    readVariables (Dictionary.insert name value before) members

/-- Reads the object of variables. -/
def asVariables (draft : Draft) : Except ReadError (List (String × Json)) :=
  match draft with
  | .object members closed => do
    let bindings ← readVariables [] members
    Draft.expectClosed closed
    .ok bindings
  | _ => .error (draft.unexpected "a map")

/-- Refuses a member that was read before. -/
def once {α : Type} (name : String) (before : Option α) : Except ReadError Unit :=
  if before.isSome then .error (.duplicateField name) else .ok ()

/-- Reads one member. -/
def readMember (members : Members) (name : String) (value : Draft) : Except ReadError Members :=
  match name with
  | "formula" => do
    once name members.formula
    let formula ← value.asString
    .ok { members with formula := some formula }
  | "variables" => do
    once name members.bindings
    let bindings ← asVariables value
    .ok { members with bindings := some bindings }
  | "stopOnEntry" => do
    once name members.stopOnEntry
    let stopOnEntry ← value.asBool
    .ok { members with stopOnEntry := some stopOnEntry }
  | _ => do
    value.skip
    .ok members

/-- Reads the members one after the other. -/
def readMembers : Members → List (Option String × Draft) → Except ReadError Members
  | before, [] => .ok before
  | before, (name, value) :: members => do
    let name ← Draft.asName name
    let before ← readMember before name value
    readMembers before members

/-- What an array has to hold. -/
def arrayForm : String := "struct LaunchConfig with 3 elements"

/-- Reads the item at the front of an array, unless the array ends there. -/
def readItem {α : Type} (read : Draft → Except ReadError α) (closed : Bool) :
    List Draft → Except ReadError (Option α × List Draft)
  | item :: items => do
    let value ← read item
    .ok (some value, items)
  | [] => do
    Draft.expectClosed closed
    .ok (none, [])

/-- Reads a configuration in the form of an array. -/
def readItems (items : List Draft) (closed : Bool) : Except ReadError LaunchConfig := do
  let (formula, rest) ← readItem Draft.asString closed items
  match formula with
  | none => .error (.invalidLength 0 arrayForm)
  | some formula =>
    let (bindings, rest) ← readItem asVariables closed rest
    let (stopOnEntry, rest) ← readItem Draft.asBool closed rest
    if rest.isEmpty then
      Draft.expectClosed closed
      ofMembers ⟨some formula, bindings, stopOnEntry⟩
    else .error (.surplusItems items.length)

/-- Reads a configuration. -/
def read (draft : Draft) : Except ReadError LaunchConfig :=
  match draft with
  | .object members closed => do
    let members ← readMembers ⟨none, none, none⟩ members
    Draft.expectClosed closed
    ofMembers members
  | .array items closed => readItems items closed
  | _ => .error (draft.unexpected "struct LaunchConfig")

/-- The configuration that a JSON value stands for. -/
def ofJson (json : Json) : Except ConfigError LaunchConfig :=
  (read (Draft.ofJson json)).mapError .malformed

/-- In a text the items after those of an array are not JSON any more. -/
def inText : ReadError → ReadError
  | .surplusItems _ => .notJson
  | error => error

/-- The configuration in a text. Nothing may stand after it. -/
def ofText (text : List Char) : Except ConfigError LaunchConfig :=
  let document := Document.read text
  match read document.draft with
  | .error error => .error (.malformed (inText error))
  | .ok config => if document.trailing then .error (.malformed .notJson) else .ok config

/-- The configuration in a file, given what reading the file brought. -/
def ofFile (file : Except FileError (List UInt8)) : Except ConfigError LaunchConfig :=
  match file with
  | .error error => .error (.file error)
  | .ok bytes =>
    match Text.Utf8.decode? bytes with
    | none => .error (.file .invalidUtf8)
    | some text => ofText text

/-- The values of named JSON values, added to variables. A name that no
formula could refer to is refused. -/
def addVariables : Variables → List (String × Json) → Except ConfigError Variables
  | bindings, [] => .ok bindings
  | bindings, (name, json) :: rest =>
    if isVariableName name then addVariables (bindings.insert name (.ofJson json)) rest
    else .error (.invalidVariable name invalidNameReason)

/-- The variables of a configuration. -/
def toVariables (config : LaunchConfig) : Except ConfigError Variables :=
  addVariables .empty config.bindings

/-- A configuration as JSON. -/
def toJson (config : LaunchConfig) : Json :=
  .object
    [("formula", .string config.formula), ("variables", .object config.bindings),
      ("stopOnEntry", .bool config.stopOnEntry)]

end LaunchConfig

end FormulaStepper
