import Synchrony.Service.EnvFile
import Synchrony.Service.Environment
import Synchrony.Service.Folder
import Synchrony.Service.Options

/-!
# Sources of settings

Each setting is looked for in four places: what the caller gives, the environment, the environment
files, and the built-in value; the first place that has it counts. In the environment and in the
files the names of settings stand behind `SYNC_`, unless the caller asks for something else, and
case does not matter.

A name that is no setting is a complaint when the caller gives it or a file binds it to a text, and
is ignored in the environment, which belongs to others as well.
-/

set_option autoImplicit false

namespace Synchrony.Settings

/-- Why there are no settings. -/
inductive Rejection where
  | complaints (complaints : List (String × Complaint))
  /-- The settings could not be looked for. -/
  | failure (e : Failure)

/-- Names as they are compared, with what they are bound to: of two that fall together the later one
counts. -/
def keyed {α : Type} (options : Options) (named : List (String × α)) : Keyed α :=
  Keyed.ofPairs (named.map fun (name, a) => (options.key name, a))

/-- The names that an environment file binds. There need not be such a file, and then it binds
none. -/
def boundIn (options : Options) (environment : Environment) (path : String) (found : Found) :
    Except Failure (Keyed (Option String)) := do
  match found with
  | .file bytes =>
    match Encoding.decodeFile bytes with
    | .ok cs =>
      let bound := EnvFile.read (Keyed.ofPairs environment) (Encoding.withoutMark cs)
      pure (keyed options (bound.filter fun entry => (entry.2.map options.counts).getD true))
    | .error refusal => .error (.fault .decoding refusal)
  | .tooLong => (Found.bytes path found).map fun _ => []
  | _ => pure []

/-- The texts that the environment files bind names to. -/
def fromFiles (options : Options) (environment : Environment) (find : String → Found) :
    Except Failure (Keyed String) := do
  let bound ← options.files.mapM fun path => boundIn options environment path (find path)
  pure ((Keyed.ofPairs bound.flatten).filterMap fun (name, text?) =>
    text?.map fun text => (name, text))

/-- The texts that the environment binds names to. -/
def fromEnvironment (options : Options) (environment : Environment) : Keyed String :=
  keyed options (environment.filter fun entry => options.counts entry.2)

/-- The settings among some named texts. -/
def settingsAmong (options : Options) (named : Keyed String) : Keyed Value :=
  names.filterMap fun name =>
    (named.get? (options.outerName name)).map fun text => (name, options.valueOf text)

/-- The names in a file that are bound to a text and are no settings. A setting's name on its own is
passed over. -/
def strangersAmong (options : Options) (named : Keyed String) : Keyed Value :=
  named.filterMap fun (name, text) =>
    if text.isEmpty || names.contains name || (names.map options.outerName).contains name then none
    else some (name, .text text)

/-- A setting's own name for one that the caller used, or else that one. -/
def callerName (options : Options) (name : String) : String :=
  if names.contains (options.key name) then options.key name else name

/-- What the caller gives: of several spellings of a setting's name the first one counts. -/
def fromCaller (options : Options) (caller : Keyed Value) : Keyed Value :=
  caller.foldl (fun given (name, v) =>
    if Options.names.contains name || given.has (callerName options name) then given
    else given ++ [(callerName options name, v)]) []

/-- What is given from all places together, those that count less first. -/
def gather (options : Options) (caller : Keyed Value) (environment : Environment)
    (named : Keyed String) : Keyed Value :=
  Keyed.ofPairs (settingsAmong options named ++ strangersAmong options named ++
    settingsAmong options (fromEnvironment options environment) ++ fromCaller options caller)

/-- The options of a caller, once it is known what stands in front of names. -/
def optionsFrom (caller : Keyed Value) (files : List String) (front : String) : Options where
  files := files
  front := front
  isCaseSensitive := Options.flag caller "_case_sensitive"
  ignoresEmpty := Options.flag caller "_env_ignore_empty"
  nullText := Options.text? caller "_env_parse_none_str"

/-- What the files bind and what the options are, or why that cannot be told. -/
def lookUp (caller : Keyed Value) (environment : Environment) (find : String → Found) :
    Except Failure (Options × Keyed String) := do
  let files ← Options.filesFrom caller
  let named ← fromFiles (optionsFrom caller files "") environment find
  let front ← Options.frontFrom caller
  pure (optionsFrom caller files front, named)

/-- The settings from what the caller gives, the environment, and the environment files. -/
def load (caller : List (String × Value)) (environment : Environment) (find : String → Found) :
    Except Rejection Settings :=
  let caller := Keyed.ofPairs caller
  match lookUp caller environment find with
  | .error e => .error (.failure e)
  | .ok (options, named) =>
    (check (gather options caller environment named)).mapError .complaints

end Synchrony.Settings
