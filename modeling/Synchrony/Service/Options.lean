import Synchrony.Failure
import Synchrony.Service.Settings

/-!
# Where settings are looked for

A caller who asks for the settings may also say where and how to look for them. Such an option has a
name that starts with an underscore; null leaves every option but the files as it is. The options
that tell which environment files there are, how names are formed and what texts mean are heeded.
Others are known and have nothing to act on here: no setting has parts, and none comes from a secret
file or a command line.
-/

set_option autoImplicit false

namespace Synchrony.Settings

/-- Where and how settings are looked for. -/
structure Options where
  /-- The environment files, of which the later ones count. -/
  files : List String := [".env"]
  /-- What stands in front of the names of settings outside. -/
  front : String := "SYNC_"
  isCaseSensitive : Bool := false
  /-- Whether a name that is bound to an empty text counts as not bound. -/
  ignoresEmpty : Bool := false
  /-- The text that stands for null, if there is one. -/
  nullText : Option String := none
  deriving Repr

namespace Options

/-- The options that have nothing to act on. -/
def idle : List String :=
  ["_env_file_encoding", "_env_nested_delimiter", "_env_nested_max_split", "_env_parse_enums",
    "_env_prefix_target", "_nested_model_default_partial_update", "_secrets_dir", "_build_sources",
    "_cli_prog_name", "_cli_parse_args", "_cli_settings_source", "_cli_parse_none_str",
    "_cli_hide_none_type", "_cli_avoid_json", "_cli_enforce_required",
    "_cli_use_class_docs_for_groups", "_cli_exit_on_error", "_cli_prefix", "_cli_flag_prefix_char",
    "_cli_implicit_flags", "_cli_ignore_unknown_args", "_cli_kebab_case", "_cli_shortcuts"]

/-- The names of all options. -/
def names : List String :=
  ["_env_file", "_env_prefix", "_case_sensitive", "_env_ignore_empty", "_env_parse_none_str"] ++
    idle

/-- The name of a file among others. -/
def fileName : Value → Except Failure String
  | .text s => .ok s
  | v => .error (.fault .type
      ("expected str, bytes or os.PathLike object, not " ++ v.kindName))

/-- The environment files that a value names. -/
def filesOf : Value → Except Failure (List String)
  | .null => .ok []
  | .text s => .ok [s]
  | .list items => items.mapM fileName
  | .tuple items => items.mapM fileName
  | .record fields => .ok (fields.map Prod.fst)
  | v => .error (.fault .type (Text.quoted v.kindName ++ " object is not iterable"))

/-- What a value puts in front of the names of settings. -/
def frontOf : Value → Except Failure String
  | .text s => .ok s
  | _ => .error (.fault .settings
      "error getting value for field \"sync_file\" from source \"EnvSettingsSource\"")

/-- The value of an option that is given and not null. -/
def given? (caller : Keyed Value) (name : String) : Option Value :=
  match caller.get? name with
  | some .null => none
  | value? => value?

/-- The text of an option that is one. -/
def text? (caller : Keyed Value) (name : String) : Option String :=
  match caller.get? name with
  | some (.text s) => some s
  | _ => none

/-- Whether an option is given and says yes. -/
def flag (caller : Keyed Value) (name : String) : Bool :=
  ((given? caller name).map Value.isTruthy).getD false

/-- The environment files that a caller asks for. -/
def filesFrom (caller : Keyed Value) : Except Failure (List String) :=
  match caller.get? "_env_file" with
  | some v => filesOf v
  | none => .ok [".env"]

/-- What a caller puts in front of the names of settings. -/
def frontFrom (caller : Keyed Value) : Except Failure String :=
  match given? caller "_env_prefix" with
  | some v => frontOf v
  | none => .ok "SYNC_"

/-- A name as it is compared. -/
def key (options : Options) (name : String) : String :=
  if options.isCaseSensitive then name else lower name

/-- The name of a setting outside, as it is compared. -/
def outerName (options : Options) (name : String) : String :=
  options.key (options.front ++ name)

/-- The value that a text from outside stands for. -/
def valueOf (options : Options) (text : String) : Value :=
  if options.nullText = some text then .null else .text text

/-- Whether a name that is bound to a text counts as bound. -/
def counts (options : Options) (text : String) : Bool :=
  !(options.ignoresEmpty && text.isEmpty)

end Options

end Synchrony.Settings
