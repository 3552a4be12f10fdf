/-!
# Complaints

What can be wrong with the value of a setting, as causes, and how each is worded.
-/

set_option autoImplicit false

namespace Synchrony.Settings

/-- What can be wrong with the value of a setting. -/
inductive Complaint where
  | notText
  | notInteger
  | hasFraction
  | notFinite
  | unreadable
  | tooLarge
  | capBelowOne
  | unknownFormat
  /-- There is no setting of that name. -/
  | unknownName
  deriving DecidableEq, Repr

/-- The name of a kind of complaint. -/
def Complaint.kind : Complaint → String
  | .notText => "string_type"
  | .notInteger => "int_type"
  | .hasFraction => "int_from_float"
  | .notFinite => "finite_number"
  | .unreadable => "int_parsing"
  | .tooLarge => "int_parsing_size"
  | .capBelowOne => "value_error"
  | .unknownFormat => "value_error"
  | .unknownName => "extra_forbidden"

/-- The wording of a complaint. -/
def Complaint.message : Complaint → String
  | .notText => "Input should be a valid string"
  | .notInteger => "Input should be a valid integer"
  | .hasFraction =>
    "Input should be a valid integer, got a number with a fractional part"
  | .notFinite => "Input should be a finite number"
  | .unreadable =>
    "Input should be a valid integer, unable to parse string as an integer"
  | .tooLarge => "Unable to parse input string as an integer, exceeded maximum size"
  | .capBelowOne => "Value error, max_cascade_traces must be at least 1"
  | .unknownFormat => "Value error, log_format must be 'json' or 'text'"
  | .unknownName => "Extra inputs are not permitted"

end Synchrony.Settings
