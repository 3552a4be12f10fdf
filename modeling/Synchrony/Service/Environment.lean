import Synchrony.Failure

/-!
# The environment

The environment of a program binds names to texts. Neither a name nor a text has the character zero
in it, a name has no equals sign, and no name is empty.
-/

set_option autoImplicit false

namespace Synchrony

/-- Names and the texts that they are bound to. -/
abbrev Environment := List (String × String)

namespace Environment

/-- Whether a text has the character zero in it. -/
def hasZero (s : String) : Bool :=
  s.toList.contains (Char.ofNat 0)

/-- Refuse a name or a text that no environment has. -/
def checkBinding (name text : String) : Except Failure Unit :=
  if hasZero name || hasZero text then .error (.fault .value "embedded null byte")
  else if name.toList.contains '=' then
    .error (.fault .value "illegal environment variable name")
  else if name.isEmpty then .error (.fault .system "[Errno 22] Invalid argument")
  else .ok ()

/-- Refuse what no environment has. -/
def check (environment : Environment) : Except Failure Unit :=
  environment.forM fun (name, text) => checkBinding name text

end Environment

end Synchrony
