/-!
# Upper case

A text in upper case, as far as that lies in ASCII. The dotless i, the long s, the sharp s and the
Latin ligatures have an upper case of ASCII letters; a character whose upper case lies elsewhere
stays as it is, because no name that is compared in upper case has any other letters.
-/

set_option autoImplicit false

namespace Synchrony.Text

/-- The upper case of a character, if it is made of ASCII letters; else the character itself. -/
def upperChar (c : Char) : List Char :=
  match c with
  | 'ß' => ['S', 'S']
  | 'ı' => ['I']
  | 'ſ' => ['S']
  | 'ﬀ' => ['F', 'F']
  | 'ﬁ' => ['F', 'I']
  | 'ﬂ' => ['F', 'L']
  | 'ﬃ' => ['F', 'F', 'I']
  | 'ﬄ' => ['F', 'F', 'L']
  | 'ﬅ' => ['S', 'T']
  | 'ﬆ' => ['S', 'T']
  | c => [c.toUpper]

/-- A text in upper case, as far as that lies in ASCII. -/
def upper (s : String) : String :=
  String.ofList (s.toList.flatMap upperChar)

end Synchrony.Text
