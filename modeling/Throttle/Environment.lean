/-!
# Environment entries
-/

set_option autoImplicit false

namespace Throttle

/-- Variables with their values, which need not be text. -/
structure Environment where
  entries : List (String × ByteArray)

namespace Environment

def empty : Environment := ⟨[]⟩

/-- The text of a variable; one that is not UTF-8 counts as unset. -/
def text? (env : Environment) (name : String) : Option String :=
  (env.entries.lookup name).bind String.fromUTF8?

/-- What a variable reads as, if it is set and readable. -/
def read? {α : Type} (env : Environment) (name : String) (read : List Char → Option α) :
    Option α :=
  (env.text? name).bind fun text => read text.toList

end Environment

end Throttle
