import Galley.Text.Blank

/-!
Which texts are accepted as the compiler's program and as an output format.
-/

namespace Galley.Settings

def shellMetacharacters : List Char :=
  [';', '&', '|', '\x60', '$', '<', '>', '\n', '\r', '\x00']

def hasShellMetacharacter (text : String) : Bool := text.toList.any (shellMetacharacters.contains ·)

/-- A program is not blank and holds nothing that a shell would act on. -/
def isSafeProgram (text : String) : Bool := !Text.isAllBlank text && !hasShellMetacharacter text

/-- A format becomes a file extension, so it is a nonempty run of ASCII letters and digits. -/
def isSafeFormat (text : String) : Bool := !text.isEmpty && text.toList.all Text.isAsciiAlphanumeric

end Galley.Settings
