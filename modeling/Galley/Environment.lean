/-!
The environment of a run: named texts that settings and commands read.
-/

namespace Galley

/-- Named texts; the first of two with one name counts. -/
structure Environment where
  entries : List (String × String)
deriving Repr, Inhabited

namespace Environment

def get? (env : Environment) (name : String) : Option String := env.entries.lookup name

/-- The home directory: the one that is named, or else that of the superuser, as whom programs run. -/
def home (env : Environment) : String := ((env.get? "HOME").filter (!·.isEmpty)).getD "/root"

end Environment

end Galley
