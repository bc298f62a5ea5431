import Galley.Path.Basic

/-!
Protected directories: no import may lead into one of them.
-/

namespace Galley.Path

/-- The directories of the system. Those of other systems count as well; here they are relative. -/
def protectedDirectories : List Path := [
  ⟨"/etc"⟩, ⟨"/sys"⟩, ⟨"/proc"⟩, ⟨"/dev"⟩, ⟨"/boot"⟩, ⟨"/bin"⟩, ⟨"/sbin"⟩, ⟨"/usr/bin"⟩,
  ⟨"/usr/sbin"⟩, ⟨"/System"⟩, ⟨"/Library"⟩, ⟨"/private/etc"⟩, ⟨"/private/var/db"⟩,
  ⟨"C:\\Windows"⟩, ⟨"C:\\Program Files"⟩, ⟨"C:\\Program Files (x86)"⟩, ⟨"C:\\ProgramData"⟩]

def isProtected (p : Path) : Bool := protectedDirectories.any p.startsWith

end Galley.Path
