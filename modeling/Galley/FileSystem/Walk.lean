import Galley.FileSystem.Basic
import Galley.FileSystem.Error

/-!
Walks: the way from a path to a location. Names are followed from the root; a link is replaced by
its target, seen from the directory where the link stands, and `..` goes to the parent of the
directory that was reached. At most forty links are followed.
-/

namespace Galley.FileSystem

/-- The most links that a walk follows. -/
def linkLimit : Nat := 40

/-- The most octets of a name. -/
def nameLimit : Nat := 255

/-- The most octets of a path. -/
def pathLimit : Nat := 4095

/-- Where a walk ends. -/
inductive Place where
  /-- Something stands there. -/
  | taken (place : Location)
  /-- A directory without that name; a slash may follow the name. -/
  | vacant (directory : Location) (name : String) (slash : Bool)
deriving DecidableEq, Repr

def targetStart (directory : Location) (target : String) : Location :=
  if (⟨target⟩ : Path).isAbsolute then [] else directory

/-- Follow names from a directory. A link at the end is followed when `follow` says so. -/
def walk (fs : FileSystem) (follow : Bool) :
    (links : Nat) → (directory : Location) → (names : List (List Char)) → Except OsError Place
  | _, directory, [] => .ok (.taken directory)
  | links, directory, segment :: rest =>
    if Path.isIdle segment then walk fs follow links directory rest
    else if segment = ['.', '.'] then walk fs follow links directory.dropLast rest
    else if nameLimit < Text.utf8Size segment then .error .nameTooLong
    else
      let name := String.ofList segment
      let place := directory ++ [name]
      match fs.node? place with
      | none =>
        if rest.all (·.isEmpty) then .ok (.vacant directory name (!rest.isEmpty))
        else .error .notFound
      | some .directory => walk fs follow links place rest
      | some (.file _) => if rest.isEmpty then .ok (.taken place) else .error .notDirectory
      | some (.link target) =>
        if rest.isEmpty && !follow then .ok (.taken place)
        else
          match links with
          | 0 => .error .linkLoop
          | links + 1 =>
            walk fs follow links (targetStart directory target)
              ((⟨target⟩ : Path).segments ++ rest)
termination_by links _ names => (links, names.length)

def namesFromRoot (fs : FileSystem) (p : Path) : List (List Char) :=
  if p.isAbsolute then p.segments else (Path.ofLocation fs.current).segments ++ p.segments

def locate (fs : FileSystem) (p : Path) (follow : Bool := true) : Except OsError Place :=
  if p.isEmpty then .error .notFound
  else if p.text.toList.contains '\x00' then .error .nulInPath
  else if pathLimit < p.text.utf8ByteSize then .error .nameTooLong
  else fs.walk follow linkLimit [] (fs.namesFromRoot p)

end Galley.FileSystem
