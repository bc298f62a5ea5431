import Galley.FileSystem.Walk
import Galley.Text.Blank

/-!
Access to files by path: what stands there, reading, writing, making directories, and removing.
-/

namespace Galley.FileSystem

/-- Where a path leads, when something stands there. -/
def find (fs : FileSystem) (p : Path) (follow : Bool := true) : Except OsError Location := do
  match ← fs.locate p follow with
  | .taken place => .ok place
  | .vacant .. => .error .notFound

def status (fs : FileSystem) (p : Path) : Except OsError Node := do
  match fs.node? (← fs.find p) with
  | some node => .ok node
  | none => .error .notFound

def pathExists (fs : FileSystem) (p : Path) : Bool := (fs.status p).isOk

def isFile (fs : FileSystem) (p : Path) : Bool := fs.status p matches .ok (.file _)

def isDirectory (fs : FileSystem) (p : Path) : Bool := fs.status p matches .ok .directory

/-- The path without links, `.` and `..` that leads to the same. -/
def canonicalize (fs : FileSystem) (p : Path) : Except OsError Path :=
  (fs.find p).map Path.ofLocation

def read (fs : FileSystem) (p : Path) : Except OsError Text.Bytes := do
  match ← fs.status p with
  | .file content => .ok content
  | _ => .error .isDirectory

def readText (fs : FileSystem) (p : Path) : Except OsError String := do
  match Text.Utf8.decode? (← fs.read p) with
  | some text => .ok text
  | none => .error .notText

def endsInSlash (p : Path) : Bool := p.text.toList.getLast? == some '/'

/-- Where the last name of a path stands. A link there is not followed, whether or not a slash comes
after it. -/
def locateName (fs : FileSystem) (p : Path) : Except OsError Place :=
  let text := Text.dropBack (· == '/') p.text.toList
  fs.locate (if text.isEmpty then p else ⟨String.ofList text⟩) false

/-- Whether a slash at the end of a path follows the name of something that is no directory. -/
def hasSlashAfterFile (fs : FileSystem) (p : Path) : Bool :=
  endsInSlash p &&
    match fs.locateName p with
    | .ok (.taken place) => fs.node? place != some .directory
    | _ => false

/-- The file system after a file was written. A slash at the end asks for a directory, which is not
made. -/
def write (fs : FileSystem) (p : Path) (content : Text.Bytes) : Except OsError FileSystem :=
  match fs.locate p with
  | .ok (.taken place) =>
    match fs.node? place with
    | some (.file _) => .ok (fs.set place (.file content))
    | _ => .error .isDirectory
  | .ok (.vacant directory name slash) =>
    if slash then .error .isDirectory else .ok (fs.set (directory ++ [name]) (.file content))
  | .error e => .error (if fs.hasSlashAfterFile p then .isDirectory else e)

def makeDirectory (fs : FileSystem) (p : Path) : Except OsError FileSystem := do
  match ← fs.locateName p with
  | .taken _ => .error .alreadyExists
  | .vacant directory name _ => .ok (fs.set (directory ++ [name]) .directory)

def makeDirectoryUnlessThere (fs : FileSystem) (p : Path) : FileSystem × Except OsError Unit :=
  match fs.makeDirectory p with
  | .ok fs => (fs, .ok ())
  | .error e => (fs, if fs.isDirectory p then .ok () else .error e)

/-- Make a directory and those it lies in, the last `levels` of them at most. Those that were made
stay, also when the next one cannot be made. -/
def makeDirectoriesWithin (fs : FileSystem) : Nat → Path → FileSystem × Except OsError Unit
  | 0, _ => (fs, .error .notFound)
  | levels + 1, p =>
    if p.isEmpty then (fs, .ok ())
    else
      match fs.makeDirectory p, p.parent? with
      | .error .notFound, some parent =>
        match makeDirectoriesWithin fs levels parent with
        | (fs, .ok ()) => fs.makeDirectoryUnlessThere p
        | (fs, .error e) => (fs, .error e)
      | _, _ => fs.makeDirectoryUnlessThere p

def makeDirectories (fs : FileSystem) (p : Path) : FileSystem × Except OsError Unit :=
  fs.makeDirectoriesWithin (p.segments.length + 1) p

/-- The file system after a file or a link was removed. A slash at the end asks for a directory, which
is not removed either. -/
def removeFile (fs : FileSystem) (p : Path) : Except OsError FileSystem := do
  match ← fs.locateName p with
  | .vacant .. => .error .notFound
  | .taken place =>
    match fs.node? place with
    | some .directory => .error .isDirectory
    | _ => if endsInSlash p then .error .notDirectory else .ok (fs.remove place)

/-- The file system after a directory was removed with all that lies in it. Of a link, only the
link is removed. -/
def removeTree (fs : FileSystem) (p : Path) : Except OsError FileSystem := do
  let place ← fs.find p false
  match fs.node? place with
  | some (.file _) => .error .notDirectory
  | _ => .ok (fs.remove place)

/-- Whether something stands where two paths lead, and it is the same. -/
def sameFile (fs : FileSystem) (p q : Path) : Bool :=
  match fs.find p, fs.find q with
  | .ok place, .ok other => place = other
  | _, _ => false

/-- The file system after a file was copied. The target is emptied first, so that nothing is left of a
file that is copied onto itself. -/
def copy (fs : FileSystem) (source target : Path) : Except OsError FileSystem := do
  let content ← fs.read source
  fs.write target (if fs.sameFile source target then [] else content)

def makeLink (fs : FileSystem) (p : Path) (target : String) : Except OsError FileSystem := do
  match ← fs.locate p false with
  | .vacant directory name false => .ok (fs.set (directory ++ [name]) (.link target))
  | _ => .error .alreadyExists

def names (fs : FileSystem) (place : Location) : List String :=
  (fs.children place).filterMap List.getLast?

end Galley.FileSystem
