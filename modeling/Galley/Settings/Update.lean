import Galley.Event
import Galley.Settings.Basic
import Galley.Settings.Expansion
import Galley.Settings.Safety

/-!
Updates of the settings. Each field that an update carries takes the place of the old value; one
that is not acceptable gives way to the default of its field, and is reported.
-/

namespace Galley.Settings

/-- A time limit as a source of settings gives it. -/
inductive TimeoutSetting where
  | seconds (n : Int)
  | text (s : String)
  /-- A value of another kind. -/
  | other
deriving DecidableEq, Repr

/-- The number that a text of ASCII digits writes, after at most one plus sign, below `2 ^ 64`. -/
def wholeNumber? (text : List Char) : Option Nat :=
  let digits :=
    match text with
    | '+' :: digits => digits
    | digits => digits
  if digits.isEmpty || !digits.all Char.isDigit then none
  else
    let n := digits.foldl (fun n c => 10 * n + (c.toNat - '0'.toNat)) 0
    if n < Nat.pow 2 64 then some n else none

namespace TimeoutSetting

/-- The seconds, when the setting is a whole number that is not negative. -/
def seconds? : TimeoutSetting → Option Nat
  | .seconds n => if 0 ≤ n then some n.toNat else none
  | .text s => wholeNumber? (Text.trim s).toList
  | .other => none

def shown : TimeoutSetting → String
  | .seconds n => "Seconds(" ++ toString n ++ ")"
  | .text s => "Text(" ++ Text.Quoted.quote s ++ ")"
  | .other => "Invalid(IgnoredAny)"

end TimeoutSetting

/-- An update; a field that it does not carry stays as it is. -/
structure Update where
  program : Option String := none
  workingDirectory : Option String := none
  timeout : Option TimeoutSetting := none
  format : Option String := none
  fontPaths : Option (List String) := none
  /-- A blank root takes the old one away. -/
  root : Option String := none
  basePath : Option String := none
  debug : Option Bool := none
  debugDirectory : Option String := none
deriving DecidableEq, Repr, Inhabited

/-- A program that is safe, and else the default. -/
def acceptedProgram (program : String) : String :=
  if isSafeProgram program then program else defaultProgram

/-- A format that is safe, and else the default. -/
def acceptedFormat (format : String) : String := if isSafeFormat format then format else defaultFormat

/-- The seconds of a time limit, and else the default. -/
def acceptedTimeout (setting : TimeoutSetting) : Nat := setting.seconds?.getD defaultTimeout

/-- A root that is not blank. -/
def acceptedRoot (env : Environment) (root : String) : Option Path :=
  if Text.isAllBlank root then none else some (expand env root)

/-- A directory after an update. One that is set is taken; one that was derived from the base path
follows it. -/
def updatedDirectory (env : Environment) (derived : Path → Path) (old : Path) (set : Option String)
    (oldBase : Path) (base : Option Path) : Path :=
  match set, base with
  | some text, _ => expand env text
  | none, some base => if old.same (derived oldBase) then derived base else old
  | none, none => old

def apply (env : Environment) (s : Settings) (u : Update) : Settings :=
  let base := u.basePath.map (expand env)
  { program := (u.program.map acceptedProgram).getD s.program
    workingDirectory :=
      updatedDirectory env derivedWorkingDirectory s.workingDirectory u.workingDirectory s.basePath base
    timeout := (u.timeout.map acceptedTimeout).getD s.timeout
    format := (u.format.map acceptedFormat).getD s.format
    fontPaths := (u.fontPaths.map fun paths => paths.map (expand env)).getD s.fontPaths
    root := (u.root.map (acceptedRoot env)).getD s.root
    basePath := base.getD s.basePath
    debug := u.debug.getD s.debug
    debugDirectory :=
      updatedDirectory env derivedDebugDirectory s.debugDirectory u.debugDirectory s.basePath base }

/-- What an update carries that is not acceptable. -/
def Update.rejections (u : Update) : List Event :=
  let program := u.program.toList.filter (!isSafeProgram ·)
  let timeout := u.timeout.toList.filter (·.seconds?.isNone)
  let format := u.format.toList.filter (!isSafeFormat ·)
  program.map (.programRejected · defaultProgram) ++
    timeout.map (fun t => .timeoutRejected t.shown defaultTimeout) ++
    format.map (.formatRejected · defaultFormat)

def applyLogged (env : Environment) (s : Settings) (u : Update) : Logged Settings :=
  ⟨s.apply env u, u.rejections⟩

end Galley.Settings
