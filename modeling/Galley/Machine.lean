import Galley.Compiler.Command
import Galley.Environment
import Galley.Event
import Galley.Failure.Basic
import Galley.FileSystem.Access

/-!
Machines: what a run reads and changes. Programs are known by what they do to the files, random
names and times by the order in which they are handed out.
-/

namespace Galley

/-- A machine. -/
structure Machine where
  files : FileSystem
  environment : Environment
  /-- What commands do: how they end, and which files they leave. -/
  programs : Command → FileSystem → Outcome × FileSystem
  /-- The random names, in the order in which they are drawn. -/
  names : Nat → String
  drawn : Nat := 0
  /-- The times that the clock shows, in the order in which it is read. -/
  clock : Nat → String
  looked : Nat := 0
  /-- The commands performed so far, each with the files that it found. -/
  performed : List (Command × FileSystem) := []
  /-- The events so far. -/
  journal : List Event := []

abbrev Run (α : Type) := StateM Machine α

abbrev Attempt (α : Type) := ExceptT Failure (StateM Machine) α

namespace Machine

def report (event : Event) : Run Unit :=
  modify fun m => { m with journal := m.journal ++ [event] }

def absorb {α : Type} (result : Logged α) : Run α := do
  modify fun m => { m with journal := m.journal ++ result.events }
  return result.value

def getFiles : Run FileSystem := do return (← get).files

def putFiles (fs : FileSystem) : Run Unit := modify fun m => { m with files := fs }

/-- Change the files, unless the change is refused. -/
def change {ε : Type} (f : FileSystem → Except ε FileSystem) : Run (Except ε Unit) := do
  match f (← getFiles) with
  | .ok fs =>
    putFiles fs
    return .ok ()
  | .error e => return .error e

/-- Change the files as far as the change goes. -/
def changePartly {ε : Type} (f : FileSystem → FileSystem × Except ε Unit) :
    Run (Except ε Unit) := do
  let (fs, result) := f (← getFiles)
  putFiles fs
  return result

def drawName : Run String :=
  modifyGet fun m => (m.names m.drawn, { m with drawn := m.drawn + 1 })

def lookAtClock : Run String :=
  modifyGet fun m => (m.clock m.looked, { m with looked := m.looked + 1 })

def perform (c : Command) : Run Outcome :=
  modifyGet fun m =>
    let (outcome, fs) := m.programs c m.files
    (outcome, { m with files := fs, performed := m.performed ++ [(c, m.files)] })

def reportAll (events : List Event) : Run Unit := absorb (Logged.reportAll events)

end Machine

namespace Attempt

/-- A run as an attempt that does not fail. -/
def lift {α : Type} (run : Run α) : Attempt α := ExceptT.lift run

def absorb {α : Type} (result : Logged (Except Failure α)) : Attempt α :=
  ExceptT.mk (Machine.absorb result)

def of {α : Type} (result : Except Failure α) : Attempt α := ExceptT.mk (return result)

end Attempt

end Galley
