import Galley.Path.Basic
import Galley.Text.Utf8

/-!
Commands: a program with its arguments, and how it is to be run. No shell reads a command, so each
argument reaches the program as it is.
-/

namespace Galley

/-- A command. -/
structure Command where
  /-- The program, searched for when it has no slash. -/
  program : String
  arguments : List String := []
  /-- Where it runs, when not in the current directory. -/
  directory : Option Path := none
  /-- The milliseconds after which it is stopped. -/
  timeLimit : Option Nat := none
  /-- What stands for the command in events. -/
  label : String := "typst"
deriving DecidableEq, Repr

namespace Command

def add (c : Command) (arguments : List String) : Command :=
  { c with arguments := c.arguments ++ arguments }

def compile (program : String) (input output : Path) : Command :=
  { program, arguments := ["compile", input.text, output.text] }

def withRoot (c : Command) (root : Path) : Command := c.add ["--root", root.text]

def withFontPaths (c : Command) (directories : List Path) : Command :=
  c.add (directories.flatMap fun d => ["--font-path", d.text])

def shownArguments (c : Command) : String := " ".intercalate c.arguments

end Command

/-- How a command that was started comes to an end. -/
inductive Outcome where
  /-- There is no such program. -/
  | absent
  /-- The program cannot be started. -/
  | refused (reason : String)
  /-- The time limit stopped it. -/
  | overran
  /-- It ended; without a code, a signal ended it. -/
  | exited (code : Option Int) (stdout stderr : Text.Bytes)
deriving DecidableEq, Repr

end Galley
