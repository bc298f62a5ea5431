import Galley.Compiler.Command

/-! # Arguments and what they say

What the compiler is told is read back from its arguments by position: a flag stands where its value is
announced, and no other place is looked at for flags. So no value can be taken for a flag, and a list of
arguments is read as one thing exactly when it was made from it. -/

namespace Galley

/-- What the compiler is told. -/
structure Invocation where
  input : String
  output : String
  root : String
  fontPaths : List String
deriving DecidableEq, Repr

namespace Invocation

def arguments (i : Invocation) : List String :=
  ["compile", i.input, i.output, "--root", i.root] ++ i.fontPaths.flatMap fun d => ["--font-path", d]

/-- The directories of a list of pairs. -/
def readFontPaths? : List String → Option (List String)
  | [] => some []
  | [_] => none
  | flag :: directory :: rest =>
    if flag = "--font-path" then (readFontPaths? rest).map (directory :: ·) else none

/-- What arguments say. -/
def read? : List String → Option Invocation
  | command :: input :: output :: flag :: root :: rest =>
    if command = "compile" ∧ flag = "--root" then
      (readFontPaths? rest).map fun fontPaths => ⟨input, output, root, fontPaths⟩
    else none
  | _ => none

variable {arguments directories : List String} {i : Invocation}

theorem readFontPaths?_eq_some_iff :
    readFontPaths? arguments = some directories ↔
      arguments = directories.flatMap fun d => ["--font-path", d] := by
  fun_induction readFontPaths? arguments generalizing directories with
  | case1 =>
    cases directories with
    | nil => simp
    | cons d directories => simp
  | case2 argument =>
    cases directories with
    | nil => simp
    | cons d directories => simp
  | case3 directory rest ih =>
    cases directories with
    | nil => simp
    | cons d directories => simp [ih, and_left_comm]
  | case4 flag directory rest hflag =>
    cases directories with
    | nil => simp
    | cons d directories => simp [hflag]

/-- Arguments are read as what they were made from, whatever characters stand in it. -/
theorem read?_eq_some_iff : read? arguments = some i ↔ arguments = i.arguments := by
  fun_cases read? arguments with
  | case1 command input output flag root rest h =>
    obtain ⟨rfl, rfl⟩ := h
    simp only [Option.map_eq_some_iff, readFontPaths?_eq_some_iff]
    constructor
    · rintro ⟨fontPaths, rfl, rfl⟩
      rfl
    · intro h
      obtain ⟨input', output', root', fontPaths⟩ := i
      simp only [Invocation.arguments, List.cons_append, List.nil_append, List.cons.injEq] at h
      obtain ⟨-, rfl, rfl, -, rfl, hrest⟩ := h
      exact ⟨fontPaths, hrest, rfl⟩
  | case2 command input output flag root rest h =>
    refine ⟨fun h => (by cases h), fun he => absurd ?_ h⟩
    simp only [Invocation.arguments, List.cons_append, List.nil_append, List.cons.injEq] at he
    exact ⟨he.1, he.2.2.2.1⟩
  | case3 arguments hshort =>
    refine ⟨fun h => (by cases h), fun he => ?_⟩
    exact absurd he (by simpa [Invocation.arguments] using hshort _ _ _ _ _ _)

/-- Reading gives back what the arguments were made from. -/
@[simp] theorem read?_arguments (i : Invocation) : read? i.arguments = some i :=
  read?_eq_some_iff.2 rfl

/-- A font directory and a root that look like flags are no flags. -/
example : read? ["compile", "/a", "/b", "--root", "--font-path", "--font-path", "--root"] =
    some ⟨"/a", "/b", "--font-path", ["--root"]⟩ := by decide

end Invocation

end Galley
