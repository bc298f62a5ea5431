import Galley.Environment
import Galley.Host.Programs
import Galley.Host.Shell.Arithmetic
import Galley.Host.Shell.Reader

/-!
Runs of scripts. Time passes only where a command sleeps, and a time limit is overrun when as much
time has passed. A run that goes too deep takes all its time.
-/

namespace Galley.Host.Shell

/-- What a piece of a word becomes. -/
inductive Fragment where
  /-- A text that belongs to one field. -/
  | joined (text : List Char)
  /-- A text whose blanks part fields. -/
  | parted (text : List Char)
  /-- Texts that are fields of their own, but for the ends of the row. -/
  | several (texts : List String)
deriving DecidableEq, Repr

namespace Fragment

/-- The fields that are complete, the last of them first, and the field that is being made. -/
abbrev Fields := List String × Option (List Char)

def close : Fields → Fields
  | (done, some text) => (String.ofList text :: done, none)
  | (done, none) => (done, none)

def extend (text : List Char) : Fields → Fields
  | (done, current) => (done, some (current.getD [] ++ text))

def add (fields : Fields) : Fragment → Fields
  | .joined text => extend text fields
  | .parted text =>
    text.foldl (fun fields c => if isFieldGap c then close fields else extend [c] fields) fields
  | .several [] => fields
  | .several (first :: rest) =>
    rest.foldl (fun fields text => extend text.toList (close fields)) (extend first.toList fields)

def fields (fragments : List Fragment) : List String :=
  (close (fragments.foldl add ([], none))).1.reverse

def text (fragments : List Fragment) : String :=
  String.ofList (fragments.flatMap fun
    | .joined text | .parted text => text
    | .several texts => (" ".intercalate texts).toList)

end Fragment

def assignment? (word : Word) : Option (String × Word) := do
  let name := word.takeWhile fun
    | .plain c => c ≠ '='
    | _ => false
  let plain ← Word.plain? name
  match word.drop name.length with
  | .plain '=' :: value => if isName plain then some (String.ofList plain, value) else none
  | _ => none

def Session.number (s : Session) (name : String) : Int :=
  integer ((s.get? name).getD "").toList

/-- Whether a command only redirects the streams of the shell itself. -/
def Clause.isExec : Clause → Bool
  | .simple [word] => word.plain? = some ['e', 'x', 'e', 'c']
  | _ => false

/-- Enter the next turn of a loop, unless the loop is left; whether it is entered. -/
def nextTurn : Effect Bool := do
  let s ← get
  if s.ended.isSome || s.isOverdue then return false
  set { s with leaving := none }
  return s.leaving ≠ some true

mutual

def expandPiece : Nat → Piece → Effect Fragment
  | 0, _ => return .joined []
  | _, .plain c => return .joined [c]
  | _, .literal text => return .joined text
  | _, .variable "@" none true => return .several (← get).arguments
  | _, .variable name fallback quoted => do
    let text := (((← get).get? name).map String.toList).getD (fallback.getD [])
    return if quoted then .joined text else .parted text
  | fuel + 1, .output script quoted => do
    let written ← Effect.collect (runScript fuel script)
    let text := (Text.Utf8.decodeLossy written).toList
    let text := (text.reverse.dropWhile (· == '\n')).reverse
    return if quoted then .joined text else .parted text
  | _, .arithmetic text => do
    return .joined (toString (Arithmetic.eval (← get).number text)).toList

def runScript : Nat → List Char → Effect Unit
  | 0, _ => Effect.exhaust
  | fuel + 1, script =>
    match parse? script with
    | some steps => runSteps fuel steps
    | none => do
      Effect.complain ((← get).name ++ ": 1: Syntax error\n")
      modify fun s => { s with status := 2, ended := some (some 2) }

/-- Run steps until the run ends. -/
def runSteps : Nat → List Step → Effect Unit
  | 0, _ => Effect.exhaust
  | _, [] => return
  | fuel + 1, .mk joint negated pipeline :: rest => do
    let s ← get
    if s.isStopped then return
    let runs :=
      match joint with
      | .always => true
      | .onSuccess => s.status = 0
      | .onFailure => s.status ≠ 0
    if runs then
      runPipeline fuel pipeline
      if negated then modify fun s => { s with status := if s.status = 0 then 1 else 0 }
    runSteps fuel rest

def runPipeline : Nat → List Clause → Effect Unit
  | 0, _ => Effect.exhaust
  | _, [] => return
  | fuel + 1, [last] => runClause fuel last
  | fuel + 1, first :: rest => do
    let written ← Effect.collect (runClause fuel first)
    let before := (← get).stdin
    modify ({ · with stdin := written })
    Effect.apart (runPipeline fuel rest)
    modify ({ · with stdin := before })

def runClause : Nat → Clause → Effect Unit
  | 0, _ => Effect.exhaust
  | fuel + 1, .simple words => do
    let assigned := words.takeWhile fun word => (assignment? word).isSome
    let before := (← get).values
    for (name, value) in assigned.filterMap assignment? do
      let fragments ← value.mapM (expandPiece fuel)
      modify (·.put name (Fragment.text fragments))
    let fragments ← (words.drop assigned.length).mapM (·.mapM (expandPiece fuel))
    match fragments.flatMap Fragment.fields with
    | [] => if words.length = assigned.length then Effect.leave 0
    | command => do
      runCommand fuel command
      if !assigned.isEmpty then modify ({ · with values := before })
  | fuel + 1, .group apart body =>
    if apart then Effect.apart (runSteps fuel body) else runSteps fuel body
  | fuel + 1, .branch condition body otherwise => do
    runSteps fuel condition
    if (← get).isStopped then return
    if (← get).status = 0 then runSteps fuel body
    else
      Effect.leave 0
      runSteps fuel otherwise
  | fuel + 1, .each name items body => do
    let items ←
      match items with
      | none => pure (← get).arguments
      | some words =>
        let fragments ← words.mapM (·.mapM (expandPiece fuel))
        pure (fragments.flatMap Fragment.fields)
    Effect.leave 0
    runEach fuel name body items
  | fuel + 1, .loop negated condition body => do
    runSteps fuel condition
    if (← get).isStopped then return
    if ((← get).status = 0) = !negated then
      runSteps fuel body
      if ← nextTurn then runClause fuel (.loop negated condition body)
    else Effect.leave 0
  | fuel + 1, .redirected clause targets => do
    let outer ← get
    let found ← redirectAll fuel targets
    if !(found && clause.isExec) then
      if found then runClause fuel clause
      modify ({ · with sinks := outer.sinks, stdin := outer.stdin })

def runEach : Nat → String → List Step → List String → Effect Unit
  | 0, _, _, _ => Effect.exhaust
  | _, _, _, [] => return
  | fuel + 1, name, body, item :: items => do
    modify (·.put name item)
    runSteps fuel body
    if ← nextTurn then runEach fuel name body items

def runCommand : Nat → List String → Effect Unit
  | 0, _ => Effect.exhaust
  | _, [] => return
  | fuel + 1, "exec" :: command => do
    runCommand fuel command
    modify fun s => { s with ended := s.ended.or (some (some s.status)) }
  | fuel + 1, "eval" :: parts => runScript fuel (" ".intercalate parts).toList
  | fuel + 1, "sh" :: "-c" :: script :: arguments =>
    Effect.apart do
      modify fun s => { s with name := arguments.headD "sh", arguments := arguments.tail }
      runScript fuel script.toList
  | _, name :: arguments => utility name arguments

/-- Let streams go where redirections say, from left to right; whether all files were found. -/
def redirectAll : Nat → List Redirection → Effect Bool
  | 0, _ => return false
  | _, [] => return true
  | fuel + 1, .duplicate stream target :: rest => do
    modify fun s => s.withSink stream (s.sink target)
    redirectAll fuel rest
  | fuel + 1, .file stream word append :: rest => do
    let name := Fragment.text (← word.mapM (expandPiece fuel))
    let s ← get
    let path := s.directory.join name
    let sink := s.withSink stream (.file path)
    if name = "/dev/null" || append && s.files.isFile path then
      set sink
      redirectAll fuel rest
    else
      match s.files.write path [] with
      | .ok files =>
        set { sink with files }
        redirectAll fuel rest
      | .error _ =>
        Effect.leave 2
        return false
  | fuel + 1, .input word :: rest => do
    let name := Fragment.text (← word.mapM (expandPiece fuel))
    match (← get).content? name with
    | some stdin =>
      modify ({ · with stdin })
      redirectAll fuel rest
    | none =>
      Effect.leave 2
      return false

end

/-- How deep a run may go; each turn of a loop lies deeper than the one before it. -/
def stepLimit : Nat := 1000000

def Session.outcome (s : Session) : Outcome :=
  if s.isOverdue then .overran
  else
    let code := s.ended.getD (some s.status)
    .exited (code.map Int.ofNat) s.stdout.reverse.flatten s.stderr.reverse.flatten

def Session.ofCommand (env : Environment) (c : Command) (fs : FileSystem) : Session where
  files := fs
  directory := c.directory.getD (Path.ofLocation fs.current)
  values := env.entries
  name := "sh"
  arguments := []
  timeLimit := c.timeLimit

def perform (env : Environment) (c : Command) (fs : FileSystem) (body : Effect Unit) :
    Outcome × FileSystem :=
  let s := (body.run (Session.ofCommand env c fs)).2
  (s.outcome, s.files)

/-- The shell as a program: it runs the script that follows `-c`, or the one that a file holds. -/
def program (env : Environment) : Program := fun c fs =>
  perform env c fs <|
    match c.arguments with
    | "-c" :: _ :: _ => runCommand stepLimit ("sh" :: c.arguments)
    | [] => return
    | file :: arguments => do
      match (← get).content? file with
      | some script =>
        modify ({ · with name := file, arguments })
        runScript stepLimit (Text.Utf8.decodeLossy script).toList
      | none =>
        Effect.complain ("sh: 0: cannot open " ++ file ++ ": No such file\n")
        Effect.leave 2

def standalone (env : Environment) (name : String) : Program := fun c fs =>
  perform env c fs (utility name c.arguments)

def standaloneNames : List String :=
  ["true", "false", "echo", "printf", "sleep", "pwd", "cat", "head", "tail", "seq", "env",
    "printenv", "test", "basename", "dirname", "sort"]

/-- The programs of a host with a shell, by their names and by their paths. -/
def programs (env : Environment) : Programs :=
  let all := ("sh", program env) :: standaloneNames.map fun name => (name, standalone env name)
  ["", "/bin/", "/usr/bin/"].flatMap fun place => all.map fun (name, p) => (place ++ name, p)

end Galley.Host.Shell
