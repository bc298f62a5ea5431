import Galley.Template.Expr.Eval
import Galley.Template.Node.Basic
import Galley.Text.Cluster

/-!
What templates print. A body is run in a scope, which its assignments change; it may end early where
a loop is left or its next round begun.
-/

namespace Galley.Template

/-- How a body ended. -/
inductive Flow where
  | onwards
  | stop
  | next
deriving DecidableEq, Repr

/-- The state of a run: the scope, the text printed so far, and how the last body ended. -/
structure Run where
  scope : Scope
  printed : String
  flow : Flow

def Run.print (r : Run) (text : String) : Run := { r with printed := r.printed ++ text }

def containerName? : Atom → Option String
  | .path text => some text
  | .call function => some function.name
  | .list _ => some "an array literal"
  | _ => none

/-- The rounds of a loop over a text: as many as it has characters. Its clusters are the values of the
first of them. -/
def textRounds (text : List Char) : List (Option Value) :=
  let clusters := Text.Cluster.clusters text
  clusters.map (fun cluster => some (.string (String.ofList cluster))) ++
    List.replicate (text.length - clusters.length) none

/-- The keys and values that a loop runs over, keys only where it asks for them. -/
def roundsOf (name : String) (key : Option String) : Value →
    Except Error (List (Option String × Option Value))
  | .list items =>
    if key.isSome then .error (.loopNotRecord name) else .ok (items.map fun v => (none, some v))
  | .string s =>
    if key.isSome then .error (.loopNotRecord name)
    else .ok ((textRounds s.toList).map fun v => (none, v))
  | .record fields =>
    if key.isNone then .error (.loopWithoutKey name)
    else .ok (fields.map fun (k, v) => (some k, some v))
  | _ => .error (.loopUnsupported name)

/-- The rounds of a loop, one after the other, until it is left. Each round has a frame of its own. -/
def runRounds (body : Run → Except Error Run) (key : Option String) (item : String) (count : Nat) :
    Nat → List (Option String × Option Value) → Run → Except Error Run
  | _, [], run => .ok run
  | index, (k, v) :: rest, run =>
    let round : Round := ⟨key.bind fun name => k.map fun k => (name, k), item, v, index, count⟩
    let frames := run.scope.frames
    let inner : Run := ⟨{ run.scope with frames := ⟨[], round⟩ :: frames }, run.printed, .onwards⟩
    (body inner).bind fun after =>
      let outer : Run := ⟨{ after.scope with frames }, after.printed, .onwards⟩
      if after.flow = .stop then .ok outer
      else runRounds body key item count (index + 1) rest outer

/-- A loop, or what is run instead when there is nothing to run over. -/
def runLoop (body otherwise : Run → Except Error Run) (key : Option String) (item : String)
    (container : Expr) (run : Run) : Except Error Run :=
  match containerName? container.atom with
  | none => .error (.loopKind container.atom)
  | some name =>
    (container.eval run.scope).bind fun v => (roundsOf name key v).bind fun rounds =>
      if rounds.isEmpty then otherwise run
      else runRounds body key item rounds.length 0 rounds run

def runFiltered (filter : Call) (body : Run → Except Error Run) (run : Run) : Except Error Run :=
  (body { run with printed := "" }).bind fun after =>
    let printed : Except Error Value :=
      match filter with
      | .mk "safe" _ => .ok (.string after.printed)
      | .mk "default" _ => .error (.unknown .filter "default")
      | filter => applyFilter after.scope (.string after.printed) filter
    printed.map fun v => { after with printed := run.printed ++ printValue v }

mutual

def Node.run : Node → Run → Except Error Run
  | .text content, r => .ok (r.print (String.ofList content))
  | .comment _, r => .ok r
  | .print _ value, r => (value.eval r.scope).map fun v => r.print (printValue v)
  | .assign _ everywhere name value, r =>
    (value.eval r.scope).map fun v => { r with scope := r.scope.assign everywhere name v }
  | .insert _ templates ignoreMissing, r =>
    if ignoreMissing then .ok r else .error (.templateMissing templates)
  | .raw _ content _, r => .ok (r.print (String.ofList content))
  | .loop _ key item container body otherwise _, r =>
    runLoop (runNodes body) (runLast otherwise) key item container r
  | .filtered _ filter body _, r => runFiltered filter (runNodes body) r
  | .choice branches otherwise _, r =>
    match otherwise with
    | some (_, body) => runBranches branches (runNodes body) r
    | none => runBranches branches Except.ok r
  | .stop _, r =>
    if r.scope.frames.isEmpty then .error .stopOutsideLoop else .ok { r with flow := .stop }
  | .next _, r =>
    if r.scope.frames.isEmpty then .error .nextOutsideLoop else .ok { r with flow := .next }

/-- Runs nodes in order, until one of them ends the body. -/
def runNodes : List Node → Run → Except Error Run
  | [], r => .ok r
  | n :: ns, r => (n.run r).bind fun r => if r.flow = .onwards then runNodes ns r else .ok r

/-- Runs the last of some bodies, if there is one. -/
def runLast : List (List Node) → Run → Except Error Run
  | [], r => .ok r
  | [body], r => runNodes body r
  | _ :: rest, r => runLast rest r

/-- Runs the first branch whose condition holds, or else `otherwise`. -/
def runBranches : List Branch → (Run → Except Error Run) → Run → Except Error Run
  | [], otherwise, r => otherwise r
  | .mk _ condition body :: rest, otherwise, r =>
    (condition.holds r.scope).bind fun b =>
      if b then runNodes body r else runBranches rest otherwise r

end

def output (nodes : List Node) (bindings : Record) : Except Error String :=
  (runNodes nodes ⟨⟨[], [], bindings⟩, "", .onwards⟩).map Run.printed

end Galley.Template
