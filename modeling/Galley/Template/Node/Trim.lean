import Galley.Template.Node.Basic
import Galley.Text.Blank

/-!
Marks that cut blanks. A mark acts on the text next to it, within the body in which it stands; the
tags around a body act on the texts at its ends.
-/

namespace Galley.Template

/-- The nodes with blanks cut from the end of a last text. A text of blanks only goes away. -/
def cutLast (nodes : List Node) : List Node :=
  match nodes.getLast? with
  | some (.text content) =>
    let cut := Text.dropBack Text.isBlank content
    if cut.isEmpty then nodes.dropLast else nodes.dropLast ++ [.text cut]
  | _ => nodes

/-- `cutLast` under a condition. -/
def cutLastIf (condition : Bool) (nodes : List Node) : List Node :=
  if condition then cutLast nodes else nodes

def Branch.cutLastIf (condition : Bool) : Branch → Branch
  | .mk marks e body => .mk marks e (Template.cutLastIf condition body)

/-- The branches with blanks cut from the end of the last body, under a condition. -/
def cutLastBranchIf (condition : Bool) (branches : List Branch) : List Branch :=
  match branches.getLast? with
  | some branch => branches.dropLast ++ [branch.cutLastIf condition]
  | none => branches

/-- Raw text without the blanks that its tags cut. -/
def cutRaw (first last : Trim) (content : List Char) : List Char :=
  let content := if first.after then Text.dropFront Text.isBlank content else content
  if last.before then Text.dropBack Text.isBlank content else content

mutual

/-- The nodes of a body after those already done, in order. `afterText` says whether the node before
is a text, `cutNext` whether the mark before cuts the blanks of a text that follows. -/
def cutNodes (done : List Node) (afterText cutNext : Bool) : List Node → List Node
  | [] => done
  | .text content :: rest =>
    if cutNext then
      let cut := Text.dropFront Text.isBlank content
      cutNodes (if cut.isEmpty then done else done ++ [.text cut]) true false rest
    else cutNodes (done ++ [.text content]) true false rest
  | .comment marks :: rest =>
    cutNodes (cutLastIf (afterText && marks.before) done ++ [.comment marks]) false marks.after rest
  | .print marks value :: rest =>
    cutNodes (cutLastIf (afterText && marks.before) done ++ [.print marks value]) false marks.after rest
  | .assign marks everywhere name value :: rest =>
    cutNodes (cutLastIf (afterText && marks.before) done ++ [.assign marks everywhere name value])
      false marks.after rest
  | .insert marks templates ignoreMissing :: rest =>
    cutNodes (cutLastIf (afterText && marks.before) done ++ [.insert marks templates ignoreMissing])
      false marks.after rest
  | .stop marks :: rest =>
    cutNodes (cutLastIf (afterText && marks.before) done ++ [.stop marks]) false marks.after rest
  | .next marks :: rest =>
    cutNodes (cutLastIf (afterText && marks.before) done ++ [.next marks]) false marks.after rest
  | .raw first content last :: rest =>
    cutNodes (cutLastIf (afterText && first.before) done ++
      [.raw first (cutRaw first last content) last]) false last.after rest
  | .loop first key item container body otherwise last :: rest =>
    let body := cutLastIf last.before (cutNodes [] false first.after body)
    cutNodes (cutLastIf (afterText && first.before) done ++
      [.loop first key item container body otherwise last]) false last.after rest
  | .filtered first filter body last :: rest =>
    let body := cutLastIf last.before (cutNodes [] false first.after body)
    cutNodes (cutLastIf (afterText && first.before) done ++ [.filtered first filter body last])
      false last.after rest
  | .choice branches otherwise last :: rest =>
    let opens := match branches with
      | .mk marks _ _ :: _ => marks.before
      | [] => false
    let done := cutLastIf (afterText && opens) done
    let branches := cutBranches [] branches
    match otherwise with
    | some (marks, body) =>
      let body := cutLastIf last.before (cutNodes [] false marks.after body)
      cutNodes (done ++ [.choice (cutLastBranchIf marks.before branches) (some (marks, body)) last])
        false last.after rest
    | none =>
      cutNodes (done ++ [.choice (cutLastBranchIf last.before branches) none last])
        false last.after rest

/-- The branches of a choice after those already done. The tag of a branch acts on the body before
it. -/
def cutBranches (done : List Branch) : List Branch → List Branch
  | [] => done
  | .mk marks condition body :: rest =>
    cutBranches (cutLastBranchIf marks.before done ++
      [.mk marks condition (cutNodes [] false marks.after body)]) rest

end

def trim (nodes : List Node) : List Node := cutNodes [] false false nodes

end Galley.Template
