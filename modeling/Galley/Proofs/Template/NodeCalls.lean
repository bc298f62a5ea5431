import Galley.Proofs.Template.CallSite

/-! # Templates and the places of their calls

Nodes are read one after another, and the places of the calls in each are places of the text. -/

namespace Galley.Template.Parser

/-- What the readers of nodes do at some fuel. -/
structure ReadsNodes (fuel : Nat) : Prop where
  nodes : ∀ inLoop text,
    Holds text (nodes fuel inLoop text).2 (functionsOfNodes (nodes fuel inLoop text).1)
  node : ∀ {inLoop text n rest}, node fuel inLoop text = some (n, rest) → Holds text rest n.functions
  loop : ∀ {text n rest}, loop fuel text = some (n, rest) → Holds text rest n.functions
  bodiesInstead : ∀ text,
    Holds text (bodiesInstead fuel text).2 (functionsOfBodies (bodiesInstead fuel text).1)
  filtered : ∀ {text n rest}, filtered fuel text = some (n, rest) → Holds text rest n.functions
  branches : ∀ inLoop text,
    Holds text (branches fuel inLoop text).2 (functionsOfBranches (branches fuel inLoop text).1)
  choice : ∀ {inLoop text n rest}, choice fuel inLoop text = some (n, rest) →
    Holds text rest n.functions

section Steps

variable {fuel : Nat} (ih : ReadsNodes fuel) {text rest : List Char} {n : Node} {inLoop : Bool}

include ih

theorem nodes_hold (inLoop : Bool) (text : List Char) :
    Holds text (nodes (fuel + 1) inLoop text).2 (functionsOfNodes (nodes (fuel + 1) inLoop text).1) := by
  unfold nodes
  split
  · next n rest hn => exact (ih.node hn).trans (ih.nodes inLoop rest)
  · exact .refl text

theorem node_holds (h : node (fuel + 1) inLoop text = some (n, rest)) : Holds text rest n.functions := by
  simp only [node] at h
  split at h
  · split at h
    · next found hs =>
      cases h
      simp only [Option.orElse_eq_orElse, Option.orElse_eq_or, Option.or_eq_some_iff] at hs
      rcases hs with h | ⟨-, h | ⟨-, h | ⟨-, h | ⟨-, h | ⟨-, h⟩⟩⟩⟩⟩
      · exact holds_comment h
      · exact (tagged_print h).holds
      · exact holds_insert h
      · exact (tagged_assign (by decide) h).holds
      · exact (tagged_assign (by decide) h).holds
      · exact holds_raw h
    · split at h
      · next found hl =>
        cases h
        exact ih.loop hl
      · split at h
        · next found hf =>
          cases h
          exact ih.filtered hf
        · split at h
          · next found hc =>
            cases h
            exact ih.choice hc
          · split at h
            · simp only [Option.orElse_eq_orElse, Option.orElse_eq_or, Option.or_eq_some_iff,
                Option.map_eq_some_iff] at h
              rcases h with ⟨⟨marks, after⟩, hw, h⟩ | ⟨-, ⟨marks, after⟩, hw, h⟩
              all_goals
                cases h
                exact holds_of_suffix (suffix_wordTag hw)
            · cases h
  · next content after _ hp =>
    cases h
    have hs := suffix_plainText text
    rw [hp] at hs
    exact holds_of_suffix hs

theorem loop_holds (h : loop (fuel + 1) text = some (n, rest)) : Holds text rest n.functions := by
  simp only [loop, Option.bind_eq_bind, Option.bind_eq_some_iff] at h
  obtain ⟨⟨⟨first, key, item, container⟩, opened⟩, ho, ⟨last, closed⟩, hc, h⟩ := h
  cases h
  have hbody := (tagged_loopTag ho).holds.trans (ih.nodes true opened)
  have hbodies := (hbody.trans (ih.bodiesInstead _)).trans (holds_of_suffix (suffix_wordTag hc))
  simpa [Node.functions] using hbodies

theorem bodiesInstead_hold (text : List Char) :
    Holds text (bodiesInstead (fuel + 1) text).2
      (functionsOfBodies (bodiesInstead (fuel + 1) text).1) := by
  unfold bodiesInstead
  split
  · next marks rest hw =>
    have hbody := (holds_of_suffix (suffix_wordTag hw)).trans (ih.nodes true rest)
    simpa [functionsOfBodies] using hbody.trans (ih.bodiesInstead _)
  · exact .refl text

theorem filtered_holds (h : filtered (fuel + 1) text = some (n, rest)) :
    Holds text rest n.functions := by
  simp only [filtered, Option.bind_eq_bind, Option.bind_eq_some_iff] at h
  obtain ⟨⟨⟨first, name, args⟩, opened⟩, ho, ⟨last, closed⟩, hc, h⟩ := h
  cases h
  have hbody := (tagged_filterTag ho).holds.trans (ih.nodes false opened)
  simpa [Node.functions] using hbody.trans (holds_of_suffix (suffix_wordTag hc))

theorem branches_hold (inLoop : Bool) (text : List Char) :
    Holds text (branches (fuel + 1) inLoop text).2
      (functionsOfBranches (branches (fuel + 1) inLoop text).1) := by
  unfold branches
  split
  · next marks condition rest he =>
    have hbody := (tagged_expressionTag (by decide) he).holds.trans (ih.nodes inLoop rest)
    simpa [functionsOfBranches] using hbody.trans (ih.branches inLoop _)
  · exact .refl text

theorem choice_holds (h : choice (fuel + 1) inLoop text = some (n, rest)) :
    Holds text rest n.functions := by
  simp only [choice, Option.bind_eq_bind, Option.bind_eq_some_iff] at h
  obtain ⟨⟨⟨marks, condition⟩, opened⟩, ho, ⟨last, closed⟩, hc, h⟩ := h
  have hbody := (tagged_expressionTag (by decide) ho).holds.trans (ih.nodes inLoop opened)
  have hbranches := hbody.trans (ih.branches inLoop _)
  dsimp only at hc h
  cases hw : wordTag? "else" (branches fuel inLoop (nodes fuel inLoop opened).2).2 with
  | none =>
    simp only [hw] at hc h
    cases h
    simpa [Node.functions, functionsOfBranches] using
      hbranches.trans (holds_of_suffix (suffix_wordTag hc))
  | some found =>
    obtain ⟨marks', after⟩ := found
    simp only [hw] at hc h
    cases h
    have helse := (hbranches.trans (holds_of_suffix (suffix_wordTag hw))).trans (ih.nodes inLoop after)
    simpa [Node.functions, functionsOfBranches] using
      helse.trans (holds_of_suffix (suffix_wordTag hc))

end Steps

theorem readsNodes (fuel : Nat) : ReadsNodes fuel := by
  induction fuel with
  | zero =>
    constructor
    case nodes | branches => exact fun _ text => .refl text
    case bodiesInstead => exact fun text => .refl text
    case node | choice => exact fun {_ _ _ _} h => by cases h
    case loop | filtered => exact fun {_ _ _} h => by cases h
  | succ fuel ih => exact {
      nodes := nodes_hold ih
      node := node_holds ih
      loop := loop_holds ih
      bodiesInstead := bodiesInstead_hold ih
      filtered := filtered_holds ih
      branches := branches_hold ih
      choice := choice_holds ih }

theorem suffix_skipComments (fuel : Nat) (text : List Char) : skipComments fuel text <:+ text := by
  induction fuel generalizing text with
  | zero => exact List.suffix_rfl
  | succ fuel ih =>
    unfold skipComments
    split
    · next n rest hc => exact (ih rest).trans (holds_comment hc).suffix
    · exact List.suffix_rfl

/-- Every call in the tree of a text stands in a tag of the text. -/
theorem exists_callSite {text : String} {name : String} (h : name ∈ calledFunctions text) :
    ∃ inside, CallSite text.toList name inside := by
  simp only [calledFunctions] at h
  split at h
  · next found ht =>
    simp only [template] at ht
    split at ht
    · next found' hn =>
      cases ht
      have hall := (readsNodes (4 * text.toList.length + 8)).nodes false
        (skipComments text.toList.length text.toList)
      rw [hn] at hall
      obtain ⟨taken, heq, hcalls⟩ := hall
      obtain ⟨inside, hs⟩ := hcalls name h
      obtain ⟨front, hfront⟩ := suffix_skipComments text.toList.length text.toList
      refine ⟨inside, ?_⟩
      rw [← hfront, heq]
      exact (hs.append []).prepend front
    · cases ht
  · simp at h

end Galley.Template.Parser
