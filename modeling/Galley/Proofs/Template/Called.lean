import Galley.Template.Node.Parser

/-! # The functions a template calls

The names of all calls in a syntax tree, with those in the arguments of filters and tests. Filters and
tests are no functions: their own names do not count. -/

namespace Galley.Template

mutual

def Expr.functions : Expr → List String
  | .mk atom _ filters => atom.functions ++ functionsOfCalls filters

def Atom.functions : Atom → List String
  | .math _ left right | .logic _ left right | .elem _ left right =>
    left.functions ++ right.functions
  | .test _ _ _ args => functionsOfAll args
  | .call (.mk name args) => name :: functionsOfArguments args
  | .list items => functionsOfAll items
  | .concat parts => functionsOfParts parts
  | _ => []

def functionsOfAll : List Expr → List String
  | [] => []
  | e :: es => e.functions ++ functionsOfAll es

def functionsOfParts : List Atom → List String
  | [] => []
  | a :: as => a.functions ++ functionsOfParts as

def functionsOfCalls : List Call → List String
  | [] => []
  | .mk _ args :: cs => functionsOfArguments args ++ functionsOfCalls cs

def functionsOfArguments : List (String × Expr) → List String
  | [] => []
  | (_, e) :: rest => e.functions ++ functionsOfArguments rest

end

def Call.functions : Call → List String
  | .mk name args => name :: functionsOfArguments args

@[simp] theorem Expr.functions_ofAtom (a : Atom) : (Expr.ofAtom a).functions = a.functions := by
  simp [Expr.ofAtom, Expr.functions, functionsOfCalls]

@[simp] theorem Atom.functions_call (c : Call) : (Atom.call c).functions = c.functions := by
  cases c
  simp [Atom.functions, Call.functions]

@[simp] theorem functionsOfCalls_append (cs ds : List Call) :
    functionsOfCalls (cs ++ ds) = functionsOfCalls cs ++ functionsOfCalls ds := by
  induction cs with
  | nil => rfl
  | cons c cs ih =>
    cases c
    simp [functionsOfCalls, ih]

@[simp] theorem Expr.functions_withFilters (e : Expr) (fs : List Call) :
    (e.withFilters fs).functions = e.functions ++ functionsOfCalls fs := by
  cases e
  simp [Expr.withFilters, Expr.functions]

@[simp] theorem Expr.functions_withNegation (e : Expr) (b : Bool) :
    (e.withNegation b).functions = e.functions := by
  cases e
  simp [Expr.withNegation, Expr.functions]

mutual

def Node.functions : Node → List String
  | .print _ value | .assign _ _ _ value => value.functions
  | .loop _ _ _ container body otherwise _ =>
    container.functions ++ functionsOfNodes body ++ functionsOfBodies otherwise
  | .filtered _ (.mk _ args) body _ => functionsOfArguments args ++ functionsOfNodes body
  | .choice branches otherwise _ =>
    functionsOfBranches branches ++
      match otherwise with
      | some (_, body) => functionsOfNodes body
      | none => []
  | _ => []

def functionsOfNodes : List Node → List String
  | [] => []
  | n :: ns => n.functions ++ functionsOfNodes ns

def functionsOfBodies : List (List Node) → List String
  | [] => []
  | body :: rest => functionsOfNodes body ++ functionsOfBodies rest

def functionsOfBranches : List Branch → List String
  | [] => []
  | .mk _ condition body :: rest =>
    condition.functions ++ functionsOfNodes body ++ functionsOfBranches rest

end

/-- The functions called in the tree of a text, when it has one. -/
def calledFunctions (text : String) : List String :=
  match Parser.template text.toList with
  | some nodes => functionsOfNodes nodes
  | none => []

/-! ## Trees put together from parts -/

namespace Parser

variable {name : String}

def functionsOfOperands {op : Type} (operands : List (op × Expr)) : List String :=
  operands.flatMap (·.2.functions)

theorem functions_sums (sum : Option (Expr × MathOp)) (product : Expr)
    (operands : List (MathOp × Expr)) :
    (sums sum product operands).functions ⊆
      (sum.elim [] (·.1.functions)) ++ product.functions ++ functionsOfOperands operands := by
  induction sum, product, operands using sums.induct with
  | case1 | case2 => simp [sums, functionsOfOperands, Atom.functions]
  | case3 sum product op operand rest hop ih =>
    simpa [sums, hop, functionsOfOperands, Atom.functions] using ih
  | case4 product op operand rest hop ih =>
    simpa [sums, hop, functionsOfOperands] using ih
  | case5 product op operand rest hop left before ih =>
    simpa [sums, hop, functionsOfOperands, Atom.functions] using ih

theorem functions_disjuncts (sum : Option Expr) (product : Expr)
    (operands : List (LogicOp × Expr)) :
    (disjuncts sum product operands).functions ⊆
      (sum.elim [] (·.functions)) ++ product.functions ++ functionsOfOperands operands := by
  induction sum, product, operands using disjuncts.induct with
  | case1 | case2 => simp [disjuncts, functionsOfOperands, Atom.functions]
  | case3 sum product operand rest ih =>
    simpa [disjuncts, functionsOfOperands, Atom.functions] using ih
  | case4 product op operand rest hop ih =>
    simpa [disjuncts, hop, functionsOfOperands] using ih
  | case5 product op operand rest hop left ih =>
    simpa [disjuncts, hop, functionsOfOperands, Atom.functions] using ih

theorem mem_functionsOfParts {parts : List Atom} :
    name ∈ functionsOfParts parts ↔ ∃ part ∈ parts, name ∈ part.functions := by
  induction parts with
  | nil => simp [functionsOfParts]
  | cons part parts ih => simp [functionsOfParts, ih]

/-- A fold that adds parts one by one and otherwise only makes parts without calls keeps to the calls
of the parts. -/
theorem mem_functions_foldr {step : Atom → List Atom → List Atom}
    (hstep : ∀ part joined p, p ∈ step part joined → p = part ∨ p ∈ joined ∨ p.functions = [])
    {parts : List Atom} {p : Atom} (hp : p ∈ parts.foldr step []) (hn : name ∈ p.functions) :
    name ∈ functionsOfParts parts := by
  induction parts generalizing p with
  | nil => simp at hp
  | cons part parts ih =>
    rw [functionsOfParts, List.mem_append]
    rcases hstep _ _ _ hp with rfl | hp | hp
    · exact .inl hn
    · exact .inr (ih hp hn)
    · simp [hp] at hn

theorem functions_joinParts (parts : List Atom) :
    (joinParts parts).functions ⊆ functionsOfParts parts := by
  intro name h
  rw [joinParts] at h
  split at h
  · simp [Atom.functions] at h
  · rw [Atom.functions, mem_functionsOfParts] at h
    obtain ⟨p, hp, hn⟩ := h
    refine mem_functions_foldr (fun part joined p hp => ?_) (List.mem_filter.1 hp).1 hn
    split at hp
    · rcases List.mem_cons.1 hp with rfl | hp
      · exact .inr (.inr (by simp [Atom.functions]))
      · exact .inr (.inl (List.mem_cons_of_mem _ hp))
    · split at hp
      · exact .inr (.inl hp)
      · exact (List.mem_cons.1 hp).imp_right .inl
    · exact (List.mem_cons.1 hp).imp_right .inl

end Parser

end Galley.Template
