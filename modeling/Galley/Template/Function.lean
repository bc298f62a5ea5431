import Galley.Value.Printer

/-!
Functions that expressions may call.
-/

namespace Galley.Template.Function

abbrev Result := Except String Value

/-- An argument of `range` as a natural number; `called` is what messages call it. -/
def bound? (args : Record) (name called : String) : Except String (Option Nat) :=
  match args.get? name with
  | none => .ok none
  | some (.number (.int i)) => if 0 ≤ i then .ok (some i.toNat) else refuse (.number (.int i))
  | some v => refuse v
where
  refuse (v : Value) : Except String (Option Nat) :=
    .error ("Function \x60range\x60 received " ++ name ++ "=" ++ v.compact ++ " but \x60" ++ called ++
      "\x60 can only be a number")

/-- The numbers after those `found`, last first, from `i` in steps up to one that is not below `stop`.
Numbers have 64 bits, and a step beyond the last of them goes on from zero. -/
def below (stop step : Nat) : Nat → Nat → List Nat → List Nat
  | 0, _, found => found.reverse
  | fuel + 1, i, found =>
    if i < stop then below stop step fuel ((i + step) % Nat.pow 2 64) (i :: found) else found.reverse

/-- The numbers from `start` below `end` in steps. -/
def range (args : Record) : Result := do
  let start := (← bound? args "start" "start").getD 0
  let step := (← bound? args "step_by" "step").getD 1
  match ← bound? args "end" "end" with
  | none => .error "Function \x60range\x60 was called without a \x60end\x60 argument"
  | some stop =>
    if stop < start then
      .error ("Function \x60range\x60 was called with a \x60start\x60 argument greater than the " ++
        "\x60end\x60 one")
    else
      let numbers := if step = 0 then [] else below stop step stop start []
      return .list (numbers.map fun (i : Nat) => .number (.int i))

/-- The function of a name, when there is one. The environment is out of reach. -/
def find? (name : String) : Option (Record → Result) :=
  match name with
  | "range" => some range
  | "get_env" => some fun _ => .error "get_env is not available in templates"
  | _ => none

end Galley.Template.Function
