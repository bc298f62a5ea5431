import Galley.Failure.Basic
import Galley.Event

/-! # Outcomes of reporting computations

What a computation comes to does not depend on what is reported on the way. -/

namespace Galley

/-- The result of a computation that reports events and may fail, without the events. -/
def outcome {α : Type} (x : ExceptT Failure Logged α) : Except Failure α := x.run.value

@[simp] theorem outcome_pure {α : Type} (a : α) :
    outcome (pure a : ExceptT Failure Logged α) = .ok a := rfl

@[simp] theorem outcome_report {α : Type} (x : Logged α) :
    outcome (liftM x : ExceptT Failure Logged α) = .ok x.value := rfl

@[simp] theorem outcome_mk {α : Type} (x : Logged (Except Failure α)) :
    outcome (ExceptT.mk x) = x.value := rfl

@[simp] theorem outcome_bind {α β : Type} (x : ExceptT Failure Logged α)
    (f : α → ExceptT Failure Logged β) :
    outcome (x >>= f) = (outcome x).bind fun a => outcome (f a) := by
  change (ExceptT.bindCont f x.run.value).value = x.run.value.bind _
  cases x.run.value <;> rfl

/-- The events that a computation reports. -/
def reported {α : Type} (x : ExceptT Failure Logged α) : List Event := x.run.events

@[simp] theorem reported_report {α : Type} (x : Logged α) :
    reported (liftM x : ExceptT Failure Logged α) = x.events := List.append_nil _

@[simp] theorem reported_mk {α : Type} (x : Logged (Except Failure α)) :
    reported (ExceptT.mk x) = x.events := rfl

@[simp] theorem reported_bind {α β : Type} (x : ExceptT Failure Logged α)
    (f : α → ExceptT Failure Logged β) :
    reported (x >>= f) = reported x ++
      match outcome x with
      | .ok a => reported (f a)
      | .error _ => [] := by
  change reported x ++ (ExceptT.bindCont f (outcome x)).events = _
  cases outcome x <;> rfl

/-- A computation is what it comes to and what it reports. -/
theorem eq_of_outcome {α : Type} {x y : ExceptT Failure Logged α} (h : outcome x = outcome y)
    (hr : reported x = reported y) : x = y := by
  have hrun : x.run = y.run := by
    change Logged.mk (outcome x) (reported x) = Logged.mk (outcome y) (reported y)
    rw [h, hr]
  exact ExceptT.ext hrun

/-- What comes after a computation matters for what it comes to. -/
theorem bind_congr_of_outcome {α β : Type} {x : ExceptT Failure Logged α}
    {f g : α → ExceptT Failure Logged β} (h : ∀ a, outcome x = .ok a → f a = g a) :
    x >>= f = x >>= g := by
  cases hx : outcome x with
  | error e => exact eq_of_outcome (by simp [hx, Except.bind]) (by simp [hx])
  | ok a => exact eq_of_outcome (by simp [hx, Except.bind, h a hx]) (by simp [hx, h a hx])

end Galley
