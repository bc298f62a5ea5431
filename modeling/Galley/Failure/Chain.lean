import Galley.Failure.Basic

/-!
Errors with what lies behind them, from the outermost context down to the root. What an error is
can be told in two ways: a failure is looked for along the whole chain, an error of the system only
where nothing but contexts stands around it.
-/

namespace Galley

/-- What the system complains of. Only a refused access is told apart. -/
inductive SystemFault where
  | accessDenied
  | other
deriving DecidableEq, Repr

/-- An error of anything but an operation on a document. -/
inductive ForeignError where
  | system (fault : SystemFault) (message : String)
  /-- Any other error, known by its text. -/
  | plain (message : String)
deriving DecidableEq, Repr

def ForeignError.message : ForeignError → String
  | .system _ message => message
  | .plain message => message

/-- What an error comes from. -/
inductive RootCause where
  | failure (f : Failure)
  | foreign (e : ForeignError)
deriving DecidableEq, Repr

def RootCause.message : RootCause → String
  | .failure f => f.message
  | .foreign e => e.message

/-- An error with what lies behind it. A failure has nothing behind it, so it is a root. -/
inductive ErrorChain where
  | root (cause : RootCause)
  /-- An error and the one that it comes from. -/
  | foreign (e : ForeignError) (source : ErrorChain)
  /-- A context put around an error. -/
  | context (text : String) (inner : ErrorChain)
deriving DecidableEq, Repr

namespace ErrorChain

/-- What is met on the way from an error to its root. -/
inductive Link where
  | error (cause : RootCause)
  | context (text : String)
deriving DecidableEq, Repr

namespace Link

def text : Link → String
  | .error cause => cause.message
  | .context text => text

def failure? : Link → Option Failure
  | .error (.failure f) => some f
  | _ => none

end Link

/-- The links of an error, outermost first. -/
def links : ErrorChain → List Link
  | .root cause => [.error cause]
  | .foreign e source => .error (.foreign e) :: source.links
  | .context text inner => .context text :: inner.links

/-- The text by which an error is shown, that of its outermost link. -/
def message : ErrorChain → String
  | .root cause => cause.message
  | .foreign e _ => e.message
  | .context text _ => text

/-- The texts of all that lies behind an error. -/
def causes (e : ErrorChain) : List String := (e.links.drop 1).map Link.text

/-- The first failure along the chain. -/
def failure? (e : ErrorChain) : Option Failure := e.links.findSome? Link.failure?

/-- The error that the contexts stand around, when it is the system's. What lies behind another
error is not looked at. -/
def system? : ErrorChain → Option (SystemFault × String)
  | .root (.foreign (.system fault message)) => some (fault, message)
  | .foreign (.system fault message) _ => some (fault, message)
  | .context _ inner => inner.system?
  | _ => none

/-- An error with contexts put around it, one after the other: the last one is the outermost. -/
def under (e : ErrorChain) (contexts : List String) : ErrorChain :=
  contexts.foldl (fun inner text => .context text inner) e

@[simp] theorem under_nil (e : ErrorChain) : e.under [] = e := rfl

@[simp] theorem under_cons (e : ErrorChain) (text : String) (contexts : List String) :
    e.under (text :: contexts) = (ErrorChain.context text e).under contexts := rfl

end ErrorChain

end Galley
