import Galley.Failure.Report

/-!
Contexts around an error. However many are put around it and in whatever order, an error is
reported for what it is: a failure at its root and an access that the system refused give the
report that they give alone, and the message of any other error tells every text of the chain.
-/

namespace Galley

namespace ErrorChain

/-! ## What an error is -/

/-- The error at the end of a chain. -/
def cause : ErrorChain → RootCause
  | .root cause => cause
  | .foreign _ source => source.cause
  | .context _ inner => inner.cause

/-- The system complains: contexts may stand around its error, but no other error. -/
inductive IsSystem (fault : SystemFault) (message : String) : ErrorChain → Prop
  | root : IsSystem fault message (.root (.foreign (.system fault message)))
  | foreign (source : ErrorChain) : IsSystem fault message (.foreign (.system fault message) source)
  | context {inner : ErrorChain} (text : String) :
      IsSystem fault message inner → IsSystem fault message (.context text inner)

/-- The texts of an error and of all that lies behind it, outermost first. -/
def texts (e : ErrorChain) : List String := e.links.map Link.text

variable {e inner : ErrorChain} {f : Failure} {fault : SystemFault} {message : String}

theorem isSystem_context_iff {text : String} :
    IsSystem fault message (.context text inner) ↔ IsSystem fault message inner :=
  ⟨fun h => by cases h with | context _ h => exact h, .context text⟩

theorem texts_eq (e : ErrorChain) : e.texts = e.message :: e.causes := by
  cases e <;> rfl

theorem exists_texts (e : ErrorChain) : ∃ outer, e.texts = outer ++ [e.cause.message] := by
  induction e with
  | root cause => exact ⟨[], rfl⟩
  | foreign e source ih =>
    obtain ⟨outer, h⟩ := ih
    exact ⟨e.message :: outer, congrArg (e.message :: ·) h⟩
  | context text inner ih =>
    obtain ⟨outer, h⟩ := ih
    exact ⟨text :: outer, congrArg (text :: ·) h⟩

/-- Nothing lies behind a failure, so that the one that is found is the root. -/
theorem failure?_eq_some_iff : e.failure? = some f ↔ e.cause = .failure f := by
  induction e with
  | root cause => cases cause <;> simp [failure?, links, Link.failure?, ErrorChain.cause]
  | foreign e source ih => exact ih
  | context text inner ih => exact ih

theorem failure?_eq_none_iff : e.failure? = none ↔ ∀ f, e.cause ≠ .failure f := by
  simp only [Option.eq_none_iff_forall_ne_some, ne_eq, failure?_eq_some_iff]

theorem system?_eq_some_iff : e.system? = some (fault, message) ↔ IsSystem fault message e := by
  constructor
  · intro h
    fun_induction system? e with
    | case1 fault' message' => cases h; exact .root
    | case2 fault' message' source => cases h; exact .foreign source
    | case3 text inner ih => exact .context text (ih h)
    | case4 => cases h
  · intro h
    induction h with
    | root => rfl
    | foreign source => rfl
    | context text h ih => exact ih

/-! ## The same under contexts -/

theorem cause_under (e : ErrorChain) (contexts : List String) :
    (e.under contexts).cause = e.cause := by
  induction contexts generalizing e with
  | nil => rfl
  | cons text contexts ih => rw [under_cons, ih]; rfl

theorem isSystem_under_iff {contexts : List String} :
    IsSystem fault message (e.under contexts) ↔ IsSystem fault message e := by
  induction contexts generalizing e with
  | nil => rfl
  | cons text contexts ih => rw [under_cons, ih, isSystem_context_iff]

theorem texts_under (e : ErrorChain) (contexts : List String) :
    (e.under contexts).texts = contexts.reverse ++ e.texts := by
  induction contexts generalizing e with
  | nil => rfl
  | cons text contexts ih =>
    rw [under_cons, ih, List.reverse_cons, List.append_assoc]
    rfl

end ErrorChain

namespace Report

variable {e : ErrorChain} {f : Failure} {message : String}

/-! ## Messages that tell all texts -/

/-- A cause in a message, by its place among the causes. -/
def entry (i : Nat) (text : String) : String := "\n  " ++ toString (i + 1) ++ ": " ++ text

/-- A message tells texts: the first by itself, and the others, if there are any, as its causes,
one entry for each in their order. -/
inductive Tells : List String → String → Prop
  | alone (text : String) : Tells [text] text
  | caused (text : String) {causes : List String} (h : causes ≠ []) :
      Tells (text :: causes) (text ++ "\n\nCaused by:" ++ String.join (causes.mapIdx entry))

theorem numbered_eq (n : Nat) (texts : List String) :
    numbered (n + 1) texts = String.join (texts.mapIdx fun i => entry (n + i)) := by
  induction texts generalizing n with
  | nil => rfl
  | cons text texts ih =>
    rw [numbered, ih, List.mapIdx_cons, String.join_cons]
    simp only [entry, Nat.add_zero, Nat.add_assoc, Nat.add_comm 1]

theorem tells_causeList (text : String) (causes : List String) :
    Tells (text :: causes) (text ++ causeList causes) := by
  cases causes with
  | nil => rw [causeList, String.append_empty]; exact .alone text
  | cons cause causes =>
    have h := Tells.caused text (List.cons_ne_nil cause causes)
    have hnumbered := numbered_eq 0 (cause :: causes)
    simp only [Nat.zero_add] at hnumbered
    rwa [← hnumbered, String.append_assoc] at h

/-! ## Reports -/

@[simp] theorem failure_ofFailure (f : Failure) : (ofFailure f).failure = f := by
  cases f <;> rfl

theorem ofError_of_failure (h : e.cause = .failure f) : ofError e = ofFailure f := by
  rw [ofError, ErrorChain.failure?_eq_some_iff.2 h]

theorem ofError_of_accessDenied (hcause : ∀ f, e.cause ≠ .failure f)
    (h : e.IsSystem .accessDenied message) :
    ofError e = {
      failure := .workspace ⟨"unknown"⟩ message
      suggestion := "Check that the scratch and debug directories are writable" } := by
  rw [ofError, ErrorChain.failure?_eq_none_iff.2 hcause, ErrorChain.system?_eq_some_iff.2 h]

theorem ofError_of_others (hcause : ∀ f, e.cause ≠ .failure f)
    (h : ∀ message, ¬ e.IsSystem .accessDenied message) :
    ∃ message, ofError e = { failure := .other message } ∧ Tells e.texts message := by
  refine ⟨e.message ++ causeList e.causes, ?_, ?_⟩
  · rw [ofError, ErrorChain.failure?_eq_none_iff.2 hcause]
    dsimp only
    split
    · rename_i message hsystem
      exact absurd (ErrorChain.system?_eq_some_iff.1 hsystem) (h message)
    · rfl
  · rw [ErrorChain.texts_eq]
    exact tells_causeList e.message e.causes

/-- Contexts hide nothing of what an error is. Around a failure at the root, and around an access
that the system refused, they leave the report as it is, advice and all. The message of any other
error is the outermost text, and has every other text of the chain among its causes, each once and
in the order of the chain, with the root at the end. -/
theorem contexts_hide_nothing (contexts : List String) (e : ErrorChain) :
    (∀ f, e.cause = .failure f →
      ofError (e.under contexts) = ofError e ∧ ofError e = ofFailure f ∧
        (ofError e).failure = f) ∧
    (∀ message, e.IsSystem .accessDenied message →
      ofError (e.under contexts) = ofError e ∧
        ((∀ f, e.cause ≠ .failure f) → (ofError e).failure = .workspace ⟨"unknown"⟩ message)) ∧
    ((∀ f, e.cause ≠ .failure f) → (∀ message, ¬ e.IsSystem .accessDenied message) →
      ∃ outer message, e.texts = outer ++ [e.cause.message] ∧
        ofError (e.under contexts) = { failure := .other message } ∧
        Tells (contexts.reverse ++ outer ++ [e.cause.message]) message) := by
  have hunder : ∀ f, e.cause = .failure f → ofError (e.under contexts) = ofFailure f := fun f h =>
    ofError_of_failure ((e.cause_under contexts).trans h)
  refine ⟨?_, ?_, ?_⟩
  · intro f h
    have hreport : ofError e = ofFailure f := ofError_of_failure h
    exact ⟨(hunder f h).trans hreport.symm, hreport, by rw [hreport, failure_ofFailure]⟩
  · intro message h
    -- A failure can lie behind the error of the system. It comes first, with contexts and without.
    by_cases hcause : ∃ f, e.cause = .failure f
    · obtain ⟨f, hf⟩ := hcause
      exact ⟨(hunder f hf).trans (ofError_of_failure hf).symm, fun hnone => absurd hf (hnone f)⟩
    · have hnone : ∀ f, e.cause ≠ .failure f := fun f hf => hcause ⟨f, hf⟩
      have hreport := ofError_of_accessDenied hnone h
      refine ⟨?_, fun _ => by rw [hreport]⟩
      rw [hreport]
      refine ofError_of_accessDenied ?_ (ErrorChain.isSystem_under_iff.2 h)
      rwa [ErrorChain.cause_under]
  · intro hnone hsystem
    obtain ⟨outer, htexts⟩ := e.exists_texts
    have hother := ofError_of_others (e := e.under contexts)
      (by rwa [ErrorChain.cause_under])
      (fun message h => hsystem message (ErrorChain.isSystem_under_iff.1 h))
    obtain ⟨message, hreport, htells⟩ := hother
    rw [ErrorChain.texts_under, htexts, ← List.append_assoc] at htells
    exact ⟨outer, message, htexts, hreport, htells⟩

/-- Contexts of an archive that cannot be read; one of them has two lines. -/
def backupContexts : List String := ["reading\nthe archive", "backup"]

/-- A failure and a refused access are known under two contexts. A refused access behind another
error is not, and is one of the causes that are told. -/
theorem contexts_hide_nothing_backup :
    (ofError ((ErrorChain.root (.failure (.compilerNotFound "typst"))).under
      backupContexts)).failure = .compilerNotFound "typst" ∧
    (ofError ((ErrorChain.root (.foreign (.system .accessDenied "denied"))).under
      backupContexts)).failure = .workspace ⟨"unknown"⟩ "denied" ∧
    ofError ((ErrorChain.foreign (.plain "broken")
      (.root (.foreign (.system .accessDenied "denied")))).under backupContexts) = {
        failure := .other ("backup\n\nCaused by:\n  1: reading\nthe archive\n  2: broken\n" ++
          "  3: denied") } := by
  refine ⟨?_, ?_, ?_⟩
  · obtain ⟨hsame, -, hfailure⟩ := (contexts_hide_nothing backupContexts
      (.root (.failure (.compilerNotFound "typst")))).1 _ rfl
    rw [hsame, hfailure]
  · obtain ⟨hsame, hfailure⟩ := (contexts_hide_nothing backupContexts
      (.root (.foreign (.system .accessDenied "denied")))).2.1 _ .root
    rw [hsame, hfailure nofun]
  · obtain ⟨outer, message, htexts, hreport, htells⟩ := (contexts_hide_nothing backupContexts
      (.foreign (.plain "broken") (.root (.foreign (.system .accessDenied "denied"))))).2.2
        nofun nofun
    obtain ⟨rfl, -⟩ : ["broken"] = outer ∧ _ := List.append_inj' htexts rfl
    rw [hreport]
    cases htells with
    | caused => decide

end Report

end Galley
