import Galley.Machine

/-! # How runs end

A run takes a machine to a result and a machine after it; an attempt may end in a failure. A sequence
ends as its parts do, one after the other. -/

namespace Galley

/-- A run that begins on one machine gives a result and leaves another. -/
def Run.Ends {α : Type} (run : Run α) (m : Machine) (a : α) (m' : Machine) : Prop :=
  Id.run (StateT.run run m) = (a, m')

def Attempt.Ends {α : Type} (attempt : Attempt α) (m : Machine) (r : Except Failure α)
    (m' : Machine) : Prop :=
  Run.Ends attempt.run m r m'

variable {α β : Type} {m m' : Machine}

/-- Every run ends, in one way. -/
theorem Run.exists_ends (run : Run α) (m : Machine) : ∃ a m', run.Ends m a m' := ⟨_, _, rfl⟩

theorem Attempt.exists_ends (attempt : Attempt α) (m : Machine) : ∃ r m', attempt.Ends m r m' :=
  Run.exists_ends attempt.run m

theorem Run.Ends.unique {run : Run α} {a b : α} {m₁ m₂ : Machine} (h : run.Ends m a m₁)
    (h' : run.Ends m b m₂) : a = b ∧ m₁ = m₂ := by
  simpa using h.symm.trans h'

theorem mapError_eq_ok_iff {ε ε' : Type} {x : Except ε α} {f : ε → ε'} {a : α} :
    x.mapError f = .ok a ↔ x = .ok a := by
  constructor
  · intro h
    cases x with
    | error e => cases h
    | ok b => exact congrArg _ (Except.ok.inj h)
  · rintro rfl
    rfl

/-! ## Runs -/

@[simp] theorem Run.ends_pure {a b : α} : Run.Ends (pure a : Run α) m b m' ↔ b = a ∧ m' = m := by
  simp [Run.Ends, eq_comm]

@[simp] theorem Run.ends_bind {run : Run α} {next : α → Run β} {b : β} :
    Run.Ends (run >>= next) m b m' ↔ ∃ a m₁, run.Ends m a m₁ ∧ (next a).Ends m₁ b m' := by
  constructor
  · exact fun h => ⟨_, _, rfl, h⟩
  · rintro ⟨a, m₁, h, h'⟩
    simp only [Run.Ends, StateT.run_bind, Id.run_bind] at h h' ⊢
    rw [h]
    exact h'

@[simp] theorem Run.ends_map {run : Run α} {f : α → β} {b : β} :
    Run.Ends (f <$> run) m b m' ↔ ∃ a, run.Ends m a m' ∧ b = f a := by
  rw [map_eq_pure_bind, Run.ends_bind]
  simp only [Run.ends_pure]
  constructor
  · rintro ⟨a, _, h, rfl, rfl⟩
    exact ⟨a, h, rfl⟩
  · rintro ⟨a, h, rfl⟩
    exact ⟨a, m', h, rfl, rfl⟩

@[simp] theorem Run.ends_get {m₁ : Machine} : Run.Ends get m m₁ m' ↔ m₁ = m ∧ m' = m := by
  simp [Run.Ends, eq_comm]

@[simp] theorem Run.ends_modify {f : Machine → Machine} {u : Unit} :
    Run.Ends (modify f) m u m' ↔ m' = f m := by
  simp [Run.Ends, eq_comm]

@[simp] theorem Run.ends_modifyGet {f : Machine → α × Machine} {a : α} :
    Run.Ends (modifyGet f) m a m' ↔ f m = (a, m') := by
  simp [Run.Ends, Prod.ext_iff]

@[simp] theorem Run.ends_run {attempt : Attempt α} {r : Except Failure α} :
    Run.Ends attempt.run m r m' ↔ attempt.Ends m r m' := Iff.rfl

/-! ## Attempts -/

@[simp] theorem Attempt.ends_mk {run : Run (Except Failure α)} {r : Except Failure α} :
    Attempt.Ends (ExceptT.mk run) m r m' ↔ run.Ends m r m' := Iff.rfl

@[simp] theorem Attempt.ends_pure {a : α} {r : Except Failure α} :
    Attempt.Ends (pure a : Attempt α) m r m' ↔ r = .ok a ∧ m' = m := Run.ends_pure

@[simp] theorem Attempt.ends_throw {e : Failure} {r : Except Failure α} :
    Attempt.Ends (throw e : Attempt α) m r m' ↔ r = .error e ∧ m' = m := Run.ends_pure

@[simp] theorem Attempt.ends_of {result r : Except Failure α} :
    (Attempt.of result).Ends m r m' ↔ r = result ∧ m' = m := Run.ends_pure

/-- A sequence fails where its first part does, and goes on from where that succeeds. -/
theorem Attempt.ends_bind {attempt : Attempt α} {next : α → Attempt β} {r : Except Failure β} :
    Attempt.Ends (attempt >>= next) m r m' ↔
      (∃ e, attempt.Ends m (.error e) m' ∧ r = .error e) ∨
        ∃ a m₁, attempt.Ends m (.ok a) m₁ ∧ (next a).Ends m₁ r m' := by
  have hbind : Attempt.Ends (attempt >>= next) m r m' ↔
      ∃ x m₁, attempt.Ends m x m₁ ∧ Run.Ends (ExceptT.bindCont next x) m₁ r m' :=
    @Run.ends_bind _ _ m m' attempt.run (ExceptT.bindCont next) r
  rw [hbind]
  constructor
  · rintro ⟨x | a, m₁, h, h'⟩
    · obtain ⟨rfl, rfl⟩ := Run.ends_pure.1 h'
      exact .inl ⟨x, h, rfl⟩
    · exact .inr ⟨a, m₁, h, h'⟩
  · rintro (⟨e, h, rfl⟩ | ⟨a, m₁, h, h'⟩)
    · exact ⟨_, m', h, Run.ends_pure.2 ⟨rfl, rfl⟩⟩
    · exact ⟨_, m₁, h, h'⟩

/-- A run within an attempt does not fail. -/
@[simp] theorem Attempt.ends_liftM {run : Run α} {r : Except Failure α} :
    Attempt.Ends (liftM run : Attempt α) m r m' ↔ ∃ a, run.Ends m a m' ∧ r = .ok a :=
  @Run.ends_map _ _ m m' run Except.ok r

/-- A sequence that begins with a run. -/
@[simp] theorem Attempt.ends_liftM_bind {run : Run α} {next : α → Attempt β} {r : Except Failure β} :
    Attempt.Ends ((liftM run : Attempt α) >>= next) m r m' ↔
      ∃ a m₁, run.Ends m a m₁ ∧ (next a).Ends m₁ r m' := by
  simp [Attempt.ends_bind]

@[simp] theorem Attempt.ends_lift_bind {run : Run α} {next : α → Attempt β} {r : Except Failure β} :
    Attempt.Ends (Attempt.lift run >>= next) m r m' ↔
      ∃ a m₁, run.Ends m a m₁ ∧ (next a).Ends m₁ r m' := Attempt.ends_liftM_bind

/-! ## Machines -/

namespace Machine

@[simp] theorem ends_report {event : Event} {u : Unit} :
    Run.Ends (report event) m u m' ↔ m' = { m with journal := m.journal ++ [event] } :=
  Run.ends_modify

@[simp] theorem ends_absorb {result : Logged α} {a : α} :
    Run.Ends (absorb result) m a m' ↔
      a = result.value ∧ m' = { m with journal := m.journal ++ result.events } := by
  simp [absorb, and_comm]

@[simp] theorem ends_reportAll {events : List Event} {u : Unit} :
    Run.Ends (reportAll events) m u m' ↔ m' = { m with journal := m.journal ++ events } := by
  simp [reportAll, Logged.reportAll]

@[simp] theorem ends_getFiles {fs : FileSystem} :
    Run.Ends getFiles m fs m' ↔ fs = m.files ∧ m' = m := by
  simp [getFiles, and_comm]

@[simp] theorem ends_putFiles {fs : FileSystem} {u : Unit} :
    Run.Ends (putFiles fs) m u m' ↔ m' = { m with files := fs } := Run.ends_modify

/-- A change is made or refused. -/
theorem ends_change {ε : Type} {f : FileSystem → Except ε FileSystem} {r : Except ε Unit} :
    Run.Ends (change f) m r m' ↔
      (∃ fs, f m.files = .ok fs ∧ r = .ok () ∧ m' = { m with files := fs }) ∨
        ∃ e, f m.files = .error e ∧ r = .error e ∧ m' = m := by
  simp only [change, Run.ends_bind, ends_getFiles, and_assoc]
  cases hf : f m.files with
  | error e => simp [hf]
  | ok fs => simp [hf, and_comm]

@[simp] theorem ends_changePartly {ε : Type} {f : FileSystem → FileSystem × Except ε Unit}
    {r : Except ε Unit} :
    Run.Ends (changePartly f) m r m' ↔
      r = (f m.files).2 ∧ m' = { m with files := (f m.files).1 } := by
  simp [changePartly, and_assoc, and_comm]

@[simp] theorem ends_drawName {name : String} :
    Run.Ends drawName m name m' ↔ name = m.names m.drawn ∧ m' = { m with drawn := m.drawn + 1 } := by
  simp [drawName, eq_comm]

@[simp] theorem ends_lookAtClock {time : String} :
    Run.Ends lookAtClock m time m' ↔
      time = m.clock m.looked ∧ m' = { m with looked := m.looked + 1 } := by
  simp [lookAtClock, eq_comm]

@[simp] theorem ends_perform {c : Command} {outcome : Outcome} :
    Run.Ends (perform c) m outcome m' ↔
      outcome = (m.programs c m.files).1 ∧
        m' = { m with
          files := (m.programs c m.files).2
          performed := m.performed ++ [(c, m.files)] } := by
  simp [perform, eq_comm]

end Machine

/-- A text was refused by the gate, or could not be rendered. -/
def Failure.IsRefusal : Failure → Prop
  | .rejected _ | .render _ _ => True
  | _ => False

/-- An attempt did not end in a refusal. -/
def NoRefusal (r : Except Failure α) : Prop := ∀ e, r = .error e → ¬e.IsRefusal

theorem noRefusal_ok (a : α) : NoRefusal (.ok a) := fun e he => by cases he

theorem noRefusal_error {e : Failure} (h : ¬e.IsRefusal) : NoRefusal (.error e : Except Failure α) :=
  fun e' he => by
    cases he
    exact h

theorem NoRefusal.of_error {e : Failure} (h : NoRefusal (.error e : Except Failure α)) :
    NoRefusal (.error e : Except Failure β) :=
  noRefusal_error (h e rfl)

/-- Machines on which the same was performed, and on which the same is going to happen. -/
structure Machine.Alike (m m' : Machine) : Prop where
  programs : m'.programs = m.programs
  names : m'.names = m.names
  clock : m'.clock = m.clock
  performed : m'.performed = m.performed

theorem Machine.Alike.refl (m : Machine) : m.Alike m := ⟨rfl, rfl, rfl, rfl⟩

theorem Machine.Alike.trans {m₁ : Machine} (h : m.Alike m₁) (h' : m₁.Alike m') : m.Alike m' :=
  ⟨h'.programs.trans h.programs, h'.names.trans h.names, h'.clock.trans h.clock,
    h'.performed.trans h.performed⟩

@[simp] theorem Attempt.ends_absorb {result : Logged (Except Failure α)} {r : Except Failure α} :
    (Attempt.absorb result).Ends m r m' ↔
      r = result.value ∧ m' = { m with journal := m.journal ++ result.events } :=
  Machine.ends_absorb

end Galley
