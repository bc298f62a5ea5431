import Galley.Settings.Update

/-! # Settings after updates

Updates are applied one after another. A field that is replaced by what an update carries for it has in the
end the last value carried, whatever the other fields are. -/

namespace Galley.Settings

variable {env : Environment} {s : Settings} {u : Update} {us : List Update}

/-- The settings after updates, applied one after another. -/
def layered (env : Environment) (s : Settings) (us : List Update) : Settings := us.foldl (apply env) s

@[simp] theorem layered_nil : layered env s [] = s := rfl

@[simp] theorem layered_cons : layered env s (u :: us) = layered env (s.apply env u) us := rfl

theorem layered_append (us vs : List Update) :
    layered env s (us ++ vs) = layered env (layered env s us) vs := List.foldl_append

theorem getLast?_map_cons {α β : Type} (accept : α → β) (a : α) (rest : List α) (old : β) :
    ((a :: rest).getLast?.map accept).getD old = (rest.getLast?.map accept).getD (accept a) := by
  rw [List.getLast?_cons]
  cases rest.getLast? <;> rfl

/-- What one update does to a field is done to it by the last update that carries it. -/
theorem layered_field {α β : Type} (get : Settings → β) (carried? : Update → Option α)
    (accept : α → β) (h : ∀ s u, get (s.apply env u) = ((carried? u).map accept).getD (get s))
    (s : Settings) (us : List Update) :
    get (layered env s us) = ((us.filterMap carried?).getLast?.map accept).getD (get s) := by
  induction us generalizing s with
  | nil => rfl
  | cons u us ih =>
    rw [layered_cons, ih, h]
    cases hc : carried? u with
    | none => rw [List.filterMap_cons_none hc]; rfl
    | some a => rw [List.filterMap_cons_some hc, getLast?_map_cons]; rfl

/-- Settings whose fields are the last that updates carry for them, each accepted on its own, and else
those from before. The directories that follow the base path are left out. -/
structure Composes (env : Environment) (before : Settings) (us : List Update) (after : Settings) :
    Prop where
  program : after.program =
    ((us.filterMap Update.program).getLast?.map acceptedProgram).getD before.program
  timeout : after.timeout =
    ((us.filterMap Update.timeout).getLast?.map acceptedTimeout).getD before.timeout
  format : after.format =
    ((us.filterMap Update.format).getLast?.map acceptedFormat).getD before.format
  fontPaths : after.fontPaths =
    ((us.filterMap Update.fontPaths).getLast?.map fun paths => paths.map (expand env)).getD
      before.fontPaths
  root : after.root = ((us.filterMap Update.root).getLast?.map (acceptedRoot env)).getD before.root
  basePath : after.basePath =
    ((us.filterMap Update.basePath).getLast?.map (expand env)).getD before.basePath
  debug : after.debug = (us.filterMap Update.debug).getLast?.getD before.debug

theorem composes_layered (env : Environment) (s : Settings) (us : List Update) :
    Composes env s us (layered env s us) where
  program := layered_field Settings.program Update.program acceptedProgram (fun _ _ => rfl) s us
  timeout := layered_field Settings.timeout Update.timeout acceptedTimeout (fun _ _ => rfl) s us
  format := layered_field Settings.format Update.format acceptedFormat (fun _ _ => rfl) s us
  fontPaths := layered_field Settings.fontPaths Update.fontPaths _ (fun _ _ => rfl) s us
  root := layered_field Settings.root Update.root (acceptedRoot env) (fun _ _ => rfl) s us
  basePath := layered_field Settings.basePath Update.basePath (expand env) (fun _ _ => rfl) s us
  debug := by
    have h := @layered_field env _ _ Settings.debug Update.debug id
      (fun s u => by rw [Option.map_id_fun]; rfl) s us
    rwa [Option.map_id_fun] at h

/-! ## Safe values -/

theorem isSafeProgram_accepted (program : String) : isSafeProgram (acceptedProgram program) = true := by
  rw [acceptedProgram]
  split
  · assumption
  · decide

theorem isSafeFormat_accepted (format : String) : isSafeFormat (acceptedFormat format) = true := by
  rw [acceptedFormat]
  split
  · assumption
  · decide

/-- Settings whose program and format are safe. -/
structure IsSafe (s : Settings) : Prop where
  program : isSafeProgram s.program = true
  format : isSafeFormat s.format = true

theorem isSafe_default (base : Path) : IsSafe (default base) :=
  ⟨show isSafeProgram defaultProgram = true by decide, show isSafeFormat defaultFormat = true by decide⟩

/-- No update lets an unsafe value through. -/
theorem IsSafe.layered (h : IsSafe s) (env : Environment) (us : List Update) :
    IsSafe (layered env s us) := by
  have hall := composes_layered env s us
  constructor
  · rw [hall.program]
    cases (us.filterMap Update.program).getLast? with
    | none => exact h.program
    | some program => exact isSafeProgram_accepted program
  · rw [hall.format]
    cases (us.filterMap Update.format).getLast? with
    | none => exact h.format
    | some format => exact isSafeFormat_accepted format

/-! ## Plain texts -/

theorem fragments_of_plain {text : List Char} (h : '$' ∉ text) :
    fragments text = text.map fun c => .plain [c] := by
  induction text with
  | nil => rw [fragments]; rfl
  | cons c text ih =>
    rw [List.mem_cons, not_or] at h
    have hnext : Fragment.next c text = (.plain [c], text) := by
      rw [Fragment.next.eq_def, if_pos (Ne.symm h.1)]
    rw [fragments, hnext, ih h.2, List.map_cons]

theorem mapM_plain (text : List Char) :
    (text.map fun c => Fragment.plain [c]).mapM (Fragment.text? env) =
      some (text.map fun c => [c]) := by
  induction text with
  | nil => rfl
  | cons c text ih => simp [List.mapM_cons, ih, Fragment.text?]

/-- A text without references and without a tilde in front names the path that it writes. -/
theorem expand_of_plain {text : String} (h : '$' ∉ text.toList) (ht : text.toList.head? ≠ some '~') :
    expand env text = ⟨text⟩ := by
  have hflat : (text.toList.map fun c => [c]).flatten = text.toList := by
    rw [← List.flatMap_def, List.flatMap_singleton']
  rw [expand, substitute?, fragments_of_plain h, mapM_plain, Option.map_some, hflat]
  simp only [if_neg ht, String.ofList_toList]

end Galley.Settings
