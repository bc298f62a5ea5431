import Galley.Proofs.Dependency.Closure

/-! # The worklist of discovery

Discovery as a loop over a queue that grows while it is consumed. The loop is a relation that is not told how
many turns it may take, so there is a run of it exactly when it ends. What is done with files is noted on the
way: each file that is put into the graph was read once and comes up once, which bounds the turns by the number
of files. -/

namespace Galley.Dependency

open Typst (Import)

/-! ## The loop -/

inductive Deed where
  | dequeue
  | read
  | render
  | insert
deriving DecidableEq, Repr

/-- What is done with a file. -/
structure Action where
  deed : Deed
  file : Path
deriving DecidableEq, Repr

/-- The files with which something was done, one after another. -/
def filesOf (deed : Deed) (acts : List Action) : List Path :=
  (acts.filter fun a => a.deed = deed).map Action.file

structure Worklist where
  graph : Graph
  /-- The files of the graph with their content. -/
  sources : List Source
  /-- The files whose imports were not visited. -/
  queue : List Path

namespace Worklist

def empty : Worklist := ⟨.empty, [], []⟩

def push (w : Worklist) (x : Source) : Worklist :=
  ⟨w.graph.insert x.path x.importedAs, w.sources ++ [x], w.queue ++ [x.path]⟩

def source? (w : Worklist) (file : Path) : Option Source := w.sources.find? (·.path.same file)

/-- The visit of one import. -/
def visit (s : Surroundings) (directory : Option Path) (w : Worklist) (d : Import) :
    List Action × Except Failure Worklist :=
  match s.target? directory d with
  | none => ([], .ok w)
  | some file =>
    if w.graph.contains file then ([], .ok w)
    else
      match s.files.read file with
      | .error _ => ([⟨.read, file⟩], .ok w)
      | .ok bytes =>
        if Template.isTemplateFile file then
          match Template.render file.fileName (Text.Utf8.decodeLossy bytes) s.bindings with
          | .error e => ([⟨.read, file⟩, ⟨.render, file⟩], .error e)
          | .ok text => ([⟨.read, file⟩, ⟨.render, file⟩, ⟨.insert, file⟩],
              .ok (w.push ⟨file, String.ofList d.path, ⟨text, none⟩⟩))
        else ([⟨.read, file⟩, ⟨.insert, file⟩],
          .ok (w.push ⟨file, String.ofList d.path, .ofBytes bytes⟩))

/-- The visits of the imports of one text. -/
def visitAll (s : Surroundings) (directory : Option Path) :
    Worklist → List Import → List Action × Except Failure Worklist
  | w, [] => ([], .ok w)
  | w, d :: ds =>
    match w.visit s directory d with
    | (acts, .error e) => (acts, .error e)
    | (acts, .ok w') => (acts ++ (visitAll s directory w' ds).1, (visitAll s directory w' ds).2)

/-- One turn: a file is taken from the queue and the imports of its text are visited. A file without a
content is passed over. -/
def turn? (s : Surroundings) (w : Worklist) : Option (List Action × Except Failure Worklist) :=
  match w.queue with
  | [] => none
  | file :: queue =>
    let w := { w with queue }
    match w.source? file with
    | none => some ([⟨.dequeue, file⟩], .ok w)
    | some x =>
      let visits := w.visitAll s file.parent? (Import.directives x.content.text)
      some (⟨.dequeue, file⟩ :: visits.1, visits.2)

end Worklist

/-- The loop, from what visits came to on to its end: turns are taken as long as there are files in the queue
and no visit fails. -/
inductive Loop (s : Surroundings) :
    List Action × Except Failure Worklist → List Action → Except Failure Worklist → Prop where
  | failed {acts : List Action} {e : Failure} : Loop s (acts, .error e) acts (.error e)
  | ended {acts : List Action} {w : Worklist} :
      w.turn? s = none → Loop s (acts, .ok w) acts (.ok w)
  | next {acts more : List Action} {w : Worklist} {visits : List Action × Except Failure Worklist}
      {r : Except Failure Worklist} : w.turn? s = some visits → Loop s visits more r →
      Loop s (acts, .ok w) (acts ++ more) r

/-- A run of discovery: the imports of the entrypoint are visited, and then the loop begins. -/
def Discovers (s : Surroundings) (entrypoint : String) (directory : Option Path) :
    List Action → Except Failure Worklist → Prop :=
  Loop s (Worklist.empty.visitAll s directory (Import.directives entrypoint))

theorem Loop.unique {s : Surroundings} {visits : List Action × Except Failure Worklist}
    {acts acts' : List Action} {r r' : Except Failure Worklist}
    (h : Loop s visits acts r) (h' : Loop s visits acts' r') : acts' = acts ∧ r' = r := by
  induction h generalizing acts' r' with
  | failed =>
    cases h'
    exact ⟨rfl, rfl⟩
  | ended hturn =>
    cases h' with
    | ended => exact ⟨rfl, rfl⟩
    | next hturn' => rw [hturn] at hturn'; cases hturn'
  | next hturn _ ih =>
    cases h' with
    | ended hturn' => rw [hturn] at hturn'; cases hturn'
    | next hturn' hrest =>
      obtain rfl := Option.some.inj (hturn.symm.trans hturn')
      obtain ⟨rfl, rfl⟩ := ih hrest
      exact ⟨rfl, rfl⟩

/-! ## What was done -/

@[simp] theorem filesOf_nil (deed : Deed) : filesOf deed [] = [] := rfl

theorem filesOf_append (deed : Deed) (acts more : List Action) :
    filesOf deed (acts ++ more) = filesOf deed acts ++ filesOf deed more := by
  simp [filesOf]

theorem filesOf_cons (deed : Deed) (a : Action) (acts : List Action) :
    filesOf deed (a :: acts) = (if a.deed = deed then [a.file] else []) ++ filesOf deed acts := by
  by_cases h : a.deed = deed <;> simp [filesOf, h]

/-- The files with which something was done when `visited` of the files found were visited. -/
def doneWith (found : List Source) (visited : Nat) (deed : Deed) : List Path :=
  match deed with
  | .dequeue => (found.take visited).map Source.path
  | .render => (found.map Source.path).filter Template.isTemplateFile
  | .read | .insert => found.map Source.path

/-- A worklist where it stands after `visited` turns, and what was done up to there: it holds the files found,
in the order in which they were found. -/
structure Worklist.Reached (s : Surroundings) (entrypoint : String) (directory : Option Path)
    (visited : Nat) (w : Worklist) (acts : List Action) : Prop where
  progress : Progress s entrypoint directory w.sources
  graph : w.graph = .ofSources w.sources
  queue : w.queue = (w.sources.drop visited).map Source.path
  visited_le : visited ≤ w.sources.length
  done : ∀ deed, filesOf deed acts = doneWith w.sources visited deed

/-- What was done, whether discovery succeeded or not: nothing twice with one file, and not more often than
there are files. -/
structure Once (s : Surroundings) (acts : List Action) : Prop where
  nodup : ∀ deed, (filesOf deed acts).Nodup
  isFileAt : ∀ deed, ∀ file ∈ filesOf deed acts, ∃ place content, s.files.IsFileAt file place content

variable {s : Surroundings} {entrypoint : String} {directory : Option Path}

theorem sublist_doneWith (found : List Source) (visited : Nat) (deed : Deed) :
    (doneWith found visited deed).Sublist (found.map Source.path) := by
  cases deed with
  | dequeue => exact (List.take_sublist _ _).map _
  | render => exact List.filter_sublist
  | read => exact .refl _
  | insert => exact .refl _

theorem Progress.isFileAt {found : List Source} (h : Progress s entrypoint directory found)
    {file : Path} (hf : file ∈ found.map Source.path) :
    ∃ place content, s.files.IsFileAt file place content := by
  obtain ⟨x, hx, rfl⟩ := List.mem_map.1 hf
  exact (h.reachable hx).exists_isFileAt

theorem Worklist.Reached.once {visited : Nat} {w : Worklist} {acts : List Action}
    (h : w.Reached s entrypoint directory visited acts) : Once s acts := by
  constructor
  · intro deed
    rw [h.done]
    exact h.progress.nodup.sublist (sublist_doneWith _ _ deed)
  · intro deed file hf
    rw [h.done] at hf
    exact h.progress.isFileAt ((sublist_doneWith _ _ deed).subset hf)

/-! ## One visit -/

/-- The graph holds the files found. -/
theorem Progress.contains_iff {found : List Source} (h : Progress s entrypoint directory found)
    (file : Path) :
    (Graph.ofSources found).contains file = found.any (·.path.same file) := by
  rw [Bool.eq_iff_iff, Graph.contains, Graph.get?, List.find?_isSome, List.any_eq_true]
  constructor
  · rintro ⟨e, he, hs⟩
    obtain ⟨x, hx, rfl⟩ := h.mem_entries.1 he
    exact ⟨x, hx, hs⟩
  · rintro ⟨x, hx, hs⟩
    exact ⟨_, h.mem_entries.2 ⟨x, hx, rfl⟩, hs⟩

/-- What is done with a file that is found. -/
def findingActs (file : Path) : List Action :=
  if Template.isTemplateFile file then [⟨.read, file⟩, ⟨.render, file⟩, ⟨.insert, file⟩]
  else [⟨.read, file⟩, ⟨.insert, file⟩]

/-- A visit on the worklist and on the files found. -/
inductive Alike (s : Surroundings) (w : Worklist) (from? : Option Path) (d : Import) :
    Except Failure (Option Source) → List Action × Except Failure Worklist → Prop where
  | nothing : Alike s w from? d (.ok none) ([], .ok w)
  | new {x : Source} :
      Alike s w from? d (.ok (some x)) (findingActs x.path, .ok (w.push x))
  | failed {file : Path} {e : Failure} : s.target? from? d = some file →
      (∀ x ∈ w.sources, x.path.same file = false) →
      Alike s w from? d (.error e) ([⟨.read, file⟩, ⟨.render, file⟩], .error e)

theorem alike_visit {w : Worklist} (h : Progress s entrypoint directory w.sources)
    (hg : w.graph = .ofSources w.sources) (from? : Option Path) (d : Import) :
    Alike s w from? d (outcome (visit s from? w.sources d)) (w.visit s from? d) := by
  unfold visit Worklist.visit
  by_cases ha : d.isAbsolute = true
  · have ht : s.target? from? d = none := by rw [Surroundings.target?, if_pos ha]
    rw [if_pos ha, ht]
    exact .nothing
  have ht : s.target? from? d =
      (Lookup.find s.files s.roots from? (String.ofList d.path)).target? := by
    rw [Surroundings.target?, if_neg ha, lookup?]
  rw [if_neg ha, outcome_bind, outcome_report, hg]
  simp only [Except.bind, ← ht]
  cases hf : s.target? from? d with
  | none => exact .nothing
  | some file =>
    obtain ⟨place, content, hfile⟩ := exists_isFileAt_of_target? hf
    simp only [h.contains_iff]
    by_cases hs : w.sources.any (·.path.same file) = true
    · simp only [if_pos hs]
      exact .nothing
    · have hnew : ∀ x ∈ w.sources, x.path.same file = false := by simpa using hs
      simp only [if_neg hs, hfile.read, outcome_bind, outcome_report, outcome_pure, outcome_load]
      by_cases htemplate : Template.isTemplateFile file = true
      · simp only [if_pos htemplate]
        cases hr : Template.render file.fileName (Text.Utf8.decodeLossy content) s.bindings with
        | error e => exact .failed hf hnew
        | ok text =>
          have hnew := @Alike.new s w from? d ⟨file, String.ofList d.path, ⟨text, none⟩⟩
          rw [findingActs, if_pos htemplate] at hnew
          exact hnew
      · simp only [if_neg htemplate]
        have hnew := @Alike.new s w from? d ⟨file, String.ofList d.path, .ofBytes content⟩
        rw [findingActs, if_neg htemplate] at hnew
        exact hnew

theorem Worklist.Reached.push {visited : Nat} {w : Worklist} {acts : List Action} {x : Source}
    (h : w.Reached s entrypoint directory visited acts)
    (hp : Progress s entrypoint directory (w.sources ++ [x])) :
    (w.push x).Reached s entrypoint directory visited (acts ++ findingActs x.path) := by
  have hle := h.visited_le
  refine ⟨hp, ?_, ?_, ?_, fun deed => ?_⟩
  · simp [Worklist.push, h.graph, Graph.ofSources]
  · simp [Worklist.push, h.queue, List.drop_append_of_le_length hle]
  · simp only [Worklist.push, List.length_append]
    omega
  · have hfinding : filesOf deed (findingActs x.path) = match deed with
        | .dequeue => []
        | .render => [x.path].filter Template.isTemplateFile
        | .read | .insert => [x.path] := by
      unfold findingActs
      by_cases ht : Template.isTemplateFile x.path = true
      · rw [if_pos ht]
        cases deed <;> simp [filesOf_cons, ht]
      · rw [if_neg ht]
        cases deed <;> simp [filesOf_cons, ht]
    rw [filesOf_append, h.done, hfinding]
    cases deed <;> simp [doneWith, Worklist.push, List.take_append_of_le_length hle]

/-- A file that was not found can be read and rendered once more. -/
theorem Worklist.Reached.once_failed {visited : Nat} {w : Worklist} {acts : List Action}
    {from? : Option Path} {d : Import} {file : Path}
    (h : w.Reached s entrypoint directory visited acts) (hf : s.target? from? d = some file)
    (hnew : ∀ x ∈ w.sources, x.path.same file = false) :
    Once s (acts ++ [⟨.read, file⟩, ⟨.render, file⟩]) := by
  have hfresh : file ∉ w.sources.map Source.path := by
    intro hm
    obtain ⟨x, hx, rfl⟩ := List.mem_map.1 hm
    have hself : x.path.same x.path = true := Path.same_iff.2 rfl
    rw [hnew x hx] at hself
    cases hself
  have hmore (deed : Deed) : ∀ other ∈ filesOf deed [⟨.read, file⟩, ⟨.render, file⟩],
      other = file := by
    cases deed <;> simp [filesOf_cons]
  constructor
  · intro deed
    rw [filesOf_append, List.nodup_append]
    refine ⟨h.once.nodup deed, ?_, fun a ha b hb he => ?_⟩
    · cases deed <;> simp [filesOf_cons]
    · rw [h.done] at ha
      rw [he, hmore deed b hb] at ha
      exact hfresh ((sublist_doneWith _ _ deed).subset ha)
  · intro deed other ho
    rw [filesOf_append, List.mem_append] at ho
    rcases ho with ho | ho
    · exact h.once.isFileAt deed other ho
    · rw [hmore deed other ho]
      exact exists_isFileAt_of_target? hf

/-- What visits on the worklist came to, beside what they came to on the files found. -/
inductive Follows (s : Surroundings) (entrypoint : String) (directory : Option Path)
    (visited : Nat) (acts : List Action) :
    Except Failure (List Source) → List Action × Except Failure Worklist → Prop where
  | ok {w : Worklist} {more : List Action} :
      w.Reached s entrypoint directory visited (acts ++ more) →
      Follows s entrypoint directory visited acts (.ok w.sources) (more, .ok w)
  | failed {more : List Action} {e : Failure} : Once s (acts ++ more) →
      Follows s entrypoint directory visited acts (.error e) (more, .error e)

theorem Follows.before {visited : Nat} {acts front more : List Action}
    {result : Except Failure (List Source)} {r : Except Failure Worklist}
    (h : Follows s entrypoint directory visited (acts ++ front) result (more, r)) :
    Follows s entrypoint directory visited acts result (front ++ more, r) := by
  cases h with
  | ok hr => exact .ok (by rwa [← List.append_assoc])
  | failed ho => exact .failed (by rwa [← List.append_assoc])

theorem follows_visit {visited : Nat} {w : Worklist} {acts : List Action} {from? : Option Path}
    {d : Import} (h : w.Reached s entrypoint directory visited acts)
    (hi : ∀ file, s.target? from? d = some file →
      ImportedAs s entrypoint directory (String.ofList d.path) file) :
    Follows s entrypoint directory visited acts
      ((outcome (visit s from? w.sources d)).map fun x? => w.sources ++ x?.toList)
      (w.visit s from? d) := by
  have halike := alike_visit h.progress h.graph from? d
  have hvisit := visit_cases s from? w.sources d
  generalize outcome (visit s from? w.sources d) = result at halike hvisit
  generalize w.visit s from? d = result' at halike
  cases halike with
  | nothing =>
    have hok := @Follows.ok s entrypoint directory visited acts w [] (by rwa [List.append_nil])
    simpa [Except.map] using hok
  | new =>
    cases hvisit with
    | new ht hnew hc => exact .ok (h.push (h.progress.append (hi _ ht) hc hnew))
  | failed ht hnew => exact .failed (h.once_failed ht hnew)

/-! ## All visits -/

theorem follows_visitAll {visited : Nat} {w : Worklist} {acts : List Action}
    {from? : Option Path} {ds : List Import}
    (h : w.Reached s entrypoint directory visited acts)
    (hi : ∀ d ∈ ds, ∀ file, s.target? from? d = some file →
      ImportedAs s entrypoint directory (String.ofList d.path) file) :
    Follows s entrypoint directory visited acts (outcome (visitAll s from? w.sources ds))
      (w.visitAll s from? ds) := by
  induction ds generalizing w acts with
  | nil => exact .ok (by rwa [List.append_nil])
  | cons d ds ih =>
    have hfirst := follows_visit h (hi d List.mem_cons_self)
    rw [visitAll, outcome_bind, Worklist.visitAll]
    generalize outcome (visit s from? w.sources d) = result at hfirst
    generalize w.visit s from? d = result' at hfirst
    cases result with
    | error e =>
      cases hfirst with
      | failed honce => exact .failed honce
    | ok x? =>
      simp only [Except.map] at hfirst
      generalize hsources : w.sources ++ x?.toList = found at hfirst
      simp only [Except.bind]
      rw [hsources]
      cases hfirst with
      | @ok w' more hreached =>
        have hrest := ih hreached fun d hd => hi d (List.mem_cons_of_mem _ hd)
        simp only
        exact hrest.before

/-- The next turn visits the imports of the next of the files found. -/
theorem follows_turn {visited : Nat} {w : Worklist} {acts : List Action} {x : Source}
    (h : w.Reached s entrypoint directory visited acts) (hx : w.sources[visited]? = some x) :
    ∃ visits, w.turn? s = some visits ∧
      Follows s entrypoint directory (visited + 1) acts
        (outcome (visitAll s x.path.parent? w.sources (Import.directives x.content.text)))
        visits := by
  obtain ⟨hlt, hget⟩ := List.getElem?_eq_some_iff.1 hx
  have hmem := List.mem_of_getElem? hx
  have hqueue : w.queue = x.path :: (w.sources.drop (visited + 1)).map Source.path := by
    rw [h.queue, List.drop_eq_getElem_cons hlt, hget, List.map_cons]
  let w' : Worklist := { w with queue := (w.sources.drop (visited + 1)).map Source.path }
  have hsource : w'.source? x.path = some x := h.progress.find?_path hmem
  have htaken : w'.Reached s entrypoint directory (visited + 1)
      (acts ++ [⟨.dequeue, x.path⟩]) := by
    refine ⟨h.progress, h.graph, rfl, hlt, fun deed => ?_⟩
    rw [filesOf_append, h.done]
    cases deed <;> simp [filesOf_cons, doneWith, w', List.take_add_one, hx]
  have hvisits : Follows s entrypoint directory (visited + 1) (acts ++ [⟨.dequeue, x.path⟩])
      (outcome (visitAll s x.path.parent? w'.sources (Import.directives x.content.text)))
      (w'.visitAll s x.path.parent? (Import.directives x.content.text)) :=
    follows_visitAll htaken fun d hd file ht =>
      .inr ⟨x.path, x.content.text, h.progress.reachable hmem, (h.progress.content x hmem).text,
        d, hd, rfl, ht⟩
  refine ⟨_, ?_, hvisits.before⟩
  rw [Worklist.turn?, hqueue]
  simp only [w'] at hsource
  simp only [hsource]
  rfl

/-- What a run of the loop came to: on success every file that was found was visited. -/
inductive Finished (s : Surroundings) (entrypoint : String) (directory : Option Path) :
    Except Failure (List Source) → List Action → Except Failure Worklist → Prop where
  | ok {w : Worklist} {acts : List Action} :
      w.Reached s entrypoint directory w.sources.length acts →
      Finished s entrypoint directory (.ok w.sources) acts (.ok w)
  | failed {acts : List Action} {e : Failure} : Once s acts →
      Finished s entrypoint directory (.error e) acts (.error e)

/-- The loop ends, since it takes no more turns than there are files. -/
theorem exists_loop (fuel visited : Nat) {w : Worklist} {before acts : List Action}
    (h : w.Reached s entrypoint directory visited (before ++ acts))
    (hfuel : s.files.fileCount < fuel + visited) :
    ∃ all r, Loop s (acts, .ok w) all r ∧
      Finished s entrypoint directory (outcome (discoverFrom s fuel visited w.sources))
        (before ++ all) r := by
  induction fuel generalizing visited w before acts with
  | zero =>
    have := h.progress.length_le
    have := h.visited_le
    omega
  | succ fuel ih =>
    rw [discoverFrom]
    cases hx : w.sources[visited]? with
    | none =>
      have hlength := List.getElem?_eq_none_iff.1 hx
      have hturn : w.turn? s = none := by
        rw [Worklist.turn?, h.queue, List.drop_of_length_le hlength, List.map_nil]
      obtain rfl := Nat.le_antisymm h.visited_le hlength
      exact ⟨acts, .ok w, .ended hturn, .ok h⟩
    | some x =>
      obtain ⟨visits, hturn, hfollows⟩ := follows_turn h hx
      simp only [outcome_bind]
      generalize outcome (visitAll s x.path.parent? w.sources (Import.directives x.content.text)) =
        result at hfollows
      cases hfollows with
      | failed honce =>
        rw [List.append_assoc] at honce
        exact ⟨_, _, .next hturn .failed, .failed honce⟩
      | ok hreached =>
        obtain ⟨all, r, hloop, hfinished⟩ := ih (visited + 1) hreached (by omega)
        rw [List.append_assoc] at hfinished
        exact ⟨_, r, .next hturn hloop, hfinished⟩

theorem exists_discovers (s : Surroundings) (entrypoint : String) (directory : Option Path) :
    ∃ acts r, Discovers s entrypoint directory acts r ∧
      Finished s entrypoint directory (outcome (discover s entrypoint directory)) acts r := by
  have hempty : Worklist.empty.Reached s entrypoint directory 0 [] :=
    ⟨.nil, rfl, rfl, Nat.le_refl 0, fun deed => by cases deed <;> rfl⟩
  have hfirst : Follows s entrypoint directory 0 []
      (outcome (visitAll s directory [] (Import.directives entrypoint)))
      (Worklist.empty.visitAll s directory (Import.directives entrypoint)) :=
    follows_visitAll hempty fun d hd file ht => .inl ⟨d, hd, rfl, ht⟩
  rw [discover, outcome_bind]
  unfold Discovers
  generalize outcome (visitAll s directory [] (Import.directives entrypoint)) = result at hfirst
  generalize Worklist.empty.visitAll s directory (Import.directives entrypoint) = visits at hfirst ⊢
  cases hfirst with
  | failed honce => exact ⟨_, _, .failed, .failed honce⟩
  | ok hreached => exact exists_loop _ 0 hreached (by omega)

/-- The graph has as many entries as files were found. -/
theorem Progress.size_ofSources {found : List Source}
    (h : Progress s entrypoint directory found) : (Graph.ofSources found).size = found.length := by
  have hperm : ((Graph.ofSources found).entries.map Entry.source).Perm (found.map Source.path) := by
    refine (List.perm_ext_iff_of_nodup (Graph.nodup_source _) h.nodup).2 fun file => ?_
    constructor
    · intro hf
      obtain ⟨e, he, rfl⟩ := List.mem_map.1 hf
      obtain ⟨x, hx, rfl⟩ := h.mem_entries.1 he
      exact List.mem_map_of_mem hx
    · intro hf
      obtain ⟨x, hx, rfl⟩ := List.mem_map.1 hf
      exact List.mem_map.2 ⟨_, h.mem_entries.2 ⟨x, hx, rfl⟩, rfl⟩
  have hlength := hperm.length_eq
  rwa [List.length_map, List.length_map] at hlength

theorem Finished.once {result : Except Failure (List Source)} {acts : List Action}
    {r : Except Failure Worklist} (h : Finished s entrypoint directory result acts r) :
    Once s acts := by
  cases h with
  | ok hreached => exact hreached.once
  | failed honce => exact honce

/-- Discovery ends, and there is one run of it. Nothing is done twice with one file, so the turns are no more
than the files there are. When it succeeds, the graph has one entry for each turn, and the files that came up
are those that were read and put into the graph. -/
theorem discovery_ends (s : Surroundings) (entrypoint : String) (directory : Option Path) :
    ∃ acts r, Discovers s entrypoint directory acts r ∧
      (∀ acts' r', Discovers s entrypoint directory acts' r' → acts' = acts ∧ r' = r) ∧
      r.map Worklist.sources = outcome (discover s entrypoint directory) ∧
      (∀ deed, (filesOf deed acts).Nodup ∧
        ∀ file ∈ filesOf deed acts, ∃ place content, s.files.IsFileAt file place content) ∧
      (filesOf .dequeue acts).length ≤ s.files.fileCount ∧
      ∀ w, r = .ok w → w.queue = [] ∧ w.graph = .ofSources w.sources ∧
        (filesOf .dequeue acts).length = w.graph.size ∧
        filesOf .dequeue acts = filesOf .insert acts ∧
        filesOf .read acts = filesOf .insert acts := by
  obtain ⟨acts, r, hrun, hfinished⟩ := exists_discovers s entrypoint directory
  have honce := hfinished.once
  refine ⟨acts, r, hrun, fun acts' r' hrun' => hrun.unique hrun', ?_,
    fun deed => ⟨honce.nodup deed, honce.isFileAt deed⟩,
    FileSystem.length_le_fileCount (honce.nodup .dequeue) (honce.isFileAt .dequeue), ?_⟩
  · generalize outcome (discover s entrypoint directory) = result at hfinished
    cases hfinished <;> rfl
  · rintro w rfl
    generalize outcome (discover s entrypoint directory) = result at hfinished
    cases hfinished with
    | ok h =>
      have hdequeued : filesOf .dequeue acts = w.sources.map Source.path := by
        rw [h.done, doneWith, List.take_length]
      refine ⟨?_, h.graph, ?_, ?_, ?_⟩
      · rw [h.queue, List.drop_length, List.map_nil]
      · rw [hdequeued, List.length_map, h.graph, h.progress.size_ofSources]
      · rw [hdequeued, h.done, doneWith]
      · rw [h.done, h.done, doneWith, doneWith]

end Galley.Dependency
