import Galley.Proofs.Dependency.ImportKey
import Galley.Proofs.Dependency.Independence

/-! # Files that are not well-formed

The octets of a file that is not well-formed are kept beside the text that they show, and handed on when no import
in that text is redirected. A template has only its printed text: what is handed on for it is well-formed, so never
the octets that were there. -/

namespace Galley

theorem Text.Utf8.decode?_encode (text : String) :
    Text.Utf8.decode? (Text.Utf8.encode text) = some text := by
  have hm : (text.toList.map some).mapM id = some text.toList := by
    induction text.toList with
    | nil => rfl
    | cons c cs ih => simp [ih]
  rw [Text.Utf8.decode?, Text.Utf8.units_encode, hm, Option.map_some, String.ofList_toList]

theorem Text.Utf8.encode_ne {bytes : Text.Bytes} (h : Text.Utf8.decode? bytes = none) (text : String) :
    Text.Utf8.encode text ≠ bytes := by
  rintro rfl
  rw [Text.Utf8.decode?_encode] at h
  cases h

open Typst (Import)

/-- A text is kept when nothing has another path. -/
theorem Typst.Import.redirect_of_none {text : String} {f : Import → Option String}
    (h : ∀ d ∈ Import.directives text, f d = none) : Import.redirect text f = text := by
  have hid : Import.Piece.redirect (fun _ => none) = id := by
    funext piece
    cases piece <;> rfl
  rw [Import.redirect_congr (g := fun _ => none) h, Import.redirect, hid, List.map_id,
    Import.flatMap_text_pieces, String.ofList_toList]

namespace Dependency

variable {s : Surroundings} {entrypoint : String} {directory : Option Path} {r : Resolution} {f : ResolvedFile}
  {bytes : Text.Bytes}

/-- No import of a text, seen from a directory, means a file of the graph. -/
def Graph.Misses (g : Graph) (s : Surroundings) (directory : Option Path) (text : String) : Prop :=
  ∀ d ∈ Import.directives text, ∀ file, s.target? directory d = some file → g.contains file = false

theorem Graph.Misses.redirect_eq {g : Graph} {text : String} (h : g.Misses s directory text) :
    redirect s g directory text = text := by
  refine Import.redirect_of_none fun d hd => ?_
  by_cases ha : d.isAbsolute = true
  · rw [replacement?, if_pos ha]
  have ht : s.target? directory d = lookup? s.files s.roots directory (String.ofList d.path) := by
    rw [Surroundings.target?, if_neg ha]
  rw [replacement?, if_neg ha, ← ht]
  cases hf : s.target? directory d with
  | none => rfl
  | some file =>
    have hc : g.get? file = none := Option.isNone_iff_eq_none.1 (by simpa [contains] using h d hd file hf)
    rw [Option.bind_some, Graph.scratch?, hc, Option.map_none]

/-- A file of a resolution has what is emitted for a content of it, redirected with the graph. -/
theorem emitted_of_resolve (h : outcome (resolve s entrypoint directory) = .ok r) (hf : f ∈ r.files) :
    ∃ content, content.IsOf s f.entry.source ∧
      f.content = emitted content (redirect s r.graph f.entry.source.parent? content.text) := by
  rw [outcome_resolve] at h
  rcases discover_cases s entrypoint directory with ⟨found, hd, hp, -⟩ | ⟨e, file, hd, -, -⟩
  · rw [hd] at h
    obtain rfl : Resolution.ofSources s found entrypoint directory = r := Except.ok.inj h
    obtain ⟨e, he, hf⟩ := List.mem_filterMap.1 hf
    obtain ⟨x, hx, hx', rfl⟩ := hp.exists_source he
    rw [hx'] at hf
    obtain rfl : resolvedFile s (Graph.ofSources found) (.of x.path x.importedAs) x = f := by
      simpa using hf
    exact ⟨x.content, hp.content x hx, rfl⟩
  · rw [hd] at h
    cases h

theorem Content.IsOf.load {file : Path} {content : Content} (h : content.IsOf s file)
    (hread : s.files.read file = .ok bytes) :
    outcome (Content.load s.bindings file bytes) = .ok content := by
  obtain ⟨bytes', hread', hload⟩ := h.loaded
  obtain rfl : bytes = bytes' := Except.ok.inj (hread.symm.trans hread')
  exact hload

/-- A file with octets that are not well-formed is handed on with these octets exactly when it is no template and
its imports are left as they are, and else with those of its text, in which its imports are redirected. They are left
as they are when none of them means a file that was found. -/
theorem illFormed_kept_iff (h : outcome (resolve s entrypoint directory) = .ok r) (hf : f ∈ r.files)
    (hread : s.files.read f.entry.source = .ok bytes) (hill : Text.Utf8.decode? bytes = none) :
    ∃ text,
      (if Template.isTemplateFile f.entry.source then
        Template.render f.entry.source.fileName (Text.Utf8.decodeLossy bytes) s.bindings = .ok text
      else text = Text.Utf8.decodeLossy bytes) ∧
      (f.content = bytes ↔ Template.isTemplateFile f.entry.source = false ∧
        redirect s r.graph f.entry.source.parent? text = text) ∧
      (f.content ≠ bytes →
        f.content = Text.Utf8.encode (redirect s r.graph f.entry.source.parent? text)) ∧
      (r.graph.Misses s f.entry.source.parent? text →
        redirect s r.graph f.entry.source.parent? text = text) := by
  obtain ⟨content, hcontent, hemitted⟩ := emitted_of_resolve h hf
  have hload := hcontent.load hread
  rw [outcome_load] at hload
  by_cases ht : Template.isTemplateFile f.entry.source = true
  · rw [if_pos ht] at hload
    cases hrender : Template.render f.entry.source.fileName (Text.Utf8.decodeLossy bytes) s.bindings with
    | error e =>
      rw [hrender] at hload
      cases hload
    | ok text =>
      rw [hrender] at hload
      obtain rfl : (⟨text, none⟩ : Content) = content := Except.ok.inj hload
      have he : f.content = Text.Utf8.encode (redirect s r.graph f.entry.source.parent? text) := hemitted
      refine ⟨text, by rw [if_pos ht], ⟨fun hk => ?_, fun hk => ?_⟩, fun _ => he, Graph.Misses.redirect_eq⟩
      · exact absurd (he.symm.trans hk) (Text.Utf8.encode_ne hill _)
      · rw [ht] at hk
        cases hk.1
  · rw [if_neg ht] at hload
    obtain rfl : Content.ofBytes bytes = content := Except.ok.inj hload
    have hcontent : Content.ofBytes bytes = ⟨Text.Utf8.decodeLossy bytes, some bytes⟩ := by
      simp only [Content.ofBytes, hill]
    rw [hcontent] at hemitted
    have hn : Template.isTemplateFile f.entry.source = false := Bool.eq_false_iff.2 ht
    refine ⟨Text.Utf8.decodeLossy bytes, by rw [if_neg ht], ?_, ?_, Graph.Misses.redirect_eq⟩
    · by_cases hkept : redirect s r.graph f.entry.source.parent? (Text.Utf8.decodeLossy bytes) =
          Text.Utf8.decodeLossy bytes
      · simp only [emitted, if_pos hkept] at hemitted
        exact iff_of_true hemitted ⟨hn, hkept⟩
      · simp only [emitted, if_neg hkept] at hemitted
        refine iff_of_false (fun hk => ?_) fun hk => hkept hk.2
        exact Text.Utf8.encode_ne hill _ (hemitted.symm.trans hk)
    · intro hne
      by_cases hkept : redirect s r.graph f.entry.source.parent? (Text.Utf8.decodeLossy bytes) =
          Text.Utf8.decodeLossy bytes
      · simp only [emitted, if_pos hkept] at hemitted
        exact absurd hemitted hne
      · simpa only [emitted, if_neg hkept] using hemitted

/-! ## A template and another file of one octet -/

/-- A directory with a template and another file, each of one octet that begins no character. -/
def illFormed : Surroundings where
  files := ⟨[(["t"], .directory), (["t", "a.tera.typ"], .file [0xFF]), (["t", "b.typ"], .file [0xFF])], [],
    by decide⟩
  roots := ⟨⟨"/t"⟩, ⟨"/t"⟩⟩
  bindings := []

def illFormedImports : String := "#import \"a.tera.typ\": x\n#import \"b.typ\": y"

theorem direct_illFormed {name : String} (h : name = "a.tera.typ" ∨ name = "b.typ") :
    illFormed.files.Direct ["t", name] ∧ illFormed.files.node? ["t", name] = some (.file [0xFF]) := by
  have ht : illFormed.files.Direct ["t"] :=
    (FileSystem.Direct.root _).append (FileSystem.node?_root _) (by decide) (by decide)
  rcases h with rfl | rfl
  · exact ⟨ht.append rfl (by decide) (by decide), rfl⟩
  · exact ⟨ht.append rfl (by decide) (by decide), rfl⟩

theorem target?_illFormed {d : Import} {name : String} (h : name = "a.tera.typ" ∨ name = "b.typ")
    (hd : d.path = name.toList) :
    illFormed.target? (some ⟨"/t"⟩) d = some (.ofLocation ["t", name]) := by
  obtain ⟨hdirect, hnode⟩ := direct_illFormed h
  have hpath : String.ofList d.path = name := by rw [hd, String.ofList_toList]
  have hall : (name.isEmpty = false ∧ (⟨name⟩ : Path).isAbsolute = false) ∧ d.isAbsolute = false ∧
      FileSystem.IsWalkable (.ofLocation ["t", name]) ∧
      (Path.ofLocation ["t", name]).isProtected = false ∧
      Lookup.candidate illFormed.roots (some ⟨"/t"⟩) name = .ofLocation ["t", name] := by
    rw [Import.isAbsolute, hd]
    rcases h with rfl | rfl <;> decide
  obtain ⟨hname, habsolute, hwalkable, hprotected, hcandidate⟩ := hall
  have hfind : illFormed.files.find (Lookup.candidate illFormed.roots (some ⟨"/t"⟩) name) =
      .ok ["t", name] := by
    rw [hcandidate]
    exact FileSystem.find_eq_ok_iff.2 (FileSystem.locate_of_direct hdirect hnode (by simp) hwalkable)
  rw [Surroundings.target?, habsolute, if_neg Bool.false_ne_true, hpath]
  exact lookup?_of_find hname hfind hnode hwalkable hprotected

theorem read_illFormed {name : String} (h : name = "a.tera.typ" ∨ name = "b.typ") :
    illFormed.files.read (.ofLocation ["t", name]) = .ok [0xFF] := by
  obtain ⟨hdirect, hnode⟩ := direct_illFormed h
  refine FileSystem.read_eq_ok_iff.2 (FileSystem.status_of_direct hdirect hnode (by simp) ?_)
  rcases h with rfl | rfl <;> decide

theorem paths_illFormedImports :
    (Import.directives illFormedImports).map Import.path = ["a.tera.typ".toList, "b.typ".toList] := by cbv

theorem decodeLossy_illFormed : Text.Utf8.decodeLossy [0xFF] = "\uFFFD" := by decide +kernel

theorem render_illFormed : Template.render "a.tera.typ" "\uFFFD" [] = .ok "\uFFFD" := by cbv

theorem directives_illFormed : Import.directives "\uFFFD" = [] := by cbv

theorem sourceText?_illFormed {name : String} (h : name = "a.tera.typ" ∨ name = "b.typ") :
    illFormed.sourceText? (.ofLocation ["t", name]) = some "\uFFFD" := by
  have hname : (Path.ofLocation ["t", "a.tera.typ"]).fileName = "a.tera.typ" := by decide
  simp only [Surroundings.sourceText?, read_illFormed h, decodeLossy_illFormed]
  rcases h with rfl | rfl
  · rw [if_pos (by decide), hname]
    exact congrArg Except.toOption render_illFormed
  · rw [if_neg (by decide)]

theorem reachable_illFormed_iff {file : Path} :
    Reachable illFormed illFormedImports (some ⟨"/t"⟩) file ↔
      ∃ name, (name = "a.tera.typ" ∨ name = "b.typ") ∧ file = .ofLocation ["t", name] := by
  constructor
  · intro h
    induction h with
    | direct hi =>
      obtain ⟨d, hd, -, ht⟩ := hi
      have hpath := List.mem_map_of_mem (f := Import.path) hd
      rw [paths_illFormedImports] at hpath
      obtain ⟨name, hname, hpath⟩ : ∃ name, (name = "a.tera.typ" ∨ name = "b.typ") ∧ d.path = name.toList := by
        simpa using hpath
      rw [target?_illFormed hname hpath] at ht
      exact ⟨name, hname, (Option.some.inj ht).symm⟩
    | through _ ht hi ih =>
      obtain ⟨name, hname, rfl⟩ := ih
      rw [sourceText?_illFormed hname] at ht
      obtain ⟨d, hd, -⟩ := hi
      rw [← Option.some.inj ht, directives_illFormed] at hd
      cases hd
  · rintro ⟨name, hname, rfl⟩
    obtain ⟨d, hd, hpath⟩ : ∃ d ∈ Import.directives illFormedImports, d.path = name.toList := by
      rw [← List.mem_map, paths_illFormedImports]
      rcases hname with rfl | rfl <;> simp
    exact .direct ⟨d, hd, rfl, target?_illFormed hname hpath⟩

/-- The other file is handed on with its octet. The template is printed as its text is, and imports nothing, and
is handed on with the three octets of the replacement character. -/
theorem illFormed_kept_iff_template :
    ∃ r, outcome (resolve illFormed illFormedImports (some ⟨"/t"⟩)) = .ok r ∧
      (∃ f ∈ r.files, f.entry.source = ⟨"/t/b.typ"⟩ ∧ f.content = [0xFF]) ∧
      Template.render "a.tera.typ" (Text.Utf8.decodeLossy [0xFF]) [] = .ok (Text.Utf8.decodeLossy [0xFF]) ∧
      Import.directives (Text.Utf8.decodeLossy [0xFF]) = [] ∧
      ∃ f ∈ r.files, f.entry.source = ⟨"/t/a.tera.typ"⟩ ∧ f.content = [0xEF, 0xBF, 0xBD] := by
  obtain ⟨r, h, hcontains⟩ := @exists_resolve illFormed illFormedImports (some ⟨"/t"⟩) fun file hfile => by
    obtain ⟨name, hname, rfl⟩ := reachable_illFormed_iff.1 hfile
    exact ⟨_, sourceText?_illFormed hname⟩
  have hill : Text.Utf8.decode? [0xFF] = none := by decide +kernel
  have hmisses : ∀ parent, r.graph.Misses illFormed parent (Text.Utf8.decodeLossy [0xFF]) := by
    intro parent d hd
    rw [decodeLossy_illFormed, directives_illFormed] at hd
    cases hd
  have hfile : ∀ name, (name = "a.tera.typ" ∨ name = "b.typ") →
      ∃ f ∈ r.files, f.entry.source = .ofLocation ["t", name] := by
    intro name hname
    have hreach := reachable_illFormed_iff.2 ⟨name, hname, rfl⟩
    obtain ⟨f, hf, hs⟩ := exists_file_of_contains h (hcontains _ hreach)
    exact ⟨f, hf, (materialized_of_resolve h hf).1.eq_of_same hreach hs⟩
  refine ⟨r, h, ?_, ?_, ?_, ?_⟩
  · obtain ⟨f, hf, hs⟩ := hfile "b.typ" (.inr rfl)
    have ht : Template.isTemplateFile f.entry.source = false := by rw [hs]; decide
    obtain ⟨text, htext, hkept, -, hsame⟩ :=
      illFormed_kept_iff h hf (by rw [hs]; exact read_illFormed (.inr rfl)) hill
    rw [ht] at htext
    obtain rfl : text = Text.Utf8.decodeLossy [0xFF] := htext
    exact ⟨f, hf, hs, hkept.2 ⟨ht, hsame (hmisses _)⟩⟩
  · rw [decodeLossy_illFormed]
    exact render_illFormed
  · rw [decodeLossy_illFormed]
    exact directives_illFormed
  · obtain ⟨f, hf, hs⟩ := hfile "a.tera.typ" (.inl rfl)
    have ht : Template.isTemplateFile f.entry.source = true := by rw [hs]; decide
    have hname : f.entry.source.fileName = "a.tera.typ" := by rw [hs]; decide
    obtain ⟨text, htext, hkept, hother, hsame⟩ :=
      illFormed_kept_iff h hf (by rw [hs]; exact read_illFormed (.inl rfl)) hill
    rw [ht, if_pos rfl, hname, decodeLossy_illFormed] at htext
    obtain rfl : "\uFFFD" = text := Except.ok.inj (render_illFormed.symm.trans htext)
    have hne : f.content ≠ [0xFF] := by
      rw [Ne, hkept, ht]
      simp
    rw [← decodeLossy_illFormed] at hsame hother
    refine ⟨f, hf, hs, (hother hne).trans ?_⟩
    rw [hsame (hmisses _), decodeLossy_illFormed]
    decide

end Dependency

end Galley
