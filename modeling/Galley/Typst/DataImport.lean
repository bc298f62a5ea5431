import Galley.Event
import Galley.Text.Blank
import Galley.Text.Search
import Galley.Typst.Literal

/-!
Data import directives: `#!import`, a quoted path that may be empty, `with_data:` and the name of a
value. Such a directive is replaced by declarations of the value and of the fields of a record, and
by an import of the path. Inserted text is not read again.
-/

namespace Galley.Typst

/-- A data import directive, cut into its parts. -/
structure DataImport where
  /-- The keyword, the blanks after it and the opening quote. -/
  opening : List Char
  path : List Char
  /-- From the closing quote to the blanks after `with_data:`. -/
  middle : List Char
  name : List Char
deriving DecidableEq, Repr

namespace DataImport

def text (d : DataImport) : List Char := d.opening ++ d.path ++ d.middle ++ d.name

def keyword : List Char := ['#', '!', 'i', 'm', 'p', 'o', 'r', 't']

def marker : List Char := ['w', 'i', 't', 'h', '_', 'd', 'a', 't', 'a', ':']

def read? (text : List Char) : Option (DataImport × List Char) :=
  match Text.dropStart? keyword text with
  | none => none
  | some rest =>
    let lead := rest.takeWhile Text.isSpaceOrTab
    match rest.dropWhile Text.isSpaceOrTab with
    | '"' :: rest =>
      let path := rest.takeWhile (· ≠ '"')
      match rest.dropWhile (· ≠ '"') with
      | '"' :: rest =>
        let gap := rest.takeWhile Text.isSpaceOrTab
        match Text.dropStart? marker (rest.dropWhile Text.isSpaceOrTab) with
        | some rest =>
          let blanks := rest.takeWhile Text.isSpaceOrTab
          let rest := rest.dropWhile Text.isSpaceOrTab
          let name := rest.takeWhile isIdentifierRest
          if lead.isEmpty || gap.isEmpty || name.isEmpty then none
          else
            some (⟨keyword ++ lead ++ ['"'], path, '"' :: gap ++ marker ++ blanks, name⟩,
              rest.dropWhile isIdentifierRest)
        | none => none
      | _ => none
    | _ => none

/-- A directive that was read has the parts of one, and stands before the text after it. -/
theorem parts_of_read? {text rest : List Char} {d : DataImport}
    (h : read? text = some (d, rest)) :
    ∃ lead gap blanks, d.opening = keyword ++ lead ++ ['"'] ∧
      d.middle = '"' :: gap ++ marker ++ blanks ∧ text = d.text ++ rest := by
  simp only [read?] at h
  split at h
  · simp at h
  · next r0 h0 =>
    have e0 := Text.dropStart?_eq_some_iff.1 h0
    split at h
    · next r1 h1 =>
      split at h
      · next r2 h2 =>
        split at h
        · next r3 h3 =>
          split at h
          · simp at h
          · have e1 := List.takeWhile_append_dropWhile (p := Text.isSpaceOrTab) (l := r0)
            have e2 := List.takeWhile_append_dropWhile (p := (· ≠ '"')) (l := r1)
            have e3 := List.takeWhile_append_dropWhile (p := Text.isSpaceOrTab) (l := r2)
            have e4 := Text.dropStart?_eq_some_iff.1 h3
            have e5 := List.takeWhile_append_dropWhile (p := Text.isSpaceOrTab) (l := r3)
            have e6 := List.takeWhile_append_dropWhile (p := isIdentifierRest)
              (l := r3.dropWhile Text.isSpaceOrTab)
            simp only [Option.some.injEq, Prod.mk.injEq] at h
            obtain ⟨rfl, rfl⟩ := h
            rw [h1] at e1
            rw [h2] at e2
            refine ⟨_, _, _, rfl, rfl, ?_⟩
            simp only [DataImport.text]
            generalize (r3.dropWhile Text.isSpaceOrTab).takeWhile isIdentifierRest = name at *
            generalize (r3.dropWhile Text.isSpaceOrTab).dropWhile isIdentifierRest = rest at *
            generalize r3.dropWhile Text.isSpaceOrTab = last at *
            generalize r3.takeWhile Text.isSpaceOrTab = blanks at *
            generalize r2.dropWhile Text.isSpaceOrTab = tail at *
            generalize r2.takeWhile Text.isSpaceOrTab = gap at *
            generalize r1.takeWhile (fun c => decide (c ≠ '"')) = path at *
            generalize r0.takeWhile Text.isSpaceOrTab = lead at *
            rw [e0, ← e1, ← e2, ← e3, e4, ← e5, ← e6]
            simp
        · simp at h
      · simp at h
    · simp at h

theorem length_lt_of_read? {text rest : List Char} {d : DataImport}
    (h : read? text = some (d, rest)) : rest.length < text.length := by
  obtain ⟨lead, _, _, e, _, e'⟩ := parts_of_read? h
  rw [e', DataImport.text, e]
  simp
  omega

/-- A piece of a text. -/
inductive Piece where
  | char (c : Char)
  | directive (d : DataImport)
deriving DecidableEq, Repr

def Piece.text : Piece → List Char
  | .char c => [c]
  | .directive d => d.text

def Piece.directive? : Piece → Option DataImport
  | .char _ => none
  | .directive d => some d

/-- The pieces of a text: a directive wherever one stands, from left to right, and the characters
between them. -/
def pieces (text : List Char) : List Piece :=
  match _h : read? text with
  | some (d, rest) => .directive d :: pieces rest
  | none =>
    match text with
    | [] => []
    | c :: rest => .char c :: pieces rest
termination_by text.length
decreasing_by
  · exact length_lt_of_read? _h
  · simp

theorem flatMap_text_pieces (text : List Char) : (pieces text).flatMap Piece.text = text := by
  fun_induction pieces text with
  | case1 text d rest h ih =>
    simp [Piece.text, ih, (parts_of_read? h).choose_spec.choose_spec.choose_spec.2.2]
  | case2 h => rfl
  | case3 c rest h ih => simp [Piece.text, ih]

def directives (text : String) : List DataImport :=
  (pieces text.toList).filterMap Piece.directive?

def occursIn (text : String) : Bool := !(directives text).isEmpty

/-- The value that a directive injects: what an identifier names, when it is a record or a list. -/
def value? (data : Record) (d : DataImport) : Option Value :=
  let name := String.ofList d.name
  if isIdentifier name then
    match data.get? name with
    | some (.record fields) => some (.record fields)
    | some (.list items) => some (.list items)
    | _ => none
  else none

def declaration (name : List Char) (literal : List Char) : List Char :=
  "#let ".toList ++ name ++ " = ".toList ++ literal

/-- The declarations of a value and, for a record, of its fields whose keys are identifiers. A field
is written as it stands inside the whole. -/
def declarations (name : List Char) : Value → List (List Char)
  | .record fields =>
    declaration name (Literal.value 0 Literal.maxDepth (.record fields)) ::
      (fields.filter fun field => isIdentifier field.1).map fun field =>
        declaration field.1.toList (Literal.value 1 Literal.maxDepth field.2)
  | v => [declaration name (Literal.value 0 Literal.maxDepth v)]

def lines (data : Record) (d : DataImport) : List (List Char) :=
  (match value? data d with
    | some v => declarations d.name v
    | none => []) ++
  (if d.path.isEmpty then [] else ["#import \"".toList ++ d.path ++ "\" : *".toList])

def block (data : Record) (d : DataImport) : List Char := ['\n'].intercalate (lines data d)

def Piece.expand (data : Record) : Piece → List Char
  | .char c => [c]
  | .directive d => block data d

def expand (text : String) (data : Record) : String :=
  String.ofList ((pieces text.toList).flatMap (Piece.expand data))

def events (text : String) (data : Record) : List Event :=
  (directives text).filterMap fun d =>
    match value? data d with
    | some _ => none
    | none => some (.dataUnbound (String.ofList d.name))

end DataImport

end Galley.Typst
