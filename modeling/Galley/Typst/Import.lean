import Galley.Text.Blank
import Galley.Text.Search

/-!
Import directives: `#import`, blanks, a quoted path, a colon and bindings up to the end of the line.
A text is cut into pieces, directives and single characters, whose texts put together give it back.
-/

namespace Galley.Typst

/-- An import directive, cut into its parts. -/
structure Import where
  /-- The keyword, the blanks after it and the opening quote. -/
  opening : List Char
  path : List Char
  /-- The closing quote, the colon and the blanks around it. -/
  middle : List Char
  /-- The rest of the line. -/
  bindings : List Char
deriving DecidableEq, Repr

namespace Import

def text (d : Import) : List Char := d.opening ++ d.path ++ d.middle ++ d.bindings

/-- Whether the path is absolute; such an import is never resolved. -/
def isAbsolute (d : Import) : Bool := d.path.head? == some '/'

def isLineEnd (c : Char) : Bool := c == '\n' || c == '\r'

/-- The rest of a line after the colon, as blanks and bindings. When there are only blanks, the
last of them counts as bindings. -/
def splitBindings (line : List Char) : List Char × List Char :=
  let blanks := line.takeWhile Text.isSpaceOrTab
  let rest := line.dropWhile Text.isSpaceOrTab
  if rest.isEmpty then (blanks.dropLast, blanks.drop (blanks.length - 1)) else (blanks, rest)

def keyword : List Char := ['#', 'i', 'm', 'p', 'o', 'r', 't']

def read? (text : List Char) : Option (Import × List Char) :=
  match Text.dropStart? keyword text with
  | none => none
  | some rest =>
    let lead := rest.takeWhile Text.isSpaceOrTab
    match rest.dropWhile Text.isSpaceOrTab with
    | '"' :: rest =>
      let path := rest.takeWhile (· ≠ '"')
      match rest.dropWhile (· ≠ '"') with
      | '"' :: rest =>
        let gap := rest.takeWhile Text.isSpaceOrTab
        match rest.dropWhile Text.isSpaceOrTab with
        | ':' :: rest =>
          let line := rest.takeWhile (!isLineEnd ·)
          let rest := rest.dropWhile (!isLineEnd ·)
          if lead.isEmpty || path.isEmpty || line.isEmpty then none
          else
            let (blanks, bindings) := splitBindings line
            some (⟨keyword ++ lead ++ ['"'], path, '"' :: gap ++ ':' :: blanks, bindings⟩,
              rest)
        | _ => none
      | _ => none
    | _ => none

theorem splitBindings_append (line : List Char) :
    (splitBindings line).1 ++ (splitBindings line).2 = line := by
  simp only [splitBindings]
  split
  · next h =>
    have h' : line.dropWhile Text.isSpaceOrTab = [] := by simpa [List.isEmpty_iff] using h
    have hl : line.takeWhile Text.isSpaceOrTab = line := by
      have := List.takeWhile_append_dropWhile (p := Text.isSpaceOrTab) (l := line)
      simpa [h'] using this
    simp [hl, List.dropLast_eq_take, List.take_append_drop]
  · exact List.takeWhile_append_dropWhile

/-- A directive that was read has the parts of one, and stands before the text after it. -/
theorem parts_of_read? {text rest : List Char} {d : Import} (h : read? text = some (d, rest)) :
    ∃ lead gap blanks, d.opening = keyword ++ lead ++ ['"'] ∧
      d.middle = '"' :: gap ++ ':' :: blanks ∧ text = d.text ++ rest := by
  simp only [read?] at h
  split at h
  · simp at h
  · next r0 h0 =>
    have e0 := Text.dropStart?_eq_some_iff.1 h0
    split at h
    · next r1 h1 =>
      split at h
      · next r2 h2 =>
        split at h
        · next r3 h3 =>
          split at h
          · simp at h
          · have e1 := List.takeWhile_append_dropWhile (p := Text.isSpaceOrTab) (l := r0)
            have e2 := List.takeWhile_append_dropWhile (p := (· ≠ '"')) (l := r1)
            have e3 := List.takeWhile_append_dropWhile (p := Text.isSpaceOrTab) (l := r2)
            have e4 := List.takeWhile_append_dropWhile (p := (!isLineEnd ·)) (l := r3)
            have e5 := splitBindings_append (r3.takeWhile (!isLineEnd ·))
            simp only [Option.some.injEq, Prod.mk.injEq] at h
            obtain ⟨rfl, rfl⟩ := h
            rw [h1] at e1
            rw [h2] at e2
            rw [h3] at e3
            refine ⟨_, _, _, rfl, rfl, ?_⟩
            simp only [Import.text]
            generalize splitBindings (r3.takeWhile (!isLineEnd ·)) = cut at *
            generalize r3.takeWhile (!isLineEnd ·) = line at *
            generalize r3.dropWhile (!isLineEnd ·) = rest at *
            generalize r2.takeWhile Text.isSpaceOrTab = gap at *
            generalize r1.takeWhile (fun c => decide (c ≠ '"')) = path at *
            generalize r0.takeWhile Text.isSpaceOrTab = lead at *
            rw [e0, ← e1, ← e2, ← e3, ← e4, ← e5]
            simp
        · simp at h
      · simp at h
    · simp at h

theorem text_append_of_read? {text rest : List Char} {d : Import}
    (h : read? text = some (d, rest)) : text = d.text ++ rest := by
  obtain ⟨_, _, _, _, _, e⟩ := parts_of_read? h
  exact e

theorem length_lt_of_read? {text rest : List Char} {d : Import} (h : read? text = some (d, rest)) :
    rest.length < text.length := by
  obtain ⟨lead, _, _, e, _, e'⟩ := parts_of_read? h
  rw [e', Import.text, e]
  simp
  omega

/-- A piece of a text. -/
inductive Piece where
  | char (c : Char)
  | directive (d : Import)
deriving DecidableEq, Repr

def Piece.text : Piece → List Char
  | .char c => [c]
  | .directive d => d.text

def Piece.directive? : Piece → Option Import
  | .char _ => none
  | .directive d => some d

/-- The pieces of a text: a directive wherever one stands, from left to right, and the characters
between them. -/
def pieces (text : List Char) : List Piece :=
  match _h : read? text with
  | some (d, rest) => .directive d :: pieces rest
  | none =>
    match text with
    | [] => []
    | c :: rest => .char c :: pieces rest
termination_by text.length
decreasing_by
  · exact length_lt_of_read? _h
  · simp

theorem flatMap_text_pieces (text : List Char) : (pieces text).flatMap Piece.text = text := by
  fun_induction pieces text with
  | case1 text d rest h ih => simp [Piece.text, ih, ← text_append_of_read? h]
  | case2 h => rfl
  | case3 c rest h ih => simp [Piece.text, ih]

/-- A directive with the places, counted in octets, where it and its path stand. -/
structure Found where
  directive : Import
  span : Nat × Nat
  pathSpan : Nat × Nat
deriving DecidableEq, Repr

/-- The directives among pieces, the first of which stands at `start`. -/
def locate (start : Nat) : List Piece → List Found
  | [] => []
  | piece :: rest =>
    let stop := start + Text.utf8Size piece.text
    match piece.directive? with
    | none => locate stop rest
    | some d =>
      let pathStart := start + Text.utf8Size d.opening
      ⟨d, (start, stop), (pathStart, pathStart + Text.utf8Size d.path)⟩ :: locate stop rest

/-- A directive that stands at `start`. -/
def Found.of (start : Nat) (d : Import) : Found :=
  let pathStart := start + Text.utf8Size d.opening
  ⟨d, (start, start + Text.utf8Size d.text), (pathStart, pathStart + Text.utf8Size d.path)⟩

theorem locate_directive (start : Nat) (d : Import) (rest : List Piece) :
    locate start (.directive d :: rest) =
      .of start d :: locate (start + Text.utf8Size d.text) rest := rfl

theorem locate_char (start : Nat) (c : Char) (rest : List Piece) :
    locate start (.char c :: rest) = locate (start + Text.utf8Size [c]) rest := rfl

def scan (text : String) : List Found := locate 0 (pieces text.toList)

/-- The directives of a text without their places. -/
def directives (text : String) : List Import := (pieces text.toList).filterMap Piece.directive?

/-- The piece with its path replaced, when it is a directive that `replacement` has a path for. -/
def Piece.redirect (replacement : Import → Option String) : Piece → Piece
  | .char c => .char c
  | .directive d =>
    match replacement d with
    | some path => .directive { d with path := path.toList }
    | none => .directive d

/-- The text with the paths replaced for which `replacement` has another; all else is kept. -/
def redirect (text : String) (replacement : Import → Option String) : String :=
  String.ofList (((pieces text.toList).map (Piece.redirect replacement)).flatMap Piece.text)

/-- The pieces, the first of which stands at `start`, with the paths replaced for which `replacement`
has another. It may tell directives apart by their places. -/
def redirectFrom (replacement : Found → Option String) (start : Nat) : List Piece → List Piece
  | [] => []
  | piece :: rest =>
    piece.redirect (fun d => replacement (.of start d)) ::
      redirectFrom replacement (start + Text.utf8Size piece.text) rest

/-- The text with the paths replaced for which `replacement` has another at their places. -/
def redirectFound (text : String) (replacement : Found → Option String) : String :=
  String.ofList ((redirectFrom replacement 0 (pieces text.toList)).flatMap Piece.text)

theorem redirectFrom_directive (replacement : Import → Option String) (start : Nat)
    (found : List Piece) :
    redirectFrom (fun a => replacement a.directive) start found =
      found.map (Piece.redirect replacement) := by
  induction found generalizing start with
  | nil => rfl
  | cons piece found ih => rw [redirectFrom, ih, List.map_cons]; rfl

/-- Where only the directive counts, its place makes no difference. -/
theorem redirectFound_directive (text : String) (replacement : Import → Option String) :
    redirectFound text (fun a => replacement a.directive) = redirect text replacement := by
  rw [redirectFound, redirectFrom_directive, redirect]

end Import

end Galley.Typst
