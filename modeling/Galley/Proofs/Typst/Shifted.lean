import Galley.Proofs.Typst.Outside
import Mathlib.Algebra.Ring.Int.Defs

/-! # Directives of a redirected text

A redirected text has the directives of the text in the same order. Each has the path that it gets and stands
as much further on as the paths before it got longer. -/

namespace Galley.Typst.Import

/-- The path that a directive has after its text was redirected. -/
def newPath (f : Found → Option String) (a : Found) : List Char :=
  match f a with
  | some q => q.toList
  | none => a.directive.path

/-- How many octets a directive gets longer by. -/
def growth (f : Found → Option String) (a : Found) : Int :=
  (Text.utf8Size (newPath f a) : Int) - Text.utf8Size a.directive.path

/-- A directive before and after its text was redirected: it begins `shift` octets further on, and only its
path may be another. -/
structure Shifted (f : Found → Option String) (shift : Int) (before after : Found) : Prop where
  directive : after.directive = { before.directive with path := newPath f before }
  start : (after.span.1 : Int) = before.span.1 + shift
  pathStart : (after.pathSpan.1 : Int) = before.pathSpan.1 + shift
  pathStop : (after.pathSpan.2 : Int) = before.pathSpan.2 + (shift + growth f before)
  stop : (after.span.2 : Int) = before.span.2 + (shift + growth f before)

variable {f : Found → Option String}

theorem redirectFrom_cons (f : Found → Option String) (start : Nat) (d : Import)
    (found : List Piece) :
    redirectFrom f start (.directive d :: found) =
      .directive { d with path := newPath f (.of start d) } ::
        redirectFrom f (start + Text.utf8Size d.text) found := by
  cases hq : f (.of start d) with
  | none =>
    rw [redirectFrom_of_none hq, newPath, hq]
    rfl
  | some q => rw [redirectFrom_of_some hq, newPath, hq]

theorem utf8Size_text (d : Import) : Text.utf8Size d.text =
    Text.utf8Size d.opening + Text.utf8Size d.path + Text.utf8Size (d.middle ++ d.bindings) := by
  simp only [text, Text.utf8Size_append, Nat.add_assoc]

theorem shifted_of {start start' : Nat} {shift : Int} (h : (start' : Int) = start + shift)
    (d : Import) :
    Shifted f shift (.of start d) (.of start' { d with path := newPath f (.of start d) }) := by
  have hgrowth : growth f (.of start d) =
      (Text.utf8Size (newPath f (.of start d)) : Int) - Text.utf8Size d.path := rfl
  constructor
  · rfl
  all_goals
    simp only [Found.of, utf8Size_text] at hgrowth ⊢
    omega

/-- The directives among redirected pieces are those among the pieces, each shifted by the growth of those
before it. -/
theorem shifted_locate (found : List Piece) {start start' : Nat} {shift : Int}
    (h : (start' : Int) = start + shift) :
    (locate start' (redirectFrom f start found)).length = (locate start found).length ∧
    ∀ k a b, (locate start found)[k]? = some a →
      (locate start' (redirectFrom f start found))[k]? = some b →
      Shifted f (shift + (((locate start found).take k).map (growth f)).sum) a b := by
  induction found generalizing start start' shift with
  | nil => exact ⟨rfl, fun k a b ha => by simp [locate] at ha⟩
  | cons piece found ih =>
    cases piece with
    | char c =>
      rw [redirectFrom_char, locate_char, locate_char]
      exact ih (by omega)
    | directive d =>
      have hshifted := shifted_of (f := f) h d
      -- the directives behind this one begin where it stops
      have hrest := ih hshifted.stop
      rw [redirectFrom_cons, locate_directive, locate_directive]
      refine ⟨congrArg Nat.succ hrest.1, fun k a b ha hb => ?_⟩
      cases k with
      | zero =>
        obtain rfl := Option.some.inj ha
        obtain rfl := Option.some.inj hb
        simpa using hshifted
      | succ k =>
        have hk := hrest.2 k a b ha hb
        rw [List.take_succ_cons, List.map_cons, List.sum_cons, ← Int.add_assoc]
        exact hk

/-- Nothing is changed by a path that takes its own place. -/
theorem redirectFrom_eq_self {start : Nat} {found : List Piece}
    (h : ∀ a ∈ locate start found, ∀ q, f a = some q → q.toList = a.directive.path) :
    redirectFrom f start found = found := by
  induction found generalizing start with
  | nil => rfl
  | cons piece found ih =>
    cases piece with
    | char c => exact congrArg _ (ih h)
    | directive d =>
      rw [locate_directive, List.forall_mem_cons] at h
      have hpath : newPath f (.of start d) = d.path := by
        rw [newPath]
        split
        · next q hq => exact h.1 q hq
        · rfl
      rw [redirectFrom_cons, ih h.2, hpath]

/-- Scanning a redirected text finds the directives of the text, with the paths that they get, shifted by the
lengths those before them gained. Where every path is kept or replaced by itself, the text is the same, and
else its octets are, outside of the paths that were replaced. -/
theorem scan_redirectFound {text : String}
    (hf : ∀ a ∈ scan text, ∀ q, f a = some q → Fits q.toList) :
    ((scan (redirectFound text f)).length = (scan text).length ∧
      ∀ k a b, (scan text)[k]? = some a → (scan (redirectFound text f))[k]? = some b →
        Shifted f (((scan text).take k).map (growth f)).sum a b) ∧
    (∀ g, (∀ a ∈ scan text, ∀ q, g a = some q → q.toList = a.directive.path) →
      redirectFound text g = text) ∧
    let pairs := replacedAt (fun a => (f a).isSome) (scan text) (scan (redirectFound text f))
    outside (Text.Utf8.encode text) 0 (pairs.map (·.1.pathSpan)) =
      outside (Text.Utf8.encode (redirectFound text f)) 0 (pairs.map (·.2.pathSpan)) := by
  refine ⟨?_, fun g hg => ?_, outside_redirectFound hf⟩
  · have hplace : ((0 : Nat) : Int) = (0 : Nat) + 0 := rfl
    have h := shifted_locate (f := f) (pieces text.toList) hplace
    rw [scan, scan, pieces_redirectFound hf]
    simpa using h
  · rw [redirectFound, redirectFrom_eq_self hg, flatMap_text_pieces, String.ofList_toList]

/-- A text with two imports alike. -/
def importedTwice : String := "#import \"a\": x\n#import \"a\": x"

/-- Replaces the path of a directive at the beginning of a text only. -/
def atBeginning (a : Found) : Option String := if a.span.1 = 0 then some "b.typ" else none

/-- Of two imports alike, the second stands four octets further on when the path of the first is replaced. -/
theorem scan_redirectFound_atBeginning :
    (∀ a ∈ scan importedTwice, ∀ q, atBeginning a = some q → Fits q.toList) ∧
    ∃ a b, (scan importedTwice)[1]? = some a ∧
      (scan (redirectFound importedTwice atBeginning))[1]? = some b ∧
      Shifted atBeginning 4 a b := by
  have hfits : Fits "b.typ".toList := by
    refine ⟨by decide, by decide, fun gap tail _ h => ?_⟩
    have hcolon : ':' ∈ "b.typ".toList := h ▸ List.mem_append_right gap List.mem_cons_self
    exact absurd hcolon (by decide)
  have hf : ∀ a ∈ scan importedTwice, ∀ q, atBeginning a = some q →
      Fits q.toList := by
    intro a _ q hq
    rw [atBeginning] at hq
    split at hq
    · exact Option.some.inj hq ▸ hfits
    · cases hq
  obtain ⟨⟨hlength, hshifted⟩, -⟩ := scan_redirectFound hf
  have htwo : (scan importedTwice).length = 2 := by decide +kernel
  have hgrowth : (((scan importedTwice).take 1).map (growth atBeginning)).sum = 4 := by decide +kernel
  have htwo' := hlength.trans htwo
  obtain ⟨a, ha⟩ : ∃ a, (scan importedTwice)[1]? = some a :=
    ⟨_, List.getElem?_eq_getElem (htwo ▸ Nat.one_lt_two)⟩
  obtain ⟨b, hb⟩ : ∃ b, (scan (redirectFound importedTwice atBeginning))[1]? = some b :=
    ⟨_, List.getElem?_eq_getElem (htwo' ▸ Nat.one_lt_two)⟩
  exact ⟨hf, a, b, ha, hb, hgrowth ▸ hshifted 1 a b ha hb⟩

end Galley.Typst.Import
