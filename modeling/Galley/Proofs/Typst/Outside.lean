import Galley.Proofs.Typst.Redirect
import Galley.Text.Utf8
import Mathlib.Data.List.Forall2

/-! # What redirecting leaves as it was

The octets of a text outside of the paths that were replaced stand in the redirected text in the
same order, between the paths that took their place. -/

namespace Galley.Typst.Import

open Text (Bytes)

/-! ## Octets and spans -/

/-- The octets outside of spans that stand one after another, cut where the spans are. The first
stretch begins at `start`. -/
def outside (octets : Bytes) : (start : Nat) → List (Nat × Nat) → List Bytes
  | start, [] => [octets.drop start]
  | start, span :: spans =>
    (octets.drop start).take (span.1 - start) :: outside octets span.2 spans

/-- The octets of characters. -/
def octets (text : List Char) : Bytes := text.flatMap String.utf8EncodeChar

theorem encode_ofList (text : List Char) : Text.Utf8.encode (String.ofList text) = octets text := by
  rw [Text.Utf8.encode, String.toList_ofList, octets]

theorem octets_append (a b : List Char) : octets (a ++ b) = octets a ++ octets b := by
  simp [octets]

theorem length_octets (text : List Char) : (octets text).length = Text.utf8Size text := by
  induction text with
  | nil => rfl
  | cons c text ih =>
    rw [show c :: text = [c] ++ text from rfl, octets_append, List.length_append, ih]
    simp [octets]

theorem outside_cons {before front more : Bytes} {start : Nat} (h : start ≤ before.length)
    (stop : Nat) (spans : List (Nat × Nat)) :
    outside (before ++ (front ++ more)) start ((before.length + front.length, stop) :: spans) =
      (before.drop start ++ front) :: outside (before ++ (front ++ more)) stop spans := by
  have hlen : before.length + front.length - start = (before.drop start ++ front).length := by
    rw [List.length_append, List.length_drop]
    omega
  rw [outside, List.drop_append_of_le_length h, ← List.append_assoc, hlen, List.take_left]

theorem drop_append_three (a b c rest : Bytes) :
    (a ++ (b ++ (c ++ rest))).drop (a.length + b.length + c.length) = rest := by
  rw [← List.append_assoc, ← List.append_assoc, ← List.length_append, ← List.length_append,
    List.drop_left]

/-! ## Directives and their places -/

theorem map_directive_locate (start : Nat) (found : List Piece) :
    (locate start found).map Found.directive = found.filterMap Piece.directive? := by
  induction found generalizing start with
  | nil => rfl
  | cons piece found ih =>
    cases piece with
    | char c =>
      rw [List.filterMap_cons_none (show Piece.directive? (.char c) = none from rfl)]
      exact ih _
    | directive d =>
      rw [List.filterMap_cons_some (show Piece.directive? (.directive d) = some d from rfl), ← ih]
      rfl

theorem directive_mem_of_mem_scan {text : String} {a : Found} (h : a ∈ scan text) :
    a.directive ∈ directives text := by
  rw [directives, ← map_directive_locate 0]
  exact List.mem_map_of_mem h

variable {f : Import → Option String}

/-- A directive with the path that it gets. -/
def moved (f : Import → Option String) (d : Import) : Import :=
  match f d with
  | some q => { d with path := q.toList }
  | none => d

theorem redirect_directive (d : Import) :
    Piece.redirect f (.directive d) = .directive (moved f d) := by
  cases hq : f d with
  | none => simp only [Piece.redirect, moved, hq]
  | some q => simp only [Piece.redirect, moved, hq]

theorem forall₂_locate (found : List Piece) (start start' : Nat) :
    List.Forall₂ (fun a b => b.directive = moved f a.directive)
      (locate start found) (locate start' (found.map (Piece.redirect f))) := by
  induction found generalizing start start' with
  | nil => exact .nil
  | cons piece found ih =>
    cases piece with
    | char c => exact ih _ _
    | directive d =>
      rw [List.map_cons, redirect_directive]
      exact .cons rfl (ih _ _)

theorem pieces_redirect {text : String} (hf : AllFit f text.toList) :
    pieces (redirect text f).toList = (pieces text.toList).map (Piece.redirect f) := by
  rw [← redirectFound_directive, pieces_redirectFound hf.found, redirectFrom_directive]

/-- The directives of the redirected text are those of the text, each with the path it gets. -/
theorem forall₂_scan_redirect {text : String} (hf : AllFit f text.toList) :
    List.Forall₂ (fun a b => b.directive = moved f a.directive)
      (scan text) (scan (redirect text f)) := by
  rw [scan, scan, pieces_redirect hf]
  exact forall₂_locate _ 0 0

theorem octets_text (d : Import) : octets d.text =
    octets d.opening ++ (octets d.path ++ octets (d.middle ++ d.bindings)) := by
  simp [text, octets_append]

theorem octets_text_append (d : Import) (more : List Char) : octets (d.text ++ more) =
    octets d.opening ++ (octets d.path ++ (octets (d.middle ++ d.bindings) ++ octets more)) := by
  simp [octets_append, octets_text]

/-- The directives of a text that were replaced, each beside the one that took its place. -/
def replaced (isReplaced : Import → Bool) (before after : List Found) : List (Found × Found) :=
  (before.zip after).filter fun pair => isReplaced pair.1.directive

/-- The directives of a text that were replaced at their places, each beside the one that took its
place. -/
def replacedAt (isReplaced : Found → Bool) (before after : List Found) : List (Found × Found) :=
  (before.zip after).filter fun pair => isReplaced pair.1

section places

variable {g : Found → Option String}

/-- Both texts go on alike where both were alike since the last path. -/
theorem outside_locate (found : List Piece) (before after : Bytes) (start start' : Nat)
    (hs : start ≤ before.length) (hs' : start' ≤ after.length)
    (h : before.drop start = after.drop start') :
    let pairs := replacedAt (fun a => (g a).isSome) (locate before.length found)
      (locate after.length (redirectFrom g before.length found))
    outside (before ++ octets (found.flatMap Piece.text)) start (pairs.map (·.1.pathSpan)) =
      outside (after ++ octets ((redirectFrom g before.length found).flatMap Piece.text)) start'
        (pairs.map (·.2.pathSpan)) := by
  induction found generalizing before after start start' with
  | nil => simpa [replacedAt, locate, redirectFrom, outside, octets] using h
  | cons piece found ih =>
    -- a stretch that stands in both texts belongs to what was alike
    have hstep (cs : List Char) := ih (before ++ octets cs) (after ++ octets cs) start start'
      (by simp; omega) (by simp; omega)
      (by rw [List.drop_append_of_le_length hs, List.drop_append_of_le_length hs', h])
    cases piece with
    | char c =>
      have hc := hstep [c]
      rw [List.length_append, List.length_append, length_octets, List.append_assoc,
        List.append_assoc, ← octets_append, ← octets_append] at hc
      exact hc
    | directive d =>
      cases hq : g (.of before.length d) with
      | none =>
        have hd := hstep d.text
        rw [List.length_append, List.length_append, length_octets, List.append_assoc,
          List.append_assoc, ← octets_append, ← octets_append] at hd
        simpa [locate_directive, redirectFrom_of_none hq, Piece.text, replacedAt, hq] using hd
      | some q =>
        let d' : Import := { d with path := q.toList }
        have hmiddle : octets (d'.middle ++ d'.bindings) = octets (d.middle ++ d.bindings) := rfl
        have hd := ih (before ++ octets d.text) (after ++ octets d'.text)
          (before.length + Text.utf8Size d.opening + Text.utf8Size d.path)
          (after.length + Text.utf8Size d.opening + Text.utf8Size d'.path)
          (by simp [length_octets, octets_text]; omega)
          (by simp [length_octets, octets_text, d']; omega)
          (by
            rw [octets_text, octets_text, hmiddle, ← length_octets, ← length_octets,
              ← length_octets, drop_append_three]
            exact (drop_append_three _ _ _ _).symm)
        rw [List.length_append, List.length_append, length_octets, length_octets, List.append_assoc,
          List.append_assoc, ← octets_append, ← octets_append] at hd
        simp only [locate_directive, redirectFrom_of_some hq, replacedAt, List.zip_cons_cons,
          List.filter_cons, hq, Option.isSome_some, if_true, List.flatMap_cons, Piece.text,
          List.map_cons]
        simp only [Found.of]
        rw [octets_text_append, octets_text_append, ← length_octets d.opening, outside_cons hs,
          outside_cons hs', h, ← octets_text_append, ← octets_text_append, length_octets d.opening]
        exact congrArg _ hd

/-- The octets outside of the paths that were replaced are those outside of the paths that took
their place. -/
theorem outside_redirectFound {text : String} (hg : AllFitFrom g 0 (pieces text.toList)) :
    let pairs := replacedAt (fun a => (g a).isSome) (scan text) (scan (redirectFound text g))
    outside (Text.Utf8.encode text) 0 (pairs.map (·.1.pathSpan)) =
      outside (Text.Utf8.encode (redirectFound text g)) 0 (pairs.map (·.2.pathSpan)) := by
  have h := outside_locate (g := g) (pieces text.toList) [] [] 0 0 (by simp) (by simp) rfl
  rw [flatMap_text_pieces] at h
  simp only [scan, pieces_redirectFound hg]
  rw [redirectFound, encode_ofList]
  exact h

end places

theorem outside_redirect {text : String} (hf : AllFit f text.toList) :
    let pairs := replaced (fun d => (f d).isSome) (scan text) (scan (redirect text f))
    outside (Text.Utf8.encode text) 0 (pairs.map (·.1.pathSpan)) =
      outside (Text.Utf8.encode (redirect text f)) 0 (pairs.map (·.2.pathSpan)) := by
  have h := outside_redirectFound hf.found
  rw [redirectFound_directive] at h
  exact h

end Galley.Typst.Import
