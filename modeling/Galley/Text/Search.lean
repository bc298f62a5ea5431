/-!
Search on lists of characters: what follows a fixed start, the first place where a pattern stands,
and the texts cut or replaced there.
-/

namespace Galley.Text

/-- What follows `start` in the text, when the text begins with it. -/
def dropStart? : List Char → List Char → Option (List Char)
  | [], text => some text
  | _ :: _, [] => none
  | p :: start, c :: text => if p = c then dropStart? start text else none

theorem dropStart?_eq_some_iff {start text rest : List Char} :
    dropStart? start text = some rest ↔ text = start ++ rest := by
  induction start generalizing text with
  | nil => simp [dropStart?, eq_comm]
  | cons p start ih =>
    cases text with
    | nil => simp [dropStart?]
    | cons c text =>
      by_cases h : p = c
      · simp [dropStart?, h, ih]
      · simp [dropStart?, h, Ne.symm h]

/-- Whether the text begins with `start`. -/
def startsWith (start text : List Char) : Bool := (dropStart? start text).isSome

/-- The text before the first place where `pattern` stands, and the text after it. -/
def splitAtFirst? (pattern : List Char) : List Char → Option (List Char × List Char)
  | [] => if pattern.isEmpty then some ([], []) else none
  | c :: text =>
    match dropStart? pattern (c :: text) with
    | some rest => some ([], rest)
    | none => (splitAtFirst? pattern text).map fun (before, rest) => (c :: before, rest)

theorem eq_of_splitAtFirst? {pattern text before rest : List Char}
    (h : splitAtFirst? pattern text = some (before, rest)) : text = before ++ pattern ++ rest := by
  induction text generalizing before with
  | nil =>
    simp only [splitAtFirst?] at h
    split at h
    · next hp => simp_all [List.isEmpty_iff]
    · simp at h
  | cons c text ih =>
    simp only [splitAtFirst?] at h
    split at h
    · next r hr =>
      simp only [Option.some.injEq, Prod.mk.injEq] at h
      obtain ⟨rfl, rfl⟩ := h
      simpa using dropStart?_eq_some_iff.1 hr
    · obtain ⟨⟨b, r⟩, hb, heq⟩ := Option.map_eq_some_iff.1 h
      simp only [Prod.mk.injEq] at heq
      obtain ⟨rfl, rfl⟩ := heq
      simp [ih hb]

/-- Whether `pattern` stands somewhere in the text. -/
def contains (pattern text : List Char) : Bool := (splitAtFirst? pattern text).isSome

/-- The pieces between the places, taken from left to right, where `pattern` stands; `fuel` bounds
their number. -/
def splitAllWithin (pattern : List Char) : Nat → List Char → List (List Char)
  | 0, text => [text]
  | fuel + 1, text =>
    match splitAtFirst? pattern text with
    | none => [text]
    | some (before, rest) => before :: splitAllWithin pattern fuel rest

/-- The pieces between the places where the nonempty `pattern` stands. The empty pattern stands
between any two characters and at both ends. -/
def splitAll (pattern text : List Char) : List (List Char) :=
  if pattern.isEmpty then [] :: text.map ([·]) ++ [[]]
  else splitAllWithin pattern text.length text

/-- The text with every occurrence of `pattern`, from left to right, replaced. -/
def replaceAll (pattern replacement text : List Char) : List Char :=
  List.intercalate replacement (splitAll pattern text)

/-- The pieces between the characters that satisfy `p`. -/
def splitOnChar (p : Char → Bool) : List Char → List (List Char)
  | [] => [[]]
  | c :: text =>
    if p c then [] :: splitOnChar p text
    else
      match splitOnChar p text with
      | [] => [[c]]
      | piece :: pieces => (c :: piece) :: pieces

/-- The number of bytes of the text in UTF-8. -/
def utf8Size (text : List Char) : Nat := text.foldr (fun c size => c.utf8Size + size) 0

@[simp] theorem utf8Size_cons (c : Char) (text : List Char) :
    utf8Size (c :: text) = c.utf8Size + utf8Size text := rfl

theorem utf8Size_append (a b : List Char) : utf8Size (a ++ b) = utf8Size a + utf8Size b := by
  induction a with
  | nil => simp [utf8Size]
  | cons c a ih => rw [List.cons_append, utf8Size_cons, utf8Size_cons, ih, Nat.add_assoc]

theorem utf8Size_replicate (n : Nat) (c : Char) : utf8Size (List.replicate n c) = n * c.utf8Size := by
  induction n with
  | zero => simp [utf8Size]
  | succ n ih => rw [List.replicate_succ, utf8Size_cons, ih, Nat.succ_mul, Nat.add_comm]

theorem utf8Size_toList (text : String) : utf8Size text.toList = text.utf8ByteSize := by
  rw [← String.ofList_toList (s := text), String.toList_ofList]
  induction text.toList with
  | nil => simp [utf8Size]
  | cons c text ih =>
    have hcons : String.ofList (c :: text) = String.singleton c ++ String.ofList text :=
      String.toList_inj.1 (by simp)
    rw [hcons, String.utf8ByteSize_append, String.utf8ByteSize_singleton, ← ih, utf8Size_cons]

end Galley.Text
