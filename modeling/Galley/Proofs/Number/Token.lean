import Galley.Proofs.Text.Span
import Galley.Value.Basic

/-! # Number tokens

The text of every number but infinities and not a number is one token: a sign, digits, a fraction
and an exponent. A token is read as far as it goes, so where it ends is seen from the next
character. -/

namespace Galley.Number

open Text (Stops)

/-! ## The grammar of tokens -/

/-- Digits, at least one. -/
structure IsDigits (text : List Char) : Prop where
  ne : text ≠ []
  all : ∀ c ∈ text, c.isDigit = true

/-- Nothing, or a point with digits behind. -/
inductive IsFraction : List Char → Prop where
  | absent : IsFraction []
  | present {digits : List Char} : IsDigits digits → IsFraction ('.' :: digits)

/-- Nothing, or a letter with digits behind, which may have a sign. -/
inductive IsExponent : List Char → Prop where
  | absent : IsExponent []
  | present {sign digits : List Char} : sign ∈ [[], ['+'], ['-']] → IsDigits digits →
      IsExponent ('e' :: (sign ++ digits))

/-- A number token from its parts. -/
inductive IsToken : List Char → Prop where
  | parts {sign whole fraction exponent : List Char} : sign ∈ [[], ['-']] → IsDigits whole →
      IsFraction fraction → IsExponent exponent →
      IsToken (sign ++ (whole ++ (fraction ++ exponent)))

/-! ## Reading a token -/

/-- One of the signs, when it stands in front. -/
def readSign (signs : List Char) : List Char → List Char × List Char
  | [] => ([], [])
  | c :: rest => if c ∈ signs then ([c], rest) else ([], c :: rest)

/-- The digits in front, at least one. -/
def readDigits? (text : List Char) : Option (List Char × List Char) :=
  let digits := text.takeWhile Char.isDigit
  if digits.isEmpty then none else some (digits, text.dropWhile Char.isDigit)

/-- The fraction in front. -/
def readFraction? : List Char → Option (List Char × List Char)
  | '.' :: rest => (readDigits? rest).map fun found => ('.' :: found.1, found.2)
  | text => some ([], text)

/-- The exponent in front. -/
def readExponent? : List Char → Option (List Char × List Char)
  | 'e' :: rest =>
    let signed := readSign ['+', '-'] rest
    (readDigits? signed.2).map fun found => ('e' :: (signed.1 ++ found.1), found.2)
  | text => some ([], text)

/-- The number token in front of a text, and the text after it. -/
def readToken? (text : List Char) : Option (List Char × List Char) := do
  let signed := readSign ['-'] text
  let (whole, text) ← readDigits? signed.2
  let (fraction, text) ← readFraction? text
  let (exponent, text) ← readExponent? text
  return (signed.1 ++ (whole ++ (fraction ++ exponent)), text)

/-- A character that a token could go on with. -/
def continues (c : Char) : Bool := c.isDigit || c == '.' || c == 'e'

theorem readDigits?_append {digits rest : List Char} (h : IsDigits digits)
    (hr : Stops Char.isDigit rest) : readDigits? (digits ++ rest) = some (digits, rest) := by
  unfold readDigits?
  rw [Text.takeWhile_append_of_stops h.all hr, Text.dropWhile_append_of_stops h.all hr]
  simp [h.ne]

theorem readSign_append {signs sign digits : List Char} (h : sign = [] ∨ ∃ c ∈ signs, sign = [c])
    (hs : ∀ c ∈ signs, c.isDigit = false) (hd : IsDigits digits) (rest : List Char) :
    readSign signs (sign ++ (digits ++ rest)) = (sign, digits ++ rest) := by
  rcases h with rfl | ⟨c, hc, rfl⟩
  · obtain ⟨c, digits, rfl⟩ := List.exists_cons_of_ne_nil hd.ne
    have hn : c ∉ signs := by
      intro hc
      have := hd.all c (by simp)
      rw [hs c hc] at this
      cases this
    simp [readSign, hn]
  · simp [readSign, hc]

theorem readFraction?_append {fraction rest : List Char} (h : IsFraction fraction)
    (hr : Stops Char.isDigit rest) (hp : Stops (· == '.') rest) :
    readFraction? (fraction ++ rest) = some (fraction, rest) := by
  cases h with
  | absent =>
    cases rest with
    | nil => rfl
    | cons c rest =>
      have hc : c ≠ '.' := by simpa using Text.stops_cons.1 hp
      unfold readFraction?
      split
      · next heq => exact absurd (List.cons.inj heq).1 hc
      · rfl
  | present h =>
    rw [List.cons_append, readFraction?, readDigits?_append h hr]
    rfl

theorem readExponent?_append {exponent rest : List Char} (h : IsExponent exponent)
    (hr : Stops Char.isDigit rest) (he : Stops (· == 'e') rest) :
    readExponent? (exponent ++ rest) = some (exponent, rest) := by
  cases h with
  | absent =>
    cases rest with
    | nil => rfl
    | cons c rest =>
      have hc : c ≠ 'e' := by simpa using Text.stops_cons.1 he
      unfold readExponent?
      split
      · next heq => exact absurd (List.cons.inj heq).1 hc
      · rfl
  | @present sign digits hs hd =>
    have hsign : sign = [] ∨ ∃ c ∈ ['+', '-'], sign = [c] := by
      simpa using hs
    rw [List.cons_append, List.append_assoc, readExponent?,
      readSign_append hsign (by simp [Char.isDigit]) hd, readDigits?_append hd hr]
    rfl

theorem IsFraction.stops {p : Char → Bool} {fraction rest : List Char} (h : IsFraction fraction)
    (hp : p '.' = false) (hr : Stops p rest) : Stops p (fraction ++ rest) := by
  cases h with
  | absent => exact hr
  | present => exact Text.stops_cons.2 hp

theorem IsExponent.stops {p : Char → Bool} {exponent rest : List Char} (h : IsExponent exponent)
    (hp : p 'e' = false) (hr : Stops p rest) : Stops p (exponent ++ rest) := by
  cases h with
  | absent => exact hr
  | present => exact Text.stops_cons.2 hp

/-- A token is read back where nothing follows that it could go on with. -/
theorem readToken?_append {token rest : List Char} (h : IsToken token)
    (hr : Stops continues rest) : readToken? (token ++ rest) = some (token, rest) := by
  have hstops (p : Char → Bool) (hp : ∀ c, p c = true → continues c = true) : Stops p rest := by
    intro c hc
    cases hpc : p c with
    | false => rfl
    | true =>
      have := hr c hc
      rw [hp c hpc] at this
      cases this
  have hdigit : Stops Char.isDigit rest := hstops _ fun c hc => by simp [continues, hc]
  have hpoint : Stops (· == '.') rest := hstops _ fun c hc => by simp [continues, hc]
  have hletter : Stops (· == 'e') rest := hstops _ fun c hc => by simp [continues, hc]
  cases h with
  | @parts sign whole fraction exponent hs hw hf he =>
    have hsign : sign = [] ∨ ∃ c ∈ ['-'], sign = [c] := by
      simpa using hs
    have hwhole : readDigits? (whole ++ (fraction ++ (exponent ++ rest))) =
        some (whole, fraction ++ (exponent ++ rest)) :=
      readDigits?_append hw (hf.stops (by decide) (he.stops (by decide) hdigit))
    have hfraction : readFraction? (fraction ++ (exponent ++ rest)) =
        some (fraction, exponent ++ rest) :=
      readFraction?_append hf (he.stops (by decide) hdigit) (he.stops (by decide) hpoint)
    have hexponent := readExponent?_append he hdigit hletter
    unfold readToken?
    simp only [List.append_assoc, readSign_append hsign (by simp [Char.isDigit]) hw, hwhole,
      Option.bind_eq_bind, Option.bind_some, hfraction, hexponent]
    rfl

/-! ## The texts of numbers -/

theorem isDigits_toDigits (n : Nat) : IsDigits (Nat.toDigits 10 n) :=
  ⟨Nat.toDigits_ne_nil, fun _ hc => Nat.isDigit_of_mem_toDigits (by decide) (by decide) hc⟩

theorem IsDigits.append {a b : List Char} (ha : IsDigits a) (hb : ∀ c ∈ b, c.isDigit = true) :
    IsDigits (a ++ b) := by
  refine ⟨by simp [ha.ne], fun c hc => ?_⟩
  rcases List.mem_append.1 hc with hc | hc
  · exact ha.all c hc
  · exact hb c hc

theorem isDigit_of_mem_zeros {n : Nat} {c : Char} (h : c ∈ List.replicate n '0') :
    c.isDigit = true := by
  rw [List.eq_of_mem_replicate h]
  decide

/-- An integer is a sign and digits. -/
theorem int_text (i : Int) : ∃ sign digits, (sign = [] ∧ 0 ≤ i ∨ sign = ['-'] ∧ i < 0) ∧
    IsDigits digits ∧ (toString i).toList = sign ++ digits := by
  rw [Int.toString_eq_repr, Int.repr_eq_if]
  by_cases h : 0 ≤ i
  · refine ⟨[], _, .inl ⟨rfl, h⟩, isDigits_toDigits i.toNat, ?_⟩
    rw [if_pos h, Nat.toList_repr]
    rfl
  · refine ⟨['-'], _, .inr ⟨rfl, by omega⟩, isDigits_toDigits (-i).toNat, ?_⟩
    rw [if_neg h, String.toList_append, Nat.toList_repr]
    rfl

/-- With a point, the digits become a whole part and a fraction. -/
theorem positional_parts (keepsPoint : Bool) {digits : List Char} (h : IsDigits digits)
    (first : Int) : ∃ whole fraction, IsDigits whole ∧ IsFraction fraction ∧
      NumberLayout.positional keepsPoint digits first = whole ++ fraction := by
  unfold NumberLayout.positional
  by_cases hf : first < 0
  · rw [if_pos hf]
    refine ⟨['0'], '.' :: (List.replicate (-first - 1).toNat '0' ++ digits), ⟨by simp, by simp⟩,
      .present ⟨by simp [h.ne], fun c hc => ?_⟩, by simp⟩
    rcases List.mem_append.1 hc with hc | hc
    · exact isDigit_of_mem_zeros hc
    · exact h.all c hc
  · rw [if_neg hf]
    have hwhole : IsDigits (digits.take (first.toNat + 1)) := by
      refine ⟨by simp [h.ne], fun c hc => h.all c (List.mem_of_mem_take hc)⟩
    have hzeros := hwhole.append fun c hc => isDigit_of_mem_zeros
      (n := (first + 1 - (digits.take (first.toNat + 1)).length).toNat) hc
    by_cases hd : (digits.drop (first.toNat + 1)).isEmpty = true
    · simp only [if_pos hd]
      cases keepsPoint with
      | false => exact ⟨_, [], hzeros, .absent, by simp⟩
      | true => exact ⟨_, ['.', '0'], hzeros, .present ⟨by simp, by simp⟩, by simp⟩
    · simp only [if_neg hd]
      refine ⟨_, '.' :: digits.drop (first.toNat + 1), hzeros, .present ⟨by simpa using hd, ?_⟩, rfl⟩
      exact fun c hc => h.all c (List.mem_of_mem_drop hc)

/-- In the other layout there is one whole digit and an exponent. -/
theorem scientific_parts (plusSign : Bool) {digits : List Char} (h : IsDigits digits)
    (first : Int) : ∃ whole fraction exponent, IsDigits whole ∧ IsFraction fraction ∧
      IsExponent exponent ∧
      NumberLayout.scientific plusSign digits first = whole ++ (fraction ++ exponent) := by
  have hexponent : IsExponent
      ('e' :: (if plusSign && 0 ≤ first then ['+'] else []) ++ (toString first).toList) := by
    obtain ⟨sign, shown, hs, hd, he⟩ := int_text first
    rw [he]
    rcases hs with ⟨rfl, hpos⟩ | ⟨rfl, hneg⟩
    · cases plusSign with
      | false => exact @IsExponent.present [] _ (by simp) hd
      | true =>
        have hp : (true && decide (0 ≤ first)) = true := by simp [hpos]
        rw [if_pos hp]
        exact @IsExponent.present ['+'] _ (by simp) hd
    · have hn : ¬(plusSign && decide (0 ≤ first)) = true := by simp; omega
      rw [if_neg hn]
      exact @IsExponent.present ['-'] _ (by simp) hd
  unfold NumberLayout.scientific
  cases digits with
  | nil => exact absurd rfl h.ne
  | cons d rest =>
    have hd : IsDigits [d] := ⟨by simp, fun c hc => h.all c (by simp_all)⟩
    cases rest with
    | nil => exact ⟨[d], [], _, hd, .absent, hexponent, rfl⟩
    | cons d' rest =>
      have hrest : IsDigits (d' :: rest) :=
        ⟨by simp, fun c hc => h.all c (List.mem_cons_of_mem _ hc)⟩
      exact ⟨[d], '.' :: d' :: rest, _, hd, .present hrest, hexponent, by simp⟩

/-- In either layout the digits become a token without a sign. -/
theorem layout_parts (layout : NumberLayout) (isPositional : Bool) {digits : List Char}
    (h : IsDigits digits) (first : Int) : ∃ whole fraction exponent, IsDigits whole ∧
      IsFraction fraction ∧ IsExponent exponent ∧
      (if isPositional then NumberLayout.positional layout.keepsPoint digits first
        else NumberLayout.scientific layout.plusSign digits first) =
        whole ++ (fraction ++ exponent) := by
  cases isPositional with
  | false => exact scientific_parts layout.plusSign h first
  | true =>
    obtain ⟨whole, fraction, hw, hf, he⟩ := positional_parts layout.keepsPoint h first
    exact ⟨whole, fraction, [], hw, hf, .absent, by simpa using he⟩

/-- Neither infinite nor not a number. -/
def isFinite : Number → Bool
  | .int _ => true
  | .double d => d.isFinite

/-- The text of a finite number is a token. -/
theorem isToken_text {n : Number} (h : n.isFinite = true) : IsToken n.text.toList := by
  cases n with
  | int i =>
    obtain ⟨sign, digits, hs, hd, he⟩ := int_text i
    have hsign : sign ∈ [[], ['-']] := by
      rcases hs with ⟨rfl, -⟩ | ⟨rfl, -⟩ <;> simp
    have ht := IsToken.parts hsign hd .absent .absent
    rw [text, he]
    simpa using ht
  | double d =>
    cases d with
    | infinity => cases h
    | nan => cases h
    | finite negative significand exponent =>
      simp only [text, NumberLayout.text, String.toList_ofList]
      obtain ⟨whole, fraction, exp, hw, hf, he, hb⟩ := layout_parts .data _ (isDigits_toDigits _) _
      rw [hb]
      cases negative with
      | false => exact @IsToken.parts [] _ _ _ (by simp) hw hf he
      | true => exact @IsToken.parts ['-'] _ _ _ (by simp) hw hf he

theorem mem_token {token : List Char} (h : IsToken token) {c : Char} (hc : c ∈ token) :
    c.isDigit = true ∨ c ∈ ['-', '+', '.', 'e'] := by
  cases h with
  | @parts sign whole fraction exponent hs hw hf he =>
    simp only [List.mem_append] at hc
    rcases hc with hc | hc | hc | hc
    · have hall : ∀ sign ∈ [[], ['-']], ∀ c ∈ sign, c ∈ ['-', '+', '.', 'e'] := by simp
      exact .inr (hall sign hs c hc)
    · exact .inl (hw.all c hc)
    · cases hf with
      | absent => cases hc
      | present hd =>
        rcases List.mem_cons.1 hc with rfl | hc
        · exact .inr (by decide)
        · exact .inl (hd.all c hc)
    · cases he with
      | absent => cases hc
      | @present sign digits hs hd =>
        rcases List.mem_cons.1 hc with rfl | hc
        · exact .inr (by decide)
        rcases List.mem_append.1 hc with hc | hc
        · have hall : ∀ sign ∈ [[], ['+'], ['-']], ∀ c ∈ sign, c ∈ ['-', '+', '.', 'e'] := by
            simp
          exact .inr (hall sign hs c hc)
        · exact .inl (hd.all c hc)

/-- The text of a number has only these characters, whether it is finite or not. -/
theorem of_mem_text {n : Number} {c : Char} (hc : c ∈ n.text.toList) :
    c.isDigit = true ∨ c ∈ ['-', '+', '.', 'e', 'N', 'a', 'i', 'n', 'f'] := by
  have hwords : ∀ word ∈ ["NaN".toList, "-inf".toList, "inf".toList], ∀ c ∈ word,
      c ∈ ['-', '+', '.', 'e', 'N', 'a', 'i', 'n', 'f'] := by simp
  by_cases h : n.isFinite = true
  · exact (mem_token (isToken_text h) hc).imp_right (List.mem_append_left _)
  · cases n with
    | int i => exact absurd rfl h
    | double d =>
      cases d with
      | finite => exact absurd rfl h
      | nan => exact .inr (hwords _ (by decide) c hc)
      | infinity negative =>
        cases negative with
        | false => exact .inr (hwords _ (by decide) c hc)
        | true => exact .inr (hwords _ (by decide) c hc)

/-- No number's text holds a quote or a number sign. -/
theorem mem_text {n : Number} {c : Char} (hc : c ∈ n.text.toList) : c ≠ '"' ∧ c ≠ '#' := by
  rcases of_mem_text hc with hd | hm
  · constructor <;>
      · rintro rfl
        cases hd
  · have hall : ∀ c ∈ ['-', '+', '.', 'e', 'N', 'a', 'i', 'n', 'f'], c ≠ '"' ∧ c ≠ '#' := by simp
    exact hall c hm

end Galley.Number
