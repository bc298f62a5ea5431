import Galley.Proofs.Template.Passage

/-! # Lexemes as passages

Every lexeme is code or a string, and no function is called in one. -/

namespace Galley.Template.Lexeme

variable {text rest : List Char}

theorem follows_of_all (front : List Char) (ht : text = front ++ rest)
    (h : ∀ c ∈ front, isCode c = true) : Follows text rest [] :=
  .of_code front ht (.of_all h)

theorem name?_spec {name : List Char} (h : name? text = some (name, rest)) :
    text = name ++ rest ∧ ∀ c ∈ name, isNameRest c = true := by
  cases text with
  | nil => simp [name?] at h
  | cons c text =>
    simp only [name?] at h
    split at h
    · next hc =>
      simp only [Option.some.injEq, Prod.mk.injEq] at h
      obtain ⟨rfl, rfl⟩ := h
      refine ⟨by simp, fun d hd => ?_⟩
      rcases List.mem_cons.1 hd with rfl | hd
      · exact isNameRest_of_start hc
      · exact Text.of_mem_takeWhile hd
    · cases h

theorem follows_name {name : List Char} (h : name? text = some (name, rest)) :
    Follows text rest [] := by
  obtain ⟨ht, hn⟩ := name?_spec h
  exact follows_of_all _ ht fun c hc => isCode_of_isNameRest (hn c hc)

theorem follows_string {s : String} (h : string? text = some (s, rest)) :
    Follows text rest [] := by
  cases text with
  | nil => simp [string?] at h
  | cons q text =>
    simp only [string?] at h
    split at h
    · next hq =>
      split at h
      · next d after hd =>
        simp only [Option.some.injEq, Prod.mk.injEq] at h
        obtain ⟨-, rfl⟩ := h
        have hdq : d = q := by
          have := Text.stops_dropWhile (fun c => decide (c ≠ q)) text
          rw [hd, Text.stops_cons] at this
          simpa using this
        subst hdq
        have ht : text = text.takeWhile (· ≠ d) ++ d :: after := by
          rw [← hd, List.takeWhile_append_dropWhile]
        have hmark : isQuoteMark d = true := by simpa [isQuoteMark, or_assoc] using hq
        refine .of_code (d :: (text.takeWhile (· ≠ d) ++ d :: [])) ?_ ?_
        · simpa using ht
        · refine .string hmark (fun hmem => ?_) .nil
          simpa using Text.of_mem_takeWhile hmem
      · cases h
    · cases h

theorem follows_whole {digits : List Char} (h : whole? text = some (digits, rest)) :
    Follows text rest [] := by
  have key : text = digits ++ rest ∧ ∀ c ∈ digits, c.isDigit = true := by
    revert h
    fun_cases whole? text
    · simp only [Option.some.injEq, Prod.mk.injEq, and_imp]
      rintro rfl rfl
      simp
    · next c text hz hc =>
      simp only [Option.some.injEq, Prod.mk.injEq, and_imp]
      rintro rfl rfl
      refine ⟨by simp, fun d hd => ?_⟩
      rcases List.mem_cons.1 hd with rfl | hd
      · exact hc
      · exact Text.of_mem_takeWhile hd
    · simp
    · simp
  exact follows_of_all _ key.1 fun c hc => isCode_of_isDigit (key.2 c hc)

theorem follows_sign (text : List Char) : Follows text (sign text).2 [] := by
  fun_cases sign text
  · exact follows_of_all ['-'] rfl (List.all_eq_true.1 (by decide))
  · next h => simpa [sign, h] using Follows.refl text

theorem follows_int {i : Int} (h : int? text = some (i, rest)) : Follows text rest [] := by
  simp only [int?, Option.bind_eq_bind, Option.bind_eq_some_iff] at h
  obtain ⟨⟨digits, mid⟩, hw, h⟩ := h
  simp only [Option.pure_def, Option.some.injEq, Prod.mk.injEq] at h
  obtain ⟨-, rfl⟩ := h
  exact (follows_sign text).follow (follows_whole hw)

theorem follows_double {d : Double} (h : double? text = some (d, rest)) : Follows text rest [] := by
  simp only [double?, Option.bind_eq_bind, Option.bind_eq_some_iff] at h
  obtain ⟨⟨digits, mid⟩, hw, h⟩ := h
  dsimp only at h
  split at h
  · next after =>
    split at h
    · cases h
    · simp only [Option.some.injEq, Prod.mk.injEq] at h
      obtain ⟨-, rfl⟩ := h
      have hfraction : Follows ('.' :: after) (after.dropWhile Char.isDigit) [] := by
        refine follows_of_all ('.' :: after.takeWhile Char.isDigit) (by simp) fun c hc => ?_
        rcases List.mem_cons.1 hc with rfl | hc
        · decide
        · exact isCode_of_isDigit (Text.of_mem_takeWhile hc)
      exact ((follows_sign text).follow (follows_whole hw)).follow hfraction
  · cases h

theorem follows_word {word : String} (hw : word.toList.all isCode = true)
    (h : Text.dropStart? word.toList text = some rest) : Follows text rest [] :=
  follows_of_all _ (Text.dropStart?_eq_some_iff.1 h) (List.all_eq_true.1 hw)

theorem follows_bool {b : Bool} (h : bool? text = some (b, rest)) : Follows text rest [] := by
  simp only [bool?, Option.orElse_eq_orElse, Option.orElse_eq_or, Option.or_eq_some_iff,
    Option.map_eq_some_iff, Prod.mk.injEq] at h
  obtain ⟨_, h, -, rfl⟩ | ⟨-, ⟨_, h, -, rfl⟩ | ⟨-, ⟨_, h, -, rfl⟩ | ⟨-, _, h, -, rfl⟩⟩⟩ := h
  all_goals exact follows_word (by decide) h

theorem breaks_keyword {word : String} (hw : word.toList.all isCode = true)
    (h : keyword? word text = some rest) : Breaks text rest := by
  simp only [keyword?] at h
  split at h
  · next c after hd =>
    split at h
    · next hc =>
      obtain rfl : after = rest := Option.some.inj h
      refine ⟨word.toList ++ [c], by simpa using Text.dropStart?_eq_some_iff.1 hd, by simp, ?_,
        joint_of_last (isWordChar_of_isSpace hc)⟩
      exact (Code.of_all (List.all_eq_true.1 hw)).append (.char (isCode_of_isSpace hc) .nil)
    · cases h
  · cases h

/-- The word `in` is the one after which a name may follow at once. -/
theorem breaks_in (h : Text.dropStart? "in".toList text = some rest) : Breaks text rest :=
  ⟨"in".toList, Text.dropStart?_eq_some_iff.1 h, by decide, .of_all (List.all_eq_true.1 (by decide)),
    fun _ _ => .inr List.suffix_rfl⟩

/-- The readers of paths at some fuel. -/
structure PathsFollow (fuel : Nat) : Prop where
  path : ∀ {text p rest}, path? fuel text = some (p, rest) → Follows text rest []
  steps : ∀ text, Follows text (steps fuel text).2 []
  index : ∀ {text p rest}, index? fuel text = some (p, rest) → Follows text rest []

theorem pathsFollow (fuel : Nat) : PathsFollow fuel := by
  induction fuel with
  | zero => exact ⟨by simp [path?], fun text => .refl text, by simp [index?]⟩
  | succ fuel ih =>
    refine ⟨fun {text p rest} h => ?_, fun text => ?_, fun {text p rest} h => ?_⟩
    · simp only [path?] at h
      split at h
      · cases h
      · next name mid hn =>
        simp only [Option.some.injEq, Prod.mk.injEq] at h
        obtain ⟨-, rfl⟩ := h
        exact (follows_name hn).follow (ih.steps mid)
    · unfold steps
      split
      · next rest =>
        dsimp only
        split
        · exact .refl _
        · have hpart : Follows ('.' :: rest) (rest.dropWhile isNameRest) [] := by
            refine follows_of_all ('.' :: rest.takeWhile isNameRest) (by simp) fun c hc => ?_
            rcases List.mem_cons.1 hc with rfl | hc
            · decide
            · exact isCode_of_isNameRest (Text.of_mem_takeWhile hc)
          exact hpart.follow (ih.steps _)
      · next rest =>
        split
        · next inside after hi =>
          have hopen : Follows ('[' :: rest) rest [] :=
            follows_of_all ['['] rfl (List.all_eq_true.1 (by decide))
          have hclose : Follows (']' :: after) after [] :=
            follows_of_all [']'] rfl (List.all_eq_true.1 (by decide))
          exact ((hopen.follow (ih.index hi)).follow hclose).follow (ih.steps after)
        · exact .refl _
      · exact .refl _
    · simp only [index?] at h
      split at h
      · next hi =>
        simp only [Option.some.injEq, Prod.mk.injEq] at h
        obtain ⟨-, rfl⟩ := h
        exact follows_int hi
      · next hs =>
        simp only [Option.some.injEq, Prod.mk.injEq] at h
        obtain ⟨-, rfl⟩ := h
        exact follows_string hs
      · exact ih.path h

end Galley.Template.Lexeme
