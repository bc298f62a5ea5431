import Galley.Proofs.Template.Called
import Galley.Proofs.Template.LexemePassage

/-! # Expressions as passages

Every reader of the grammar takes a passage, and every function called in what it read is called in
the passage. Readers of what comes next in a chain have a sign or a word in front of every call. -/

namespace Galley.Template.Parser

open Lexeme

/-- A reader that takes a passage with the calls of what it read. -/
def Takes {α : Type} (functions : α → List String)
    (reader : List Char → Option (α × List Char)) : Prop :=
  ∀ {text a rest}, reader text = some (a, rest) → Passes text rest (functions a)

/-- A reader of what comes next, if anything does. -/
def Continues {α : Type} (functions : α → List String)
    (reader : List Char → α × List Char) : Prop :=
  ∀ text, Follows text (reader text).2 (functions (reader text).1)

/-- What the readers do at some fuel. -/
structure Reads (fuel : Nat) : Prop where
  basicValue : Takes Expr.functions (basicValue fuel)
  test : Takes Expr.functions (test fuel)
  testCall : ∀ {text : List Char} {t : String × List Expr} {rest : List Char},
    testCall fuel text = some (t, rest) → Follows text rest (functionsOfAll t.2)
  moreArguments : Continues functionsOfAll (moreArguments fuel)
  argument : Takes Expr.functions (argument fuel)
  call : Takes Call.functions (call fuel)
  namedArgument : Takes (fun a : String × Expr => a.2.functions) (namedArgument fuel)
  moreNamed : Continues functionsOfArguments (moreNamed fuel)
  operand : Takes Expr.functions (operand fuel)
  moreOperands : Continues functionsOfOperands (moreOperands fuel)
  basic : Takes Expr.functions (basic fuel)
  filters : Continues functionsOfCalls (filters fuel)
  filteredBasic : Takes Expr.functions (filteredBasic fuel)
  part : Takes Atom.functions (part fuel)
  moreParts : Continues functionsOfParts (moreParts fuel)
  filteredString : Takes Expr.functions (filteredString fuel)
  moreFiltered : Continues functionsOfOperands (moreFiltered fuel)
  side : Takes Expr.functions (side fuel)
  compared : Takes Expr.functions (compared fuel)
  membership : Takes Expr.functions (membership fuel)
  truth : Takes Expr.functions (truth fuel)
  moreTruths : Continues functionsOfOperands (moreTruths fuel)
  logic : Takes Expr.functions (logic fuel)
  items : ∀ {front text : List Char}, Breaks front text →
    Follows front (items fuel text).2 (functionsOfAll (items fuel text).1)
  filteredList : Takes Expr.functions (filteredList fuel)

variable {text mid rest : List Char} {names : List String}

theorem breaks_mathOp {op : MathOp} (h : mathOp? text = some (op, rest)) : Breaks text rest := by
  revert h
  fun_cases mathOp? text
  all_goals rintro ⟨⟩
  · exact .of_signs ['+'] (by simp) (by decide)
  · exact .of_signs ['-'] (by simp) (by decide)
  · exact .of_signs ['*'] (by simp) (by decide)
  · exact .of_signs ['/'] (by simp) (by decide)
  · exact .of_signs ['%'] (by simp) (by decide)

theorem breaks_comparison {op : LogicOp} (h : comparison? text = some (op, rest)) :
    Breaks text rest := by
  revert h
  fun_cases comparison? text
  all_goals rintro ⟨⟩
  · exact .of_signs ['<', '='] (by simp) (by decide)
  · exact .of_signs ['>', '='] (by simp) (by decide)
  · exact .of_signs ['>'] (by simp) (by decide)
  · exact .of_signs ['<'] (by simp) (by decide)
  · exact .of_signs ['=', '='] (by simp) (by decide)
  · exact .of_signs ['!', '='] (by simp) (by decide)

theorem passes_path {fuel : Nat} {p : Expr × List Char}
    (h : (path? fuel text).map (fun (p, rest) => (.ofAtom (.path (String.ofList p)), rest)) = some p) :
    Passes text p.2 p.1.functions := by
  obtain ⟨⟨name, mid⟩, hp, rfl⟩ := Option.map_eq_some_iff.1 h
  simpa [Atom.functions] using ((pathsFollow _).path hp).passes

/-- A comma may follow the last argument of a call. -/
theorem follows_comma (text : List Char) :
    Follows text
      (match skip text with
        | ',' :: rest => rest
        | _ => text) [] := by
  split
  · next rest hs => exact follows_sign hs (by decide)
  · exact .refl text

/-- A name, blanks and a parenthesis make a call of what the name says. -/
theorem passes_call {name mid inside : List Char} (hn : name? text = some (name, mid))
    (hs : skip mid = '(' :: inside) (h : Passes inside rest names) :
    Passes text rest (String.ofList name :: names) := by
  obtain ⟨rfl, hname⟩ := name?_spec hn
  obtain ⟨blanks, ht, hb⟩ := exists_skip mid
  obtain ⟨passage, rfl, hc, hsites⟩ := h
  rw [hs] at ht
  have hblanks : Code blanks := .of_all fun c hc => isCode_of_isSpace (hb c hc)
  have hopen : Code ['('] := .char (by decide) .nil
  have hfront : Code (name ++ blanks ++ ['(']) :=
    ((Code.of_all fun c hc => isCode_of_isNameRest (hname c hc)).append hblanks).append hopen
  refine ⟨name ++ blanks ++ ['('] ++ passage, by simp [ht], hfront.append hc, fun f hf => ?_⟩
  rcases List.mem_cons.1 hf with rfl | hf
  · exact ⟨[], ⟨blanks, passage, by simp, hb⟩, .nil, by simp [Joint]⟩
  · obtain ⟨before, hsite⟩ := hsites f hf
    exact ⟨_, hsite.prepend hfront fun _ => joint_of_last (by decide)⟩

section Steps

variable {fuel : Nat} (ih : Reads fuel)

include ih

theorem basicValue_takes : Takes Expr.functions (basicValue (fuel + 1)) := by
  intro text e rest h
  simp only [basicValue] at h
  split at h
  · next b mid hb =>
    obtain ⟨rfl, rfl⟩ : .ofAtom (.bool b) = e ∧ mid = rest := by simpa using h
    simpa [Atom.functions] using (follows_bool hb).passes
  · split at h
    · next found ht =>
      cases h
      exact ih.test ht
    · split at h
      · next c mid hc =>
        obtain ⟨rfl, rfl⟩ : .ofAtom (.call c) = e ∧ mid = rest := by simpa using h
        simpa using ih.call hc
      · split at h
        · next p mid hp =>
          obtain ⟨rfl, rfl⟩ : .ofAtom (.path (String.ofList p)) = e ∧ mid = rest := by simpa using h
          simpa [Atom.functions] using ((pathsFollow _).path hp).passes
        · split at h
          · next d mid hd =>
            obtain ⟨rfl, rfl⟩ : .ofAtom (.double d) = e ∧ mid = rest := by simpa using h
            simpa [Atom.functions] using (follows_double hd).passes
          · obtain ⟨⟨i, mid⟩, hi, h⟩ := Option.map_eq_some_iff.1 h
            obtain ⟨rfl, rfl⟩ : .ofAtom (.int i) = e ∧ mid = rest := by simpa using h
            simpa [Atom.functions] using (follows_int hi).passes

theorem test_takes : Takes Expr.functions (test (fuel + 1)) := by
  intro text e rest h
  simp only [test, Option.bind_eq_bind, Option.bind_eq_some_iff] at h
  obtain ⟨⟨subject, mid⟩, hp, after, hi, h⟩ := h
  have hfront : Follows text (skip after) [] :=
    (((pathsFollow _).path hp).follow (.of_skip (follows_word (by decide) hi))).follow
      (follows_skip after)
  dsimp only at h
  split at h
  · next name args last ht =>
    obtain ⟨rfl, rfl⟩ : .ofAtom (.test (String.ofList subject) true name args) = e ∧ last = rest := by
      simpa using h
    obtain ⟨more, hn, ht⟩ := Option.bind_eq_some_iff.1 ht
    have hnot : Follows (skip after) (skip more) [] :=
      (follows_word (by decide) hn).follow (follows_skip more)
    simpa [Atom.functions] using ((hfront.follow hnot).follow (ih.testCall ht)).passes
  · simp only [Option.bind_eq_some_iff] at h
    obtain ⟨⟨⟨name, args⟩, last⟩, ht, h⟩ := h
    obtain ⟨rfl, rfl⟩ : .ofAtom (.test (String.ofList subject) false name args) = e ∧ last = rest := by
      simpa using h
    simpa [Atom.functions] using (hfront.follow (ih.testCall ht)).passes

theorem testCall_takes {text : List Char} {t : String × List Expr} {rest : List Char}
    (h : testCall (fuel + 1) text = some (t, rest)) : Follows text rest (functionsOfAll t.2) := by
  simp only [testCall, Option.bind_eq_bind, Option.bind_eq_some_iff] at h
  obtain ⟨⟨name, mid⟩, hn, h⟩ := h
  dsimp only at h
  split at h
  · next args last ha =>
    obtain ⟨rfl, rfl⟩ : (String.ofList name, args) = t ∧ last = rest := by simpa using h
    split at ha
    · next inside hs =>
      split at ha
      · cases ha
      · next first after hf =>
        split at ha
        · next close hc =>
          obtain ⟨rfl, rfl⟩ : first :: (moreArguments fuel after).1 = args ∧ close = last := by
            simpa using ha
          have hopen : Follows mid after first.functions :=
            (breaks_sign hs (by decide)).skip.passes (ih.argument hf)
          have hclose : Follows (moreArguments fuel after).2 close [] := follows_sign hc (by decide)
          have hargs := hopen.follow ((ih.moreArguments after).follow hclose)
          simpa [functionsOfAll] using (follows_name hn).follow hargs
        · cases ha
    · cases ha
  · obtain ⟨rfl, rfl⟩ : (String.ofList name, []) = t ∧ mid = rest := by simpa using h
    simpa [functionsOfAll] using follows_name hn

theorem moreArguments_continues : Continues functionsOfAll (moreArguments (fuel + 1)) := by
  intro text
  unfold moreArguments
  split
  · next rest hs =>
    split
    · next arg mid ha =>
      have hfirst := (breaks_sign hs (by decide)).skip.passes (ih.argument ha)
      simpa [functionsOfAll] using hfirst.follow (ih.moreArguments mid)
    · exact .refl text
  · exact .refl text

theorem argument_takes : Takes Expr.functions (argument (fuel + 1)) := by
  intro text e rest h
  simp only [argument] at h
  split at h
  · next found hl =>
    cases h
    exact ih.logic hl
  · exact ih.filteredList h

theorem call_takes : Takes Call.functions (call (fuel + 1)) := by
  intro text c rest h
  simp only [call, Option.bind_eq_bind, Option.bind_eq_some_iff] at h
  obtain ⟨⟨name, mid⟩, hn, h⟩ := h
  dsimp only at h
  split at h
  · next inside hs =>
    cases ha : namedArgument fuel (skip inside) with
    | none =>
      simp only [ha] at h
      split at h
      · next close hc =>
        obtain ⟨rfl, rfl⟩ : .mk (String.ofList name) [] = c ∧ close = rest := by simpa using h
        exact passes_call hn hs (follows_sign hc (by decide)).passes
      · cases h
    | some found =>
      obtain ⟨⟨argName, value⟩, after⟩ := found
      simp only [ha] at h
      split at h
      · next close hc =>
        obtain ⟨rfl, rfl⟩ : .mk (String.ofList name) ((argName, value) :: (moreNamed fuel after).1) = c ∧
            close = rest := by simpa using h
        have hargs := ((ih.namedArgument ha).follow (ih.moreNamed after)).follow
          ((follows_comma (moreNamed fuel after).2).follow (follows_sign hc (by decide)))
        exact passes_call hn hs (.of_skip (hargs.mono (by simp [functionsOfArguments])))
      · cases h
  · cases h

theorem namedArgument_takes :
    Takes (fun a : String × Expr => a.2.functions) (namedArgument (fuel + 1)) := by
  intro text a rest h
  simp only [namedArgument, Option.bind_eq_bind, Option.bind_eq_some_iff] at h
  obtain ⟨⟨name, mid⟩, hn, h⟩ := h
  dsimp only at h
  split at h
  · next inside hs =>
    obtain ⟨⟨value, last⟩, hv, h⟩ := Option.bind_eq_some_iff.1 h
    obtain ⟨rfl, rfl⟩ : (String.ofList name, value) = a ∧ last = rest := by simpa using h
    have hvalue := (breaks_sign hs (by decide)).skip.passes (ih.argument hv)
    simpa using ((follows_name hn).follow hvalue).passes
  · cases h

theorem moreNamed_continues : Continues functionsOfArguments (moreNamed (fuel + 1)) := by
  intro text
  unfold moreNamed
  split
  · next rest hs =>
    split
    · next arg mid ha =>
      have hfirst := (breaks_sign hs (by decide)).skip.passes (ih.namedArgument ha)
      simpa [functionsOfArguments] using hfirst.follow (ih.moreNamed mid)
    · exact .refl text
  · exact .refl text

theorem operand_takes : Takes Expr.functions (operand (fuel + 1)) := by
  intro text e rest h
  simp only [operand] at h
  split at h
  · next found hp =>
    cases h
    split at hp
    · next inside =>
      split at hp
      · next inner mid hb =>
        split at hp
        · next close hc =>
          obtain ⟨rfl, rfl⟩ : inner = e ∧ close = rest := by simpa using hp
          have hopen : Breaks ('(' :: inside) inside := .of_signs ['('] (by simp) (by decide)
          have hinner := hopen.skip.passes (ih.basic hb)
          simpa using (hinner.follow (follows_sign hc (by decide))).passes
        · cases hp
      · cases hp
    · cases hp
  · exact ih.basicValue h

theorem moreOperands_continues : Continues functionsOfOperands (moreOperands (fuel + 1)) := by
  intro text
  unfold moreOperands
  split
  · next op rest ho =>
    split
    · next e mid he =>
      have hfirst := (breaks_mathOp ho).of_skip.skip.passes (ih.operand he)
      simpa [functionsOfOperands] using hfirst.follow (ih.moreOperands mid)
    · exact .refl text
  · exact .refl text

theorem basic_takes : Takes Expr.functions (basic (fuel + 1)) := by
  intro text e rest h
  simp only [basic, Option.bind_eq_bind, Option.bind_eq_some_iff] at h
  obtain ⟨⟨first, mid⟩, hf, h⟩ := h
  obtain ⟨rfl, rfl⟩ : sums none first (moreOperands fuel mid).1 = e ∧
      (moreOperands fuel mid).2 = rest := by simpa using h
  exact ((ih.operand hf).follow (ih.moreOperands mid)).mono (by simpa using functions_sums none _ _)

theorem filter_follows {text rest : List Char} {filter : Call} (hs : skip text = '|' :: mid)
    (h : (match call fuel (skip mid) with
      | some found => some found
      | none => (name? (skip mid)).map fun (name, rest) => (.mk (String.ofList name) [], rest)) =
        some (filter, rest)) :
    Follows text rest (functionsOfCalls [filter]) := by
  have hbar : Breaks text (skip mid) := (breaks_sign hs (by decide)).skip
  split at h
  · next found hc =>
    cases h
    obtain ⟨name, args⟩ := filter
    exact (hbar.passes (ih.call hc)).mono (by simp [functionsOfCalls, Call.functions])
  · obtain ⟨⟨name, last⟩, hn, h⟩ := Option.map_eq_some_iff.1 h
    obtain ⟨rfl, rfl⟩ : .mk (String.ofList name) [] = filter ∧ last = rest := by simpa using h
    exact hbar.passes (follows_name hn).passes

theorem filters_continues : Continues functionsOfCalls (filters (fuel + 1)) := by
  intro text
  unfold filters
  split
  · next rest hs =>
    dsimp only
    split
    · next filter after hf =>
      have hfirst := filter_follows ih hs hf
      have hall := hfirst.follow (ih.filters after)
      rwa [← functionsOfCalls_append] at hall
    · exact .refl text
  · exact .refl text

theorem filteredBasic_takes : Takes Expr.functions (filteredBasic (fuel + 1)) := by
  intro text e rest h
  simp only [filteredBasic, Option.bind_eq_bind, Option.bind_eq_some_iff] at h
  obtain ⟨⟨plain, mid⟩, hp, h⟩ := h
  obtain ⟨rfl, rfl⟩ : plain.withFilters (filters fuel mid).1 = e ∧ (filters fuel mid).2 = rest := by
    simpa using h
  simpa using (ih.basic hp).follow (ih.filters mid)

theorem part_takes : Takes Atom.functions (part (fuel + 1)) := by
  intro text a rest h
  simp only [part] at h
  split at h
  · next c mid hc =>
    obtain ⟨rfl, rfl⟩ : .call c = a ∧ mid = rest := by simpa using h
    simpa using ih.call hc
  · split at h
    · next d mid hd =>
      obtain ⟨rfl, rfl⟩ : .double d = a ∧ mid = rest := by simpa using h
      simpa [Atom.functions] using (follows_double hd).passes
    · split at h
      · next i mid hi =>
        obtain ⟨rfl, rfl⟩ : .int i = a ∧ mid = rest := by simpa using h
        simpa [Atom.functions] using (follows_int hi).passes
      · split at h
        · next s mid hs =>
          obtain ⟨rfl, rfl⟩ : .string s = a ∧ mid = rest := by simpa using h
          simpa [Atom.functions] using (follows_string hs).passes
        · obtain ⟨⟨p, mid⟩, hp, h⟩ := Option.map_eq_some_iff.1 h
          obtain ⟨rfl, rfl⟩ : .path (String.ofList p) = a ∧ mid = rest := by simpa using h
          simpa [Atom.functions] using ((pathsFollow _).path hp).passes

theorem moreParts_continues : Continues functionsOfParts (moreParts (fuel + 1)) := by
  intro text
  unfold moreParts
  split
  · next rest hs =>
    split
    · next p mid hp =>
      have hfirst := (breaks_sign hs (by decide)).skip.passes (ih.part hp)
      simpa [functionsOfParts] using hfirst.follow (ih.moreParts mid)
    · exact .refl text
  · exact .refl text

theorem concatenation_takes {text rest : List Char} {atom : Atom}
    (h : (match part fuel text with
      | some (first, rest) =>
        match moreParts fuel rest with
        | ([], _) => none
        | (more, rest) => some (joinParts (first :: more), rest)
      | none => none) = some (atom, rest)) : Passes text rest atom.functions := by
  split at h
  · next first mid hf =>
    have hmore := ih.moreParts mid
    split at h
    · cases h
    · next more last hne hm =>
      obtain ⟨rfl, rfl⟩ : joinParts (first :: more) = atom ∧ last = rest := by simpa using h
      rw [hm] at hmore
      exact ((ih.part hf).follow hmore).mono (functions_joinParts (first :: more))
  · cases h

theorem filteredString_takes : Takes Expr.functions (filteredString (fuel + 1)) := by
  intro text e rest h
  simp only [filteredString, Option.bind_eq_bind, Option.bind_eq_some_iff, Option.orElse_eq_orElse,
    Option.orElse_eq_or, Option.or_eq_some_iff] at h
  obtain ⟨⟨atom, mid⟩, ha, h⟩ := h
  have hatom : Passes text mid atom.functions := by
    rcases ha with ha | ⟨-, ha⟩
    · exact concatenation_takes ih ha
    · obtain ⟨⟨s, last⟩, hs, ha⟩ := Option.map_eq_some_iff.1 ha
      obtain ⟨rfl, rfl⟩ : .string s = atom ∧ last = mid := by simpa using ha
      simpa [Atom.functions] using (follows_string hs).passes
  obtain ⟨rfl, rfl⟩ : .mk atom false (filters fuel mid).1 = e ∧ (filters fuel mid).2 = rest := by
    simpa using h
  simpa [Expr.functions] using hatom.follow (ih.filters mid)

theorem moreFiltered_continues : Continues functionsOfOperands (moreFiltered (fuel + 1)) := by
  intro text
  unfold moreFiltered
  split
  · next op rest ho =>
    split
    · next e mid he =>
      have hfirst := (breaks_mathOp ho).of_skip.skip.passes (ih.filteredBasic he)
      simpa [functionsOfOperands] using hfirst.follow (ih.moreFiltered mid)
    · exact .refl text
  · exact .refl text

theorem side_takes : Takes Expr.functions (side (fuel + 1)) := by
  intro text e rest h
  simp only [side, Option.bind_eq_bind] at h
  split at h
  · next found hs =>
    cases h
    exact ih.filteredString hs
  · obtain ⟨⟨first, mid⟩, hf, h⟩ := Option.bind_eq_some_iff.1 h
    obtain ⟨rfl, rfl⟩ : sums none first (moreFiltered fuel mid).1 = e ∧
        (moreFiltered fuel mid).2 = rest := by simpa using h
    exact ((ih.filteredBasic hf).follow (ih.moreFiltered mid)).mono
      (by simpa using functions_sums none _ _)

theorem compared_takes : Takes Expr.functions (compared (fuel + 1)) := by
  intro text e rest h
  simp only [compared, Option.bind_eq_bind] at h
  obtain ⟨⟨left, mid⟩, hl, h⟩ := Option.bind_eq_some_iff.1 h
  dsimp only at h
  split at h
  · next found hc =>
    cases h
    obtain ⟨⟨op, after⟩, ho, hc⟩ := Option.bind_eq_some_iff.1 hc
    obtain ⟨⟨right, last⟩, hr, hc⟩ := Option.bind_eq_some_iff.1 hc
    obtain ⟨rfl, rfl⟩ : .ofAtom (.logic op left right) = e ∧ last = rest := by simpa using hc
    have hright := (breaks_comparison ho).of_skip.skip.passes (ih.side hr)
    simpa [Atom.functions] using (ih.side hl).follow hright
  · obtain ⟨rfl, rfl⟩ : left = e ∧ mid = rest := by simpa using h
    exact ih.side hl

theorem membership_takes : Takes Expr.functions (membership (fuel + 1)) := by
  intro text e rest h
  simp only [membership, Option.bind_eq_bind, Option.bind_eq_some_iff, Option.orElse_eq_orElse,
    Option.orElse_eq_or, Option.or_eq_some_iff] at h
  obtain ⟨⟨left, mid⟩, hl, after, hi, ⟨right, last⟩, hr, h⟩ := h
  have hleft : Passes text mid left.functions := by
    rcases hl with hl | ⟨-, hl⟩
    · exact ih.filteredString hl
    · exact ih.filteredBasic hl
  have hright : Passes (skip after) last right.functions := by
    rcases hr with hr | ⟨-, hr | ⟨-, hr⟩⟩
    · exact ih.filteredString hr
    · exact ih.filteredList hr
    · exact passes_path hr
  have hin : Follows mid last right.functions := by
    split at hi
    · next more hk =>
      have hnot : Follows mid more [] :=
        (breaks_keyword (by decide) hk).of_skip.passes (Follows.refl more).passes
      exact hnot.follow ((breaks_in hi).of_skip.skip.passes hright)
    · exact (breaks_in hi).of_skip.skip.passes hright
  obtain ⟨rfl, rfl⟩ := by simpa using h
  simpa [Atom.functions] using hleft.follow hin

/-- A truth value without `not` in front: a membership or a comparison. -/
theorem plainTruth_takes {text rest : List Char} {e : Expr}
    (h : (match membership fuel text with
      | some found => some found
      | none => compared fuel text) = some (e, rest)) : Passes text rest e.functions := by
  split at h
  · next found hm =>
    cases h
    exact ih.membership hm
  · exact ih.compared h

theorem truthInParentheses_takes {text rest : List Char} {e : Expr}
    (h : (match text with
      | '(' :: inside =>
        match logic fuel (skip inside) with
        | some (e, rest) =>
          match skip rest with
          | ')' :: rest => some (e.withNegation false, rest)
          | _ => none
        | none => none
      | _ => none) = some (e, rest)) : Passes text rest e.functions := by
  split at h
  · next inside =>
    split at h
    · next inner mid hl =>
      split at h
      · next close hc =>
        obtain ⟨rfl, rfl⟩ : inner.withNegation false = e ∧ close = rest := by simpa using h
        have hopen : Breaks ('(' :: inside) inside := .of_signs ['('] (by simp) (by decide)
        have hinner := hopen.skip.passes (ih.logic hl)
        simpa using (hinner.follow (follows_sign hc (by decide))).passes
      · cases h
    · cases h
  · cases h

theorem truth_takes : Takes Expr.functions (truth (fuel + 1)) := by
  intro text e rest h
  simp only [truth] at h
  cases hk : keyword? "not" text with
  | none =>
    simp only [hk] at h
    split at h
    · next plain mid hp =>
      obtain ⟨rfl, rfl⟩ : plain.withNegation false = e ∧ mid = rest := by simpa using h
      simpa using plainTruth_takes ih hp
    · exact truthInParentheses_takes ih h
  | some after =>
    simp only [hk] at h
    split at h
    · next plain mid hp =>
      obtain ⟨rfl, rfl⟩ : plain.withNegation true = e ∧ mid = rest := by simpa using h
      simpa using ((breaks_keyword (by decide) hk).skip.passes (plainTruth_takes ih hp)).passes
    · exact truthInParentheses_takes ih h

omit ih in
theorem breaks_logicOp {text rest : List Char} {op : LogicOp}
    (h : (match keyword? "or" text with
      | some rest => some (.or, rest)
      | none => (keyword? "and" text).map fun rest => (.and, rest)) = some (op, rest)) :
    Breaks text rest := by
  split at h
  · next after hk =>
    obtain ⟨rfl, rfl⟩ : .or = op ∧ after = rest := by simpa using h
    exact breaks_keyword (by decide) hk
  · obtain ⟨after, hk, h⟩ := Option.map_eq_some_iff.1 h
    obtain ⟨rfl, rfl⟩ : .and = op ∧ after = rest := by simpa using h
    exact breaks_keyword (by decide) hk

theorem moreTruths_continues : Continues functionsOfOperands (moreTruths (fuel + 1)) := by
  intro text
  unfold moreTruths
  dsimp only
  split
  · next op rest ho =>
    split
    · next e mid he =>
      have hfirst := (breaks_logicOp ho).of_skip.skip.passes (ih.truth he)
      simpa [functionsOfOperands] using hfirst.follow (ih.moreTruths mid)
    · exact .refl text
  · exact .refl text

theorem logic_takes : Takes Expr.functions (logic (fuel + 1)) := by
  intro text e rest h
  simp only [logic, Option.bind_eq_bind] at h
  obtain ⟨⟨first, mid⟩, hf, h⟩ := Option.bind_eq_some_iff.1 h
  obtain ⟨rfl, rfl⟩ : disjuncts none first (moreTruths fuel mid).1 = e ∧
      (moreTruths fuel mid).2 = rest := by simpa using h
  exact ((ih.truth hf).follow (ih.moreTruths mid)).mono (by simpa using functions_disjuncts none _ _)

theorem items_follow {front text : List Char} (hb : Breaks front text) :
    Follows front (items (fuel + 1) text).2 (functionsOfAll (items (fuel + 1) text).1) := by
  unfold items
  split
  · next e mid ht =>
    have hfirst := hb.skip.passes (ih.truth ht)
    split
    · next rest hs =>
      have hmore := ih.items (breaks_sign hs (by decide))
      simpa [functionsOfAll] using hfirst.follow hmore
    · simpa [functionsOfAll] using hfirst
  · simpa [functionsOfAll] using hb.passes (Follows.refl text).passes

theorem filteredList_takes : Takes Expr.functions (filteredList (fuel + 1)) := by
  intro text e rest h
  simp only [filteredList] at h
  split at h
  · next inside =>
    split at h
    · next mid hs =>
      obtain ⟨rfl, rfl⟩ : .mk (.list (items fuel inside).1) false (filters fuel mid).1 = e ∧
          (filters fuel mid).2 = rest := by simpa using h
      have hitems : Follows ('[' :: inside) (items fuel inside).2 _ :=
        ih.items (.of_signs ['['] (by simp) (by decide))
      have hclose := (hitems.follow (follows_sign hs (by decide))).follow (ih.filters mid)
      simpa [Expr.functions, Atom.functions] using hclose.passes
    · cases h
  · cases h

end Steps

theorem reads (fuel : Nat) : Reads fuel := by
  induction fuel with
  | zero =>
    constructor
    case items => exact fun hb => hb.passes (Follows.refl _).passes
    all_goals first
      | exact fun text => .refl text
      | exact fun {_ _ _} h => by cases h
  | succ fuel ih => exact {
      basicValue := basicValue_takes ih
      test := test_takes ih
      testCall := testCall_takes ih
      moreArguments := moreArguments_continues ih
      argument := argument_takes ih
      call := call_takes ih
      namedArgument := namedArgument_takes ih
      moreNamed := moreNamed_continues ih
      operand := operand_takes ih
      moreOperands := moreOperands_continues ih
      basic := basic_takes ih
      filters := filters_continues ih
      filteredBasic := filteredBasic_takes ih
      part := part_takes ih
      moreParts := moreParts_continues ih
      filteredString := filteredString_takes ih
      moreFiltered := moreFiltered_continues ih
      side := side_takes ih
      compared := compared_takes ih
      membership := membership_takes ih
      truth := truth_takes ih
      moreTruths := moreTruths_continues ih
      logic := logic_takes ih
      items := items_follow ih
      filteredList := filteredList_takes ih }

end Galley.Template.Parser
