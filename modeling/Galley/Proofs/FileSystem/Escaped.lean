import Mathlib.Data.List.Induction
import Mathlib.Data.List.Nodup
import Galley.FileSystem.Glob
import Galley.Proofs.FileSystem.Entry
import Galley.Proofs.FileSystem.Parent

/-! # Patterns of escaped paths

Whatever characters the path of a directory holds, the escaped path is a pattern that only this path fits,
so what fits it with a last name after it lies in the directory. -/

namespace Galley

theorem Text.startsWith_iff {start text : List Char} : Text.startsWith start text = true ↔ start <+: text := by
  rw [startsWith, Option.isSome_iff_exists]
  simp only [dropStart?_eq_some_iff]
  exact ⟨fun ⟨rest, h⟩ => ⟨rest, h.symm⟩, fun ⟨rest, h⟩ => ⟨rest, h.symm⟩⟩

namespace FileSystem

variable {fs : FileSystem} {place : Location} {name : String}

theorem map_names (fs : FileSystem) (place : Location) :
    (fs.names place).map (place ++ [·]) = fs.children place := by
  have hl : ∀ l : List Location, (∀ other ∈ l, other ≠ [] ∧ other.dropLast = place) →
      (l.filterMap List.getLast?).map (place ++ [·]) = l := by
    intro l hl
    induction l with
    | nil => rfl
    | cons other l ih =>
      obtain ⟨hne, hdirectory⟩ := hl other (by simp)
      obtain ⟨front, last, rfl⟩ := (List.eq_nil_or_concat' other).resolve_left hne
      rw [List.dropLast_concat] at hdirectory
      simp [hdirectory, ih fun other hm => hl other (List.mem_cons_of_mem _ hm)]
  exact hl _ fun other hm => by simpa [children] using (List.mem_filter.1 hm).2

theorem nodup_names (fs : FileSystem) (place : Location) : (fs.names place).Nodup :=
  .of_map (place ++ [·]) (by
    rw [map_names]
    exact fs.distinct.filter _)

/-- The names in a directory are those under which something stands. -/
theorem mem_names : name ∈ fs.names place ↔ fs.node? (place ++ [name]) ≠ none := by
  have hm : name ∈ fs.names place ↔ place ++ [name] ∈ fs.children place := by
    rw [← map_names, List.mem_map_of_injective fun a b h => by simpa using h]
  rw [hm, node?, if_neg (by simp), ne_eq, List.lookup_eq_none_iff]
  simp [children]

end FileSystem

namespace Glob

/-! ## Names -/

/-- The tokens of an escaped text. -/
def tokensOf (text : List Char) : List Token :=
  text.map fun c => if isSpecial c then .within [.single c] else .char c

@[simp] theorem escape_nil : escape [] = [] := rfl

theorem escape_special {c : Char} (h : isSpecial c = true) (text : List Char) :
    escape (c :: text) = '[' :: c :: ']' :: escape text := by
  simp [escape, h]

theorem escape_plain {c : Char} (h : ¬isSpecial c = true) (text : List Char) :
    escape (c :: text) = c :: escape text := by
  simp [escape, h]

theorem readToken?_of_plain {c : Char} (h : ¬isSpecial c = true) (text : List Char) :
    readToken? c text = some (.char c, text) := by
  simp only [isSpecial, Bool.or_eq_true, beq_iff_eq, not_or] at h
  unfold readToken?
  split <;> simp_all

theorem readToken?_of_special {c : Char} (h : isSpecial c = true) (text : List Char) :
    readToken? '[' (c :: ']' :: text) = some (.within [.single c], text) := by
  have hc : c ≠ '!' := by
    rintro rfl
    cases h
  simp [readToken?, hc, readBrackets?, readMembers]

theorem read?_of_token {c : Char} {text rest : List Char} {token : Token}
    (h : readToken? c text = some (token, rest)) : read? (c :: text) = (read? rest).map (token :: ·) := by
  rw [read?]
  split <;> simp_all

theorem read?_escape (text rest : List Char) :
    read? (escape text ++ rest) = (read? rest).map (tokensOf text ++ ·) := by
  induction text with
  | nil => simp [escape, tokensOf]
  | cons c text ih =>
    by_cases hc : isSpecial c = true
    · have hread := readToken?_of_special hc (escape text ++ rest)
      simp [escape_special hc, read?_of_token hread, ih, tokensOf, hc, Function.comp_def]
    · have hread := readToken?_of_plain hc (escape text ++ rest)
      simp [escape_plain hc, read?_of_token hread, ih, tokensOf, hc, Function.comp_def]

theorem escape_of_plain {text : List Char} (h : ∀ c ∈ text, ¬isSpecial c = true) : escape text = text := by
  induction text with
  | nil => rfl
  | cons c text ih => rw [escape_plain (h c (by simp)), ih fun d hd => h d (List.mem_cons_of_mem _ hd)]

theorem fits_tokensOf {text name : List Char} {tokens : List Token} :
    fits (tokensOf text ++ tokens) name = true ↔ ∃ rest, name = text ++ rest ∧ fits tokens rest = true := by
  induction text generalizing name with
  | nil => simp [tokensOf]
  | cons c text ih =>
    have hstep : ∀ d rest, fits (tokensOf (c :: text) ++ tokens) (d :: rest) =
        (c == d && fits (tokensOf text ++ tokens) rest) := by
      intro d rest
      by_cases hc : isSpecial c = true
      · simp [tokensOf, hc, fits, Token.admits, Member.holds]
      · simp [tokensOf, hc, fits, Token.admits]
    cases name with
    | nil =>
      have hnil : fits (tokensOf (c :: text) ++ tokens) [] = false := by
        by_cases hc : isSpecial c = true <;> simp [tokensOf, hc, fits]
      simp [hnil]
    | cons d rest =>
      rw [hstep, Bool.and_eq_true, beq_iff_eq, ih]
      constructor
      · rintro ⟨rfl, rest', rfl, hrest⟩
        exact ⟨rest', rfl, hrest⟩
      · rintro ⟨rest', he, hrest⟩
        obtain ⟨rfl, rfl⟩ := List.cons.inj he
        exact ⟨rfl, rest', rfl, hrest⟩

/-- Only the text fits the tokens of its escape. -/
theorem fits_tokensOf_iff {text name : List Char} : fits (tokensOf text) name = true ↔ name = text := by
  have h := @fits_tokensOf text name []
  rw [List.append_nil] at h
  simp [h, fits]

theorem fits_anyText (name : List Char) : fits [.anyText] name = true := by
  simp only [fits, List.any_eq_true, List.mem_range]
  exact ⟨name.length, by omega, by simp⟩

theorem fits_start_iff {start name : List Char} :
    fits (tokensOf start ++ [.anyText]) name = true ↔ start <+: name := by
  simp only [fits_tokensOf, fits_anyText, and_true]
  exact ⟨fun ⟨rest, h⟩ => ⟨rest, h.symm⟩, fun ⟨rest, h⟩ => ⟨rest, h.symm⟩⟩

theorem eq_of_literal? {tokens : List Token} {name : List Char} (h : literal? tokens = some name) :
    tokens = name.map .char := by
  induction tokens generalizing name with
  | nil => simpa [literal?, eq_comm] using h
  | cons token tokens ih =>
    cases token with
    | char c =>
      obtain ⟨rest, hrest, rfl⟩ := Option.map_eq_some_iff.1 h
      rw [ih hrest, List.map_cons]
    | anyChar | anyText | within _ | outside _ => cases h

theorem literal?_tokensOf {text name : List Char} (h : literal? (tokensOf text) = some name) :
    name = text := by
  have hfits : ∀ name : List Char, fits (name.map .char) name = true := fun name => by
    induction name with
    | nil => rfl
    | cons c name ih => simp [fits, Token.admits, ih]
  exact fits_tokensOf_iff.1 (eq_of_literal? h ▸ hfits name)

theorem literal?_start (tokens : List Token) : literal? (tokens ++ [.anyText]) = none := by
  cases h : literal? (tokens ++ [.anyText]) with
  | none => rfl
  | some name =>
    have hm : Token.anyText ∈ name.map Token.char := eq_of_literal? h ▸ by simp
    simp at hm

theorem dotsFitting_eq_nil {tokens : List Token} (h : ¬fits tokens ['.', '.'] = true)
    (h' : ¬fits tokens ['.'] = true) : dotsFitting tokens = [] := by
  simp [dotsFitting, h, h']

/-! ## Names after one another -/

theorem splitOnChar_escape (text : List Char) :
    Text.splitOnChar (· == '/') (escape text) = (Text.splitOnChar (· == '/') text).map escape := by
  induction text with
  | nil => rfl
  | cons c text ih =>
    obtain ⟨piece, pieces, he⟩ := List.exists_cons_of_ne_nil (Text.splitOnChar_ne_nil (· == '/') text)
    rw [he, List.map_cons] at ih
    by_cases hc : isSpecial c = true
    · have hslash : c ≠ '/' := by
        rintro rfl
        cases hc
      simp [escape_special hc, Text.splitOnChar, ih, he, hslash]
    · by_cases hslash : c = '/'
      · rw [escape_plain hc]
        simp [Text.splitOnChar, ih, he, hslash]
      · simp [escape_plain hc, Text.splitOnChar, ih, he, hslash]

theorem mapM_read?_escape (names : List (List Char)) (last : List Char) :
    (names.map escape ++ [last]).mapM read? =
      (read? last).map fun tokens => names.map tokensOf ++ [tokens] := by
  induction names with
  | nil => cases h : read? last <;> simp [h]
  | cons name names ih =>
    have hname : read? (escape name) = some (tokensOf name) := by
      simpa [read?] using read?_escape name []
    rw [List.map_cons, List.cons_append, List.mapM_cons, hname, ih]
    cases read? last <;> rfl

/-! ## Directories -/

variable {fs : FileSystem} {place rest : Location} {name : String}

theorem child_ofLocation (place : Location) (name : String) :
    child (.ofLocation place) name = (Path.ofLocation place).join name := by
  have habsolute := Path.isAbsolute_ofLocation place
  rw [child, if_neg]
  intro hdot
  rw [Path.isAbsolute, hdot] at habsolute
  cases habsolute

theorem isPrefix_ofLocation (place : Location) (name : String) :
    (Path.ofLocation place).text.toList <+: (Path.ofLocation (place ++ [name])).text.toList := by
  rw [Path.toList_ofLocation_append]
  by_cases hne : place = []
  · subst hne
    exact ⟨name.toList, rfl⟩
  · exact ⟨'/' :: name.toList, by simp [Path.ofLocation, hne, List.flatMap_map]⟩

/-- Where a name in a directory has a path that is not refused, the directory has. -/
theorem walkable_above (hp : FileSystem.IsWalkable (.ofLocation (place ++ [name]))) :
    FileSystem.IsWalkable (.ofLocation place) :=
  hp.of_start (isPrefix_ofLocation place name) (by cases place <;> simp [Path.ofLocation])

theorem find_of_isDirectory (h : fs.IsDirectoryAt place) (hd : fs.isDirectory (.ofLocation place) = true) :
    fs.find (.ofLocation place) = .ok place := by
  obtain ⟨found, hf, -⟩ := FileSystem.status_eq_ok_iff.1 (FileSystem.isDirectory_iff.1 hd)
  have hplace := FileSystem.locate_ofLocation h.direct h.node (by simp) (FileSystem.find_eq_ok_iff.1 hf)
  rw [hf, FileSystem.Place.taken.inj hplace]

theorem isDirectory_of_walkable (h : fs.IsDirectoryAt place)
    (hp : FileSystem.IsWalkable (.ofLocation place)) : fs.isDirectory (.ofLocation place) = true :=
  FileSystem.isDirectory_iff.2 (FileSystem.status_of_direct h.direct h.node (by simp) hp)

/-- What fits the escape of a name in a directory is that name, unless its path is refused. -/
theorem pathsFitting_tokensOf (h : fs.IsDirectoryAt (place ++ [name])) :
    pathsFitting fs (tokensOf name.toList) (.ofLocation place) = [.ofLocation (place ++ [name])] ∨
      pathsFitting fs (tokensOf name.toList) (.ofLocation place) = [] ∧
        ¬FileSystem.IsWalkable (.ofLocation (place ++ [name])) := by
  have hname := h.direct.isName name (by simp)
  have hchild : child (.ofLocation place) name = .ofLocation (place ++ [name]) := by
    rw [child_ofLocation, Path.join_ofLocation h.above.direct.isName hname]
  have hfound : FileSystem.IsWalkable (.ofLocation (place ++ [name])) →
      fs.find (.ofLocation (place ++ [name])) = .ok (place ++ [name]) := fun hp =>
    FileSystem.find_eq_ok_iff.2 (FileSystem.locate_of_direct h.direct h.node (by simp) hp)
  rw [pathsFitting]
  split
  · next text hliteral =>
    have htext := literal?_tokensOf hliteral
    subst htext
    rw [String.ofList_toList, hchild]
    by_cases hthere : isThere fs (.ofLocation place) name = true
    · exact .inl (if_pos hthere)
    · refine .inr ⟨if_neg hthere, fun hp => hthere ?_⟩
      rw [isThere, if_neg, hchild, hfound hp]
      · rfl
      · rintro (rfl | rfl)
        · exact absurd hname.notIdle (by decide)
        · exact hname.notParent rfl
  · by_cases hd : fs.isDirectory (.ofLocation place) = true
    · refine .inl ?_
      have hdots : dotsFitting (tokensOf name.toList) = [] := by
        refine dotsFitting_eq_nil ?_ ?_
        · rw [fits_tokensOf_iff]
          exact fun he => hname.notParent he.symm
        · rw [fits_tokensOf_iff]
          exact fun he => absurd hname.notIdle (by simp [← he, Path.isIdle])
      have hnames : namesFitting fs (tokensOf name.toList) (.ofLocation place) = [name] := by
        have hfits : (fun other : String => fits (tokensOf name.toList) other.toList) = (· == name) := by
          funext other
          rw [Bool.eq_iff_iff, fits_tokensOf_iff, String.toList_inj, beq_iff_eq]
        have hm : name ∈ (fs.names place).mergeSort :=
          List.mem_mergeSort.2 (FileSystem.mem_names.2 (by simp [h.node]))
        have hn : (fs.names place).mergeSort.Nodup :=
          (List.mergeSort_perm _ _).nodup_iff.2 (FileSystem.nodup_names fs place)
        simp only [namesFitting, find_of_isDirectory h.above hd, hfits, List.filter_beq,
          List.count_eq_one_of_mem hn hm, List.replicate_one]
      rw [if_pos hd, hdots, hnames, List.map_nil, List.nil_append, List.map_singleton, hchild]
    · refine .inr ⟨if_neg hd, fun hp => hd ?_⟩
      exact isDirectory_of_walkable h.above (walkable_above hp)

/-- Escaped names lead from a directory to the one they name, unless its path is refused. -/
theorem expand_tokensOf (h : fs.IsDirectoryAt (place ++ rest)) (more : List (List Token)) :
    expand fs (rest.map (fun name => tokensOf name.toList) ++ more) (.ofLocation place) =
        expand fs more (.ofLocation (place ++ rest)) ∨
      expand fs (rest.map (fun name => tokensOf name.toList) ++ more) (.ofLocation place) = [] ∧
        ¬FileSystem.IsWalkable (.ofLocation (place ++ rest)) := by
  induction rest using List.reverseRecOn generalizing more with
  | nil => simp
  | append_singleton rest name ih =>
    rw [← List.append_assoc] at h ⊢
    rw [List.map_append, List.append_assoc]
    rcases ih h.above ([name].map (fun name => tokensOf name.toList) ++ more) with he | ⟨he, hp⟩
    · rw [he, List.map_singleton, List.singleton_append, expand]
      rcases pathsFitting_tokensOf h with hf | ⟨hf, hp⟩
      · exact .inl (by simp [hf])
      · exact .inr ⟨by simp [hf], hp⟩
    · exact .inr ⟨he, fun hchild => hp (walkable_above hchild)⟩

theorem splitOnChar_pattern (text last : List Char) (hlast : '/' ∉ last) :
    Text.splitOnChar (· == '/') (escape text ++ '/' :: last) =
      (Text.splitOnChar (· == '/') text).map escape ++ [last] := by
  have hl : Text.splitOnChar (· == '/') last = [last] :=
    Text.splitOnChar_eq_singleton fun c hc => by
      rw [beq_eq_false_iff_ne]
      rintro rfl
      exact hlast hc
  rw [Text.splitOnChar_append_cons (by rfl), splitOnChar_escape, hl]

/-- The names in a directory that begin with `start`, in order. -/
def namesStarting (fs : FileSystem) (start : String) (place : Location) : List String :=
  (fs.names place).mergeSort.filter fun name => Text.startsWith start.toList name.toList

theorem nodup_namesStarting (fs : FileSystem) (start : String) (place : Location) :
    (namesStarting fs start place).Nodup :=
  ((List.mergeSort_perm _ _).nodup_iff.2 (FileSystem.nodup_names fs place)).filter _

theorem mem_namesStarting {start : String} : name ∈ namesStarting fs start place ↔
    fs.node? (place ++ [name]) ≠ none ∧ start.toList <+: name.toList := by
  rw [namesStarting, List.mem_filter, List.mem_mergeSort, FileSystem.mem_names, Text.startsWith_iff]

theorem pathsFitting_start {start : String} (h : fs.IsDirectoryAt place)
    (hdots : ¬start.toList <+: ['.', '.']) :
    pathsFitting fs (tokensOf start.toList ++ [.anyText]) (.ofLocation place) =
      if fs.isDirectory (.ofLocation place) then
        (namesStarting fs start place).map (Path.ofLocation place).join
      else [] := by
  have hnodots : dotsFitting (tokensOf start.toList ++ [.anyText]) = [] := by
    refine dotsFitting_eq_nil ?_ ?_
    · rwa [fits_start_iff]
    · rw [fits_start_iff]
      exact fun hdot => hdots (hdot.trans ⟨['.'], rfl⟩)
  rw [pathsFitting, literal?_start]
  by_cases hd : fs.isDirectory (.ofLocation place) = true
  · have hfits : (fun name : String => fits (tokensOf start.toList ++ [.anyText]) name.toList) =
        fun name => Text.startsWith start.toList name.toList := by
      funext name
      rw [Bool.eq_iff_iff, fits_start_iff, Text.startsWith_iff]
    have hnames : namesFitting fs (tokensOf start.toList ++ [.anyText]) (.ofLocation place) =
        namesStarting fs start place := by
      simp only [namesFitting, find_of_isDirectory h hd, hfits, namesStarting]
    simp only [if_pos hd, hnodots, hnames, List.map_nil, List.nil_append]
    exact List.map_congr_left fun name _ => child_ofLocation place name
  · simp only [if_neg hd]

/-- The names of an escaped path lead to the directory, unless its path is refused. -/
theorem expand_escape (h : fs.IsDirectoryAt place) (tokens : List Token) :
    expand fs ((Path.ofLocation place).segments.tail.map tokensOf ++ [tokens]) ⟨"/"⟩ =
        pathsFitting fs tokens (.ofLocation place) ∨
      expand fs ((Path.ofLocation place).segments.tail.map tokensOf ++ [tokens]) ⟨"/"⟩ = [] ∧
        ¬FileSystem.IsWalkable (.ofLocation place) := by
  have hlast : ∀ p, expand fs [tokens] p = pathsFitting fs tokens p := fun p => by simp [expand]
  by_cases hne : place = []
  · -- the escaped root is followed by an empty name, which leads to the root again
    subst hne
    refine .inl ?_
    have hroot : pathsFitting fs [] ⟨"/"⟩ = [⟨"/"⟩] := by
      have hchild : child ⟨"/"⟩ "" = ⟨"/"⟩ := by decide
      have hfind : fs.find ⟨"/"⟩ = .ok [] :=
        FileSystem.find_eq_ok_iff.2 (FileSystem.locate_of_direct h.direct h.node (by simp) (by decide))
      simp [pathsFitting, literal?, isThere, hchild, hfind, Except.isOk, Except.toBool]
    rw [Path.segments_root, List.tail_cons, List.map_singleton, List.singleton_append, expand, tokensOf,
      List.map_nil, hroot, List.flatMap_singleton, hlast]
    rfl
  · have he := @expand_tokensOf fs [] place h [tokens]
    rw [List.nil_append, hlast] at he
    rw [Path.segments_ofLocation h.direct.isName hne, List.tail_cons, List.map_map]
    exact he

/-- What fits the escaped path of a directory with a start of names after it: the names there that begin so. -/
theorem paths?_escape {start : String} (h : fs.IsDirectoryAt place)
    (hplain : ∀ c ∈ start.toList, ¬isSpecial c = true) (hslash : '/' ∉ start.toList)
    (hdots : ¬start.toList <+: ['.', '.']) :
    paths? fs (String.ofList (escape (Path.ofLocation place).text.toList) ++ "/" ++ start ++ "*") =
      some (if fs.isDirectory (.ofLocation place) then
        (namesStarting fs start place).map (Path.ofLocation place).join else []) := by
  have hread : read? (start.toList ++ ['*']) = some (tokensOf start.toList ++ [.anyText]) := by
    have hstart := read?_escape start.toList ['*']
    have hany : read? ['*'] = some [.anyText] := by
      have hstar : readToken? '*' [] = some (.anyText, []) := rfl
      rw [read?_of_token hstar, read?, Option.map_some]
    rw [escape_of_plain hplain, hany] at hstart
    exact hstart
  obtain ⟨text, htext⟩ : ∃ text, (Path.ofLocation place).text.toList = '/' :: text := by
    have habsolute := Path.isAbsolute_ofLocation place
    rw [Path.isAbsolute, beq_iff_eq, List.head?_eq_some_iff] at habsolute
    exact habsolute
  have hsegments : (Path.ofLocation place).segments.tail = Text.splitOnChar (· == '/') text := by
    rw [Path.segments, htext]
    rfl
  have hpattern : (String.ofList (escape (Path.ofLocation place).text.toList) ++ "/" ++ start ++ "*").toList =
      '/' :: (escape text ++ '/' :: (start.toList ++ ['*'])) := by
    simp [htext, escape_plain (c := '/') (by decide) text]
  have hnames : (Text.splitOnChar (· == '/') (escape text ++ '/' :: (start.toList ++ ['*']))).mapM read? =
      some ((Path.ofLocation place).segments.tail.map tokensOf ++ [tokensOf start.toList ++ [.anyText]]) := by
    rw [splitOnChar_pattern _ _ (by simpa using hslash), mapM_read?_escape, hread, hsegments]
    rfl
  simp only [paths?, hpattern, List.head?_cons, beq_self_eq_true, if_true, List.tail_cons, hnames,
    Option.map_some]
  rw [← pathsFitting_start h hdots]
  rcases expand_escape h (tokensOf start.toList ++ [.anyText]) with he | ⟨he, hp⟩
  · rw [he]
  · rw [he, pathsFitting_start h hdots, if_neg]
    exact fun hd => hp (FileSystem.isWalkable_of_locate
      (FileSystem.find_eq_ok_iff.1 (find_of_isDirectory h hd)))

end Glob

end Galley
