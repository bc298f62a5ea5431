import Galley.Host.Shell.Date
import Galley.Host.Shell.Session

/-!
The commands that a shell knows by itself.
-/

namespace Galley.Host.Shell

def integer (text : List Char) : Int :=
  let digits (cs : List Char) : Nat :=
    (cs.takeWhile Char.isDigit).foldl (fun n c => 10 * n + (c.toNat - '0'.toNat)) 0
  match text with
  | '-' :: cs => -(digits cs : Int)
  | '+' :: cs => digits cs
  | cs => digits cs

def isOctal (c : Char) : Bool := '0' ≤ c && c ≤ '7'

def escaped : Char → List Char
  | 'n' => ['\n']
  | 't' => ['\t']
  | 'r' => ['\r']
  | 'a' => ['\x07']
  | 'b' => ['\x08']
  | 'f' => ['\x0c']
  | 'v' => ['\x0b']
  | '\\' => ['\\']
  | c => ['\\', c]

/-- A text at least as wide as asked for: in front of it stand zeros or blanks, or blanks behind. -/
def padded (flags : List Char) (width : Nat) (text : String) : String :=
  let missing := width - text.length
  if flags.contains '-' then text ++ String.ofList (List.replicate missing ' ')
  else String.ofList (List.replicate missing (if flags.contains '0' then '0' else ' ')) ++ text

def converted (letter : Char) (arg : String) : Option String :=
  let number := integer arg.toList
  match letter with
  | 's' | 'b' => some arg
  | 'c' => some (String.ofList (arg.toList.take 1))
  | 'd' | 'i' | 'u' => some (toString number)
  | 'x' => some (String.ofList (Nat.toDigits 16 number.toNat))
  | 'X' => some (String.ofList (Nat.toDigits 16 number.toNat)).toUpper
  | 'o' => some (String.ofList (Nat.toDigits 8 number.toNat))
  | _ => none

/-- The octets of a format, each argument taken where it is asked for, and the arguments left. -/
def format : Nat → List Char → List String → Text.Bytes × List String
  | 0, _, args => ([], args)
  | _, [], args => ([], args)
  | fuel + 1, '%' :: '%' :: rest, args => after "%" (format fuel rest args)
  | fuel + 1, '%' :: rest, args =>
    let flags := rest.takeWhile "-0+ #".toList.contains
    let rest := rest.drop flags.length
    let width := rest.takeWhile Char.isDigit
    match rest.drop width.length with
    | [] => (Text.Utf8.encode "%", args)
    | c :: rest =>
      match converted c (args.headD "") with
      | some text => after (padded flags (integer width).toNat text) (format fuel rest args.tail)
      | none => after (String.ofList ['%', c]) (format fuel rest args)
  | fuel + 1, '\\' :: c :: rest, args =>
    if isOctal c then
      let digits := ((c :: rest).take 3).takeWhile isOctal
      let n := digits.foldl (fun n c => 8 * n + (c.toNat - '0'.toNat)) 0
      let (bytes, left) := format fuel ((c :: rest).drop digits.length) args
      (UInt8.ofNat n :: bytes, left)
    else after (String.ofList (escaped c)) (format fuel rest args)
  | fuel + 1, c :: rest, args => after (String.singleton c) (format fuel rest args)
where
  after (text : String) (more : Text.Bytes × List String) : Text.Bytes × List String :=
    (Text.Utf8.encode text ++ more.1, more.2)

/-- The octets of a format that is used again as long as it takes arguments. -/
def formatAll (form : List Char) : Nat → List String → Text.Bytes
  | 0, _ => []
  | fuel + 1, args =>
    let (bytes, left) := format (form.length + 1) form args
    if left.isEmpty || left.length = args.length then bytes else bytes ++ formatAll form fuel left

/-- The milliseconds of a number of seconds; a fourth decimal is lost. -/
def milliseconds (text : String) : Nat :=
  let number (cs : List Char) : Nat := (integer cs).toNat
  match Text.splitOnChar (· == '.') (text.toList.filter (· ≠ 's')) with
  | [whole] => 1000 * number whole
  | whole :: decimals :: _ => 1000 * number whole + number ((decimals ++ ['0', '0', '0']).take 3)
  | [] => 0

def signals : List String := ["1", "2", "9", "15", "HUP", "INT", "KILL", "TERM"]

def signal? (text : String) : Option String :=
  let name := (Text.dropStart? ['S', 'I', 'G'] text.toList).getD text.toList
  signals.find? (·.toList = name)

def condition (s : Session) : List String → Bool
  | [] => false
  | [text] => text ≠ ""
  | ["!", text] => text = ""
  | ["-n", text] => text ≠ ""
  | ["-z", text] => text = ""
  | ["-e", path] => s.files.pathExists (s.directory.join path)
  | ["-f", path] => s.files.isFile (s.directory.join path)
  | ["-d", path] => s.files.isDirectory (s.directory.join path)
  | ["-t", _] => false
  | "!" :: rest => !condition s rest
  | [left, operator, right] =>
    let m := integer left.toList
    let n := integer right.toList
    match operator with
    | "=" => left = right
    | "!=" => left ≠ right
    | "-eq" => m = n
    | "-ne" => m ≠ n
    | "-lt" => m < n
    | "-le" => m ≤ n
    | "-gt" => m > n
    | "-ge" => m ≥ n
    | _ => false
  | _ => false

def isFieldGap (c : Char) : Bool := c == ' ' || c == '\t' || c == '\n'

/-- The variables that a line gives values to: each takes a field, and the last what is left. -/
def readFields : List String → List Char → List (String × String)
  | [], _ => []
  | [name], line =>
    let text := line.dropWhile isFieldGap
    [(name, String.ofList (text.reverse.dropWhile isFieldGap).reverse)]
  | name :: names, line =>
    let line := line.dropWhile isFieldGap
    (name, String.ofList (line.takeWhile (!isFieldGap ·))) ::
      readFields names (line.dropWhile (!isFieldGap ·))

def lineEnd : UInt8 := 10

def lines : Text.Bytes → List Text.Bytes
  | [] => []
  | b :: rest =>
    if b = lineEnd then [b] :: lines rest
    else
      match lines rest with
      | [] => [[b]]
      | line :: more => (b :: line) :: more

def characterSet : List Char → List Char
  | a :: '-' :: b :: rest =>
    (List.range (b.toNat + 1 - a.toNat)).map (fun i => Char.ofNat (a.toNat + i)) ++ characterSet rest
  | '\\' :: '0' :: rest => '\x00' :: characterSet rest
  | '\\' :: c :: rest => escaped c ++ characterSet rest
  | c :: rest => c :: characterSet rest
  | [] => []

/-- The text with each character of one set replaced by its partner in another, the last of which
stands for all that have none. -/
def exchanged (set partners text : List Char) : List Char :=
  text.map fun c =>
    match set.idxOf? c with
    | some i => (partners[i]?).getD (partners.getLast?.getD c)
    | none => c

/-- What `date` prints, of the time that it is or of one that it is given in seconds. -/
def timeToShow? (now : Nat) : List String → Option String
  | [form] => (Text.dropStart? ['+'] form.toList).map (timeText now)
  | ["-d", time, form] => do
    let seconds ← Text.dropStart? ['@'] time.toList
    (Text.dropStart? ['+'] form.toList).map (timeText (integer seconds).toNat)
  | _ => none

def takeInput : Effect Text.Bytes := do
  let s ← get
  set { s with stdin := [] }
  return s.stdin

/-- The octets of files, or of what the command reads if none is named. -/
def inputOf (name : String) : List String → Effect Text.Bytes
  | [] => do
    Effect.leave 0
    takeInput
  | paths => do
    Effect.leave 0
    let parts ← paths.mapM fun path => do
      if path = "-" then takeInput
      else
        match (← get).content? path with
        | some bytes => return bytes
        | none =>
          Effect.complain (name ++ ": " ++ path ++ ": No such file or directory\n")
          Effect.leave 1
          return []
    return parts.flatten

def zeros : String := "/dev/zero"

def yesLimit : Nat := 100000

def utility (name : String) (args : List String) : Effect Unit :=
  match name, args with
  | "echo", "-n" :: args => do
    Effect.say (" ".intercalate args)
    Effect.leave 0
  | "echo", args => do
    Effect.say (" ".intercalate args ++ "\n")
    Effect.leave 0
  | "printf", [] => Effect.leave 2
  | "printf", form :: args => do
    Effect.emit (formatAll form.toList (args.length + 1) args)
    Effect.leave 0
  | "true", _ | ":", _ | "trap", _ => Effect.leave 0
  | "false", _ => Effect.leave 1
  | "exit", args => modify fun s =>
    let code := (args.head?.map fun code => (integer code.toList % 256).toNat).getD s.status
    { s with ended := some (some code), status := code }
  | "break", _ => modify fun s => { s with status := 0, leaving := some true }
  | "continue", _ => modify fun s => { s with status := 0, leaving := some false }
  | "kill", [pid] => kill "TERM" pid
  | "kill", ["-s", signal, pid] | "kill", ["-n", signal, pid] => kill signal pid
  | "kill", [signal, pid] => kill (String.ofList (signal.toList.drop 1)) pid
  | "sleep", [time] => modify fun s => { s with slept := s.slept + milliseconds time, status := 0 }
  | "pwd", _ => do
    Effect.say ((← get).directory.text ++ "\n")
    Effect.leave 0
  | "cd", path :: _ => modify fun s =>
    match s.files.canonicalize (s.directory.join path) with
    | .ok directory =>
      if s.files.isDirectory directory then { s with directory, status := 0 }
      else { s with status := 2 }
    | .error _ => { s with status := 2 }
  | "test", args => do Effect.succeedIf (condition (← get) args)
  | "[", args => do Effect.succeedIf (condition (← get) args.dropLast)
  | "export", args => modify fun s =>
    args.foldl (fun s arg =>
      match Text.splitAtFirst? ['='] arg.toList with
      | some (name, value) => s.put (String.ofList name) (String.ofList value)
      | none => s) { s with status := 0 }
  | "unset", names => modify fun s =>
    { s with values := s.values.filter (!names.contains ·.1), status := 0 }
  | "shift", args => modify fun s =>
    let count := ((args.head?.map fun n => (integer n.toList).toNat)).getD 1
    { s with arguments := s.arguments.drop count, status := 0 }
  | "set", "--" :: arguments => modify ({ · with arguments, status := 0 })
  | "set", _ => Effect.leave 0
  | "read", args => modify fun s =>
    let line := s.stdin.takeWhile (· ≠ lineEnd)
    let names := args.filter (· ≠ "-r")
    let s := { s with stdin := s.stdin.drop (line.length + 1)
                      status := if line.length < s.stdin.length then 0 else 1 }
    (readFields names (Text.Utf8.decodeLossy line).toList).foldl (fun s (n, v) => s.put n v) s
  | "cat", paths => do Effect.emit (← inputOf "cat" paths)
  | "head", "-c" :: count :: paths => do
    let count := (integer count.toList).toNat
    if paths = [zeros] then
      Effect.emit (List.replicate count 0)
      Effect.leave 0
    else Effect.emit ((← inputOf "head" paths).take count)
  | "head", "-n" :: count :: paths => do
    Effect.emit ((lines (← inputOf "head" paths)).take (integer count.toList).toNat).flatten
  | "tail", "-n" :: count :: paths => do
    let all := lines (← inputOf "tail" paths)
    Effect.emit (all.drop (all.length - (integer count.toList).toNat)).flatten
  | "wc", ["-c"] => do
    Effect.say (toString (← inputOf "wc" []).length ++ "\n")
  | "wc", ["-l"] => do
    Effect.say (toString ((← inputOf "wc" []).count lineEnd) ++ "\n")
  | "tr", ["-d", set] => do
    let set := characterSet set.toList
    Effect.say (String.ofList
      ((Text.Utf8.decodeLossy (← inputOf "tr" [])).toList.filter (!set.contains ·)))
  | "tr", [set, partners] => do
    let text := (Text.Utf8.decodeLossy (← inputOf "tr" [])).toList
    Effect.say (String.ofList
      (exchanged (characterSet set.toList) (characterSet partners.toList) text))
  | "sort", paths => do
    let all := (lines (← inputOf "sort" paths)).map fun l => l.filter (· ≠ lineEnd)
    Effect.emit ((all.mergeSort).flatMap fun l => l ++ [lineEnd])
  | "seq", args => do
    let first := if args.length > 1 then integer ((args.headD "").toList) else 1
    let last := integer ((args.getLastD "").toList)
    Effect.say (String.join ((List.range (last + 1 - first).toNat).map fun (i : Nat) =>
      toString (first + i) ++ "\n"))
    Effect.leave 0
  | "yes", args => do
    let line := Text.Utf8.encode ((if args.isEmpty then "y" else " ".intercalate args) ++ "\n")
    Effect.emit (List.replicate yesLimit line).flatten
  | "env", [] | "printenv", [] => do
    Effect.say (String.join ((← get).values.map fun (n, v) => n ++ "=" ++ v ++ "\n"))
    Effect.leave 0
  | "printenv", name :: _ => do
    match (← get).values.lookup name with
    | some value =>
      Effect.say (value ++ "\n")
      Effect.leave 0
    | none => Effect.leave 1
  | "basename", path :: _ => do
    Effect.say ((⟨path⟩ : Path).fileName ++ "\n")
    Effect.leave 0
  | "dirname", path :: _ => do
    Effect.say ((((⟨path⟩ : Path).parent?.map Path.text).getD ".") ++ "\n")
    Effect.leave 0
  | "ln", ["-s", target, path] => do
    let s ← get
    let p := s.directory.join path
    let p := if s.files.isDirectory p then p.join (⟨target⟩ : Path).fileName else p
    match s.files.makeLink p target with
    | .ok files => set { s with files, status := 0 }
    | .error e => do
      Effect.complain ("ln: failed to create symbolic link '" ++ path ++ "': " ++ e.message ++ "\n")
      Effect.leave 1
  | "date", args => do
    match timeToShow? (startOfTime + (← get).slept / 1000) args with
    | some text => do
      Effect.say (text ++ "\n")
      Effect.leave 0
    | none => do
      Effect.complain "date: invalid date\n"
      Effect.leave 1
  | name, _ => do
    Effect.complain ((← get).name ++ ": 1: " ++ name ++ ": not found\n")
    Effect.leave 127
where
  /-- Send a signal. -/
  kill (signal pid : String) : Effect Unit :=
    if pid = processNumber && (signal? signal).isSome then
      modify ({ · with ended := some none })
    else Effect.leave 1

end Galley.Host.Shell
