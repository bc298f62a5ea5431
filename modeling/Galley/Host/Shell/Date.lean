/-!
Times as the command `date` prints them. A time is a number of seconds since the beginning of 1970, in
universal time.
-/

namespace Galley.Host.Shell

/-- What a shell's clock shows when it begins: the first second of 2024. -/
def startOfTime : Nat := 1704067200

/-- A day of the calendar. -/
structure Day where
  year : Nat
  month : Nat
  day : Nat
deriving DecidableEq, Repr

/-- The day of the calendar that is so many days after the beginning of 1970. Years are counted from
March, so that a leap day is the last of its year; 400 of them have 146097 days. -/
def Day.ofCount (count : Nat) : Day :=
  let days := count + 719468
  let inEra := days % 146097
  let yearInEra := (inEra - inEra / 1460 + inEra / 36524 - inEra / 146096) / 365
  let inYear := inEra - (365 * yearInEra + yearInEra / 4 - yearInEra / 100)
  let fromMarch := (5 * inYear + 2) / 153
  let month := if fromMarch < 10 then fromMarch + 3 else fromMarch - 9
  { year := 400 * (days / 146097) + yearInEra + if month ≤ 2 then 1 else 0
    month
    day := inYear - (153 * fromMarch + 2) / 5 + 1 }

def twoDigits (n : Nat) : String := (if n < 10 then "0" else "") ++ toString n

/-- What a letter of a format stands for. -/
def timePart (seconds : Nat) : Char → Option String
  | 'Y' => some (toString (Day.ofCount (seconds / 86400)).year)
  | 'm' => some (twoDigits (Day.ofCount (seconds / 86400)).month)
  | 'd' => some (twoDigits (Day.ofCount (seconds / 86400)).day)
  | 'H' => some (twoDigits (seconds / 3600 % 24))
  | 'M' => some (twoDigits (seconds / 60 % 60))
  | 'S' => some (twoDigits (seconds % 60))
  | 's' => some (toString seconds)
  | '%' => some "%"
  | _ => none

def timeText (seconds : Nat) : List Char → String
  | '%' :: c :: format =>
    (timePart seconds c).getD (String.ofList ['%', c]) ++ timeText seconds format
  | c :: format => String.singleton c ++ timeText seconds format
  | [] => ""

end Galley.Host.Shell
