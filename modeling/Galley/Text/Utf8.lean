/-!
UTF-8 octets: the octets of a text, the text of well-formed octets, and the text that any octets
show when each ill-formed stretch is read as one replacement character. An ill-formed stretch is
as long as the octets could still begin a character, and one octet long where they could not.
-/

namespace Galley.Text

abbrev Bytes := List UInt8

namespace Utf8

def encode (text : String) : Bytes := text.toList.flatMap String.utf8EncodeChar

def isTail (b : UInt8) : Bool := 0x80 ≤ b && b ≤ 0xBF

/-- The second octets that the first octet of a character of three or four octets allows. -/
def allowsSecond (first second : UInt8) : Bool :=
  if first == 0xE0 then 0xA0 ≤ second && second ≤ 0xBF
  else if first == 0xED then 0x80 ≤ second && second ≤ 0x9F
  else if first == 0xF0 then 0x90 ≤ second && second ≤ 0xBF
  else if first == 0xF4 then 0x80 ≤ second && second ≤ 0x8F
  else isTail second

def payload (b : UInt8) (mask : UInt8) : Nat := (b &&& mask).toNat

/-- One unit at the front of nonempty octets: a character, or an ill-formed stretch (`none`), with
the number of octets that it takes less one. -/
def unit (first : UInt8) (rest : Bytes) : Option Char × Nat :=
  if first ≤ 0x7F then (some (Char.ofNat first.toNat), 0)
  else if 0xC2 ≤ first && first ≤ 0xDF then
    match rest with
    | b :: _ =>
      if isTail b then (some (Char.ofNat (payload first 0x1F * 64 + payload b 0x3F)), 1) else (none, 0)
    | [] => (none, 0)
  else if 0xE0 ≤ first && first ≤ 0xEF then
    match rest with
    | b :: c :: _ =>
      if allowsSecond first b then
        if isTail c then
          (some (Char.ofNat (payload first 0x0F * 4096 + payload b 0x3F * 64 + payload c 0x3F)), 2)
        else (none, 1)
      else (none, 0)
    | [b] => (none, if allowsSecond first b then 1 else 0)
    | [] => (none, 0)
  else if 0xF0 ≤ first && first ≤ 0xF4 then
    match rest with
    | b :: c :: d :: _ =>
      if allowsSecond first b then
        if isTail c then
          if isTail d then
            (some (Char.ofNat (payload first 0x07 * 262144 + payload b 0x3F * 4096 +
              payload c 0x3F * 64 + payload d 0x3F)), 3)
          else (none, 2)
        else (none, 1)
      else (none, 0)
    | [b, c] => (none, if allowsSecond first b then if isTail c then 2 else 1 else 0)
    | [b] => (none, if allowsSecond first b then 1 else 0)
    | [] => (none, 0)
  else (none, 0)

def units : Bytes → List (Option Char)
  | [] => []
  | first :: rest =>
    let found := unit first rest
    found.1 :: units (rest.drop found.2)
termination_by bytes => bytes.length
decreasing_by
  simp only [List.length_drop, List.length_cons]
  omega

/-- The text of octets, when all of them are well-formed. -/
def decode? (bytes : Bytes) : Option String := ((units bytes).mapM id).map String.ofList

/-- The text of octets, with a replacement character for each ill-formed stretch. -/
def decodeLossy (bytes : Bytes) : String :=
  String.ofList ((units bytes).map fun found => found.getD '\uFFFD')

end Utf8

end Galley.Text
