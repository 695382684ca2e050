import RailBus.Address.Text
import RailBus.MessageType
import RailBus.Text.Decimal
import RailBus.Text.Quoted

/-!
# JSON values

An address travels as a string, a message type as a number, anything else is refused by its kind.
-/

namespace RailBus

/-- As much of a JSON value as it takes to read an address or a type, or to say what was found. -/
inductive JsonValue
  | null
  | boolean (b : Bool)
  | integer (i : Int)
  | fraction (x : Float)
  | string (s : String)
  | sequence
  | map

namespace JsonValue

/-- The digits at the front, as numbers, and what follows them. -/
def digits (cs : List Char) : List Nat × List Char :=
  (cs.takeWhile Char.isDigit |>.map fun c => c.toNat - '0'.toNat, cs.dropWhile Char.isDigit)

/-- The value of an exponent mark with its digits, 0 where there is none. -/
def exponent : List Char → Int
  | _ :: '-' :: cs => -((Text.digits? 10 0 cs).getD 0 : Nat)
  | _ :: '+' :: cs | _ :: cs => ((Text.digits? 10 0 cs).getD 0 : Nat)
  | [] => 0

/-- Reads a numeral without its sign. What is written as an integer is one if it is in range; a
negative zero is not. -/
def ofUnsigned (negative : Bool) (cs : List Char) : JsonValue :=
  let (whole, rest) := digits cs
  let (decimals, rest') := match rest with
    | '.' :: more => digits more
    | _ => ([], rest)
  let n : Nat := whole.foldl (10 * · + ·) 0
  let x := Text.decimalValue whole decimals (exponent rest')
  if rest.isEmpty && !negative && n < Nat.pow 2 64 then integer n
  else if rest.isEmpty && negative && 0 < n && n ≤ Nat.pow 2 63 then integer (-n)
  else fraction (if negative then -x else x)

/-- Reads a well-formed numeral. -/
def ofNumeral : List Char → JsonValue
  | '-' :: cs => ofUnsigned true cs
  | cs => ofUnsigned false cs

def describe : JsonValue → String
  | null => "null"
  | boolean b => s!"boolean \x60{b}\x60"
  | integer i => s!"integer \x60{i}\x60"
  | fraction x => "floating point \x60" ++ Text.decimal x ++ "\x60"
  | string s => "string " ++ Text.quoted s
  | sequence => "sequence"
  | map => "map"

inductive Error
  | wrongType (found : JsonValue) (expected : String)
  | outOfRange (found : JsonValue) (expected : String)
  | badAddress (cause : AddressError)

def Error.message : Error → String
  | wrongType found expected => "invalid type: " ++ found.describe ++ ", expected " ++ expected
  | outOfRange found expected => "invalid value: " ++ found.describe ++ ", expected " ++ expected
  | badAddress cause => cause.message

end JsonValue

def Address.toJson (a : Address) : JsonValue := .string a.text

/-- Reads an address off a value. How JSON text is read as a value is not modelled. -/
def Address.ofJson : JsonValue → Except JsonValue.Error Address
  | .string s => (Address.parse s).mapError .badAddress
  | v => .error (.wrongType v "a string")

def MessageType.toJson (t : MessageType) : JsonValue := .integer t.code.toNat

def MessageType.ofJson : JsonValue → Except JsonValue.Error MessageType
  | .integer i =>
    if 0 ≤ i ∧ i < 256 then .ok ⟨UInt8.ofNat i.toNat⟩
    else .error (.outOfRange (.integer i) "u8")
  | v => .error (.wrongType v "u8")

/-! ## Writing JSON -/

namespace JsonValue

/-- Escapes what JSON does not allow inside a string. -/
def escapeChar (c : Char) : List Char :=
  if c = '"' ∨ c = '\\' then ['\\', c]
  else if c = '\n' then ['\\', 'n']
  else if c = '\r' then ['\\', 'r']
  else if c = '\t' then ['\\', 't']
  else if c.toNat = 8 then ['\\', 'b']
  else if c.toNat = 12 then ['\\', 'f']
  else if c.toNat < 0x20 then
    ['\\', 'u', '0', '0', Nat.digitChar (c.toNat / 16), Nat.digitChar (c.toNat % 16)]
  else [c]

def stringText (s : String) : String := String.ofList ('"' :: s.toList.flatMap escapeChar ++ ['"'])

/-- An object with its fields in the order given, each value already written. -/
def objectText (fields : List (String × String)) : String :=
  "\x7b" ++ ",".intercalate (fields.map fun (k, v) => stringText k ++ ":" ++ v) ++ "\x7d"

end JsonValue
end RailBus
