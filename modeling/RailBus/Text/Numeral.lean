/-!
# Numerals

Reading whole numbers: an optional sign, then one or more digits and nothing else, with a value
in range. A minus is a sign only where negative numbers are in range.
-/

namespace RailBus.Text

def digit? (radix : Nat) (c : Char) : Option Nat :=
  let value :=
    if '0' ≤ c ∧ c ≤ '9' then some (c.toNat - '0'.toNat)
    else if 'a' ≤ c ∧ c ≤ 'z' then some (c.toNat - 'a'.toNat + 10)
    else if 'A' ≤ c ∧ c ≤ 'Z' then some (c.toNat - 'A'.toNat + 10)
    else none
  value.filter (· < radix)

/-- The value of digits read behind `acc`. -/
def digits? (radix : Nat) (acc : Nat) : List Char → Option Nat
  | [] => some acc
  | c :: rest => (digit? radix c).bind fun d => digits? radix (acc * radix + d) rest

def magnitude? (radix : Nat) : List Char → Option Nat
  | [] => none
  | cs => digits? radix 0 cs

/-- An unsigned numeral below `bound`; a plus may stand in front. -/
def natural? (radix bound : Nat) (cs : List Char) : Option Nat :=
  let digits := match cs with
    | '+' :: rest => rest
    | _ => cs
  (magnitude? radix digits).filter (· < bound)

/-- A decimal numeral of 64 bits with a sign. -/
def integer? (cs : List Char) : Option Int :=
  match cs with
  | '-' :: rest => ((magnitude? 10 rest).filter (· ≤ Nat.pow 2 63)).map fun n => -(n : Int)
  | _ => (natural? 10 (Nat.pow 2 63) cs).map Int.ofNat

def byte? (radix : Nat) (cs : List Char) : Option UInt8 := (natural? radix 256 cs).map UInt8.ofNat

end RailBus.Text
