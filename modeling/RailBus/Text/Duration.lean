/-!
# Durations

A whole number of milliseconds, written in seconds from one second on, without trailing zeros.
-/

namespace RailBus.Text

/-- Three decimals, less the zeros at their end. -/
def thousandths (n : Nat) : List Char :=
  let digits := [n / 100 % 10, n / 10 % 10, n % 10].map Nat.digitChar
  (digits.reverse.dropWhile (· == '0')).reverse

def duration (ms : Nat) : String :=
  if ms = 0 then "0ns"
  else if ms < 1000 then s!"{ms}ms"
  else
    match thousandths (ms % 1000) with
    | [] => s!"{ms / 1000}s"
    | decimals => s!"{ms / 1000}." ++ String.ofList decimals ++ "s"

end RailBus.Text
