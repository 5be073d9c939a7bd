/-!
# Durations in messages

A duration is a number of milliseconds. Messages write whole and broken seconds with the unit `s`
and the fewest decimals, durations below a second in `ms`, and zero as `0ns`.
-/

namespace NewsService

/-- A span of time in milliseconds. -/
structure Duration where
  /-- The number of milliseconds. -/
  millis : Nat
  deriving DecidableEq, Repr

namespace Duration

/-- The decimals of a number of thousandths: three digits without the zeros at the end. -/
def decimals (thousandths : Nat) : List Char :=
  let digits := [thousandths / 100, thousandths / 10 % 10, thousandths % 10].map fun n =>
    Char.ofNat (48 + n)
  (digits.reverse.dropWhile (· == '0')).reverse

/-- The text of a duration. -/
def text (d : Duration) : String :=
  if d.millis = 0 then "0ns"
  else if d.millis < 1000 then toString d.millis ++ "ms"
  else
    let whole := toString (d.millis / 1000)
    match decimals (d.millis % 1000) with
    | [] => whole ++ "s"
    | digits => whole ++ "." ++ String.ofList digits ++ "s"

end Duration

end NewsService
