import NewsService.Calendar.Date

/-!
# Instants

An instant is a number of nanoseconds since the beginning of 1970 in universal time. Stored times
are milliseconds; those outside the years that instants cover become the earliest or the latest
instant. The text of an instant is that of RFC 3339 with the offset `Z`: years from 0 to 9999 have
four digits, others a sign and at least four, and the fraction of a second is written in one of two
ways.
-/

namespace NewsService

/-- A point in time. -/
structure Instant where
  /-- Nanoseconds since the beginning of 1970. -/
  nanos : Int
  deriving DecidableEq, Repr

namespace Instant

/-- The first millisecond that has an instant of its own, in the year -262143. -/
def leastMillis : Int := -8334601228800000

/-- The last millisecond that has an instant of its own, in the year 262142. -/
def greatestMillis : Int := 8210266876799999

/-- The latest instant: the last nanosecond of the year 262142. -/
def latest : Instant := ⟨8210266876799999999999⟩

/-- The instant of a number of milliseconds. -/
def ofMillis (millis : Int) : Instant :=
  if millis < leastMillis then ⟨leastMillis * 1000000⟩
  else if greatestMillis < millis then latest
  else ⟨millis * 1000000⟩

/-- How the fraction of a second is written. -/
inductive FractionStyle where
  /-- In whole groups of three digits, as few as hold it. -/
  | grouped
  /-- Without zeros at the end. -/
  | trimmed
  deriving DecidableEq, Repr

/-- A number in decimal with zeros in front up to a width. -/
def padded (width n : Nat) : List Char :=
  let digits := Nat.toDigits 10 n
  List.replicate (width - digits.length) '0' ++ digits

/-- The fraction of a second with its point; nothing for a whole second. -/
def fractionText (style : FractionStyle) (nanos : Nat) : List Char :=
  if nanos = 0 then []
  else
    match style with
    | .grouped =>
      if nanos % 1000000 = 0 then '.' :: padded 3 (nanos / 1000000)
      else if nanos % 1000 = 0 then '.' :: padded 6 (nanos / 1000)
      else '.' :: padded 9 nanos
    | .trimmed => '.' :: ((padded 9 nanos).reverse.dropWhile (· == '0')).reverse

/-- The year of a date. -/
def yearText (year : Int) : List Char :=
  if year < 0 then '-' :: padded 4 year.natAbs
  else if 9999 < year then '+' :: padded 4 year.natAbs
  else padded 4 year.natAbs

/-- The text of an instant. -/
def text (style : FractionStyle) (i : Instant) : String :=
  let second := i.nanos / 1000000000
  let date := Date.ofDayNumber (second / 86400)
  let time := (second % 86400).toNat
  String.ofList <|
    yearText date.year ++ '-' :: padded 2 date.month ++ '-' :: padded 2 date.day ++
    'T' :: padded 2 (time / 3600) ++ ':' :: padded 2 (time / 60 % 60) ++
    ':' :: padded 2 (time % 60) ++ fractionText style (i.nanos % 1000000000).toNat ++ ['Z']

end Instant

end NewsService
