import NewsService.Calendar.Date

/-!
# Reading RFC 3339

A timestamp is a date with a four-digit year, a separator, a time of day with an optional fraction
of a second, and an offset from universal time: `Z` or a signed number of hours and minutes. The
separator is any ASCII character. A minute has a second 60 at the end of a month in universal time;
the last nanosecond before it stands for it. The value of a timestamp is a number of milliseconds
since the beginning of 1970, finer parts being dropped toward zero.
-/

namespace NewsService.Timestamp

/-- Reads exactly `count` digits after a value read so far. -/
def digits? : Nat → Nat → List Char → Option (Nat × List Char)
  | 0, value, rest => some (value, rest)
  | count + 1, value, c :: rest =>
    if c.isDigit then digits? count (10 * value + (c.toNat - 48)) rest else none
  | _ + 1, _, [] => none

/-- Reads one of the characters of a list. -/
def mark? (marks : List Char) : List Char → Option (List Char)
  | [] => none
  | c :: rest => if marks.contains c then some rest else none

/-- The nanoseconds that the digits after a point stand for; digits beyond the ninth are dropped. -/
def fractionNanos (digits : List Char) : Nat :=
  ((digits ++ List.replicate 9 '0').take 9).foldl (fun n c => 10 * n + (c.toNat - 48)) 0

/-- Reads an optional fraction of a second: a point and at least one digit. -/
def fraction? : List Char → Option (Nat × List Char)
  | '.' :: rest =>
    let digits := rest.takeWhile Char.isDigit
    if digits.isEmpty then none else some (fractionNanos digits, rest.dropWhile Char.isDigit)
  | rest => some (0, rest)

/-- Reads an offset in seconds, at the end of the text. -/
def offset? : List Char → Option Int
  | ['Z'] | ['z'] => some 0
  | sign :: rest => do
    let (hours, rest) ← digits? 2 0 rest
    let rest ← mark? [':'] rest
    let (minutes, rest) ← digits? 2 0 rest
    if !rest.isEmpty || 23 < hours || 59 < minutes then none
    let seconds : Int := hours * 3600 + minutes * 60
    if sign = '+' then some seconds else if sign = '-' then some (-seconds) else none
  | [] => none

/-- Reads the character between date and time. -/
def separator? : List Char → Option (List Char)
  | c :: rest => if c.toNat < 128 then some rest else none
  | [] => none

/-- Whether a second, by its number since the beginning of 1970, is the last one of a month. -/
def endsMonth (second : Int) : Bool :=
  (second + 1) % 86400 == 0 && (Date.ofDayNumber ((second + 1) / 86400)).day == 1

/-- The milliseconds of a timestamp. -/
def millis? (text : String) : Option Int := do
  let (year, rest) ← digits? 4 0 text.toList
  let rest ← mark? ['-'] rest
  let (month, rest) ← digits? 2 0 rest
  let rest ← mark? ['-'] rest
  let (day, rest) ← digits? 2 0 rest
  let rest ← separator? rest
  let (hour, rest) ← digits? 2 0 rest
  let rest ← mark? [':'] rest
  let (minute, rest) ← digits? 2 0 rest
  let rest ← mark? [':'] rest
  let (second, rest) ← digits? 2 0 rest
  let (nanos, rest) ← fraction? rest
  let offset ← offset? rest
  let date : Date := ⟨year, month, day⟩
  if !date.isValid || 23 < hour || 59 < minute || 60 < second then none
  let total (second : Nat) : Int :=
    date.dayNumber * 86400 + hour * 3600 + minute * 60 + second - offset
  if second < 60 then some ((total second * 1000000000 + nanos).tdiv 1000000)
  else if endsMonth (total 59) then some ((total 59 * 1000000000 + 999999999).tdiv 1000000)
  else none

end NewsService.Timestamp
