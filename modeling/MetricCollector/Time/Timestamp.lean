namespace MetricCollector

-- A timestamp counts from the beginning of 1970. It is written as a date and a time of day, and in
-- a leap second the seconds read sixty.
structure Timestamp where
  seconds     : Int
  nanoseconds : Nat
  deriving DecidableEq, Repr

namespace Timestamp

-- A day of the proleptic Gregorian calendar.
structure Day where
  year  : Int
  month : Nat
  day   : Nat
  deriving DecidableEq, Repr

def secondsPerDay : Int := 86400

-- The day that lies `n` days after the first of January 1970. Years are counted from March here, so
-- that the leap day is the last of its year, and in eras of four centuries, which all have the same
-- length.
def dayOf (n : Int) : Day :=
  let z := n + 719468
  let era := z.fdiv 146097
  let dayOfEra := (z - era * 146097).toNat
  let yearOfEra := (dayOfEra - dayOfEra / 1460 + dayOfEra / 36524 - dayOfEra / 146096) / 365
  let dayOfYear := dayOfEra - (365 * yearOfEra + yearOfEra / 4 - yearOfEra / 100)
  let month := (5 * dayOfYear + 2) / 153
  let day := dayOfYear - (153 * month + 2) / 5 + 1
  let year := yearOfEra + era * 400
  if month < 10 then ⟨year, month + 3, day⟩ else ⟨year + 1, month - 9, day⟩

-- `n` in at least `width` digits.
def padded (width n : Nat) : List Char :=
  let ds := Nat.toDigits 10 n
  List.replicate (width - ds.length) '0' ++ ds

-- Years of more than four digits, and those before the year zero, carry a sign.
def yearChars (year : Int) : List Char :=
  if 0 ≤ year ∧ year ≤ 9999 then padded 4 year.natAbs
  else (if year < 0 then '-' else '+') :: padded 4 year.natAbs

-- The fewest of no, three, six and nine digits that are exact.
def fractionChars (nanos : Nat) : List Char :=
  if nanos = 0 then []
  else if nanos % 1000000 = 0 then '.' :: padded 3 (nanos / 1000000)
  else if nanos % 1000 = 0 then '.' :: padded 6 (nanos / 1000)
  else '.' :: padded 9 nanos

def text (t : Timestamp) : String :=
  let date := dayOf (t.seconds.fdiv secondsPerDay)
  let time := (t.seconds.fmod secondsPerDay).toNat
  let second := time % 60 + t.nanoseconds / 1000000000
  String.ofList <|
    yearChars date.year ++ '-' :: padded 2 date.month ++ '-' :: padded 2 date.day
    ++ 'T' :: padded 2 (time / 3600) ++ ':' :: padded 2 (time / 60 % 60) ++ ':' :: padded 2 second
    ++ fractionChars (t.nanoseconds % 1000000000) ++ ['Z']

end Timestamp
end MetricCollector
