import PackageDocs.Text.Integer

/-!
# Timestamps

A moment is written as its date and time of day in Coordinated Universal Time, as in
`2024-02-29T12:30:00+0000`.

## Main definitions

- `Text.date`: year, month and day of a day since the start of 1970
- `Text.timestamp`: the moment a number of seconds after the start of 1970

## Design notes

Days are counted from the first of March of year zero, so that the leap day is the
last day of a year. Four hundred years have 146097 days, and the months from March on
have 153 days in every run of five.
-/

namespace PackageDocs

namespace Text

/-- Year, month and day of the day that is `days` days after the first of January 1970. -/
def date (days : Nat) : Nat × Nat × Nat :=
  let fromMarch := days + 719468
  let cycle := fromMarch / 146097
  let day := fromMarch % 146097
  let year := (day - day / 1460 + day / 36524 - day / 146096) / 365
  let dayOfYear := day - (365 * year + year / 4 - year / 100)
  let month := (5 * dayOfYear + 2) / 153
  let dayOfMonth := dayOfYear - (153 * month + 2) / 5 + 1
  let fullYear := year + 400 * cycle
  if month < 10 then (fullYear, month + 3, dayOfMonth) else (fullYear + 1, month - 9, dayOfMonth)

/-- The number with zeros in front up to `width` digits. -/
def padded (width n : Nat) : Text :=
  let digits := ofNat n
  List.replicate (width - digits.length) '0' ++ digits

/-- The moment `seconds` seconds after the start of 1970. -/
def timestamp (seconds : Nat) : Text :=
  let (year, month, day) := date (seconds / 86400)
  let inDay := seconds % 86400
  padded 4 year ++ '-' :: padded 2 month ++ '-' :: padded 2 day ++ 'T' ::
    padded 2 (inDay / 3600) ++ ':' :: padded 2 (inDay / 60 % 60) ++ ':' :: padded 2 (inDay % 60) ++
    "+0000".toList

end Text

end PackageDocs
