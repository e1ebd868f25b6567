import CodeAtlas.Number
import CodeAtlas.Text.Blank
import CodeAtlas.Text.Decimal

/-!
Moments in time and the texts that spell them.
-/

namespace CodeAtlas

/-- A moment: whole seconds since the start of the first year, and nanoseconds within the second.  One
that was read from the running clock is told apart, since its text has a mark of that clock. -/
structure Instant where
  seconds : Int
  nanos : Nat
  fromClock : Bool
  deriving DecidableEq, Repr, Inhabited

namespace Instant

/-- The start of the first year, which stands for no moment at all. -/
def zero : Instant := ⟨0, 0, false⟩

def isZero (t : Instant) : Bool := t.seconds == 0 && t.nanos == 0

def plain (t : Instant) : Instant := { t with fromClock := false }

def same (a b : Instant) : Bool := a.plain == b.plain

def before (a b : Instant) : Bool :=
  a.seconds < b.seconds || (a.seconds == b.seconds && a.nanos < b.nanos)

def isLeap (year : Int) : Bool := year % 4 == 0 && (year % 100 != 0 || year % 400 == 0)

def daysIn (year month : Int) : Int :=
  if month == 2 then (if isLeap year then 29 else 28)
  else if month == 4 || month == 6 || month == 9 || month == 11 then 30
  else 31

/-- The days from the start of the first year to the first of March of a year. -/
def daysToMarch (year : Int) : Int :=
  365 * (year - 1) + (year / 4) - (year / 100) + (year / 400) + 59

/-- The days from the start of the first year to a date.  Years are counted from March on, so that a leap
day is the last of its year. -/
def dayNumber (year month day : Int) : Int :=
  let (y, m) := if month > 2 then (year, month - 3) else (year - 1, month + 9)
  daysToMarch y + (153 * m + 2) / 5 + (day - 1)

def civil (days : Int) : Int × Int × Int :=
  -- days since the first of March of the year zero
  let z := days + 306
  let era := z / 146097
  let d := z - era * 146097
  let yearOfEra := (d - d / 1460 + d / 36524 - d / 146096) / 365
  let dayOfYear := d - (365 * yearOfEra + yearOfEra / 4 - yearOfEra / 100)
  let m := (5 * dayOfYear + 2) / 153
  let day := dayOfYear - (153 * m + 2) / 5 + 1
  let month := if m < 10 then m + 3 else m - 9
  let year := yearOfEra + era * 400
  (if month ≤ 2 then year + 1 else year, month, day)

def ofParts (year month day hour minute second : Int) (nanos : Nat) : Instant :=
  ⟨dayNumber year month day * 86400 + hour * 3600 + minute * 60 + second, nanos, false⟩

def addSeconds (t : Instant) (n : Int) : Instant := { t with seconds := t.seconds + n }

def addNanos (t : Instant) (n : Int) : Instant :=
  let total := t.nanos + n
  { t with seconds := t.seconds + total / 1000000000, nanos := (total % 1000000000).toNat }

/-- The seconds from the start of the first year to the start of 1970. -/
def epoch : Int := 62135596800

def epochNanos (t : Instant) : Int := wrap64 ((t.seconds - epoch) * 1000000000 + t.nanos)

/-- The moment so many nanoseconds after the start of 1970; none of them stands for no moment. -/
def ofEpochNanos (n : Int) : Instant := if n == 0 then zero else addNanos ⟨epoch, 0, false⟩ n

/-- The date and time of day, with the fraction of the second cut after its last digit that counts. -/
def spell (separator zone : String) (t : Instant) : String :=
  let days := t.seconds / 86400
  let rest := t.seconds - days * 86400
  let (year, month, day) := civil days
  let two (n : Int) : String := padLeft 2 '0' (toString n)
  let fraction :=
    if t.nanos == 0 then ""
    else "." ++ String.ofList
      ((padLeft 9 '0' (toString t.nanos)).toList.reverse.dropWhile (· == '0')).reverse
  padLeft 4 '0' (toString year) ++ "-" ++ two month ++ "-" ++ two day ++ separator ++
    two (rest / 3600) ++ ":" ++ two (rest / 60 % 60) ++ ":" ++ two (rest % 60) ++ fraction ++ zone

def toText (t : Instant) : String := spell "T" "Z" t

/-- How a text may end that spells a moment. -/
inductive Zone where
  /-- A sign, hours, a colon and minutes. -/
  | colon
  /-- The same or a `Z`. -/
  | colonOrZ
  /-- A blank, a sign, hours and minutes, a blank and the name of a zone. -/
  | named
  deriving DecidableEq, Repr

def digitValue? (c : Char) : Option Nat := if c.isDigit then some (c.toNat - 48) else none

/-- One or two digits; with `fixed` it takes two. -/
def twoDigits? (fixed : Bool) : List Char → Option (Int × List Char)
  | a :: b :: rest => do
      let x ← digitValue? a
      match digitValue? b with
      | some y => some (x * 10 + y, rest)
      | none => if fixed then none else some (x, b :: rest)
  | [a] => do
      let x ← digitValue? a
      if fixed then none else some (x, [])
  | [] => none

def year? : List Char → Option (Int × List Char)
  | a :: b :: c :: d :: rest => do
      let x ← digitValue? a
      let y ← digitValue? b
      let z ← digitValue? c
      let w ← digitValue? d
      some (x * 1000 + y * 100 + z * 10 + w, rest)
  | _ => none

/-- The rest after one character; a blank stands for any number of blanks. -/
def expect? (c : Char) (text : List Char) : Option (List Char) :=
  if c == ' ' then
    match text with
    | [] => some []
    | d :: rest => if d == ' ' then some (rest.dropWhile (· == ' ')) else none
  else
    match text with
    | d :: rest => if d == c then some rest else none
    | [] => none

/-- The nanoseconds after a point or comma and at least one digit; digits after the ninth are dropped. -/
def fraction (text : List Char) : Nat × List Char :=
  match text with
  | mark :: first :: rest =>
      if (mark == '.' || mark == ',') && first.isDigit then
        let digits := (first :: rest).takeWhile Char.isDigit
        let kept := digits.take 9
        let value := kept.foldl (fun n c => n * 10 + (c.toNat - 48)) 0
        (value * Nat.pow 10 (9 - kept.length), (first :: rest).dropWhile Char.isDigit)
      else (0, text)
  | _ => (0, text)

def signedOffset? (sign : Char) (hours minutes : Int) : Option Int :=
  if hours > 24 || minutes > 60 then none
  else if sign == '+' then some ((hours * 60 + minutes) * 60)
  else if sign == '-' then some (-((hours * 60 + minutes) * 60))
  else none

def offset? (colon : Bool) (text : List Char) : Option (Int × List Char) := do
  match text with
  | sign :: rest =>
      let (hours, rest) ← twoDigits? true rest
      let rest ← if colon then expect? ':' rest else some rest
      let (minutes, rest) ← twoDigits? true rest
      let seconds ← signedOffset? sign hours minutes
      some (seconds, rest)
  | [] => none

/-- The number of characters of a sign and hours up to 23; zero if there are none. -/
def hoursLength (text : List Char) : Nat :=
  match text with
  | sign :: rest =>
      let digits := rest.takeWhile Char.isDigit
      let value := digits.foldl (fun n c => n * 10 + (c.toNat - 48)) 0
      if (sign == '+' || sign == '-') && !digits.isEmpty && value ≤ 23 then digits.length + 1 else 0
  | [] => 0

def zoneLength? (text : List Char) : Option Nat :=
  let upper := (text.takeWhile Char.isUpper).length
  if text.length < 3 then none
  else if text.take 4 == "ChST".toList || text.take 4 == "MeST".toList then some 4
  else if text.take 3 == "GMT".toList then some (3 + hoursLength (text.drop 3))
  else if text.head? == some '+' || text.head? == some '-' then
    (if hoursLength text > 0 then some (hoursLength text) else none)
  else if upper == 5 then (if text[4]? == some 'T' then some 5 else none)
  else if upper == 4 then
    (if text[3]? == some 'T' || text.take 4 == "WITA".toList then some 4 else none)
  else if upper == 3 then some 3
  else none

/-- The seconds east of the zone that a text ends with. -/
def zone? (zone : Zone) (text : List Char) : Option (Int × List Char) :=
  match zone with
  | .colon => offset? true text
  | .colonOrZ =>
      match text with
      | 'Z' :: rest => some (0, rest)
      | _ => offset? true text
  | .named => do
      let rest ← expect? ' ' text
      let (seconds, rest) ← offset? false rest
      let rest ← expect? ' ' rest
      if rest.take 3 == "UTC".toList then some (0, rest.drop 3)
      else
        let n ← zoneLength? rest
        some (seconds, rest.drop n)

def date? (fixed : Bool) (text : List Char) : Option ((Int × Int × Int) × List Char) := do
  let (year, rest) ← year? text
  let rest ← expect? '-' rest
  let (month, rest) ← twoDigits? fixed rest
  let rest ← expect? '-' rest
  let (day, rest) ← twoDigits? fixed rest
  if 1 ≤ month && month ≤ 12 && 1 ≤ day && day ≤ daysIn year month then
    some ((year, month, day), rest)
  else none

def clock? (fixed : Bool) (text : List Char) : Option ((Int × Int × Int × Nat) × List Char) := do
  let (hour, rest) ← twoDigits? false text
  let rest ← expect? ':' rest
  let (minute, rest) ← twoDigits? fixed rest
  let rest ← expect? ':' rest
  let (second, rest) ← twoDigits? fixed rest
  let (nanos, rest) := fraction rest
  if hour < 24 && minute < 60 && second < 60 then some ((hour, minute, second, nanos), rest) else none

def read? (separator : Char) (zone : Zone) (text : String) : Option Instant := do
  let ((year, month, day), rest) ← date? true text.toList
  let rest ← expect? separator rest
  let ((hour, minute, second, nanos), rest) ← clock? true rest
  let (east, rest) ← zone? zone rest
  if rest.isEmpty then
    some ((ofParts year month day hour minute second nanos).addSeconds (-east))
  else none

/-- The moment that a text spells in one of four ways; `zero` for any other text. -/
def ofText (text : String) : Instant :=
  let found := read? ' ' .colon text <|> read? 'T' .colon text <|> read? ' ' .named text <|>
    read? 'T' .colonOrZ text
  found.getD zero

end Instant

end CodeAtlas
