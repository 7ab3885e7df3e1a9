import BracketTemplate.Script.Library.Argument

/-!
# Functions on the time and the surroundings

A time is a number of seconds since the beginning of 1970. A date is a time broken down by the
Gregorian calendar; the local time is the universal time. A date whose fields run over is the date
that many days, hours, minutes and seconds later.
-/

namespace BracketTemplate.Script.Time

/-- A time broken down by the calendar. -/
structure Date where
  year : Int
  /-- From `1`. -/
  month : Nat
  /-- From `1`. -/
  day : Nat
  hour : Nat
  minute : Nat
  second : Nat
  /-- Sunday is `0`. -/
  weekday : Nat
  /-- From `0`. -/
  yearDay : Nat
  deriving Repr, Inhabited

/-! ## The calendar -/

/-- The number of days from the beginning of 1970 to the first day of March of a year. -/
def daysToMarch (year : Int) : Int :=
  365 * year + Int.fdiv year 4 - Int.fdiv year 100 + Int.fdiv year 400 - 719468

/-- The number of days from the first of March to the first of a month; months count from March. -/
def daysFromMarch (month : Nat) : Nat := (153 * month + 2) / 5

/-- The number of days from the beginning of 1970 to a day. Months and days may run over. -/
def dayNumber (year month day : Int) : Int :=
  let months := year * 12 + (month - 1)
  let fromMarch := months - 2
  daysToMarch (Int.fdiv fromMarch 12) + Int.ofNat (daysFromMarch (Int.fmod fromMarch 12).toNat)
    + (day - 1)

/-- The year from March on that a day lies in, and the day in it. -/
def marchYear (days : Int) : Int × Nat :=
  let z := days + 719468
  let era := Int.fdiv z 146097
  let inEra := (Int.fmod z 146097).toNat
  let year := (inEra - inEra / 1460 + inEra / 36524 - inEra / 146096) / 365
  (era * 400 + Int.ofNat year, inEra - (365 * year + year / 4 - year / 100))

/-- The date of a time. -/
def Date.ofTime (t : Int) : Date :=
  let days := Int.fdiv t 86400
  let seconds := (Int.fmod t 86400).toNat
  let (marchYear, inYear) := marchYear days
  let m := (5 * inYear + 2) / 153
  let month := if m < 10 then m + 3 else m - 9
  let year := if month ≤ 2 then marchYear + 1 else marchYear
  { year, month
    day := inYear - daysFromMarch m + 1
    hour := seconds / 3600
    minute := seconds / 60 % 60
    second := seconds % 60
    weekday := (Int.fmod (days + 4) 7).toNat
    yearDay := (days - dayNumber year 1 1).toNat }

/-- The time of a date whose fields may run over. -/
def timeOf (year month day hour minute second : Int) : Int :=
  dayNumber year month day * 86400 + hour * 3600 + minute * 60 + second

/-! ## Texts of dates -/

/-- The days of the week. -/
def dayNames : List String :=
  ["Sunday", "Monday", "Tuesday", "Wednesday", "Thursday", "Friday", "Saturday"]

/-- The months. -/
def monthNames : List String :=
  ["January", "February", "March", "April", "May", "June", "July", "August", "September",
    "October", "November", "December"]

/-- A number with at least so many places. -/
def places (width : Nat) (filler : Char) (n : Nat) : String :=
  let digits := Nat.toDigits 10 n
  String.ofList (List.replicate (width - digits.length) filler ++ digits)

/-- A year, which can be negative. -/
def yearText (y : Int) : String := toString y

/-- The first three letters of a name. -/
def short (name : String) : String := String.ofList (name.toList.take 3)

/-- The week of the year when weeks start on a day of the week. -/
def weekFrom (d : Date) (start : Nat) : Nat := (d.yearDay + 7 - (d.weekday + 7 - start) % 7) / 7

/-- Whether a year has 366 days. -/
def isLeap (y : Int) : Bool :=
  Int.fmod y 4 == 0 && (Int.fmod y 100 != 0 || Int.fmod y 400 == 0)

/-- The number of weeks of a year, the weeks being those with a Thursday in it. -/
def weeksOf (y : Int) : Nat :=
  let first := (Date.ofTime (dayNumber y 1 1 * 86400)).weekday
  if first == 4 || (first == 3 && isLeap y) then 53 else 52

/-- The year and the week that a day belongs to, weeks starting on Monday and belonging to the year
of their Thursday. -/
def thursdayWeek (d : Date) : Int × Nat :=
  let week := (d.yearDay + 10 - (if d.weekday == 0 then 7 else d.weekday)) / 7
  if week == 0 then (d.year - 1, weeksOf (d.year - 1))
  else if weeksOf d.year < week then (d.year + 1, 1)
  else (d.year, week)

/-- The hour on a clock of twelve hours. -/
def hour12 (d : Date) : Nat := if d.hour % 12 == 0 then 12 else d.hour % 12

/-- A number of two places. -/
def two (n : Nat) : String := places 2 '0' n

/-- The time of day. -/
def clockText (d : Date) : String := s!"{two d.hour}:{two d.minute}:{two d.second}"

/-- A date with numbers. -/
def slashText (d : Date) : String :=
  s!"{two d.month}/{two d.day}/{two (Int.fmod d.year 100).toNat}"

/-- What a conversion letter stands for. -/
def conversion (t : Int) (d : Date) (letter : Char) : String :=
  let dayName := dayNames[d.weekday]?.getD ""
  let monthName := monthNames[d.month - 1]?.getD ""
  let half := if d.hour < 12 then "AM" else "PM"
  match letter with
  | 'a' => short dayName
  | 'A' => dayName
  | 'b' | 'h' => short monthName
  | 'B' => monthName
  | 'c' =>
    let day := places 2 ' ' d.day
    s!"{short dayName} {short monthName} {day} {clockText d} {yearText d.year}"
  | 'C' => two (Int.fdiv d.year 100).toNat
  | 'd' => two d.day
  | 'D' | 'x' => slashText d
  | 'e' => places 2 ' ' d.day
  | 'F' => s!"{yearText d.year}-{two d.month}-{two d.day}"
  | 'g' => two (Int.fmod (thursdayWeek d).1 100).toNat
  | 'G' => yearText (thursdayWeek d).1
  | 'H' => two d.hour
  | 'I' => two (hour12 d)
  | 'j' => places 3 '0' (d.yearDay + 1)
  | 'm' => two d.month
  | 'M' => two d.minute
  | 'n' => "\n"
  | 'p' => half
  | 'r' => s!"{two (hour12 d)}:{two d.minute}:{two d.second} {half}"
  | 'R' => s!"{two d.hour}:{two d.minute}"
  | 's' => toString t
  | 'S' => two d.second
  | 't' => "\t"
  | 'T' | 'X' => clockText d
  | 'u' => toString (if d.weekday == 0 then 7 else d.weekday)
  | 'U' => two (weekFrom d 0)
  | 'V' => two (thursdayWeek d).2
  | 'w' => toString d.weekday
  | 'W' => two (weekFrom d 1)
  | 'y' => two (Int.fmod d.year 100).toNat
  | 'Y' => yearText d.year
  | 'z' => "+0000"
  | 'Z' => "UTC"
  | _ => "%"

/-- The letters of conversions. -/
def plainLetters : List Char := "aAbBcCdDeFgGhHIjmMnprRStTuUVwWxXyYzZ%".toList

/-- The letters of conversions behind a modifier. -/
def modifiedLetters : Char → List Char
  | 'E' => "cCxXyY".toList
  | 'O' => "deHImMSuUVwWy".toList
  | _ => []

/-- The text of a date by a format. -/
def dateText (a : Arguments) (t : Int) (d : Date) : Bytes → Act Bytes
  | [] => pure []
  | 37 :: rest =>
    let invalid (size : Nat) : Act Bytes :=
      a.fail 1 (utf8 "invalid conversion specifier '%" ++ rest.take size ++ utf8 "'")
    match rest with
    | [] => invalid 1
    | c :: rest =>
      let letter := Char.ofNat c.toNat
      if plainLetters.contains letter then do
        return utf8 (conversion t d letter) ++ (← dateText a t d rest)
      else
        match rest with
        | m :: rest =>
          let inner := Char.ofNat m.toNat
          if (modifiedLetters letter).contains inner then do
            return utf8 (conversion t d inner) ++ (← dateText a t d rest)
          else if (modifiedLetters letter).isEmpty then invalid 1
          else invalid 2
        | [] => invalid 1
  | b :: rest => do return b :: (← dateText a t d rest)

/-! ## Dates as tables -/

/-- The fields of a date. -/
def Date.fields (d : Date) : List (String × Val) :=
  let int (n : Int) : Val := .int (Int64.ofInt n)
  [("year", int d.year), ("month", int d.month), ("day", int d.day), ("hour", int d.hour),
    ("min", int d.minute), ("sec", int d.second), ("yday", int (d.yearDay + 1)),
    ("wday", int (d.weekday + 1)), ("isdst", .bool false)]

/-- An integer in a field of a table. -/
def field (a : Arguments) (id : Nat) (name : String) (default : Option Int) : Act Int := do
  let v ← Operation.index {} (.table id) (.ofString name)
  match v.toInt?, v.isNil, default with
  | some i, _, _ =>
    if i.toInt.natAbs < twoTo 31 then return i.toInt
    else a.site.throw (utf8 s!"field '{name}' is out-of-bound")
  | none, false, _ => a.site.throw (utf8 s!"field '{name}' is not an integer")
  | none, true, none => a.site.throw (utf8 s!"field '{name}' missing in date table")
  | none, true, some n => return n

/-- The time now. -/
def now : Act Int := do return Int.fdiv (← Act.ask .now) 1000000000

/-- A time, now or by the fields of a table, which get the values of the date. -/
def time (a : Arguments) : Act (List Val) := do
  if a.isBlank 1 then return [.int (Int64.ofInt (← now))]
  else
    let id ← a.table 1
    let year ← field a id "year" none
    let month ← field a id "month" none
    let day ← field a id "day" none
    let hour ← field a id "hour" (some 12)
    let minute ← field a id "min" (some 0)
    let second ← field a id "sec" (some 0)
    let t := timeOf year month day hour minute second
    Act.modify fun h => h.onTable id fun table =>
      (Date.ofTime t).fields.foldl (fun table (name, v) => table.setStr name v) table
    return [.int (Int64.ofInt t)]

/-- A date as a text or as a table. -/
def date (a : Arguments) : Act (List Val) := do
  let format ← a.optStr 1 (utf8 "%c")
  let t ← if a.isBlank 2 then now else Int64.toInt <$> a.int 2
  let format := if format.head? == some 33 then format.tail else format
  if twoTo 55 ≤ t.natAbs then
    a.site.throw (utf8 "date result cannot be represented in this installation")
  let d := Date.ofTime t
  if format == utf8 "*t" then
    .update fun h =>
      let (id, h) := h.newTable (.ofFields d.fields)
      ([.table id], h)
  else giveStr (← dateText a t d format)

/-- Runs a function on the time and the surroundings. There are no environment variables, and one
locale. -/
def run (f : OsFunction) (a : Arguments) : Act (List Val) :=
  match f with
  | .clock => return [.float 0.0]
  | .date => date a
  | .difftime => do
    let x ← a.int 1
    let y ← a.int 2
    return [.float (x.toFloat - y.toFloat)]
  | .getenv => do
    let _ ← a.str 1
    return [.nil]
  | .setlocale => do
    let locale ← a.optStr 1 []
    let _ ← a.option 2 (some "all") ["all", "collate", "ctype", "monetary", "numeric", "time"]
    if locale == [] || locale == utf8 "C" || locale == utf8 "POSIX" then return [.ofString "C"]
    else return [.nil]
  | .time => time a

/-- The functions under their names. -/
def names : List (String × OsFunction) :=
  [("clock", .clock), ("date", .date), ("difftime", .difftime), ("getenv", .getenv),
    ("setlocale", .setlocale), ("time", .time)]

end BracketTemplate.Script.Time
