/-! # Conversions -/

namespace FormatCheck

/-- The part of a date or a time that a date/time conversion prints. -/
inductive DateField where
  | hourOfDayPadded
  | hourPadded
  | hourOfDay
  | hour
  | minute
  | second
  | millisecond
  | nanosecond
  | halfDay
  | zoneOffset
  | zoneName
  | epochSeconds
  | epochMilliseconds
  | monthName
  | monthShortName
  | monthAbbreviation
  | dayName
  | dayShortName
  | century
  | year
  | yearOfCentury
  | dayOfYear
  | month
  | dayOfMonthPadded
  | dayOfMonth
  | hourMinute
  | hourMinuteSecond
  | halfDayTime
  | monthDayYear
  | yearMonthDay
  | dateAndTime
deriving DecidableEq

namespace DateField

def all : List DateField :=
  [hourOfDayPadded, hourPadded, hourOfDay, hour, minute, second, millisecond, nanosecond, halfDay,
    zoneOffset, zoneName, epochSeconds, epochMilliseconds, monthName, monthShortName,
    monthAbbreviation, dayName, dayShortName, century, year, yearOfCentury, dayOfYear, month,
    dayOfMonthPadded, dayOfMonth, hourMinute, hourMinuteSecond, halfDayTime, monthDayYear,
    yearMonthDay, dateAndTime]

/-- The suffix that selects the field. Case matters. -/
def toChar : DateField → Char
  | hourOfDayPadded => 'H'
  | hourPadded => 'I'
  | hourOfDay => 'k'
  | hour => 'l'
  | minute => 'M'
  | second => 'S'
  | millisecond => 'L'
  | nanosecond => 'N'
  | halfDay => 'p'
  | zoneOffset => 'z'
  | zoneName => 'Z'
  | epochSeconds => 's'
  | epochMilliseconds => 'Q'
  | monthName => 'B'
  | monthShortName => 'b'
  | monthAbbreviation => 'h'
  | dayName => 'A'
  | dayShortName => 'a'
  | century => 'C'
  | year => 'Y'
  | yearOfCentury => 'y'
  | dayOfYear => 'j'
  | month => 'm'
  | dayOfMonthPadded => 'd'
  | dayOfMonth => 'e'
  | hourMinute => 'R'
  | hourMinuteSecond => 'T'
  | halfDayTime => 'r'
  | monthDayYear => 'D'
  | yearMonthDay => 'F'
  | dateAndTime => 'c'

def ofChar? (c : Char) : Option DateField :=
  all.find? (·.toChar == c)

@[simp] theorem ofChar?_toChar (field : DateField) : ofChar? field.toChar = some field := by
  cases field <;> decide

theorem ofChar?_eq_some_iff {c : Char} {field : DateField} :
    ofChar? c = some field ↔ field.toChar = c := by
  constructor
  · intro h
    simpa using List.find?_some h
  · rintro rfl
    exact ofChar?_toChar field

end DateField

/-- How a specifier prints its argument. The last two print fixed text and read none. -/
inductive Conversion where
  | boolean
  | hashCode
  | string
  | character
  | decimal
  | octal
  | hex
  | scientific
  | fixed
  | general
  | hexFloat
  | dateTime (field : DateField)
  | percent
  | lineSeparator
deriving DecidableEq

namespace Conversion

/-- The conversions that a single character selects, in lower or in upper case
where that exists; date/time conversions take two characters. -/
def ofChar? : Char → Option Conversion
  | 'b' | 'B' => some boolean
  | 'h' | 'H' => some hashCode
  | 's' | 'S' => some string
  | 'c' | 'C' => some character
  | 'd' => some decimal
  | 'o' => some octal
  | 'x' | 'X' => some hex
  | 'e' | 'E' => some scientific
  | 'f' => some fixed
  | 'g' | 'G' => some general
  | 'a' | 'A' => some hexFloat
  | '%' => some percent
  | 'n' => some lineSeparator
  | _ => none

/-- The lower case character of a conversion, without the date/time suffix. -/
def toChar : Conversion → Char
  | boolean => 'b'
  | hashCode => 'h'
  | string => 's'
  | character => 'c'
  | decimal => 'd'
  | octal => 'o'
  | hex => 'x'
  | scientific => 'e'
  | fixed => 'f'
  | general => 'g'
  | hexFloat => 'a'
  | dateTime _ => 't'
  | percent => '%'
  | lineSeparator => 'n'

/-- The characters after the first one. -/
def suffix : Conversion → List Char
  | dateTime field => [field.toChar]
  | _ => []

def chars (conversion : Conversion) : List Char :=
  conversion.toChar :: conversion.suffix

def text (conversion : Conversion) : String :=
  String.ofList conversion.chars

/-- Reads the lower case text of a conversion. -/
def ofText? (text : String) : Option Conversion :=
  match text.toList with
  | ['t', c] => (DateField.ofChar? c).map dateTime
  | [c] => (ofChar? c).filter (·.toChar == c)
  | _ => none

theorem ofText?_text (conversion : Conversion) : ofText? conversion.text = some conversion := by
  rw [ofText?, text, String.toList_ofList]
  cases conversion with
  | dateTime field => exact congrArg (Option.map dateTime) (DateField.ofChar?_toChar field)
  | _ => rfl

/-- Whether the conversion prints an argument. -/
def readsArgument : Conversion → Bool
  | percent | lineSeparator => false
  | _ => true

/-- Whether the conversion has an upper case form. -/
def hasUppercase : Conversion → Bool
  | decimal | octal | fixed | percent | lineSeparator => false
  | _ => true

end Conversion

end FormatCheck
