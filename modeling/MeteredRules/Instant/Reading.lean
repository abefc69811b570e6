import MeteredRules.Decimal.Digits
import MeteredRules.Instant.Basic
import MeteredRules.Text.Blank

/-!
# Reading instants

An instant is read from a full date and time with an offset, in the strict form that instants are
written in, or from one of five looser forms without an offset, which mean Coordinated Universal
Time. The forms are tried in order.
-/

namespace MeteredRules.Instant

/-- A reader of a piece of text: it takes a beginning of the text or refuses it. -/
abbrev Scan := StateT (List Char) Option

namespace Scan

/-- Takes one character that satisfies a condition. -/
def character (accepted : Char → Bool) : Scan Char := do
  match ← get with
  | next :: rest => if accepted next then set rest; return next else failure
  | [] => failure

/-- Takes a given character. -/
def literal (expected : Char) : Scan Unit := do
  let _ ← character (· == expected)

/-- Takes digits as long as there are some, up to a number of them, and at least one. -/
def number (most : Nat) : Scan Nat := do
  let text ← get
  let taken := (text.take most).takeWhile Char.isDigit
  if taken.isEmpty then failure
  set (text.drop taken.length)
  return Decimal.ofDigits taken

/-- Takes a given number of digits. -/
def fixedNumber (width : Nat) : Scan Nat := do
  let text ← get
  let taken := text.take width
  if taken.length == width && taken.all Char.isDigit then
    set (text.drop width)
    return Decimal.ofDigits taken
  else failure

/-- Skips blanks. -/
def blanks : Scan Unit :=
  modify Text.trimStart

/-- Takes an optional point with digits after it; nanoseconds are kept and finer digits dropped. -/
def fraction : Scan Nat := do
  match ← get with
  | '.' :: rest =>
    let taken := rest.takeWhile Char.isDigit
    if taken.isEmpty then failure
    set (rest.drop taken.length)
    let kept := taken.take 9
    return Decimal.ofDigits kept * Nat.pow 10 (9 - kept.length)
  | _ => return 0

/-- Accepts the end of the text only. -/
def finish : Scan Unit := do
  match ← get with
  | [] => return ()
  | _ => failure

end Scan

/--
The instant of a date and time that is a given number of seconds ahead of Coordinated Universal
Time. Second 60 is a leap second, in any minute.
-/
def ofDateTime? (date : Date) (hour minute second nanos : Nat) (offset : Int) : Option Instant :=
  if date.isValid && -262143 ≤ date.year && date.year ≤ 262142 && hour ≤ 23 && minute ≤ 59 &&
      second ≤ 60 then
    let leap := second == 60
    let secondOfDay := hour * 3600 + minute * 60 + (if leap then 59 else second)
    ofUnix? (date.toDayNumber * secondsPerDay + secondOfDay - offset)
      (nanos + if leap then nanosPerSecond else 0)
  else none

/-- Takes `Z`, or a sign, two digits of hours, a colon and two digits of minutes, in seconds. -/
def offset : Scan Int := do
  let mark ← Scan.character fun mark => "Zz+-\u2212".toList.contains mark
  if mark == 'Z' || mark == 'z' then return 0
  let hours ← Scan.fixedNumber 2
  Scan.literal ':'
  let minutes ← Scan.fixedNumber 2
  if hours ≤ 23 && minutes ≤ 59 then
    let seconds : Int := (hours * 60 + minutes) * 60
    return if mark == '+' then seconds else -seconds
  else failure

/-- The strict form: every number has its full width and an offset is required. -/
def strictForm : Scan Instant := do
  let year ← Scan.fixedNumber 4
  Scan.literal '-'
  let month ← Scan.fixedNumber 2
  Scan.literal '-'
  let day ← Scan.fixedNumber 2
  let _ ← Scan.character fun mark => mark == 'T' || mark == 't' || mark == ' '
  let hour ← Scan.fixedNumber 2
  Scan.literal ':'
  let minute ← Scan.fixedNumber 2
  Scan.literal ':'
  let second ← Scan.fixedNumber 2
  let nanos ← Scan.fraction
  let ahead ← offset
  Scan.finish
  StateT.lift (ofDateTime? ⟨year, month, day⟩ hour minute second nanos ahead)

/-- Takes a number after blanks. -/
def looseNumber (most : Nat) : Scan Nat := do
  Scan.blanks
  Scan.number most

/-- Takes a year after blanks: up to four digits, or a sign and any number of digits. -/
def looseYear : Scan Int := do
  Scan.blanks
  let text ← get
  match text with
  | '-' :: rest =>
    set rest
    return -(← Scan.number rest.length)
  | '+' :: rest =>
    set rest
    return (← Scan.number rest.length)
  | _ => return (← Scan.number 4)

/-- Takes a date in loose form. -/
def looseDate : Scan Date := do
  let year ← looseYear
  Scan.literal '-'
  let month ← looseNumber 2
  Scan.literal '-'
  let day ← looseNumber 2
  return ⟨year, month, day⟩

/-- The loose forms with a time of day, after a mark, with or without seconds. -/
def looseDateTime (mark : Scan Unit) (withSeconds : Bool) : Scan Instant := do
  let date ← looseDate
  mark
  let hour ← looseNumber 2
  Scan.literal ':'
  let minute ← looseNumber 2
  if withSeconds then
    Scan.literal ':'
    let second ← looseNumber 2
    let nanos ← Scan.fraction
    Scan.finish
    StateT.lift (ofDateTime? date hour minute second nanos 0)
  else
    Scan.finish
    StateT.lift (ofDateTime? date hour minute 0 0 0)

/-- The loose form of a date alone, which means midnight. -/
def looseMidnight : Scan Instant := do
  let date ← looseDate
  Scan.finish
  StateT.lift (ofDateTime? date 0 0 0 0 0)

/-- The forms of an instant, in the order in which they are tried. -/
def forms : List (Scan Instant) :=
  [strictForm,
    looseDateTime (Scan.literal 'T') true, looseDateTime (Scan.literal 'T') false,
    looseDateTime Scan.blanks true, looseDateTime Scan.blanks false,
    looseMidnight]

/-- Reads an instant from a text, with blanks around it allowed. -/
def read? (text : List Char) : Option Instant :=
  let trimmed := Text.trim text
  forms.findSome? fun form => (form.run trimmed).map Prod.fst

end MeteredRules.Instant
