import Delegation.Covenant.Calendar
import Delegation.Number.Decimal
import Delegation.Text.CharSet

namespace Delegation

attribute [local instance (2000)] instPowNat

/-- A point in time: a minute, counted from the start of 1970 in universal time, and a place within it. A second
beyond the sixtieth is a leap second. -/
structure Instant where
  minute : Int
  second : Nat
  nanosecond : Nat
  second_le : second ≤ 60 := by exact Nat.le_of_ble_eq_true rfl
  nanosecond_lt : nanosecond < 1000000000 := by exact Nat.le_of_ble_eq_true rfl
  deriving DecidableEq

namespace Instant

def perSecond : Int := 1000000000

def minutesPerDay : Int := 1440

instance : LE Instant := ⟨fun s t => s.minute < t.minute ∨ s.minute = t.minute ∧
  (s.second < t.second ∨ s.second = t.second ∧ s.nanosecond ≤ t.nanosecond)⟩

instance (s t : Instant) : Decidable (s ≤ t) := inferInstanceAs (Decidable (_ ∨ _))

theorem le_trans {s t u : Instant} (hst : s ≤ t) (htu : t ≤ u) : s ≤ u := by
  change _ ∨ _ at hst htu ⊢
  omega

def IsLeap (t : Instant) : Prop := t.second = 60

instance (t : Instant) : Decidable t.IsLeap := inferInstanceAs (Decidable (_ = _))

/-- The nanoseconds since the start of 1970 but for leap seconds; each of these shares them with the second that
follows it. -/
def nanoseconds (t : Instant) : Int := (t.minute * 60 + t.second) * perSecond + t.nanosecond

def minuteOfDay (t : Instant) : Int := t.minute % minutesPerDay

/-- The nanoseconds from one instant to another. Leap seconds between the two do not count; whether one at either
end does is told by the times of day. -/
def elapsed (start now : Instant) : Int :=
  now.nanoseconds - start.nanoseconds +
    (if start.IsLeap ∧ start.minuteOfDay < now.minuteOfDay then perSecond else 0) -
    (if now.IsLeap ∧ now.minuteOfDay < start.minuteOfDay then perSecond else 0)

theorem elapsed_self (t : Instant) : t.elapsed t = 0 := by
  rw [elapsed, if_neg fun h => Int.lt_irrefl _ h.2, Int.sub_self]
  rfl

def secondsSince (start now : Instant) : Int := (start.elapsed now).tdiv perSecond

def skipBlanks (text : List Char) : List Char := text.dropWhile CharSet.whiteSpace.mem

def readNumber (most : Nat) (text : List Char) : Option (Nat × List Char) :=
  let digits := (text.take most).takeWhile Char.isDigit
  if digits.isEmpty then none else some (digitsValue digits, text.drop digits.length)

/-- A year of at most four digits, or of any number of them after a sign. -/
def readYear (text : List Char) : Option (Int × List Char) :=
  match text with
  | '+' :: cs => (readNumber cs.length cs).map fun (year, rest) => (year, rest)
  | '-' :: cs => (readNumber cs.length cs).map fun (year, rest) => (-year, rest)
  | cs => (readNumber 4 cs).map fun (year, rest) => (year, rest)

def readMark (marks : List Char) : List Char → Option (List Char)
  | [] => none
  | c :: cs => if c ∈ marks then some cs else none

def readPart (mark : Char) (text : List Char) : Option (Nat × List Char) := do
  let text ← readMark [mark] (skipBlanks text)
  readNumber 2 (skipBlanks text)

/-- Billionths from the digits of a fraction; digits beyond the ninth are dropped. -/
def billionths (digits : List Char) : Nat :=
  let kept := digits.take 9
  digitsValue kept * 10 ^ (9 - kept.length)

def readFraction (text : List Char) : Option (Nat × List Char) :=
  match text with
  | '.' :: cs =>
    let digits := cs.takeWhile Char.isDigit
    if digits.isEmpty then none else some (billionths digits, cs.drop digits.length)
  | _ => some (0, text)

def readPair : List Char → Option (Nat × List Char)
  | c :: d :: cs => if c.isDigit ∧ d.isDigit then some (digitsValue [c, d], cs) else none
  | _ => none

def readOffset (text : List Char) : Option (Int × List Char) :=
  match text with
  | 'Z' :: cs | 'z' :: cs => some (0, cs)
  | sign :: cs =>
    if (text.take 3).map Char.toUpper = ['U', 'T', 'C'] then some (0, text.drop 3)
    else if sign ∈ ['+', '-', '−'] then do
      let (hours, cs) ← readPair cs
      let (minutes, cs) ← readPair (cs.dropWhile fun c => c = ':' || CharSet.whiteSpace.mem c)
      let offset : Int := hours * 60 + minutes
      if hours < 24 ∧ minutes < 60 then some (if sign = '+' then offset else -offset, cs) else none
    else none
  | [] => none

def IsYear (year : Int) : Prop := -262143 ≤ year ∧ year ≤ 262142

instance (year : Int) : Decidable (IsYear year) := inferInstanceAs (Decidable (_ ∧ _))

def ofText? (text : List Char) : Option Instant := do
  let (year, text) ← readYear (skipBlanks text)
  let (month, text) ← readPart '-' text
  let (day, text) ← readPart '-' text
  let text ← readMark ['T', 't', ' '] text
  let (hour, text) ← readNumber 2 (skipBlanks text)
  let (minute, text) ← readPart ':' text
  let (second, text) ← readPart ':' text
  let (fraction, text) ← readFraction text
  let (offset, text) ← readOffset (skipBlanks text)
  let date : Date := ⟨year, month, day⟩
  let total := date.toDays * minutesPerDay + hour * 60 + minute - offset
  if h : second ≤ 60 ∧ fraction < 1000000000 then
    if date.IsValid ∧ hour < 24 ∧ minute < 60 ∧ IsYear year ∧
        IsYear (Date.ofDays (total / minutesPerDay)).year ∧ (skipBlanks text).isEmpty then
      some ⟨total, second, fraction, h.1, h.2⟩
    else none
  else none

def padded (width n : Nat) : List Char :=
  let digits := Nat.toDigits 10 n
  List.replicate (width - digits.length) '0' ++ digits

/-- A year; those beyond four digits and those before the year zero have a sign. -/
def yearText (year : Int) : List Char :=
  if 0 ≤ year ∧ year ≤ 9999 then padded 4 year.toNat
  else (if year < 0 then '-' else '+') :: padded 4 year.natAbs

/-- A fraction of a second with three, six or nine places, and none for nothing. -/
def fractionText (nanoseconds : Nat) : List Char :=
  if nanoseconds = 0 then []
  else if nanoseconds % 1000000 = 0 then '.' :: padded 3 (nanoseconds / 1000000)
  else if nanoseconds % 1000 = 0 then '.' :: padded 6 (nanoseconds / 1000)
  else '.' :: padded 9 nanoseconds

/-- The text of an instant in universal time; `zone` is the way to say so. -/
def text (zone : List Char) (t : Instant) : List Char :=
  let date := Date.ofDays (t.minute / minutesPerDay)
  let inDay := t.minuteOfDay.toNat
  yearText date.year ++ '-' :: (padded 2 date.month ++ '-' :: (padded 2 date.day ++ 'T' ::
    (padded 2 (inDay / 60) ++ ':' :: (padded 2 (inDay % 60) ++ ':' ::
    (padded 2 t.second ++ fractionText t.nanosecond ++ zone)))))

end Instant

end Delegation
