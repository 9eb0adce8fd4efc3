import FenceFacts.Toml.Value

/-!
# FenceFacts — TOML numbers, dates and truth values

A value that is neither quoted nor bracketed is a run of characters, and it
is read as a whole: the run is a truth value, an integer, a float or a date,
or it is nothing.

What kind of number a run is shows where its first digits end: there is a
mark of a base, a point or an exponent, an underscore or nothing.  A minus or
a colon there makes it a date.  An underscore stands between two digits, and
decimal numbers do not begin with needless zeros.

A decimal integer is looked at no further than that, so it can turn out to be
none: after an underscore anything may follow.  Numbers can also be too large.
-/

namespace FenceFacts

namespace TomlScalar

-- ---------------------------------------------------------------------------
-- Digits
-- ---------------------------------------------------------------------------

/-- The value of a digit, whatever the base. -/
def digit? (c : Char) : Option Nat :=
  if '0' ≤ c ∧ c ≤ '9' then some (c.toNat - '0'.toNat)
  else if 'a' ≤ c ∧ c ≤ 'f' then some (c.toNat - 'a'.toNat + 10)
  else if 'A' ≤ c ∧ c ≤ 'F' then some (c.toNat - 'A'.toNat + 10)
  else none

/-- The digit, if the base has it. -/
def digitBelow? (base : Nat) (c : Char) : Option Nat := (digit? c).filter (· < base)

/-- Whether a number of some base can be made of the character. -/
def isNumberChar (base : Nat) (c : Char) : Bool := c = '_' || (digitBelow? base c).isSome

/-- The number that digits stand for, if there are any and they are digits. -/
def ofDigits? (base : Nat) (t : Text) : Option Nat := do
  let digits ← t.mapM (digitBelow? base)
  if digits.isEmpty then failure
  return digits.foldl (fun n d => n * base + d) 0

/-- A number without its sign, and whether the sign is a minus. -/
def unsigned : Text → Bool × Text
  | '-' :: t => (true, t)
  | '+' :: t => (false, t)
  | t => (false, t)

/-- The number that a sign and digits stand for. -/
def signed? (base : Nat) (t : Text) : Option Int :=
  let (negative, t) := unsigned t
  (ofDigits? base t).map fun n => if negative then -n else n

-- ---------------------------------------------------------------------------
-- Underscores
-- ---------------------------------------------------------------------------

/-- Whether an underscore can stand between two pieces of a number. -/
def canJoin (isDigit : Char → Bool) (left right : Text) : Bool :=
  left.getLast?.any isDigit && right.head?.any isDigit

/-- Whether every underscore stands between digits. -/
def joined (isDigit : Char → Bool) (t : Text) : Bool :=
  let pieces := t.splitOn '_'
  (pieces.zip pieces.tail).all fun (left, right) => canJoin isDigit left right

def withoutUnderscores (t : Text) : Text := t.filter (· ≠ '_')

-- ---------------------------------------------------------------------------
-- Integers
-- ---------------------------------------------------------------------------

/-- Integers lie from here on. -/
def leastInteger : Int := -(Nat.pow 2 127 : Nat)

/-- Integers lie below this number. -/
def integerBound : Int := (Nat.pow 2 128 : Nat)

/-- An integer of some base, by the text behind the mark of the base. -/
def integer (base : Nat) (t : Text) : TomlValue :=
  match signed? base (withoutUnderscores t) with
  | some n => if leastInteger ≤ n ∧ n < integerBound then .integer n else .misnumber t
  | none => .misnumber t

/-- The base that a letter behind a zero marks. -/
def bases : List (Char × Nat) := [('x', 16), ('o', 8), ('b', 2)]

/-- An integer with a mark of its base, by the text behind the mark. -/
def markedInteger? (base : Nat) (t : Text) : Option TomlValue :=
  if t.all (isNumberChar base) && joined (fun c => (digit? c).isSome) t then some (integer base t)
  else none

-- ---------------------------------------------------------------------------
-- Floats
-- ---------------------------------------------------------------------------

/-- Numbers from here on are nearer to infinity than to any float. -/
def floatBound : Nat := Nat.pow 2 1024 - Nat.pow 2 970

/-- No float has more digits before the point than this. -/
def floatDigits : Int := 310

/-- Whether `m · 10 ^ e` is below `floatBound`. -/
def isFinite (m : Nat) (e : Int) : Bool :=
  let size := (Nat.toDigits 10 m).length + e
  m = 0 || size < 0 ||
    size ≤ floatDigits && m * Nat.pow 10 e.toNat < floatBound * Nat.pow 10 (-e).toNat

/-- The parts of a float without its sign. -/
structure FloatParts where
  whole : Text
  fraction : Option Text := none
  exponent : Option Text := none
  deriving DecidableEq, Repr

namespace FloatParts

/-- The parts, wherever they may stand in the text. -/
def ofText (t : Text) : FloatParts :=
  let mantissa := t.takeWhile fun c => c ≠ 'e' && c ≠ 'E'
  { whole := mantissa.takeWhile (· ≠ '.')
    fraction := (mantissa.dropWhile (· ≠ '.')).tail?
    exponent := (t.dropWhile fun c => c ≠ 'e' && c ≠ 'E').tail? }

/-- The number of digits in a part that holds digits and underscores only. -/
def digitCount? (t : Text) : Option Nat :=
  if t.all (isNumberChar 10) then some (withoutUnderscores t).length else none

/-- Whether the parts hold digits, and no needless zero stands first. -/
def isWellFormed (p : FloatParts) : Bool :=
  let hasDigits := fun t => (digitCount? t).any (0 < ·)
  hasDigits p.whole && ((digitCount? p.whole).any (· = 1) || p.whole.head? ≠ some '0') &&
    p.fraction.all hasDigits && p.exponent.all fun e => hasDigits (unsigned e).2

def isFinite (p : FloatParts) : Bool :=
  let fraction := withoutUnderscores (p.fraction.getD [])
  let exponent := (p.exponent.bind fun e => signed? 10 (withoutUnderscores e)).getD 0
  let digits := (ofDigits? 10 (withoutUnderscores p.whole ++ fraction)).getD 0
  TomlScalar.isFinite digits (exponent - fraction.length)

end FloatParts

/-- A float, by its text and the part of it behind the sign. -/
def float? (t magnitude : Text) : Option TomlValue :=
  let parts := FloatParts.ofText magnitude
  if parts.isWellFormed && joined (fun c => (digitBelow? 10 c).isSome) t then
    some (if parts.isFinite then .float t else .misnumber t)
  else none

-- ---------------------------------------------------------------------------
-- Dates
-- ---------------------------------------------------------------------------

/-- A number of so many digits, and what follows it. -/
def fixed? (width : Nat) (t : Text) : Option (Nat × Text) := do
  let n ← ofDigits? 10 (t.take width)
  if width ≤ t.length then return (n, t.drop width) else failure

/-- What follows a character. -/
def after? (c : Char) : Text → Option Text
  | d :: t => if d = c then some t else none
  | [] => none

def isLeapYear (year : Nat) : Bool := year % 4 = 0 && (year % 100 ≠ 0 || year % 400 = 0)

def daysIn (year month : Nat) : Nat :=
  if month = 2 then if isLeapYear year then 29 else 28
  else if month ∈ [4, 6, 9, 11] then 30 else 31

/-- What follows a day of the calendar. -/
def afterDay? (t : Text) : Option Text := do
  let (year, t) ← fixed? 4 t
  let (month, t) ← fixed? 2 (← after? '-' t)
  let (day, t) ← fixed? 2 (← after? '-' t)
  if 1 ≤ month && month ≤ 12 && 1 ≤ day && day ≤ daysIn year month then return t else failure

/-- What follows the fraction of a second. -/
def afterFraction? (t : Text) : Option Text :=
  match t with
  | '.' :: t =>
    if (t.head?.bind (digitBelow? 10)).isSome then
      some (t.dropWhile fun c => (digitBelow? 10 c).isSome)
    else none
  | t => some t

/-- What follows the seconds, which may be missing. -/
def afterSeconds? (t : Text) : Option Text :=
  match t with
  | ':' :: t => do
    let (second, t) ← fixed? 2 t
    if second ≤ 60 then afterFraction? t else failure
  | t => some t

/-- What follows hours and minutes. -/
def afterMinutes? (t : Text) : Option Text := do
  let (hour, t) ← fixed? 2 t
  let (minute, t) ← fixed? 2 (← after? ':' t)
  if hour ≤ 23 && minute ≤ 59 then return t else failure

/-- What follows the time of a day. -/
def afterTime? (t : Text) : Option Text := (afterMinutes? t).bind afterSeconds?

/-- Whether a time of a day goes on with nothing or with a time zone. -/
def isZone : Text → Bool
  | [] => true
  | ['Z'] | ['z'] => true
  | '+' :: t | '-' :: t => afterMinutes? t = some []
  | _ => false

def isDate (t : Text) : Bool :=
  match afterDay? t with
  | none => afterTime? t = some []
  | some [] => true
  | some (c :: t) => (c = 'T' || c = 't' || c = ' ') && (afterTime? t).any isZone

-- ---------------------------------------------------------------------------
-- Values
-- ---------------------------------------------------------------------------

/-- A decimal number or a date.  What follows the first digits tells which. -/
def decimal? (t : Text) : Option TomlValue :=
  let magnitude := (unsigned t).2
  let rest := magnitude.dropWhile fun c => (digitBelow? 10 c).isSome
  match rest.head? with
  | none =>
    if magnitude.length = 1 || magnitude.head?.any (· ≠ '0') then some (integer 10 t) else none
  | some '-' | some ':' => if isDate t then some (.date t) else none
  | some first =>
    if rest.contains ' ' then none
    else if rest.any (· ∈ ['.', 'e', 'E']) then float? t magnitude
    else if first = '_' && magnitude.head? ≠ some '0' && joined (fun c => (digit? c).isSome) t then
      some (integer 10 t)
    else none

/-- The floats that are written as words. -/
def floatWords : List Text := ["inf".toList, "nan".toList]

/-- What a run of characters means. -/
def value? (t : Text) : Option TomlValue :=
  if t = "true".toList then some (.boolean true)
  else if t = "false".toList then some (.boolean false)
  else if (unsigned t).2 ∈ floatWords then some (.float t)
  else
    match t with
    | '0' :: mark :: digits =>
      match bases.lookup mark with
      | some base => markedInteger? base digits
      | none => decimal? t
    | _ => decimal? t

end TomlScalar

end FenceFacts
