import MigrationLint.Toml.Text
import MigrationLint.Toml.Value

/-!
# Numbers, truth values, dates and times of TOML

A number is written without leading zeros, and single underscores may stand between its digits.
Integers with a base other than ten carry no sign. Dates must exist and times must be on the clock.

Of an integer only the shape is read for certain. After a first underscore any character may
follow, and a base may stand without digits: such an integer is well formed but has no value.
-/

namespace MigrationLint.Toml

/-- Drops the underscores of a text. Each must stand between two digits; an underscore in front of
everything does so if `afterDigit` holds. -/
def ungroup? (isDigit : Char → Bool) (afterDigit : Bool) : List Char → Option (List Char)
  | [] => some []
  | ['_'] => none
  | '_' :: c :: cs =>
    if afterDigit && isDigit c then (ungroup? isDigit true cs).map (c :: ·) else none
  | c :: cs => (ungroup? isDigit (isDigit c) cs).map (c :: ·)

/-- The integer with a given sign and absolute value. -/
def signed (negative : Bool) (n : Nat) : Int :=
  if negative then -n else n

/-- The value of digits of a base, if there are any and no other characters. -/
def valueOfDigits? (base : Nat) (cs : List Char) : Option Nat :=
  if !cs.isEmpty && cs.all (fun c => (Text.hexDigit? c).any (· < base)) then
    some (Text.ofDigits base cs)
  else none

/-- The digits at the start of a text, at least one, and what follows them. -/
def digits? (cs : List Char) : Option (List Char × List Char) :=
  match cs.span Char.isDigit with
  | ([], _) => none
  | result => some result

/-- The digits after a decimal point, none if there is no point, and what follows them. -/
def fraction? : List Char → Option (List Char × List Char)
  | '.' :: cs => digits? cs
  | cs => some ([], cs)

/-- The power of ten that a text asks for, zero if it is empty. -/
def exponent? : List Char → Option Int
  | [] => some 0
  | e :: cs =>
    if e = 'e' ∨ e = 'E' then
      let (negative, digits) :=
        match cs with
        | '-' :: ds => (true, ds)
        | '+' :: ds => (false, ds)
        | ds => (false, ds)
      (valueOfDigits? 10 digits).map (signed negative)
    else none

/-- The floating-point number that a text without underscores writes. A leading zero may stand
before other digits only if `leadingZero` holds. -/
def float? (negative leadingZero : Bool) (cs : List Char) : Option Value := do
  let (whole, rest) ← digits? cs
  if whole.length ≠ 1 ∧ whole.head? = some '0' ∧ !leadingZero then none
  else
    let (places, rest) ← fraction? rest
    let exponent ← exponent? rest
    return .float
      (.decimal negative (Text.ofDigits 10 (whole ++ places)) (exponent - places.length))

/-- The decimal number that the characters after a sign write, or all of them if there is none. An
underscore may stand right after a sign, and zeros right after that. -/
def decimal? (hasSign negative : Bool) (cs : List Char) : Option Value := do
  let rest := cs.dropWhile Char.isDigit
  if rest.any fun c => c = '.' || c = 'e' || c = 'E' then
    float? negative (cs.head? ≠ some '0') (← ungroup? Char.isDigit hasSign cs)
  else if cs.isEmpty ∨ (cs.head? = some '0' ∧ cs.length ≠ 1) then none
  else if rest.isEmpty ∨ rest.head? = some '_' then
    let digits ← ungroup? (fun c => (Text.hexDigit? c).isSome) hasSign cs
    return .integer ((valueOfDigits? 10 digits).map (signed negative))
  else none

/-- The number after a sign, or without one. -/
def unsigned? (hasSign negative : Bool) : List Char → Option Value
  | ['i', 'n', 'f'] => some (.float (.infinity negative))
  | ['n', 'a', 'n'] => some (.float .nan)
  | cs => decimal? hasSign negative cs

/-- The integer that the digits write in a base. -/
def based? (base : Nat) (cs : List Char) : Option Value := do
  let digits ← ungroup? (fun c => (Text.hexDigit? c).isSome) false cs
  if digits.isEmpty then return .integer none
  else return .integer (some (← valueOfDigits? base digits))

/-- The number or truth value that a word writes. -/
def word? : List Char → Option Value
  | ['t', 'r', 'u', 'e'] => some (.boolean true)
  | ['f', 'a', 'l', 's', 'e'] => some (.boolean false)
  | '0' :: 'x' :: cs => based? 16 cs
  | '0' :: 'o' :: cs => based? 8 cs
  | '0' :: 'b' :: cs => based? 2 cs
  | '-' :: cs => unsigned? true true cs
  | '+' :: cs => unsigned? true false cs
  | cs => unsigned? false false cs

/-- The character may stand in a word: it is no blank and none of the signs between values. -/
def isWordChar (c : Char) : Bool :=
  c ∉ [' ', '\t', '\n', '\r', '#', '=', ',', '[', ']', '{', '}']

/-- Reads exactly `count` digits whose value lies between two bounds. -/
def field? (count low high : Nat) (cs : Rest) : Option (Nat × Rest) :=
  let digits := (cs.takeWhile Char.isDigit)
  let n := Text.ofDigits 10 digits
  if digits.length = count ∧ low ≤ n ∧ n ≤ high then some (n, cs.drop count) else none

/-- Skips a given character. -/
def skip? (c : Char) : Rest → Option Rest
  | [] => none
  | d :: cs => if d = c then some cs else none

/-- The number of days of a month. -/
def daysOf (year month : Nat) : Nat :=
  if month = 2 then
    if year % 4 = 0 ∧ (year % 100 ≠ 0 ∨ year % 400 = 0) then 29 else 28
  else if month ∈ [4, 6, 9, 11] then 30
  else 31

/-- Reads a date. -/
def date? (cs : Rest) : Option Rest := do
  let (year, cs) ← field? 4 0 9999 cs
  let (month, cs) ← field? 2 1 12 (← skip? '-' cs)
  let (_, cs) ← field? 2 1 (daysOf year month) (← skip? '-' cs)
  return cs

/-- Reads a time of day. Seconds may be left out, and may have a fraction. -/
def time? (cs : Rest) : Option Rest := do
  let (_, cs) ← field? 2 0 23 cs
  let (_, cs) ← field? 2 0 59 (← skip? ':' cs)
  match cs with
  | ':' :: cs =>
    let (_, cs) ← field? 2 0 60 cs
    match cs with
    | '.' :: cs =>
      if (cs.takeWhile Char.isDigit).isEmpty then none else some (cs.dropWhile Char.isDigit)
    | cs => some cs
  | cs => some cs

/-- Reads the offset of a time from universal time, if there is one. -/
def offset? : Rest → Option Rest
  | 'Z' :: cs | 'z' :: cs => some cs
  | '+' :: cs | '-' :: cs => do
    let (_, cs) ← field? 2 0 23 cs
    let (_, cs) ← field? 2 0 59 (← skip? ':' cs)
    return cs
  | cs => some cs

/-- Reads a date with or without a time, or a time. -/
def dateTime? (cs : Rest) : Option Rest :=
  if ((cs.dropWhile Char.isDigit).head? = some ':') then time? cs
  else do
    let cs ← date? cs
    match cs with
    | 'T' :: cs | 't' :: cs => (time? cs).bind offset?
    | ' ' :: c :: rest =>
      if c.isDigit then (time? (c :: rest)).bind offset? else some (' ' :: c :: rest)
    | cs => some cs

/-- Reads a value that is neither a string nor made up of other values. -/
def bareValue? (cs : Rest) : Option (Value × Rest) :=
  let (digits, rest) := cs.span Char.isDigit
  if !digits.isEmpty && (rest.head? = some ':' || rest.head? = some '-') then
    (dateTime? cs).map fun rest => (.dateTime, rest)
  else
    (word? (cs.takeWhile isWordChar)).map fun v => (v, cs.dropWhile isWordChar)

end MigrationLint.Toml
