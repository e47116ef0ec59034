import Kayles.Lib.Double

set_option autoImplicit false

/-! # Standard conversions

`std::stoi`, `std::stoul` and `strtol` in base 10, where `int` has 32 bits and the others 64, and
`strtod` in the "C" locale. All convert the numeral that a text begins with; the first two ignore what
follows it, the others return it. -/

namespace Kayles

/-- What the conversions throw. -/
inductive ConversionError where
  | invalidArgument
  | outOfRange
  deriving DecidableEq, Repr

/-- Bounds of the integer types. -/
abbrev intMin : Int := -2147483648
abbrev intMax : Int := 2147483647
abbrev ulongMax : ℕ := 18446744073709551615

/-- `isspace` in the "C" locale. -/
def isSpace (c : Char) : Bool := c == ' ' || ('\t' ≤ c && c ≤ '\r')

/-- The sign and what follows it. -/
def scanSign : List Char → Bool × List Char
  | '-' :: rest => (true, rest)
  | '+' :: rest => (false, rest)
  | rest => (false, rest)

/-- The sign and the magnitude of the numeral: blanks, an optional sign and the longest run of
    digits. -/
def scanInteger (str : List Char) : Option (Bool × ℕ) :=
  let (negative, rest) := scanSign (str.dropWhile isSpace)
  let digits := rest.takeWhile Char.isDigit
  if digits = [] then none else some (negative, Nat.ofDigitChars 10 digits 0)

/-- `std::stoi`: the value of the numeral, if it is an `int`. -/
def stoi (str : List Char) : Except ConversionError Int :=
  match scanInteger str with
  | none => .error .invalidArgument
  | some (negative, magnitude) =>
    let value : Int := if negative then -magnitude else magnitude
    if intMin ≤ value ∧ value ≤ intMax then .ok value else .error .outOfRange

/-- The sign of the numeral negates the value modulo 2^64. -/
def stoul (str : List Char) : Except ConversionError UInt64 :=
  match scanInteger str with
  | none => .error .invalidArgument
  | some (negative, magnitude) =>
    if magnitude ≤ ulongMax then
      .ok (if negative then 0 - UInt64.ofNat magnitude else UInt64.ofNat magnitude)
    else .error .outOfRange

/-! ## `strtol` -/

/-- Bounds of `long`. -/
abbrev longMin : Int := -9223372036854775808
abbrev longMax : Int := 9223372036854775807

/-- The value, clamped to the range of a `long`, and the text from `endptr` on, which is the whole
    text if it does not begin with a numeral. -/
def strtol (str : List Char) : Int × List Char :=
  let (negative, rest) := scanSign (str.dropWhile isSpace)
  let digits := rest.takeWhile Char.isDigit
  if digits = [] then (0, str)
  else
    let magnitude : Int := Nat.ofDigitChars 10 digits 0
    let value := if negative then -magnitude else magnitude
    (max longMin (min value longMax), rest.dropWhile Char.isDigit)

/-! ## `strtod` -/

/-- What follows a word, whatever the case of its letters. -/
def dropWord (word str : List Char) : Option (List Char) :=
  if (str.take word.length).map Char.toLower = word then some (str.drop word.length) else none

/-- What follows the optional characters in brackets behind a NaN. -/
def dropNanChars (str : List Char) : List Char :=
  match str with
  | '(' :: chars =>
    match chars.dropWhile fun c => c.isAlphanum || c == '_' with
    | ')' :: rest => rest
    | _ => str
  | _ => str

/-- The digits before and behind the point. -/
def scanDigits (isDigit : Char → Bool) (str : List Char) : List Char × List Char × List Char :=
  let whole := str.takeWhile isDigit
  match str.dropWhile isDigit with
  | '.' :: rest => (whole, rest.takeWhile isDigit, rest.dropWhile isDigit)
  | rest => (whole, [], rest)

/-- The exponent behind its letter. A letter without digits is not part of the numeral. -/
def scanExponent (letter : Char) (str : List Char) : Int × List Char :=
  match str with
  | c :: exponent =>
    let (negative, rest) := scanSign exponent
    let digits := rest.takeWhile Char.isDigit
    if c.toLower = letter ∧ digits ≠ [] then
      let magnitude : Int := Nat.ofDigitChars 10 digits 0
      (if negative then -magnitude else magnitude, rest.dropWhile Char.isDigit)
    else (0, str)
  | [] => (0, [])

/-- A hexadecimal digit, in either case. -/
def isXDigit (c : Char) : Bool := c.isDigit || ('a' ≤ c.toLower && c.toLower ≤ 'f')

/-- The value of a decimal or hexadecimal digit. -/
def digitValue (c : Char) : ℕ :=
  if c.isDigit then c.toNat - '0'.toNat else c.toLower.toNat - 'a'.toNat + 10

/-- Digits in `base`, scaled by an exponent to the base `radix`. -/
def scanNumber (isDigit : Char → Bool) (base : ℕ) (letter : Char) (radix : ℕ) (str : List Char) :
    Option (Double × List Char) :=
  let (whole, fraction, rest) := scanDigits isDigit str
  if whole = [] ∧ fraction = [] then none
  else
    let (exponent, rest) := scanExponent letter rest
    let significand := (whole ++ fraction).foldl (fun n c => n * base + digitValue c) 0
    some (.round (significand / base ^ fraction.length * (radix : ℚ) ^ exponent), rest)

/-- What follows the sign: an infinity, NaN, a hexadecimal or a decimal number. -/
def scanDouble (str : List Char) : Option (Double × List Char) :=
  (dropWord ['i', 'n', 'f', 'i', 'n', 'i', 't', 'y'] str).map (.infinity false, ·) <|>
  (dropWord ['i', 'n', 'f'] str).map (.infinity false, ·) <|>
  (dropWord ['n', 'a', 'n'] str).map (.nan, dropNanChars ·) <|>
  (dropWord ['0', 'x'] str).bind (scanNumber isXDigit 16 'p' 2) <|>
  scanNumber Char.isDigit 10 'e' 10 str

/-- The value and the text from `endptr` on, which is the whole text if nothing is converted. -/
def strtod (str : List Char) : Double × List Char :=
  let (negative, rest) := scanSign (str.dropWhile isSpace)
  match scanDouble rest with
  | none => (.finite 0, str)
  | some (magnitude, rest) => (if negative then magnitude.neg else magnitude, rest)

end Kayles
