import ResultSchema.Json.Basic
import ResultSchema.Decimal.Numeral

/-! # Reading JSON text

Integer literals from `-2 ^ 63` to `2 ^ 64 - 1` are integers, except negative zero; every
other number is a double. Text after the value must be blank.
-/

namespace ResultSchema.Json

def isSpace (c : Char) : Bool := c == ' ' || c == '\n' || c == '\t' || c == '\r'

def skipSpaces (s : List Char) : List Char := s.dropWhile isSpace

def hexValue? (c : Char) : Option Nat :=
  if '0' ≤ c ∧ c ≤ '9' then some (c.toNat - '0'.toNat)
  else if 'a' ≤ c ∧ c ≤ 'f' then some (c.toNat - 'a'.toNat + 10)
  else if 'A' ≤ c ∧ c ≤ 'F' then some (c.toNat - 'A'.toNat + 10)
  else none

def unit16? (a b c d : Char) : Option Nat := do
  let a ← hexValue? a
  let b ← hexValue? b
  let c ← hexValue? c
  let d ← hexValue? d
  pure (((a * 16 + b) * 16 + c) * 16 + d)

/-- The character an escaped letter stands for. -/
def unescape? : Char → Option Char
  | '"' => some '"'
  | '\\' => some '\\'
  | '/' => some '/'
  | 'b' => some '\x08'
  | 'f' => some '\x0c'
  | 'n' => some '\n'
  | 'r' => some '\r'
  | 't' => some '\t'
  | _ => none

def ofSurrogates (high low : Nat) : Char :=
  Char.ofNat (0x10000 + (high - 0xd800) * 0x400 + (low - 0xdc00))

/-- Reads a string after its opening quote; `seen` holds its characters in reverse. -/
def readString (seen : List Char) : List Char → Option (String × List Char)
  | '"' :: rest => some (String.ofList seen.reverse, rest)
  | '\\' :: 'u' :: a :: b :: c :: d :: '\\' :: 'u' :: e :: f :: g :: h :: rest => do
    let high ← unit16? a b c d
    if high < 0xd800 ∨ 0xdfff < high then
      readString (Char.ofNat high :: seen) ('\\' :: 'u' :: e :: f :: g :: h :: rest)
    else
      let low ← unit16? e f g h
      if high < 0xdc00 ∧ 0xdc00 ≤ low ∧ low ≤ 0xdfff then
        readString (ofSurrogates high low :: seen) rest
      else none
  | '\\' :: 'u' :: a :: b :: c :: d :: rest => do
    let n ← unit16? a b c d
    if n < 0xd800 ∨ 0xdfff < n then readString (Char.ofNat n :: seen) rest else none
  | '\\' :: c :: rest => do
    let c ← unescape? c
    readString (c :: seen) rest
  | c :: rest => if c.toNat < 0x20 then none else readString (c :: seen) rest
  | [] => none

def digitValues (s : List Char) : List Nat := (s.takeWhile Char.isDigit).map (·.toNat - '0'.toNat)

def afterDigits (s : List Char) : List Char := s.dropWhile Char.isDigit

def natOfDigits (digits : List Nat) : Nat := digits.foldl (fun n d => 10 * n + d) 0

/-- Digits after a point, if there is one; a point needs a digit after it. -/
def readFraction : List Char → Option (List Nat × List Char)
  | '.' :: s => match digitValues s with
    | [] => none
    | digits => some (digits, afterDigits s)
  | s => some ([], s)

def readExponent (s : List Char) : Option (Option Int × List Char) :=
  let digitsOf (sign : Int) (s : List Char) : Option (Option Int × List Char) :=
    match digitValues s with
    | [] => none
    | digits => some (some (sign * natOfDigits digits), afterDigits s)
  let signed : List Char → Option (Option Int × List Char)
    | '+' :: s => digitsOf 1 s
    | '-' :: s => digitsOf (-1) s
    | s => digitsOf 1 s
  match s with
  | 'e' :: s => signed s
  | 'E' :: s => signed s
  | s => some (none, s)

def ofIntegerLiteral (negative : Bool) (digits : List Nat) : Option Json :=
  let n := natOfDigits digits
  if negative then
    if 0 < n ∧ n ≤ Nat.pow 2 63 then some (.int (-n))
    else .double <$> Numeral.toDouble? ⟨true, digits, [], 0⟩
  else if n < UInt64.size then some (.int n)
  else .double <$> Numeral.toDouble? ⟨false, digits, [], 0⟩

def readNumber (s : List Char) : Option (Json × List Char) := do
  let (negative, s) := match s with
    | '-' :: s => (true, s)
    | s => (false, s)
  let whole := digitValues s
  match whole with
  | [] => none
  | 0 :: _ :: _ => none
  | _ => do
    let (fraction, s) ← readFraction (afterDigits s)
    let (exponent, rest) ← readExponent s
    let value ← match fraction, exponent with
      | [], none => ofIntegerLiteral negative whole
      | _, _ => .double <$> Numeral.toDouble? ⟨negative, whole, fraction, exponent.getD 0⟩
    pure (value, rest)

mutual

/-- Reads a value; `fuel` bounds the number of values and separators. -/
def readValue (fuel : Nat) (s : List Char) : Option (Json × List Char) :=
  match fuel with
  | 0 => none
  | fuel + 1 => match skipSpaces s with
    | 'n' :: 'u' :: 'l' :: 'l' :: s => some (.null, s)
    | 't' :: 'r' :: 'u' :: 'e' :: s => some (.bool true, s)
    | 'f' :: 'a' :: 'l' :: 's' :: 'e' :: s => some (.bool false, s)
    | '"' :: s => do
      let (text, s) ← readString [] s
      pure (.str text, s)
    | '[' :: s => match skipSpaces s with
      | ']' :: s => some (.arr [], s)
      | s => do
        let (items, s) ← readItems fuel s
        pure (.arr items, s)
    | '\x7b' :: s => match skipSpaces s with
      | '\x7d' :: s => some (.obj [], s)
      | s => do
        let (entries, s) ← readEntries fuel s
        pure (.obj entries, s)
    | s => readNumber s

def readItems (fuel : Nat) (s : List Char) : Option (List Json × List Char) :=
  match fuel with
  | 0 => none
  | fuel + 1 => do
    let (v, s) ← readValue fuel s
    match skipSpaces s with
    | ',' :: s => do
      let (items, s) ← readItems fuel s
      pure (v :: items, s)
    | ']' :: s => pure ([v], s)
    | _ => none

def readEntries (fuel : Nat) (s : List Char) : Option (List (String × Json) × List Char) :=
  match fuel with
  | 0 => none
  | fuel + 1 => match skipSpaces s with
    | '"' :: s => do
      let (key, s) ← readString [] s
      match skipSpaces s with
      | ':' :: s => do
        let (v, s) ← readValue fuel s
        match skipSpaces s with
        | ',' :: s => do
          let (entries, s) ← readEntries fuel s
          pure ((key, v) :: entries, s)
        | '\x7d' :: s => pure ([(key, v)], s)
        | _ => none
      | _ => none
    | _ => none

end

/-- The value of a JSON text. -/
def ofText? (text : String) : Option Json := do
  let s := text.toList
  let (v, rest) ← readValue (2 * s.length + 2) s
  if (skipSpaces rest).isEmpty then some v else none

end ResultSchema.Json
