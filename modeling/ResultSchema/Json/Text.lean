import ResultSchema.Json.Basic
import ResultSchema.Decimal.Layout

/-! # Compact JSON text

No spaces; quotes, backslashes and control characters are escaped and nothing else. An
excerpt is cut to a number of bytes at a character boundary.
-/

namespace ResultSchema.Json

def escape (c : Char) : List Char :=
  match c with
  | '"' => ['\\', '"']
  | '\\' => ['\\', '\\']
  | '\n' => ['\\', 'n']
  | '\r' => ['\\', 'r']
  | '\t' => ['\\', 't']
  | '\x08' => ['\\', 'b']
  | '\x0c' => ['\\', 'f']
  | c =>
    if c.toNat < 0x20 then
      ['\\', 'u', '0', '0', Nat.digitChar (c.toNat / 16), Nat.digitChar (c.toNat % 16)]
    else [c]

def quote (s : String) : String := String.ofList ('"' :: s.toList.flatMap escape ++ ['"'])

mutual

def compact : Json → String
  | .null => "null"
  | .bool b => toString b
  | .int n => toString n
  | .double x => Layout.json.text x
  | .str s => quote s
  | .arr items => "[" ++ String.intercalate "," (compactItems items) ++ "]"
  | .obj entries => "\x7b" ++ String.intercalate "," (compactEntries entries) ++ "\x7d"
termination_by structural v => v

def compactItems : List Json → List String
  | [] => []
  | v :: rest => compact v :: compactItems rest
termination_by structural items => items

def compactEntries : List (String × Json) → List String
  | [] => []
  | e :: rest => compactEntry e :: compactEntries rest
termination_by structural entries => entries

def compactEntry : String × Json → String
  | (key, v) => quote key ++ ":" ++ compact v
termination_by structural e => e

end

/-- The longest front of the characters that takes at most that many bytes. -/
def takeBytes : Nat → List Char → List Char
  | _, [] => []
  | bytes, c :: rest => if c.utf8Size ≤ bytes then c :: takeBytes (bytes - c.utf8Size) rest else []

/-- The text, or its front of at most that many bytes followed by dots. -/
def clip (bytes : Nat) (text : String) : String :=
  if text.utf8ByteSize ≤ bytes then text
  else String.ofList (takeBytes bytes text.toList) ++ "..."

def excerpt (v : Json) : String := clip 80 v.compact

end ResultSchema.Json
