import ArenaAlloc.Text.Shapeless

/-!
# Quoted text

Text between double quotes, as it appears inside the record of an error. A quote and a backslash
are written after a backslash, the four controls that have a letter of their own by that letter, and
any other character without a shape of its own by its number in hexadecimal between braces.
-/

namespace ArenaAlloc

namespace Text

/-- The hexadecimal digits of `n`, lower case and without leading zeros. -/
def hex (n : Nat) : String := String.ofList (Nat.toDigits 16 n)

def quotedChar (c : Char) : String :=
  match c with
  | '"' => "\\\""
  | '\\' => "\\\\"
  | '\n' => "\\n"
  | '\r' => "\\r"
  | '\t' => "\\t"
  | '\x00' => "\\0"
  | c => if isShown c then c.toString else "\\u\x7b" ++ hex c.toNat ++ "\x7d"

def quoted (s : String) : String :=
  "\"" ++ String.join (s.toList.map quotedChar) ++ "\""

end Text

end ArenaAlloc
