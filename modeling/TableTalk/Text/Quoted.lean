import TableTalk.Text.Printable
/-!
# Quoted text

`quoted s` shows a text between double quotes so that every character can be told apart: a quote
and a backslash are escaped, the usual control characters have their letters, and any character
that has no shape of its own stands as its code point in hexadecimal digits.
-/

namespace TableTalk.Text

/-- The hexadecimal digits of `n`, lower case, without leading zeros. -/
def hexDigits (n : Nat) : String := String.ofList (Nat.toDigits 16 n)

/-- `\u{…}` with the code point in hexadecimal digits. -/
def codePoint (c : Char) : String := "\\u\x7b" ++ hexDigits c.toNat ++ "\x7d"

def quotedChar (c : Char) : String :=
  if c == '\x00' then "\\0"
  else if c == '\t' then "\\t"
  else if c == '\n' then "\\n"
  else if c == '\r' then "\\r"
  else if c == '"' then "\\\""
  else if c == '\\' then "\\\\"
  else if c.toNat < 0x20 || c.toNat == 0x7F then codePoint c
  else if c.toNat < 0x7F then c.toString
  else if hidden c then codePoint c
  else c.toString

def quoted (s : String) : String :=
  "\"" ++ String.join (s.toList.map quotedChar) ++ "\""

end TableTalk.Text
