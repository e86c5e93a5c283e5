import BeanDispatch.Text.Invisible

/-! Strings in quotes, as the inspection of a value shows them. Quotes and backslashes are escaped,
as are NUL, tab and the two line ends by name and every other invisible character by its code point
in braces; all else stands for itself. -/

namespace BeanDispatch.Text

def quotedChar (c : Char) : String :=
  if c = '\x00' then "\\0"
  else if c = '\t' then "\\t"
  else if c = '\r' then "\\r"
  else if c = '\n' then "\\n"
  else if c = '"' then "\\\""
  else if c = '\\' then "\\\\"
  else if isInvisible c then
    "\\u\x7b" ++ String.ofList (Nat.toDigits 16 c.toNat) ++ "\x7d"
  else String.singleton c

def quoted (s : String) : String := "\"" ++ String.join (s.toList.map quotedChar) ++ "\""

end BeanDispatch.Text
