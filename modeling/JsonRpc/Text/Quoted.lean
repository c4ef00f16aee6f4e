import JsonRpc.Text.Numeral
import JsonRpc.Text.Printable

/-!
Texts in double quotes, as messages show them: a quote and a backslash behind a backslash, four
controls by a letter, and every other character that does not print by its code point in braces.
-/

namespace JsonRpc.Text

def quotedChar (c : Char) : List Char :=
  if c = '"' then ['\\', '"']
  else if c = '\\' then ['\\', '\\']
  else if c = '\x00' then ['\\', '0']
  else if c = '\t' then ['\\', 't']
  else if c = '\n' then ['\\', 'n']
  else if c = '\r' then ['\\', 'r']
  else if isPrintable c then [c]
  else ['\\', 'u', '\x7b'] ++ digits 16 c.toNat ++ ['\x7d']

def quoted (s : String) : String :=
  String.ofList ('"' :: s.toList.flatMap quotedChar ++ ['"'])

end JsonRpc.Text
