import Adventure.Text.Hidden

/-!
# Quoted texts in messages

A message quotes a text so that every character of it can be told: quotes and backslashes get a
backslash, line breaks and tabs their letter, and characters that would not show are spelled out by
number.
-/

namespace Adventure

/-- A character by number. -/
def spelledOut (c : Char) : List Char :=
  '\\' :: 'u' :: '\x7b' :: (Nat.toDigits 16 c.toNat ++ ['\x7d'])

/-- A character as it stands inside a quoted text. -/
def quotedChar (c : Char) : List Char :=
  if c = '"' then ['\\', '"']
  else if c = '\\' then ['\\', '\\']
  else if c = '\n' then ['\\', 'n']
  else if c = '\r' then ['\\', 'r']
  else if c = '\t' then ['\\', 't']
  else if c.toNat = 0 then ['\\', '0']
  else if c.toNat < 32 || c.toNat = 127 then spelledOut c
  else if c.toNat < 127 then [c]
  else if isHidden c then spelledOut c
  else [c]

/-- A text in quotes. -/
def quote (s : String) : String := String.ofList ('"' :: s.toList.flatMap quotedChar ++ ['"'])

end Adventure
