import RadixRouter.Text.Shown

/-!
Text in double quotes, with escapes for what would end the quotes early or would not be seen.
-/

namespace RadixRouter.Quoted

/-- The escape of a character by its number. -/
def numbered (c : Char) : Text :=
  '\\' :: 'u' :: '\x7b' :: Nat.toDigits 16 c.toNat ++ ['\x7d']

def encodeChar (c : Char) : Text :=
  if c = '\x00' then ['\\', '0']
  else if c = '\t' then ['\\', 't']
  else if c = '\r' then ['\\', 'r']
  else if c = '\n' then ['\\', 'n']
  else if c = '"' then ['\\', '"']
  else if c = '\\' then ['\\', '\\']
  else if Shown.isShown c then [c]
  else numbered c

def encode (text : Text) : Text :=
  '"' :: text.flatMap encodeChar ++ ['"']

end RadixRouter.Quoted
