import ResourcePool.Text.Printable

/-!
Quoted text: a string between double quotes, with every character that would not show as itself
escaped. An apostrophe stands for itself.
-/

namespace ResourcePool.Text

/-- A character by its code point, in lower-case hexadecimal without padding. -/
def codePoint (c : Char) : List Char :=
  ['\\', 'u', '\x7b'] ++ Nat.toDigits 16 c.toNat ++ ['\x7d']

/-- The written form of one character inside the quotes. -/
def escapeChar (c : Char) : List Char :=
  if c = '\x00' then ['\\', '0']
  else if c = '\t' then ['\\', 't']
  else if c = '\r' then ['\\', 'r']
  else if c = '\n' then ['\\', 'n']
  else if c = '\\' then ['\\', '\\']
  else if c = '"' then ['\\', '"']
  else if isPrintable c then [c]
  else codePoint c

def escape (cs : List Char) : List Char :=
  cs.flatMap escapeChar

def quoted (s : String) : String :=
  String.ofList ('"' :: escape s.toList ++ ['"'])

@[simp] theorem escape_nil : escape [] = [] := rfl

@[simp] theorem escape_cons (c : Char) (cs : List Char) :
    escape (c :: cs) = escapeChar c ++ escape cs := rfl

@[simp] theorem escape_append (cs ds : List Char) :
    escape (cs ++ ds) = escape cs ++ escape ds := by
  simp [escape]

end ResourcePool.Text
