/-!
# TOML basic strings

Texts are written as basic strings. The only escapes used are the one for the quote and the
four-digit form, which no shell's `echo` expands.
-/

namespace Stencil.Toml

/-- The last `width` hexadecimal digits of a number, in upper case. -/
def upperHex : Nat → Nat → List Char
  | 0, _ => []
  | width + 1, n => upperHex width (n / 16) ++ [(Nat.digitChar (n % 16)).toUpper]

/-- One character of a basic string. -/
def quoteChar (c : Char) : List Char :=
  if c == '\x22' then ['\\', '\x22']
  else if c == '\\' || c.toNat < 0x20 || c.toNat == 0x7F then ['\\', 'u'] ++ upperHex 4 c.toNat
  else [c]

/-- A character list as a basic string. -/
def quoteChars (cs : List Char) : List Char :=
  ['\x22'] ++ cs.flatMap quoteChar ++ ['\x22']

/-- A text as a basic string. -/
def quote (s : String) : String :=
  String.ofList (quoteChars s.toList)

end Stencil.Toml
