/-!
# Escaping for double-quoted shell text

Between double quotes a shell gives a meaning to four characters. `escape` puts a backslash before
each of them, and `unescape` takes such backslashes away again; every other backslash stands for
itself.
-/

namespace Stencil.Escape

/-- The characters with a meaning between double quotes: quote, dollar, backquote, backslash. -/
def isSpecial (c : Char) : Bool :=
  c == '\x22' || c == '$' || c == '\x60' || c == '\\'

/-- One character as it is written between double quotes. -/
def escapeChar (c : Char) : List Char :=
  if isSpecial c then ['\\', c] else [c]

/-- Writes a character list between double quotes. -/
def escapeChars (cs : List Char) : List Char :=
  cs.flatMap escapeChar

/-- Reads back what `escapeChars` writes. -/
def unescapeChars : List Char → List Char
  | [] => []
  | [c] => [c]
  | c :: d :: rest =>
    if c == '\\' then
      if isSpecial d then d :: unescapeChars rest else c :: d :: unescapeChars rest
    else c :: unescapeChars (d :: rest)

/-- Writes a text between double quotes. -/
def escape (s : String) : String :=
  String.ofList (escapeChars s.toList)

/-- Reads back what `escape` writes. -/
def unescape (s : String) : String :=
  String.ofList (unescapeChars s.toList)

end Stencil.Escape
