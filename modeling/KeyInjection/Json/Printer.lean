-- SUMMARY: Writing JSON objects whose members are strings.
import KeyInjection.Text.Hex

/-!
# Writing JSON text

The only JSON that the library sends are objects of strings. They are written without blanks,
members in the given order. Within a string the quote, the backslash and the control characters
are escaped, by letter where there is one, and nothing else.
-/

namespace KeyInjection.Json

def writeChar (c : Char) : List Char :=
  match c with
  | '"' => ['\\', '"']
  | '\\' => ['\\', '\\']
  | '\x08' => ['\\', 'b']
  | '\x0c' => ['\\', 'f']
  | '\n' => ['\\', 'n']
  | '\r' => ['\\', 'r']
  | '\t' => ['\\', 't']
  | c =>
    if c.toNat < 0x20 then
      ['\\', 'u', '0', '0', Hex.digit (c.toNat / 16), Hex.digit (c.toNat % 16)]
    else [c]

def writeString (s : String) : List Char := '"' :: (s.toList.flatMap writeChar ++ ['"'])

def writeMembers : List (String × String) → List Char
  | [] => []
  | [(name, value)] => writeString name ++ ':' :: writeString value
  | (name, value) :: rest =>
    writeString name ++ ':' :: (writeString value ++ ',' :: writeMembers rest)

/-- The text of an object whose members are strings. -/
def objectText (members : List (String × String)) : String :=
  String.ofList ('{' :: (writeMembers members ++ ['}']))

end KeyInjection.Json
