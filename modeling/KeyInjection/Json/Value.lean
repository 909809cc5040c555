-- SUMMARY: JSON values, and the last value of a member.
import KeyInjection.Number.Shortest

/-!
# JSON values

A value as it was read: objects keep their members in order, repeated ones included. Looking a
member up gives its last value, so what an object means is the map from names to last values.
-/

namespace KeyInjection

/-- A JSON number: an integer of at most 64 bits, or a 64-bit binary value with a sign. -/
inductive JsonNumber where
  | integer (n : Int)
  | real (negative : Bool) (magnitude : Number.Magnitude)
  deriving DecidableEq, Repr

inductive Json where
  | null
  | bool (b : Bool)
  | number (n : JsonNumber)
  | string (s : String)
  | array (items : List Json)
  | object (members : List (String × Json))
  deriving Repr

namespace Json

/-- The last value of a member. -/
def lastMember? (members : List (String × Json)) (name : String) : Option Json :=
  members.reverse.lookup name

/-- What a value is, for a reader that wanted something else. -/
def description : Json → String
  | null => "null"
  | bool b => s!"boolean `{b}`"
  | number (.integer n) => s!"integer `{n}`"
  | number (.real negative m) => "floating point `" ++ Number.doubleText negative m ++ "`"
  | string s => s!"string {s}"
  | array _ => "sequence"
  | object _ => "map"

end Json

end KeyInjection
