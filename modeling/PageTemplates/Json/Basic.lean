import PageTemplates.Double

/-!
# JSON values

The fields of an object stand in the order in which they are written.  Integers and doubles are
kept apart.

* `Json.pretty`   a value on several lines, two spaces deeper at each level.
-/

namespace PageTemplates

inductive Json where
  | null
  | bool (b : Bool)
  | integer (n : Int)
  /-- a finite one -/
  | double (x : Float)
  | string (s : Text)
  | array (items : List Json)
  | object (fields : List (Text × Json))

namespace Json

def hexDigit (n : Nat) : Char := if n < 10 then Char.ofNat (48 + n) else Char.ofNat (87 + n)

/-- a character inside a quoted string -/
def escape (c : Char) : Text :=
  if c = '"' then ['\\', '"']
  else if c = '\\' then ['\\', '\\']
  else if c = '\n' then ['\\', 'n']
  else if c = '\r' then ['\\', 'r']
  else if c = '\t' then ['\\', 't']
  else if c = '\x08' then ['\\', 'b']
  else if c = '\x0c' then ['\\', 'f']
  else if c.toNat < 0x20 then
    ['\\', 'u', '0', '0', hexDigit (c.toNat / 16), hexDigit (c.toNat % 16)]
  else [c]

def quote (s : Text) : Text := '"' :: s.flatMap escape ++ ['"']

def newline (depth : Nat) : Text := '\n' :: List.replicate (2 * depth) ' '

mutual
/-- the value with its later lines at `depth` -/
def write (depth : Nat) : Json → Text
  | .null => "null".toList
  | .bool b => (if b then "true" else "false").toList
  | .integer n => (toString n).toList
  | .double x => (Double.shortest x).toText
  | .string s => quote s
  | .array [] => ['[', ']']
  | .array (item :: items) =>
    '[' :: newline (depth + 1) ++ write (depth + 1) item ++ writeItems (depth + 1) items
      ++ newline depth ++ [']']
  | .object [] => ['\x7b', '\x7d']
  | .object ((key, value) :: fields) =>
    '\x7b' :: newline (depth + 1) ++ quote key ++ ':' :: ' ' :: write (depth + 1) value
      ++ writeFields (depth + 1) fields ++ newline depth ++ ['\x7d']
def writeItems (depth : Nat) : List Json → Text
  | [] => []
  | item :: items => ',' :: newline depth ++ write depth item ++ writeItems depth items
def writeFields (depth : Nat) : List (Text × Json) → Text
  | [] => []
  | (key, value) :: fields =>
    ',' :: newline depth ++ quote key ++ ':' :: ' ' :: write depth value ++ writeFields depth fields
end

def pretty (j : Json) : Text := j.write 0

end Json

end PageTemplates
