import PageTemplates.Decimal

/-!
# TOML documents

The tree that a document builds up.  A table remembers how it came about, because that decides
what may still be added to it: `[a.b]` makes `b` and passes through `a`; a dotted key makes the
tables on its way, also those that have only been passed through so far; and an inline table is
closed.

* `Entries.addValue?`    a key with its value;
* `Entries.openTable?`   a `[header]`;
* `Entries.openItem?`    a `[[header]]`;
* `Value.inRange`        whether every number in a value can be represented.
-/

namespace PageTemplates.Toml

/-- a number of any size -/
inductive Number where
  | integer (n : Int)
  | decimal (d : Decimal)
  /-- an infinity, or what is no number -/
  | special
deriving DecidableEq

/-- integers have at most 128 bits, the sign included if there is one; decimals are doubles -/
def Number.inRange : Number → Bool
  | .integer (.ofNat n) => n < Nat.pow 2 128
  | .integer (.negSucc n) => n < Nat.pow 2 127
  | .decimal d => d.inDoubleRange
  | .special => true

/-- a value; the texts of dates are kept as they are written -/
inductive Value where
  | string (t : Text)
  | boolean (b : Bool)
  | number (n : Number)
  | date (literal : Text)
  | array (items : List Value)
  | table (fields : List (Text × Value))

mutual
def Value.inRange : Value → Bool
  | .number n => n.inRange
  | .array items => itemsInRange items
  | .table fields => fieldsInRange fields
  | .string _ | .boolean _ | .date _ => true
def itemsInRange : List Value → Bool
  | [] => true
  | v :: vs => v.inRange && itemsInRange vs
def fieldsInRange : List (Text × Value) → Bool
  | [] => true
  | (_, v) :: fields => v.inRange && fieldsInRange fields
end

/-- how a table came about -/
inductive Origin where
  /-- passed through by the header of another table -/
  | implied
  /-- by a header of its own -/
  | header
  /-- by a dotted key -/
  | dotted
deriving DecidableEq

inductive Item where
  | value (v : Value)
  | table (origin : Origin) (fields : List (Text × Item))
  /-- a table per header, the last one first -/
  | tables (items : List (List (Text × Item)))

abbrev Entries := List (Text × Item)

namespace Entries

def get? (es : Entries) (key : Text) : Option Item := es.lookup key

def put (key : Text) (item : Item) : Entries → Entries
  | [] => [(key, item)]
  | (k, i) :: es => if k = key then (key, item) :: es else (k, i) :: put key item es

/-- the entries with a value under a dotted key; the last of several tables may be passed through,
but the value itself does not go into it -/
def addValue? : (path : List Text) → Value → Entries → Option Entries
  | [], _, _ => none
  | [key], v, es =>
    match get? es key with
    | none => some (put key (.value v) es)
    | some _ => none
  | key :: path, v, es =>
    match get? es key with
    | none => (addValue? path v []).map fun below => put key (.table .dotted below) es
    | some (.table origin fields) =>
      if origin = .header then none
      else (addValue? path v fields).map fun below => put key (.table .dotted below) es
    | some (.tables (last :: others)) =>
      if path.length = 1 then none
      else (addValue? path v last).map fun below => put key (.tables (below :: others)) es
    | some _ => none

/-- the entries with the table `path` changed by `f`; tables on the way are passed through -/
def descend? (f : Text → Entries → Option Entries) : (path : List Text) → Entries → Option Entries
  | [], _ => none
  | [key], es => f key es
  | key :: path, es =>
    match get? es key with
    | none => (descend? f path []).map fun below => put key (.table .implied below) es
    | some (.table origin fields) =>
      (descend? f path fields).map fun below => put key (.table origin below) es
    | some (.tables (last :: others)) =>
      (descend? f path last).map fun below => put key (.tables (below :: others)) es
    | some _ => none

/-- the entries with a new table, or with one that has only been passed through so far -/
def openTable? (path : List Text) (es : Entries) : Option Entries :=
  descend? (fun key es =>
    match get? es key with
    | none => some (put key (.table .header []) es)
    | some (.table .implied fields) => some (put key (.table .header fields) es)
    | some _ => none) path es

/-- the entries with one more table in an array of tables -/
def openItem? (path : List Text) (es : Entries) : Option Entries :=
  descend? (fun key es =>
    match get? es key with
    | none => some (put key (.tables [[]]) es)
    | some (.tables items) => some (put key (.tables ([] :: items)) es)
    | some _ => none) path es

/-- the entries with a value under a dotted key of the table `header` -/
def addValueIn? (header path : List Text) (v : Value) (es : Entries) : Option Entries :=
  if header.isEmpty then addValue? path v es
  else
    descend? (fun key es =>
      match get? es key with
      | some (.table origin fields) =>
        (addValue? path v fields).map fun below => put key (.table origin below) es
      | some (.tables (last :: others)) =>
        (addValue? path v last).map fun below => put key (.tables (below :: others)) es
      | _ => none) header es

end Entries

mutual
def Item.toValue : Item → Value
  | .value v => v
  | .table _ fields => .table (fieldValues fields)
  | .tables items => .array (tableValues items).reverse
def fieldValues : List (Text × Item) → List (Text × Value)
  | [] => []
  | (key, item) :: fields => (key, item.toValue) :: fieldValues fields
def tableValues : List (List (Text × Item)) → List Value
  | [] => []
  | fields :: items => .table (fieldValues fields) :: tableValues items
end

end PageTemplates.Toml
