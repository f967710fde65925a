import PageTemplates.Placeholder
import PageTemplates.NameMap

/-!
# Attribute values

An attribute value is a bare expression (`{x.y}`, which keeps its native value), a text with
placeholders, or plain text.

* `Binding.ofText`      the reading of a value;
* `Condition.ofText`    the value of an `if` attribute, braces optional;
* `Repetition.ofText`   the value of a `repeat` attribute, `alias in expression`.
-/

namespace PageTemplates

def isBrace (c : Char) : Bool := c == '{' || c == '}'

/-- the inside of a text that starts with `{` and ends with `}` -/
def unbrace? : Text → Option Text
  | '{' :: s => if s.getLast? = some '}' then some s.dropLast else none
  | _ => none

inductive Binding where
  | text (t : Text)
  | template (fs : List Fragment)
  | expression (e : Expression)
deriving DecidableEq

namespace Binding

/-- the inside of a value that is one pair of braces around a brace-free text that is not blank -/
def bare? (value : Text) : Option Text :=
  (unbrace? value).filter fun inner => !inner.any isBrace && !Text.isBlank inner

/-- fragments that are all literal come to plain text -/
def ofFragments (fs : List Fragment) : Binding :=
  match fs.mapM Fragment.text? with
  | some ts => .text ts.flatten
  | none => .template fs

def ofText (value : Text) : Binding :=
  match bare? value with
  | some inner => .expression (.ofText inner)
  | none => if value.any isBrace then ofFragments (Placeholder.fragments value) else .text value

end Binding

/-- the bindings of an element, in order -/
abbrev Bindings := NameMap Binding

/-! ## directives -/

inductive DirectiveError where
  | invalidRepeat (value : Text)
  | emptyCondition
deriving DecidableEq

def DirectiveError.message : DirectiveError → String
  | .invalidRepeat value => s!"invalid repeat `{str value}`: expected `alias in expression`"
  | .emptyCondition => "the `if` directive needs an expression"

/-- the name that each item is bound to, and the list of items -/
structure Repetition where
  item : Text
  each : Expression
deriving DecidableEq

def Repetition.ofText (value : Text) : Except DirectiveError Repetition :=
  let keyword := " in ".toList
  match Text.find? keyword value with
  | none => .error (.invalidRepeat value)
  | some i =>
    let rest := value.drop (i + keyword.length)
    let item := Text.trim (value.take i)
    let each := Text.trim rest
    if (Text.find? keyword rest).isSome || item.isEmpty || each.isEmpty then
      .error (.invalidRepeat value)
    else .ok ⟨item, .ofText ((unbrace? each).getD each)⟩

def Condition.ofText (value : Text) : Except DirectiveError Expression :=
  let trimmed := Text.trim value
  let inner := (unbrace? trimmed).getD trimmed
  if Text.isBlank inner then .error .emptyCondition else .ok (.ofText inner)

end PageTemplates
