import PageTemplates.Program

/-!
# Programs as JSON

The JSON form of a program and of its parts, fields in a fixed order.

* `Program.toJson`   the whole program;
* `Program.text`     that form on several lines.
-/

namespace PageTemplates

namespace Json

/-- an object with its fields in order -/
def record (fields : List (String × Json)) : Json :=
  .object (fields.map fun f => (f.1.toList, f.2))

def ofString (s : String) : Json := .string s.toList
def ofNat (n : Nat) : Json := .integer n

def ofOption {α : Type} (f : α → Json) : Option α → Json
  | none => .null
  | some a => f a

def ofList {α : Type} (f : α → Json) (l : List α) : Json := .array (l.map f)

end Json

open Json

/-! ## leaves -/

def Attributes.toJson (a : Attributes) : Json :=
  ofList (fun e => .array [.string e.1, .string e.2]) a.entries

def Location.toJson (l : Location) : Json := .string l.toText

def Expression.toJson (e : Expression) : Json := record [("path", ofList .string e.path)]

def Fragment.toJson : Fragment → Json
  | .text t => record [("type", ofString "text"), ("value", .string t)]
  | .expression e => record [("type", ofString "expression"), ("value", e.toJson)]

def Binding.toJson : Binding → Json
  | .text t => record [("type", ofString "text"), ("value", .string t)]
  | .template fs =>
    record [("type", ofString "template"), ("value", ofList Fragment.toJson fs)]
  | .expression e => record [("type", ofString "expression"), ("value", e.toJson)]

def Bindings.toJson (b : Bindings) : Json :=
  ofList (fun e => .array [.string e.1, e.2.toJson]) b.entries

def Link.toJson (l : Link) : Json :=
  record [("sheet", ofNat l.sheet), ("href", .string l.href),
    ("attributes", Attributes.toJson l.attributes)]

/-! ## trees -/

def Css.Node.blockToJson (type : String) (value : Json) : Json :=
  record [("type", ofString type), ("value", value)]

def Css.Node.atToJson (name prelude : Text) (block : Json) : Json :=
  record [("type", ofString "atRule"), ("name", .string name), ("prelude", .string prelude),
    ("block", block)]

mutual
def Css.Node.toJson : Css.Node → Json
  | .sheet rules => record [("type", ofString "styleSheet"), ("rules", .array (nodesToJson rules))]
  | .rule selector declarations =>
    record [("type", ofString "rule"), ("selector", .string selector),
      ("declarations", .string declarations)]
  | .statement name prelude => atToJson name prelude .null
  | .group name prelude rules =>
    atToJson name prelude (blockToJson "rules" (.array (nodesToJson rules)))
  | .block name prelude declarations =>
    atToJson name prelude (blockToJson "declarations" (.string declarations))
def Css.Node.nodesToJson : List Css.Node → List Json
  | [] => []
  | n :: ns => n.toJson :: nodesToJson ns
end

mutual
def OutputNode.toJson : OutputNode → Json
  | .text run =>
    record [("type", ofString "text"), ("text", .string run.text), ("markup", .bool run.verbatim)]
  | .expression e => record [("type", ofString "expression"), ("path", ofList .string e.path)]
  | .tag name binds children =>
    record [("type", ofString "tag"), ("name", .string name), ("binds", Bindings.toJson binds),
      ("children", .array (nodesToJson children))]
  | .custom target name binds captured =>
    record [("type", ofString "custom"), ("defn", ofNat target), ("name", .string name),
      ("binds", Bindings.toJson binds), ("captured", .array (nodesToJson captured))]
  | .cond condition children =>
    record [("type", ofString "cond"), ("condition", condition.toJson),
      ("children", .array (nodesToJson children))]
  | .repetition r children =>
    record [("type", ofString "repeat"), ("alias", .string r.item), ("each", r.each.toJson),
      ("children", .array (nodesToJson children))]
def OutputNode.nodesToJson : List OutputNode → List Json
  | [] => []
  | n :: ns => n.toJson :: nodesToJson ns
end

/-! ## the catalog -/

def Template.toJson (t : Template) : Json :=
  record [("id", ofNat t.id), ("location", t.location.toJson),
    ("used_from", ofList .string t.usedFrom), ("is_main", .bool t.isMain),
    ("tags", .object (t.tags.sorted.map fun e => (e.1, ofNat e.2))),
    ("imports", ofList ofNat t.imports), ("stylesheets", ofList ofNat t.sheets),
    ("inline_fonts", ofOption ofNat t.fontHost), ("component_styles", ofOption ofNat t.styleHost),
    ("test_data", ofOption Location.toJson t.testData), ("link_tags", ofList Link.toJson t.links),
    ("state", ofString t.status.name)]

def Sheet.toJson (s : Sheet) : Json :=
  record [("id", ofNat s.id), ("location", s.location.toJson),
    ("used_from", ofList .string s.usedFrom), ("ast", ofOption Css.Node.toJson s.ast),
    ("from_component", .bool s.fromComponent), ("imports", ofList ofNat s.imports),
    ("state", ofString s.status.name)]

def Component.toJson (c : Component) : Json :=
  record [("id", ofNat c.id), ("template", ofNat c.template), ("name", .string c.name),
    ("params", Attributes.toJson c.params), ("nodes", ofList OutputNode.toJson c.nodes),
    ("imports", ofList ofNat c.imports), ("link_tags", ofList Link.toJson c.links)]

def Entry.toJson (e : Entry) : Json :=
  record [("severity", ofString e.severity.name), ("file", ofOption .string e.file),
    ("message", ofString e.message)]

def Log.toJson (log : Log) : Json :=
  record [("entries", ofList Entry.toJson log.entries), ("num_errors", ofNat log.numErrors),
    ("num_warnings", ofNat log.numWarnings)]

namespace Program

def toJson (p : Program) : Json :=
  record [("main", ofOption ofNat p.main), ("templates", ofList Template.toJson p.templates),
    ("sheets", ofList Sheet.toJson p.sheets), ("defns", ofList Component.toJson p.components),
    ("diagnostics", p.log.toJson), ("test_data", p.testData.getD .null)]

def text (p : Program) : Text := p.toJson.pretty

end Program

end PageTemplates
