import PageTemplates.Text.Basic

/-!
# Ordered maps from names

`NameMap α` keeps its entries in the order in which they were inserted; the first entry of a name
wins, and no name occurs twice (`NameMap.nodup`).

* `NameMap.insert`    adds an entry unless the name is taken;
* `NameMap.get?`      the value of a name;
* `NameMap.without`   the entries whose names are not among some names;
* `NameMap.sorted`    the entries in the order of their names.
-/

namespace PageTemplates

structure NameMap (α : Type) where
  entries : List (Text × α)
  nodup : (entries.map Prod.fst).Nodup
deriving DecidableEq

namespace NameMap
variable {α : Type}

def empty : NameMap α := ⟨[], List.nodup_nil⟩

instance : EmptyCollection (NameMap α) := ⟨empty⟩
instance : Inhabited (NameMap α) := ⟨empty⟩

def names (m : NameMap α) : List Text := m.entries.map Prod.fst

def contains (m : NameMap α) (name : Text) : Bool := m.names.contains name

def get? (m : NameMap α) (name : Text) : Option α :=
  (m.entries.find? (·.1 == name)).map Prod.snd

def size (m : NameMap α) : Nat := m.entries.length

def isEmpty (m : NameMap α) : Bool := m.entries.isEmpty

theorem nodup_names_append {l : List (Text × α)} {name : Text} {a : α}
    (h : (l.map Prod.fst).Nodup) (hn : name ∉ l.map Prod.fst) :
    ((l ++ [(name, a)]).map Prod.fst).Nodup := by
  rw [List.map_append, List.nodup_append]
  refine ⟨h, by simp, ?_⟩
  intro x hx y hy hxy
  simp only [List.map_cons, List.map_nil, List.mem_singleton] at hy
  exact hn (hy ▸ hxy ▸ hx)

/-- a new entry at the end, unless the name is taken -/
def insert (m : NameMap α) (name : Text) (a : α) : NameMap α :=
  if h : name ∈ m.entries.map Prod.fst then m
  else ⟨m.entries ++ [(name, a)], nodup_names_append m.nodup h⟩

/-- the entries whose names are not among `gone` -/
def without (m : NameMap α) (gone : List Text) : NameMap α :=
  ⟨m.entries.filter (fun e => !gone.contains e.1),
    m.nodup.sublist (List.filter_sublist.map Prod.fst)⟩

/-- the entries of a list, the first of each name -/
def ofList (l : List (Text × α)) : NameMap α := l.foldl (fun m e => m.insert e.1 e.2) empty

/-- the entries in the order of their names -/
def sorted (m : NameMap α) : List (Text × α) := m.entries.mergeSort fun a b => Text.le a.1 b.1

/-! ## what an insertion changes -/

theorem contains_iff {m : NameMap α} {name : Text} : m.contains name ↔ name ∈ m.names := by
  simp [contains]

theorem insert_of_mem {m : NameMap α} {name : Text} {a : α} (h : name ∈ m.names) :
    m.insert name a = m := dif_pos h

theorem entries_insert_of_not_mem {m : NameMap α} {name : Text} {a : α} (h : name ∉ m.names) :
    (m.insert name a).entries = m.entries ++ [(name, a)] := by
  have h1 : name ∉ m.entries.map Prod.fst := h
  rw [insert, dif_neg h1]

@[simp] theorem entries_empty : (empty : NameMap α).entries = [] := rfl

@[simp] theorem get?_empty (name : Text) : (empty : NameMap α).get? name = none := rfl

@[simp] theorem entries_without (m : NameMap α) (gone : List Text) :
    (m.without gone).entries = m.entries.filter (fun e => !gone.contains e.1) := rfl

end NameMap

end PageTemplates
