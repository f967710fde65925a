import PageTemplates.Path
import PageTemplates.Toml.Reader

/-!
# Configuration

The settings of a project: where rooted stylesheet urls lead, and whether lints are reported.
They come from a TOML document with an optional `site_root` and an optional table `lint`.  Unknown
keys are ignored, but the numbers in their values have to be in range.
-/

namespace PageTemplates

structure Config where
  siteRoot : Option Text
  lints : Bool
deriving DecidableEq

/-- the settings of one compilation; the site root may still hold `.` and `..` -/
structure Options where
  siteRoot : Text
  lints : Bool
deriving DecidableEq

namespace Config

def siteRoot? (fields : List (Text × Toml.Value)) : Option (Option Text) :=
  match fields.lookup "site_root".toList with
  | none => some none
  | some (.string t) => some (some t)
  | some _ => none

/-- the value of `enabled`; lints are reported unless it says otherwise -/
def enabled? : Option Toml.Value → Option Bool
  | none => some true
  | some (.boolean b) => some b
  | some _ => none

/-- the lint settings: a table, or their values in an array, where nothing behind them is looked
at; a date has no settings in it -/
def lints? (fields : List (Text × Toml.Value)) : Option Bool :=
  match fields.lookup "lint".toList with
  | none => some true
  | some (.table settings) =>
    if Toml.fieldsInRange settings then enabled? (settings.lookup "enabled".toList) else none
  | some (.array values) => enabled? values.head?
  | some (.date _) => some true
  | some _ => none

/-- the settings that a document holds -/
def read? (source : Text) : Option Config := do
  let fields ← Toml.read? source
  let siteRoot ← siteRoot? fields
  let lints ← lints? fields
  if Toml.fieldsInRange (fields.filter (·.1 != "lint".toList)) then some ⟨siteRoot, lints⟩
  else none

/-- where the file is looked for below the root of a project, the first one first -/
def candidates : List Text :=
  ["stencil.toml", ".stencil.toml", ".config/stencil.toml"].map String.toList

end Config

namespace Options

/-- a path as seen from a directory, both as they are spelled -/
def joinSpelling (base s : Text) : Text :=
  if s.head? = some '/' then s
  else if base.isEmpty then s
  else if base.getLast? = some '/' then base ++ s
  else base ++ '/' :: s

/-- the settings of the project at `root` -/
def ofConfig (root : Text) : Option Config → Options
  | none => ⟨root, true⟩
  | some c => ⟨c.siteRoot.elim root (joinSpelling root), c.lints⟩

end Options

end PageTemplates
