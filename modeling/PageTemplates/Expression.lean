import PageTemplates.Text.Blank

/-!
# Dotted paths

An expression is a lookup such as `user.name`: a list of trimmed segments.
-/

namespace PageTemplates

structure Expression where
  path : List Text
deriving DecidableEq

namespace Expression

def ofText (source : Text) : Expression := ⟨((Text.trim source).splitOn '.').map Text.trim⟩

/-- the segments with dots between them -/
def dotted (e : Expression) : Text := Text.joinWith ['.'] e.path

/-- the dotted path in braces -/
def braced (e : Expression) : Text := '{' :: e.dotted ++ ['}']

end Expression

end PageTemplates
