import PageTemplates.Text.Basic

/-!
# Urls

* `hasScheme`      a url such as `https:...` or `data:...`; a single letter before the colon is
                   no scheme;
* `withoutQuery`   a url up to its query or fragment;
* `split`          the origin of a url and its path;
* `join`           a reference as seen from a url; `..` never leaves the origin.
-/

namespace PageTemplates.Url

def isColon (c : Char) : Bool := c == ':'
def isSlash (c : Char) : Bool := c == '/'

/-- where a query or a fragment starts -/
def isQuery (c : Char) : Bool := c == '?' || c == '#'

def schemeChar (c : Char) : Bool := c.isAlphanum || c == '+' || c == '-' || c == '.'

def hasScheme (url : Text) : Bool :=
  !(Text.since isColon url).isEmpty &&
    match Text.upTo isColon url with
    | c :: d :: rest => c.isAlpha && (d :: rest).all schemeChar
    | _ => false

def withoutQuery (url : Text) : Text := Text.upTo isQuery url

/-- the query and the fragment with their mark -/
def query (url : Text) : Text := Text.since isQuery url

/-- where the path of a url is looked for, in characters -/
def authorityStart (url : Text) : Nat :=
  match Text.find? "://".toList url with
  | some i => i + 3
  | none => 0

def split (url : Text) : Text × Text :=
  let i := authorityStart url
  (url.take i ++ Text.upTo isSlash (url.drop i), Text.since isSlash (url.drop i))

/-- a path up to its last slash -/
def directory (path : Text) : Text :=
  match path.reverse.dropWhile (!isSlash ·) with
  | [] => ['/']
  | s => s.reverse

/-- one segment on the stack of those walked so far, innermost first -/
def walk (stack : List Text) (segment : Text) : List Text :=
  if segment = ['.'] then stack
  else if segment = ['.', '.'] then stack.drop 1
  else segment :: stack

/-- the segments of a path that starts with a slash, with `.` and `..` walked -/
def segments (path : Text) : List Text := (((path.splitOn '/').drop 1).foldl walk []).reverse

/-- the scheme of a url; `https` for a url without one -/
def scheme (url : Text) : Text :=
  if (Text.since isColon url).isEmpty then "https".toList else Text.upTo isColon url

def startsWith (pat s : Text) : Bool := pat.isPrefixOf s

def join (base reference : Text) : Text :=
  if hasScheme reference then reference
  else if startsWith ['/', '/'] reference then scheme base ++ ':' :: reference
  else
    let path :=
      if startsWith ['/'] reference then reference
      else directory (withoutQuery (split base).2) ++ reference
    (split base).1 ++ '/' :: Text.joinWith ['/'] (segments path)

end PageTemplates.Url
