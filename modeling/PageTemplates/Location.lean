import PageTemplates.Path
import PageTemplates.Url

/-!
# Locations

The identity of a resource: a normalised path, or a url that is taken as it is written.

* `Location.resolvePath`   a template reference, relative to the directory of the referring file;
* `Location.resolveUrl`    a stylesheet url: a scheme makes it remote, a leading slash makes it
                           relative to the site root, anything else is relative to the referrer;
* `Location.rebase?`       the form of a url that means the same from everywhere in the site.
-/

namespace PageTemplates

inductive Location where
  | file (path : Path)
  | remote (url : Text)
deriving DecidableEq

namespace Location

/-- a file, its path normalised -/
def ofPath (p : Path) : Location := .file p.normal

def toText : Location → Text
  | .file path => path.toText
  | .remote url => url

def resolvePath (l : Location) (reference : Text) : Location :=
  match l with
  | .file path => ofPath (path.directory.join (.ofText reference))
  | .remote base => .remote (Url.join base reference)

def resolveUrl (l : Location) (siteRoot : Path) (url : Text) : Location :=
  if Url.hasScheme url then .remote url
  else if Url.startsWith ['/', '/'] url then .remote ("https:".toList ++ url)
  else
    match l with
    | .remote base => .remote (Url.join base url)
    | .file path =>
      match Url.withoutQuery url with
      | '/' :: rooted => ofPath (siteRoot.join (.ofText rooted))
      | relative => ofPath (path.directory.join (.ofText relative))

/-- a url that means the same from everywhere: empty, with a scheme, rooted, or a fragment -/
def isFixed (url : Text) : Bool :=
  match url with
  | [] => true
  | c :: _ => Url.hasScheme url || c == '/' || c == '#'

/-- the path of a file as a url of the site, or as it is outside the site, with replacements for
what is no text -/
def siteUrl (siteRoot path : Path) : Text :=
  match Path.below? siteRoot path with
  | some parts => '/' :: Path.joinParts parts
  | none => path.toText

def rebase? (l : Location) (siteRoot : Path) (url : Text) : Option Text :=
  if isFixed url then none
  else
    match l.resolveUrl siteRoot url with
    | .remote resolved => some resolved
    | .file path => some (siteUrl siteRoot path ++ Url.query url)

end Location

end PageTemplates
