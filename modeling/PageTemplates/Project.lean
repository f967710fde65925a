import PageTemplates.Json.Reader
import PageTemplates.Program

/-!
# Projects on disk

A project is a directory tree.  `FileTree` is the state of one; reading from it fails in the
ways and with the reasons of a file system.  Remote resources cannot be read.

* `FileTree.read`            the text of a file;
* `FileTree.config`          the settings, from the first candidate that is a file;
* `FileTree.compile`         the program of an entry template.
-/

namespace PageTemplates

inductive FileContent where
  | file (bytes : ByteArray)
  | directory

structure FileTree where
  /-- the directory that holds the project, as it is spelled -/
  root : Text
  /-- the files and directories of the project, by their components below the root -/
  entries : List (List Path.Part × FileContent)

namespace FileTree

def rootPath (t : FileTree) : Path := .ofText t.root

def notFound : Text := "No such file or directory (os error 2)".toList
def isDirectory : Text := "Is a directory (os error 21)".toList
def notDirectory : Text := "Not a directory (os error 20)".toList
def tooLong : Text := "File name too long (os error 36)".toList
def nulByte : Text := "file name contained an unexpected NUL byte".toList
def notUnicode : Text := "stream did not contain valid UTF-8".toList

/-- the bytes of the file with these components -/
def file? (t : FileTree) (parts : List Path.Part) : Option ByteArray :=
  t.entries.findSome? fun e =>
    match e.2 with
    | .file bytes => if t.rootPath.parts ++ e.1 = parts then some bytes else none
    | .directory => none

/-- whether a directory of the tree, or one above it, has these components -/
def hasDirectory (t : FileTree) (parts : List Path.Part) : Bool :=
  parts.isPrefixOf t.rootPath.parts ||
    t.entries.any fun e =>
      let all := t.rootPath.parts ++ e.1
      match e.2 with
      | .file _ => parts.isPrefixOf all.dropLast
      | .directory => parts.isPrefixOf all

/-- why the walk from the directory `walked` down to these components meets no file -/
def obstacle (t : FileTree) (walked : List Path.Part) : List Path.Part → Text
  | [] => isDirectory
  | part :: parts =>
    if 255 < part.size then tooLong
    else if t.hasDirectory (walked ++ [part]) then t.obstacle (walked ++ [part]) parts
    else if (t.file? (walked ++ [part])).isSome then notDirectory
    else notFound

/-- why nothing can be opened under these components -/
def reasonAgainst (t : FileTree) (parts : List Path.Part) : Text :=
  if parts.any Path.Part.hasNul then nulByte
  else if 4095 < Path.size parts then tooLong
  else t.obstacle [] parts

/-- the text of the file under these components, or why it cannot be had -/
def readParts (t : FileTree) (parts : List Path.Part) : Except Text Text :=
  match t.file? parts with
  | none => .error (t.reasonAgainst parts)
  | some bytes =>
    match String.fromUTF8? bytes with
    | some s => .ok s.toList
    | none => .error notUnicode

/-- the root directory is its own parent -/
def resolved (p : Path) : List Path.Part := p.parts.filter (· != .text Path.parent)

def read (t : FileTree) : Location → Except ResourceError Text
  | .remote url => .error (.remoteUnsupported url)
  | .file path => (t.readParts (resolved path)).mapError (.read path.toText ·)

def env (t : FileTree) : Env where
  read := t.read
  parseMarkup source _ := .ok (Html.Fragment.ofText source)
  parseCss := Css.parse

/-- the candidate that holds the settings -/
def configFile? (t : FileTree) : Option Text :=
  Config.candidates.find? fun name => (t.file? (t.rootPath.join (.ofText name)).parts).isSome

def config (t : FileTree) : Except ResourceError (Option Config) :=
  match t.configFile? with
  | none => .ok none
  | some name =>
    match t.readParts (t.rootPath.join (.ofText name)).parts with
    | .error reason => .error (.io reason)
    | .ok source =>
      match Config.read? source with
      | some c => .ok (some c)
      | none => .error (.configParse "the settings are not well formed".toList)

def compile (t : FileTree) (fuel : Nat) (entry : Text) :
    Except ResourceError (Option Compilation) := do
  let config ← t.config
  let compiler := Compiler.ofOptions t.env Json.parse (.ofConfig t.root config)
  return compiler.compile fuel (t.rootPath.join (.ofText entry))

end FileTree

end PageTemplates
