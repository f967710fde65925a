import PageTemplates.Binding
import PageTemplates.Css.Parser
import PageTemplates.Location

/-!
# What can go wrong

`ResourceError` is a resource that cannot be read or understood.  `Problem` is anything that is
reported while a project is compiled: the cause with what it is about.  The severity of a problem
and its wording are functions of the cause.
-/

namespace PageTemplates

inductive ResourceError where
  | io (reason : Text)
  | read (location reason : Text)
  | remoteUnsupported (url : Text)
  | configParse (reason : Text)
  | testData (path reason : Text)
deriving DecidableEq

namespace ResourceError

def message : ResourceError → String
  | .io reason => str reason
  | .read location reason => s!"failed to read `{str location}`: {str reason}"
  | .remoteUnsupported url => s!"cannot fetch remote resource `{str url}`"
  | .configParse reason => s!"failed to parse config file: {str reason}"
  | .testData path reason => s!"failed to load test data `{str path}`: {str reason}"

def code : ResourceError → String
  | .io _ => "stencil::io_error"
  | .read _ _ => "stencil::read_failed"
  | .remoteUnsupported _ => "stencil::remote_unsupported"
  | .configParse _ => "stencil::config_parse"
  | .testData _ _ => "stencil::test_data"

def help? : ResourceError → Option String
  | .io _ | .read _ _ => none
  | .remoteUnsupported _ =>
    some ("download the resource and reference it by path, "
      ++ "or supply a reader that supports remote urls")
  | .configParse _ =>
    some "check that stencil.toml is valid TOML with an optional `site_root` and [lint] section"
  | .testData _ _ =>
    some "the file referenced by <link rel=\"test-data\"> must contain a JSON document"

end ResourceError

/-- the rules from all over the project that a `<style>` of the main template can collect -/
inductive Host where
  | inlineFonts
  | componentStyles
deriving DecidableEq

/-- the attribute that marks the target -/
def Host.marker : Host → Text
  | .inlineFonts => "inline-fonts".toList
  | .componentStyles => "component-styles".toList

inductive Severity where
  /-- a defect of the structure; something else stands in its place -/
  | error
  /-- the offending part is dropped -/
  | warning
  /-- advice -/
  | lint
deriving DecidableEq

def Severity.name : Severity → String
  | .error => "error"
  | .warning => "warning"
  | .lint => "lint"

inductive Problem where
  | resource (e : ResourceError)
  | cssProblem (f : Css.Fault)
  | cssFailure (f : Css.Fault)
  | missingDoctype
  | strayText (t : Text)
  | shadowsElement (name : Text)
  | misplacedHtml
  | duplicateComponent (name : Text)
  | unnamedComponent
  | importWithoutSrc
  | stylesheetWithoutHref
  | testDataWithoutHref
  | extraTestData (href : Text)
  | elementInStyle
  | misplacedHost (host : Host)
  | duplicateHost (host : Host)
  | invalidHost (host : Host)
  | invalidFontSource
  | invalidStyleSource
  | shadowsBuiltin (name : Text)
  | importCollision (name : Text) (source : Location)
  | ownImportCollision (name : Text)
  | placeholder (fault : Placeholder.Fault) (source : Text)
  | directive (element : Text) (e : DirectiveError)
  | unknownParameter (element name : Text)
  | deprecatedElement (name : Text)
  | unknownElement (name : Text)
  /-- a message of the caller's own -/
  | custom (severity : Severity) (message : Text)
deriving DecidableEq

namespace Problem

def severity : Problem → Severity
  | .missingDoctype | .strayText _ | .shadowsElement _ | .placeholder _ _ => .lint
  | .cssProblem _ | .extraTestData _ | .unknownParameter _ _ | .deprecatedElement _ => .warning
  | .custom s _ => s
  | _ => .error

def message : Problem → String
  | .resource e => e.message
  | .cssProblem f | .cssFailure f => s!"css: {f.message}"
  | .missingDoctype => "main template is missing `<!DOCTYPE html>`"
  | .strayText t => s!"text outside of a component is ignored: `{str t}`"
  | .shadowsElement name =>
    s!"top-level `<{str name}>` declares a component that shadows an HTML element"
  | .misplacedHtml => "`<html>` is only allowed in the main template"
  | .duplicateComponent name => s!"component `{str name}` is declared more than once"
  | .unnamedComponent => "`<component>` is missing the `name` attribute"
  | .importWithoutSrc => "`<import>` is missing the `src` attribute"
  | .stylesheetWithoutHref => "stylesheet `<link>` is missing the `href` attribute"
  | .testDataWithoutHref => "test-data `<link>` is missing the `href` attribute"
  | .extraTestData href => s!"ignoring additional test-data link `{str href}`"
  | .elementInStyle => "`<style>` may only contain text"
  | .misplacedHost host => s!"`<style {str host.marker}>` is only allowed in the main template"
  | .duplicateHost host => s!"more than one `<style {str host.marker}>` host"
  | .invalidHost host =>
    s!"the `<style {str host.marker}>` host does not contain a valid stylesheet"
  | .invalidFontSource => "cannot collect font faces: stylesheet is invalid"
  | .invalidStyleSource => "cannot move component styles: stylesheet is invalid"
  | .shadowsBuiltin name => s!"component `{str name}` shadows a built-in tag and is never used"
  | .importCollision name source =>
    s!"`<{str name}>` imported from `{str source.toText}` "
      ++ "collides with a tag that is already visible"
  | .ownImportCollision name =>
    s!"`<{str name}>` imported by the component collides with a template import"
  | .placeholder .unterminated source => s!"unterminated placeholder in `{str source}`"
  | .placeholder .empty source => s!"empty placeholder in `{str source}`"
  | .directive element e => s!"`<{str element}>`: {e.message}"
  | .unknownParameter element name =>
    s!"`<{str element}>` has no parameter `{str name}`; the attribute is dropped"
  | .deprecatedElement name => s!"`<{str name}>` is deprecated"
  | .unknownElement name => s!"unknown tag `<{str name}>`"
  | .custom _ message => str message

/-- the problems of the placeholders in a text -/
def ofPlaceholders (source : Text) : List Problem :=
  (Placeholder.faults source).map (.placeholder · source)

end Problem

end PageTemplates
