import PageTemplates.Text.Basic

/-!
# Element names

Which elements have no content, which hold text that is not markup, and which names the HTML
standard knows.
-/

namespace PageTemplates.Html

/-- elements that never have children, and the `import` directive -/
def voidNames : List Text :=
  ["area", "base", "br", "col", "embed", "hr", "img", "input", "link", "meta", "param", "source",
    "track", "wbr", "import"].map String.toList

/-- elements whose content runs verbatim up to the close tag -/
def rawNames : List Text := ["script", "style"].map String.toList

/-- elements whose content is text up to the close tag, character references decoded -/
def plainNames : List Text := ["textarea", "title"].map String.toList

def isVoid (name : Text) : Bool := voidNames.contains name
def isRaw (name : Text) : Bool := rawNames.contains name
def isPlain (name : Text) : Bool := plainNames.contains name

/-- the elements of the standard, and those of SVG and MathML that pages commonly embed -/
def standardNames : List Text :=
  ["a", "abbr", "address", "area", "article", "aside", "audio", "b", "base", "bdi", "bdo",
    "blockquote", "body", "br", "button", "canvas", "caption", "cite", "code", "col", "colgroup",
    "data", "datalist", "dd", "del", "details", "dfn", "dialog", "div", "dl", "dt", "em", "embed",
    "fieldset", "figcaption", "figure", "footer", "form", "h1", "h2", "h3", "h4", "h5", "h6",
    "head", "header", "hgroup", "hr", "html", "i", "iframe", "img", "input", "ins", "kbd", "label",
    "legend", "li", "link", "main", "map", "mark", "menu", "meta", "meter", "nav", "noscript",
    "object", "ol", "optgroup", "option", "output", "p", "param", "picture", "pre", "progress",
    "q", "rp", "rt", "ruby", "s", "samp", "script", "search", "section", "select", "slot",
    "small", "source", "span", "strong", "style", "sub", "summary", "sup", "table", "tbody",
    "td", "template", "textarea", "tfoot", "th", "thead", "time", "title", "tr", "track", "u",
    "ul", "var", "video", "wbr",
    "svg", "circle", "clippath", "defs", "desc", "ellipse", "g", "image", "line",
    "lineargradient", "marker", "mask", "path", "pattern", "polygon", "polyline",
    "radialgradient", "rect", "stop", "symbol", "text", "textpath", "tspan", "use",
    "math", "mi", "mn", "mo", "mrow", "msup", "msub", "mfrac", "msqrt", "mtext"].map String.toList

/-- elements that the standard has removed; they are still written -/
def deprecatedNames : List Text :=
  ["acronym", "applet", "basefont", "bgsound", "big", "blink", "center", "dir", "font", "frame",
    "frameset", "isindex", "keygen", "listing", "marquee", "menuitem", "multicol", "nextid",
    "nobr", "noembed", "noframes", "plaintext", "rb", "rtc", "spacer", "strike", "tt",
    "xmp"].map String.toList

def isStandard (name : Text) : Bool := standardNames.contains name
def isDeprecated (name : Text) : Bool := deprecatedNames.contains name

end PageTemplates.Html
