/-!
# Names in markup

The elements of HTML, those among them that have no content, the hyphenated names that are no custom elements,
and the mixed-case names of SVG, which markup spells in any case.
-/

namespace TemplateCompiler.Markup

/-- The elements that have neither content nor an end tag. -/
def voidElements : List String :=
  ["area", "base", "br", "col", "embed", "hr", "img", "input", "link", "meta", "param", "source", "track",
   "wbr"]

/-- Whether an element has neither content nor an end tag. -/
def isVoidElement (tag : String) : Bool :=
  voidElements.contains tag

/-- The elements of HTML. -/
def htmlElements : List String :=
  ["a", "abbr", "address", "area", "article", "aside", "audio", "b", "base", "bdi", "bdo", "blockquote", "body",
   "br", "button", "canvas", "caption", "cite", "code", "col", "colgroup", "data", "datalist", "dd", "del",
   "details", "dfn", "dialog", "div", "dl", "dt", "em", "embed", "fieldset", "figcaption", "figure", "footer",
   "form", "h1", "h2", "h3", "h4", "h5", "h6", "head", "header", "hgroup", "hr", "html", "i", "iframe", "img",
   "input", "ins", "kbd", "label", "legend", "li", "link", "main", "map", "mark", "math", "menu", "meta",
   "meter", "nav", "noscript", "object", "ol", "optgroup", "option", "output", "p", "param", "picture", "pre",
   "progress", "q", "rp", "rt", "ruby", "s", "samp", "script", "search", "section", "select", "slot", "small",
   "source", "span", "strong", "style", "sub", "summary", "sup", "svg", "table", "tbody", "td", "template",
   "textarea", "tfoot", "th", "thead", "time", "title", "tr", "track", "u", "ul", "var", "video", "wbr"]

/-- The hyphenated names that the platform owns. -/
def reservedNames : List String :=
  ["annotation-xml", "color-profile", "font-face", "font-face-src", "font-face-uri", "font-face-format",
   "font-face-name", "missing-glyph"]

/-- Whether a name is that of a custom element: it has a hyphen. -/
def isCustomName (tag : String) : Bool :=
  tag.toList.contains '-'

/-- The SVG elements whose names mix cases. -/
def svgElementNames : List String :=
  ["animateMotion", "animateTransform", "clipPath", "feBlend", "feColorMatrix", "feComposite",
   "feDropShadow", "feFlood", "feGaussianBlur", "feMerge", "feMergeNode", "feOffset", "feTurbulence",
   "foreignObject", "linearGradient", "radialGradient", "textPath"]

/-- The SVG attributes whose names mix cases. -/
def svgAttributeNames : List String :=
  ["attributeName", "baseFrequency", "calcMode", "clipPathUnits", "diffuseConstant", "edgeMode",
   "filterUnits", "gradientTransform", "gradientUnits", "kernelMatrix", "keyPoints", "keySplines",
   "keyTimes", "lengthAdjust", "markerHeight", "markerUnits", "markerWidth", "maskContentUnits",
   "maskUnits", "numOctaves", "pathLength", "patternContentUnits", "patternTransform", "patternUnits",
   "preserveAspectRatio", "primitiveUnits", "refX", "refY", "repeatCount", "spreadMethod", "startOffset",
   "stdDeviation", "surfaceScale", "textLength", "viewBox"]

/-- The lower-case form of a name, for ASCII letters only. -/
def lowerName (name : String) : String :=
  String.ofList (name.toList.map Char.toLower)

/-- Whether two names differ at most in the case of ASCII letters. -/
def sameName (a b : String) : Bool :=
  lowerName a == lowerName b

/-- Whether `name` starts with `start`. -/
def startsWith (name start : String) : Bool :=
  start.toList.isPrefixOf name.toList

/-- The spelling of `name` in `names`, or `name` itself if it is not among them. -/
def spelling (names : List String) (name : String) : String :=
  (names.find? (sameName · name)).getD name

end TemplateCompiler.Markup
