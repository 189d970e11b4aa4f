/-
# The vocabulary of tags

The names of the elements of HTML and of SVG, the names of the void elements,
which have no content and no closing tag, and the form of the names of custom
elements: a lower-case letter, then lower-case letters, digits, points, low
lines and hyphens, with a hyphen among them. Names are case-sensitive.

Key definitions: `Vocabulary.html`, `Vocabulary.svg`, `Vocabulary.voids`,
`Vocabulary.isCustomName`, `Vocabulary.classify`.
-/
namespace Markup
namespace Vocabulary

/-- The elements of HTML. -/
def html : List String := [
  "a", "abbr", "address", "area", "article", "aside", "audio", "b", "base", "bb", "bdi", "bdo",
  "blockquote", "body", "br", "button", "canvas", "caption", "cite", "code", "col", "colgroup",
  "command", "commands", "data", "datalist", "dd", "del", "details", "dfn", "dialog", "div", "dl",
  "dt", "em", "embed", "fieldset", "figcaption", "figure", "footer", "form", "h1", "h2", "h3",
  "h4", "h5", "h6", "head", "header", "hgroup", "hr", "html", "i", "iframe", "img", "input",
  "ins", "kbd", "keygen", "label", "legend", "li", "link", "main", "map", "mark", "menu", "meta",
  "meter", "nav", "noscript", "object", "ol", "optgroup", "option", "output", "p", "param",
  "picture", "pre", "progress", "q", "rb", "rp", "rt", "rtc", "ruby", "s", "samp", "script",
  "section", "select", "small", "source", "span", "strong", "style", "sub", "summary", "sup",
  "table", "tag", "tbody", "td", "template", "textarea", "tfoot", "th", "thead", "time", "title",
  "tr", "track", "u", "ul", "var", "video", "wbr"]

/-- The elements of SVG. -/
def svg : List String := [
  "animate", "animateMotion", "animateTransform", "circle", "clipPath", "defs", "desc", "ellipse",
  "feBlend", "feColorMatrix", "feComponentTransfer", "feComposite", "feConvolveMatrix",
  "feDiffuseLighting", "feDisplacementMap", "feDistantLight", "feDropShadow", "feFlood",
  "feFuncA", "feFuncB", "feFuncG", "feFuncR", "feGaussianBlur", "feImage", "feMerge",
  "feMergeNode", "feMorphology", "feOffset", "fePointLight", "feSpecularLighting", "feSpotLight",
  "feTile", "feTurbulence", "filter", "foreignObject", "g", "image", "line", "linearGradient",
  "marker", "mask", "metadata", "mpath", "path", "pattern", "polygon", "polyline",
  "radialGradient", "rect", "set", "stop", "svg", "switch", "symbol", "text", "textPath", "tspan",
  "use", "view"]

/-- The void elements. -/
def voids : List String := [
  "meta", "link", "img", "br", "input", "hr", "area", "base", "col", "command", "embed", "keygen",
  "param", "source", "track", "wbr"]

/-- The elements of HTML and those of SVG. -/
def known : List String := html ++ svg

/-- Whether a name is that of a void element. -/
def isVoid (name : String) : Bool := voids.contains name

/-- Whether a character is a lower-case letter. -/
def isLetter (c : Char) : Bool := 'a' ≤ c && c ≤ 'z'

/-- Whether a character may stand in a custom name before its first hyphen. -/
def isWordChar (c : Char) : Bool := isLetter c || ('0' ≤ c && c ≤ '9') || c = '.' || c = '_'

/-- Whether characters go on to a hyphen and end as a custom name may. -/
def reachesHyphen (cs : List Char) : Bool :=
  match cs.dropWhile isWordChar with
  | '-' :: rest => rest.all fun c => isWordChar c || c = '-'
  | _ => false

/-- Whether a name has the form of a custom element's. -/
def isCustomName (name : String) : Bool :=
  match name.toList with
  | [] => false
  | c :: cs => isLetter c && reachesHyphen cs

/-- What a name is the name of. -/
inductive Kind where
  | void
  | html
  | svg
  | custom
  | unknown
deriving DecidableEq

/-- Whether a kind is one of named elements. -/
def Kind.isKnown : Kind → Bool
  | .void | .html | .svg => true
  | .custom | .unknown => false

/-- The kind of a name. -/
def classify (name : String) : Kind :=
  if isVoid name then .void
  else if html.contains name then .html
  else if svg.contains name then .svg
  else if isCustomName name then .custom
  else .unknown

/-- Whether a name is in the vocabulary. -/
def isKnown (name : String) : Bool := (classify name).isKnown

end Vocabulary
end Markup
