/-!
What is known about the elements and attributes of documents: which elements
have no content, which stand on lines of their own, and which attributes count
by being there.
-/

namespace SheetBinding.Markup

/-- Elements without content, which have no end tag. -/
def voidElements : List String := [
  "area", "base", "basefont", "br", "col", "frame", "hr", "img", "input",
  "isindex", "link", "meta",
  "param"]

/-- Elements that stand on lines of their own. -/
def blockElements : List String := [
  "address", "area", "base", "blockquote", "body", "caption", "center", "col",
  "colgroup", "dd", "dir", "div", "dl", "dt", "fieldset", "form", "frame",
  "frameset", "h1", "h2", "h3", "h4", "h5", "h6", "head", "hr", "html",
  "isindex", "legend", "li", "link", "menu", "meta", "noframes", "noscript",
  "ol", "optgroup", "option", "p", "param", "pre", "style", "table", "tbody",
  "td", "tfoot", "th", "thead", "title", "tr", "ul"]

/-- Elements whose content is text without markup and without references. -/
def rawElements : List String := ["script", "style"]

/-- Elements whose content is text without markup. -/
def textElements : List String := ["script", "style", "textarea", "title"]

/-- Elements that belong into the head of a document. -/
def headElements :
    List String := ["base", "link", "meta", "script", "style", "title"]

/-- Attributes that count by being there. -/
def booleanAttributes : List String := [
  "checked", "compact", "declare", "defer", "disabled", "ismap", "multiple",
  "nohref", "noresize", "noshade", "nowrap", "readonly", "selected"]

end SheetBinding.Markup
