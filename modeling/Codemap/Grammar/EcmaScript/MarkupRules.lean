/-
# ECMAScript: markup

Elements between angle brackets, with attributes, text and embedded expressions.  The name in a
closing tag is not compared with the one in the opening tag.
-/
import Codemap.Grammar.EcmaScript.ExpressionRules

namespace Codemap.Grammar.EcmaScript

namespace Rules

variable (r : Rules)

/-- Characters of element and attribute names. -/
def isTagChar (c : Char) : Bool := isWordChar c || c == '-'

/-- The name of an element. -/
def tagName : Rule Unit := do
  token "identifier" true (wordEnd isWordStart isTagChar)
  oneOf
    [wrap "jsx_namespace_name" "" (do
      rawSym ":"
      rawToken "identifier" true (wordEnd isWordStart isTagChar)),
     many (wrap "member_expression" "object" (do
      sym "."
      field "property" (anyWord "property_identifier")))]

/-- An expression in braces. -/
def embedded : Rule Unit := node "jsx_expression" do
  openBrace
  opt (oneOf [r.spread, r.expressions])
  closeBrace

/-- An attribute of an element. -/
def tagAttribute : Rule Unit :=
  oneOf
    [r.embedded,
     node "jsx_attribute" (do
      token "property_identifier" true (wordEnd isWordStart isTagChar)
      opt (wrap "jsx_namespace_name" "" (do
        rawSym ":"
        rawToken "identifier" true (wordEnd isWordStart isTagChar)))
      opt (do
        sym "="
        oneOf [quoted 34, quoted 39, r.embedded, r.form .markup]))]
where
  /-- A string without escapes. -/
  quoted (quote : Nat) : Rule Unit := node "string" do
    token "\"" false fun text pos =>
      if (text[pos]?.map (·.toNat)) == some quote then some (pos + 1) else none
    opt (rawToken "string_fragment" true (runEnd fun c => c.toNat != quote))
    rawToken "\"" false fun text pos =>
      if (text[pos]?.map (·.toNat)) == some quote then some (pos + 1) else none

/-- The name and the attributes of an element. -/
def tagInside : Rule Unit := do
  field "name" tagName
  r.optTypeArguments
  many (field "attribute" r.tagAttribute)

/-- Text between tags. -/
def markupText : Rule Unit := rawToken "jsx_text" true
  (runEnd fun c => c != '<' && c != '>' && c.toNat != 123 && c.toNat != 125)

/-- An element with its children, or an element that closes itself. -/
def markupForm : Rule Unit :=
  oneOf
    [node "jsx_self_closing_element" (do sym "<"; r.tagInside; sym "/>"),
     node "jsx_element" (do
      field "open_tag" (node "jsx_opening_element" (do sym "<"; opt r.tagInside; sym ">"))
      many (oneOf [markupText, r.embedded, do never (sym "</"); r.form .markup])
      field "close_tag" (node "jsx_closing_element" (do
        sym "</"
        opt (field "name" tagName)
        sym ">")))]

end Rules

end Codemap.Grammar.EcmaScript
