/-
# ECMAScript: types

Type annotations, type parameters and arguments, and the types themselves.  An arrow that
follows a parenthesis makes a function type; `extends` after a type makes a conditional one.
-/
import Codemap.Grammar.EcmaScript.Lexical

namespace Codemap.Grammar.EcmaScript

namespace Rules

variable (r : Rules)

/-- A type. -/
def type : Rule Unit := r.form .typeExpr

/-- An expression that a comma ends. -/
def expression : Rule Unit := r.form .expression

/-- The parameters of a function. -/
def formalParameters : Rule Unit := r.form .formalParameters

/-! ## 1. Parameters and arguments of types -/

/-- `<A, B>` after a name. -/
def typeArguments : Rule Unit := node "type_arguments" do
  sym "<"
  sepBy1 r.type (sym ",")
  opt (sym ",")
  sym ">"

/-- `<A extends B = C>` at a declaration. -/
def typeParameters : Rule Unit := node "type_parameters" do
  sym "<"
  sepBy1 parameter (sym ",")
  opt (sym ",")
  sym ">"
where
  /-- One type parameter. -/
  parameter : Rule Unit := node "type_parameter" do
    opt (do kw "const"; look (identifierAs "type_identifier"))
    opt (do oneOf [kw "in", kw "out"]; look (identifierAs "type_identifier"))
    field "name" (identifierAs "type_identifier")
    opt (field "constraint" (node "constraint" do oneOf [kw "extends", sym ":"]; r.type))
    opt (field "value" (node "default_type" do sym "="; r.type))

/-- Type arguments where the dialect has them. -/
def optTypeArguments : Rule Unit := do
  if r.typed then opt (field "type_arguments" r.typeArguments)

/-- Type parameters where the dialect has them. -/
def optTypeParameters : Rule Unit := do
  if r.typed then opt (field "type_parameters" r.typeParameters)

/-! ## 2. Annotations -/

/-- `: T`. -/
def typeAnnotation : Rule Unit := node "type_annotation" do sym ":"; r.type

/-- A type annotation where the dialect has them, as the field `type`. -/
def optTypeAnnotation : Rule Unit := do
  if r.typed then opt (field "type" r.typeAnnotation)

/-- `x is T`. -/
def typePredicate : Rule Unit := node "type_predicate" do
  field "name" (oneOf [node "this" (kw "this"), identifierAs "identifier"])
  kw "is"
  field "type" r.type

/-- `asserts x` or `asserts x is T`. -/
def asserts : Rule Unit := node "asserts" do
  kw "asserts"
  oneOf [r.typePredicate, identifierAs "identifier", namedWord "this" "this"]

/-- The annotation of a result. -/
def returnAnnotation : Rule Unit :=
  oneOf
    [node "asserts_annotation" (do sym ":"; r.asserts),
      node "type_predicate_annotation" (do sym ":"; r.typePredicate),
      r.typeAnnotation]

/-- Type parameters, parameters and result of a function. -/
def callSignature : Rule Unit := do
  r.optTypeParameters
  field "parameters" r.formalParameters
  if r.typed then opt (field "return_type" r.returnAnnotation)

/-! ## 3. Members of object types -/

/-- A computed name. -/
def computedName : Rule Unit := node "computed_property_name" do
  sym "["; r.expression; sym "]"

/-- The name of a member. -/
def propertyName : Rule Unit :=
  oneOf [anyWord "property_identifier", privateName, string, number, r.computedName]

/-- The modifier `w`, where it is not itself the name of a member. -/
def memberWord (w : String) : Rule Unit := do
  kw w
  never (oneOf (["(", "=", ";", ":", "?", "!", ",", "<", "\x7d"].map sym))

/-- `public`, `private` or `protected`. -/
def accessibility : Rule Unit := node "accessibility_modifier"
  (oneOf [memberWord "public", memberWord "private", memberWord "protected"])

/-- `override`. -/
def overrideModifier : Rule Unit := node "override_modifier" (memberWord "override")

/-- `[key: string]: T`, and the mapped types written like it. -/
def indexSignature : Rule Unit := node "index_signature" do
  opt (do opt (field "sign" (oneOf [sym "-", sym "+"])); memberWord "readonly")
  sym "["
  oneOf
    [do
      field "name" (identifierAs "identifier")
      sym ":"
      field "index_type" r.type,
     node "mapped_type_clause" do
      field "name" (identifierAs "type_identifier")
      kw "in"
      field "type" r.type
      opt (do kw "as"; field "alias" r.type)]
  sym "]"
  opt (do opt (oneOf [sym "-", sym "+"]); sym "?")
  opt (field "type" r.typeAnnotation)

/-- `(x: A): B` in an object type. -/
def callSignatureMember : Rule Unit := node "call_signature" r.callSignature

/-- `new (x: A): B` in an object type. -/
def constructSignature : Rule Unit := node "construct_signature" do
  opt (kw "abstract")
  kw "new"
  r.optTypeParameters
  field "parameters" r.formalParameters
  opt (field "type" r.typeAnnotation)

/-- A method without a body. -/
def methodSignature : Rule Unit := node "method_signature" do
  opt accessibility
  opt (memberWord "static")
  opt overrideModifier
  opt (memberWord "readonly")
  opt (memberWord "async")
  opt (oneOf [memberWord "get", memberWord "set", sym "*"])
  field "name" r.propertyName
  opt (sym "?")
  r.callSignature

/-- A property of an object type. -/
def propertySignature : Rule Unit := node "property_signature" do
  opt accessibility
  opt (memberWord "static")
  opt overrideModifier
  opt (memberWord "readonly")
  field "name" r.propertyName
  opt (sym "?")
  opt (field "type" r.typeAnnotation)

/-- The members of an object type or of an interface, as a node of the given kind. -/
def objectTypeAs (kind : String) : Rule Unit := node kind do
  openBrace
  many (do
    opt (oneOf [sym ",", sym ";"])
    oneOf
      [r.constructSignature, r.methodSignature, r.callSignatureMember, r.indexSignature,
        r.propertySignature]
    oneOf [sym ",", semicolon])
  opt (oneOf [sym ",", sym ";"])
  closeBrace

/-! ## 4. Types -/

/-- `A.B.C`, with or without type arguments. -/
def typeName : Rule Unit := do
  identifierAs "type_identifier"
  many (wrap "nested_type_identifier" "module" do
    sym "."
    field "name" (anyWord "type_identifier"))
  opt (wrap "generic_type" "name" do
    sameLine
    field "type_arguments" r.typeArguments)

/-- The names of the types built into the language. -/
def predefinedNames : List String :=
  ["any", "number", "boolean", "string", "symbol", "void", "unknown", "never", "object"]

/-- A built-in type. -/
def predefinedType : Rule Unit :=
  oneOf (node "predefined_type" (do kw "unique"; kw "symbol")
    :: predefinedNames.map fun w => node "predefined_type" (do kw w; never (sym ".")))

/-- A literal used as a type. -/
def literalType : Rule Unit := node "literal_type"
  (oneOf
    [string, number, node "unary_expression" (do sym "-"; number), namedWord "true" "true",
      namedWord "false" "false", namedWord "null" "null", namedWord "undefined" "undefined"])

/-- An element of a tuple type. -/
def tupleElement : Rule Unit :=
  oneOf
    [node "rest_type" (do
      sym "..."
      opt (do identifierAs "identifier"; sym ":")
      r.type),
     node "optional_parameter" (do
      field "name" (identifierAs "identifier")
      sym "?"
      field "type" r.typeAnnotation),
     node "required_parameter" (do
      field "name" (identifierAs "identifier")
      field "type" r.typeAnnotation),
     do r.type; opt (wrap "optional_type" "" (sym "?"))]

/-- A template literal used as a type. -/
def templateType : Rule Unit := node "template_literal_type" do
  sym "\x60"
  many (oneOf
    [rawToken "string_fragment" true
      (runEnd fun c => c.toNat != 96 && c.toNat != 92 && c != '$'),
     rawToken "escape_sequence" true escapeEnd,
     node "template_type" (do rawSym "$\x7b"; r.type; closeBrace),
     rawSym "$"])
  rawSym "\x60"

/-- `import('m')` and what is looked up in it. -/
def importType : Rule Unit := do
  node "call_expression" do
    field "function" (namedWord "import" "import")
    field "arguments" (node "arguments" do sym "("; string; sym ")")
  many (wrap "member_expression" "object" do
    sym "."
    field "property" (anyWord "property_identifier"))

/-- `typeof x`. -/
def typeQuery : Rule Unit := node "type_query" do
  kw "typeof"
  oneOf
    [importType,
     do
      oneOf [namedWord "this" "this", identifierAs "identifier"]
      many (wrap "member_expression" "object" do
        sym "."
        field "property" (oneOf [privateName, anyWord "property_identifier"]))]
  opt (do sameLine; field "type_arguments" r.typeArguments)

/-- A type that operators are applied to. -/
def primaryType : Rule Unit :=
  oneOf
    [node "parenthesized_type" (do sym "("; r.type; sym ")"),
      r.objectTypeAs "object_type",
      node "tuple_type" (do sym "["; commaSep r.tupleElement; sym "]"),
      literalType, r.templateType, r.typeQuery,
      predefinedType,
      namedWord "this_type" "this",
      node "const" (kw "const"),
      importType,
      r.typeName,
      node "existential_type" (sym "*")]

/-- A type with array brackets and look-ups after it. -/
def postfixType : Rule Unit := do
  r.primaryType
  many (oneOf
    [wrap "array_type" "" (do sameLine; sym "["; sym "]"),
      wrap "lookup_type" "" (do sameLine; sym "["; r.type; sym "]")])

/-- A type with an operator before it. -/
def unaryType : Rule Unit :=
  oneOf
    [node "index_type_query" (do kw "keyof"; r.form .unaryType),
      node "readonly_type" (do kw "readonly"; r.form .unaryType),
      node "infer_type" (do
        kw "infer"
        identifierAs "type_identifier"
        opt (do kw "extends"; r.form .unaryType)),
      r.postfixType]

/-- Types between `mark`s, as nested nodes of the given kind; one may stand before the first. -/
def joined (kind mark : String) (longer : List String) (part : Rule Unit) : Rule Unit :=
  oneOf
    [do
      node kind (do op mark longer; part)
      many (wrap kind "" (do op mark longer; part)),
     do
      part
      many (wrap kind "" (do op mark longer; part))]

/-- The type of a function or of a constructor. -/
def functionType : Rule Unit :=
  oneOf
    [node "constructor_type" (do
      opt (kw "abstract")
      kw "new"
      r.optTypeParameters
      field "parameters" r.formalParameters
      sym "=>"
      field "type" r.type),
     node "function_type" (do
      r.optTypeParameters
      field "parameters" r.formalParameters
      sym "=>"
      field "return_type" (oneOf [r.asserts, r.typePredicate, r.type]))]

/-- A type of any form. -/
def typeExpr : Rule Unit :=
  oneOf
    [r.functionType,
     do
      joined "union_type" "|" ["||"] (joined "intersection_type" "&" ["&&"] (r.form .unaryType))
      opt (wrap "conditional_type" "left" do
        kw "extends"
        field "right" r.type
        sym "?"
        field "consequence" r.type
        sym ":"
        field "alternative" r.type)]

end Rules

end Codemap.Grammar.EcmaScript
