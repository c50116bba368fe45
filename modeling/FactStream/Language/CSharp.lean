import FactStream.Language
import FactStream.Language.CSharp.Kinds
import FactStream.Language.CSharp.Literal

/-!
# C#

Every node of a C# tree gives a fact, apart from a few that only group their children or belong to
the text of a literal. The tokens of a node become properties named after the token kind. A
declaration owns its name as a token, so the name gives no fact of its own.
-/

namespace FactStream.CSharp

/-! ## Properties -/

/-- A token as a property, if it has a name. -/
def tokenProperty? (v : View) (h : Head) : Option (String × Value) :=
  if h.missing then none
  else if h.kind == "modifier" then some (keywordName (v.textOf h), v.textOf h)
  else if h.named then none
  else (tokenName? h.kind).map fun name => (name, .text (v.textOf h))

/-- The tokens and modifiers of a node as properties. -/
def tokenProperties (v : View) : List (String × Value) :=
  v.solid.filterMap (tokenProperty? v)

/-- The operator of an expression: the child with that label or else the first token. -/
def operator? (v : View) : Option String :=
  v.operator?.or v.openingToken?

/-! ## Rules -/

/-- The children that give facts: all named ones but the modifiers. -/
def children : Query := .notOfKind ["modifier"]

/-- The name of a declaration, if it is a plain identifier. -/
def declaredName? (v : View) : Option Head :=
  (v.field? "name").filter fun h => h.kind == "identifier"

/-- The children of a declaration that give facts: its name does not. -/
def membersOfDeclaration : Query :=
  .filter (.not (.and (.isField "name") (.kindIn ["identifier"]))) children

/-- A fact with the tokens and the children of the node. -/
def plain : Emission where
  tokens := tokenProperties
  parts := [.nodes children]
  positional := true

/-- A fact whose kind depends on the operator. -/
def byOperator (kinds : List (String × String)) : Emission :=
  { plain with kind := fun v => (operator? v).bind fun op => kinds.lookup op }

/-- The rules for C# nodes. -/
def rules : List Rule :=
  [{ kinds := ["compilation_unit", "literal", "global_statement"]
     treatment := .pass [.nodes .named] },
   { kinds := ["modifier", "string_content", "string_literal_content", "raw_string_start",
       "raw_string_content", "raw_string_end", "character_literal_content", "escape_sequence",
       "interpolation_start", "interpolation_quote", "interpolation_brace",
       "interpolation_alignment_clause", "interpolation_format_clause"]
     treatment := .elide },
   { kinds := declaresName
     applies := fun v => (declaredName? v).isSome
     treatment := .emit
       { plain with
         properties := [("IdentifierToken", fun v => .ofText? ((declaredName? v).map v.textOf))]
         parts := [.nodes membersOfDeclaration] } },
   { kinds := ["identifier"]
     treatment := .emit { plain with properties := [("IdentifierToken", fun v => v.text)] } },
   { kinds := ["implicit_type"]
     treatment := .emit { plain with properties := [("IdentifierToken", fun _ => "var")] } },
   { kinds := ["predefined_type"]
     treatment := .emit
       { plain with
         tokens := fun v => tokenProperties v ++ [(keywordName v.text, .text v.text)] } },
   { kinds := ["integer_literal", "real_literal"]
     treatment := .emit
       { plain with
         properties := [("NumericLiteralToken", fun v => numberOfLiteral v.text.toList)] } },
   { kinds := ["string_literal", "verbatim_string_literal", "raw_string_literal"]
     treatment := .emit
       { plain with
         properties :=
           [("StringLiteralToken", fun v => String.ofList (textOfLiteral v.text.toList))] } },
   { kinds := ["character_literal"]
     treatment := .emit
       { plain with
         properties :=
           [("CharacterLiteralToken", fun v => String.ofList (textOfLiteral v.text.toList))] } },
   { kinds := ["null_literal"]
     treatment := .emit { plain with properties := [("NullKeyword", fun _ => .null)] } },
   { kinds := ["boolean_literal"]
     applies := fun v => v.text == "true"
     treatment := .emit
       { plain with
         kind := fun _ => "TrueLiteralExpression"
         properties := [("TrueKeyword", fun _ => true)] } },
   { kinds := ["boolean_literal"]
     treatment := .emit
       { plain with
         kind := fun _ => "FalseLiteralExpression"
         properties := [("FalseKeyword", fun _ => false)] } },
   { kinds := ["binary_expression"], treatment := .emit (byOperator binaryKinds) },
   { kinds := ["assignment_expression"], treatment := .emit (byOperator assignmentKinds) },
   { kinds := ["prefix_unary_expression"], treatment := .emit (byOperator leadingUnaryKinds) },
   { kinds := ["postfix_unary_expression"], treatment := .emit (byOperator trailingUnaryKinds) },
   { kinds := ["lambda_expression"]
     treatment := .emit
       { plain with
         kind := fun v =>
           if v.fieldIs "parameters" "parameter_list" then "ParenthesizedLambdaExpression"
           else "SimpleLambdaExpression" } },
   { kinds := ["yield_statement"]
     treatment := .emit
       { plain with
         kind := fun v =>
           if v.containsToken "break" then "YieldBreakStatement" else "YieldReturnStatement" } }]

end FactStream.CSharp

namespace FactStream

/-- The C# language. -/
def Language.cSharp : Language where
  nameSpace := "csharp"
  title := "C#"
  aliases := ["cs", "c#"]
  extensions := ["cs"]
  rules := CSharp.rules
  otherwise := some (.emit CSharp.plain)
  rename := CSharp.rename
  commonKinds := { entries := CSharp.commonKinds }
  naming := .clr

end FactStream
