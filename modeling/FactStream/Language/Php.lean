import FactStream.Language
import FactStream.Language.Php.Kinds
import FactStream.Language.Php.Literal
import FactStream.Text.Ascii
import FactStream.Text.Blank

/-!
# PHP

Statements, expressions, names and literals of PHP each give a fact at their place; blocks and lists
only group their children. Modifiers are folded into one property. Every property is a string, and a
truth value is `1` or empty.
-/

namespace FactStream.Php

/-! ## Properties -/

/-- The text of a truth value. -/
def truth (b : Bool) : Value := if b then "1" else ""

/-- Whether a value is taken by reference. -/
def byReference (v : View) : Bool :=
  v.containsToken "&" || v.hasKind "reference_modifier"

/-- The modifiers with the bits that stand for them, in the order they are written in. -/
def modifiers : List (String × Nat) :=
  [("MODIFIER_PUBLIC", 1), ("MODIFIER_PROTECTED", 2), ("MODIFIER_PRIVATE", 4),
   ("MODIFIER_ABSTRACT", 16), ("MODIFIER_STATIC", 8), ("MODIFIER_FINAL", 32),
   ("MODIFIER_READONLY", 64)]

/-- The modifier that a child is. -/
def modifierOf? (v : View) (h : Head) : Option String :=
  match h.kind with
  | "visibility_modifier" =>
    [("public", "MODIFIER_PUBLIC"), ("protected", "MODIFIER_PROTECTED"),
     ("private", "MODIFIER_PRIVATE")].lookup (Text.lowerAsciiText (v.textOf h))
  | "static_modifier" => some "MODIFIER_STATIC"
  | "abstract_modifier" => some "MODIFIER_ABSTRACT"
  | "final_modifier" => some "MODIFIER_FINAL"
  | "readonly_modifier" => some "MODIFIER_READONLY"
  | _ => none

/-- The modifiers among the children, by name and with the sum of their bits. -/
def flags (v : View) : Value :=
  let given := v.named.filterMap (modifierOf? v)
  let present := modifiers.filter fun m => given.contains m.1
  let total : Nat := present.foldl (fun n m => n + m.2) 0
  if present.isEmpty then .text total.repr
  else .text (Text.join " | " (present.map (·.1)) ++ " (" ++ total.repr ++ ")")

/-- The kinds whose `name` child is an identifier and not a name that is looked up. -/
def ownsIdentifier : List String :=
  ["function_definition", "method_declaration", "class_declaration", "interface_declaration",
   "trait_declaration", "enum_declaration", "enum_case", "member_call_expression",
   "nullsafe_member_call_expression", "member_access_expression",
   "nullsafe_member_access_expression", "scoped_call_expression"]

/-- Whether a name stands where the node around it has its own identifier. -/
def isIdentifier (v : View) : Bool :=
  v.isField "name" && v.around.any ownsIdentifier.contains

/-- What a declaration of used names imports. -/
def useType (v : View) : Value :=
  if v.containsToken "function" then "TYPE_FUNCTION (2)"
  else if v.containsToken "const" then "TYPE_CONSTANT (3)"
  else "TYPE_NORMAL (1)"

/-- Whether a string in double quotes has parts other than text. -/
def isInterpolated (v : View) : Bool :=
  v.named.any fun h =>
    !(silent ++ ["string_content", "string_value", "escape_sequence"]).contains h.kind

/-! ## Kinds by operator -/

/-- The kind of a binary expression. -/
def kindOfBinary? (v : View) : Option String :=
  binaryKinds.lookup (Text.lowerAsciiText (v.operator?.getD ""))

/-- The kind of a compound assignment. -/
def assignmentKind? (v : View) : Option String :=
  assignmentKinds.lookup (v.operator?.getD "")

/-- The kind of a unary expression. -/
def kindOfUnary? (v : View) : Option String :=
  unaryKinds.lookup (v.openingToken?.getD "")

/-- The kind of a cast. -/
def kindOfCast? (v : View) : Option String :=
  let type := (v.fieldText? "type").getD ""
  castKinds.lookup (String.ofList ((Text.trimBlank type.toList).map Text.lowerAscii))

/-- The kind of an increment or a decrement, before or after its variable. -/
def updateKind (v : View) : String :=
  match v.opensWithToken, v.containsToken "++" with
  | true, true => "expr_preinc"
  | true, false => "expr_predec"
  | false, true => "expr_postinc"
  | false, false => "expr_postdec"

/-! ## Rules -/

/-- The children that may give facts. -/
def children : Query := .notOfKind silent

/-- A fact at its place, with the facts of its children. -/
def plain : Emission where
  parts := [.nodes children]
  positional := true

/-- A fact at its place without children. -/
def leaf : Emission where
  positional := true

/-- Nodes of a kind, if they have a kind by their operator. -/
def byOperator (kind : String) (operatorKind? : View → Option String) : Rule where
  kinds := [kind]
  applies v := (operatorKind? v).isSome
  treatment := .emit { plain with kind := operatorKind? }

/-- Nodes of a kind with one more property of a fixed value. -/
def withType (kind type : String) : Rule where
  kinds := [kind]
  treatment := .emit { plain with properties := [("type", fun _ => type)] }

/-- The rules for PHP nodes. -/
def rules : List Rule :=
  [{ kinds := silent, treatment := .elide },
   { kinds := grouping, treatment := .pass [.nodes children] },
   { kinds := ["function_definition"]
     treatment := .emit { plain with properties := [("byRef", fun v => truth (byReference v))] } },
   { kinds := ["method_declaration"]
     treatment := .emit
       { plain with
         properties := [("flags", flags), ("byRef", fun v => truth (byReference v))] } },
   { kinds := ["class_declaration", "property_declaration", "class_constant_declaration"]
     treatment := .emit { plain with properties := [("flags", flags)] } },
   { kinds := ["simple_parameter", "variadic_parameter", "property_promotion_parameter"]
     treatment := .emit
       { plain with
         properties :=
           [("byRef", fun v => truth (byReference v)),
            ("variadic", fun v => truth (v.kind == "variadic_parameter")),
            ("flags", flags)] } },
   { kinds := ["argument", "array_element_initializer"]
     treatment := .emit
       { plain with
         properties :=
           [("byRef", fun v => truth (byReference v)),
            ("unpack", fun v => truth (v.containsToken "..."))] } },
   { kinds := ["anonymous_function", "anonymous_function_creation_expression", "arrow_function"]
     treatment := .emit
       { plain with
         properties :=
           [("static", fun v => truth (v.hasKind "static_modifier" || v.containsToken "static")),
            ("byRef", fun v => truth (byReference v))] } },
   { kinds := ["variable_name"]
     treatment := .emit
       { leaf with
         properties := [("name", fun v => String.ofList (v.text.toList.dropWhile (· = '$')))] } },
   { kinds := ["name", "qualified_name", "namespace_name", "named_type", "primitive_type"]
     treatment := .emit
       { leaf with
         kind := fun v =>
           if isIdentifier v || v.kind == "primitive_type" then "identifier" else "name"
         properties := [("name", fun v => v.text)] } },
   { kinds := ["integer"]
     treatment := .emit
       { leaf with
         properties :=
           [("value", fun v => integerText v.text.toList),
            ("kind", fun v => integerRadix v.text.toList)] } },
   { kinds := ["float"]
     treatment := .emit
       { leaf with properties := [("value", fun v => realText v.text.toList)] } },
   { kinds := ["string"]
     treatment := .emit
       { leaf with
         properties := [("value", fun v => stringText v.text.toList), ("kind", fun _ => "1")] } },
   { kinds := ["encapsed_string"]
     applies := isInterpolated
     treatment := .emit { plain with kind := fun _ => "scalar_encapsed" } },
   { kinds := ["encapsed_string"]
     treatment := .emit
       { leaf with
         properties := [("value", fun v => stringText v.text.toList), ("kind", fun _ => "2")] } },
   { kinds := ["escape_sequence"]
     treatment := .emit
       { leaf with
         properties :=
           [("value", fun v =>
             String.ofList (Text.unescape Text.phpDoubleEscapes v.text.toList))] } },
   { kinds := ["string_content", "string_value", "text"]
     treatment := .emit { leaf with properties := [("value", fun v => v.text)] } },
   { kinds := ["boolean", "null"]
     treatment := .emit { leaf with properties := [("name", fun v => v.text)] } },
   { kinds := ["array_creation_expression"]
     treatment := .emit
       { plain with properties := [("kind", fun v => if v.containsToken "[" then "2" else "1")] } },
   withType "include_expression" "TYPE_INCLUDE (1)",
   withType "include_once_expression" "TYPE_INCLUDE_ONCE (2)",
   withType "require_expression" "TYPE_REQUIRE (3)",
   withType "require_once_expression" "TYPE_REQUIRE_ONCE (4)",
   { kinds := ["namespace_use_declaration"]
     treatment := .emit { plain with properties := [("type", useType)] } },
   withType "namespace_use_clause" "TYPE_UNKNOWN (0)",
   byOperator "binary_expression" kindOfBinary?,
   byOperator "augmented_assignment_expression" assignmentKind?,
   byOperator "unary_op_expression" kindOfUnary?,
   byOperator "cast_expression" kindOfCast?,
   { kinds := ["update_expression"]
     treatment := .emit { plain with kind := fun v => updateKind v } },
   { kinds := renames.map (·.1), treatment := .emit plain }]

end FactStream.Php

namespace FactStream

/-- The PHP language. -/
def Language.php : Language where
  nameSpace := "php"
  title := "PHP"
  aliases := []
  extensions := ["php"]
  rules := Php.rules
  otherwise := none
  rename := Php.rename
  commonKinds := { entries := Php.commonKinds, collapse := some "stmt" }
  naming := .php

end FactStream
