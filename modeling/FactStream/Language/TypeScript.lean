import FactStream.Language
import FactStream.Language.TypeScript.Kinds
import FactStream.Language.TypeScript.Literal

/-!
# TypeScript and JavaScript

Each node names the children it wants, most of them by label, and gathers lists such as parameters
and arguments under container facts. Keywords and operators become properties.
-/

namespace FactStream.TypeScript

/-! ## Properties -/

/-- Whether a declaration only describes something defined elsewhere. -/
def onlyDescribes (v : View) : Value := v.isIn "ambient_declaration"

/-- Whether a token is there. -/
def token (name : String) (v : View) : Value := v.containsToken name

/-- Whether a child is there. -/
def present (label : String) (v : View) : Value := (v.field? label).isSome

/-- The text of a child. -/
def text (label : String) (v : View) : Value := .ofText? (v.fieldText? label)

/-- Whether a function is a generator. -/
def yieldsValues (v : View) : Value :=
  "generator_".toList.isPrefixOf v.kind.toList || v.containsToken "*"

/-- Whether a name is computed. -/
def nameIsComputed (name : Option Head) : Value :=
  name.any fun h => h.kind == "computed_property_name"

/-- The access modifier. -/
def accessModifier (v : View) : Value :=
  .ofText? ((v.childOfKind? "accessibility_modifier").map v.textOf)

/-- Whether a method is an accessor, the constructor or any other method. -/
def roleOfMethod (v : View) : Value :=
  if v.containsToken "get" then "get"
  else if v.containsToken "set" then "set"
  else if v.fieldText? "name" == some "constructor" then "constructor"
  else "method"

/-- The name of a class field. -/
def fieldName? (v : View) : Option Head :=
  (v.field? "property").or (v.field? "name")

/-- The kind of an export. -/
def exportKind (v : View) : String :=
  if v.containsToken "default" then "export_def"
  else if v.containsToken "*" then "export_all"
  else "export_named"

/-! ## Parts -/

/-- The child with a label. -/
def child (label : String) : Part := .field label

/-- All named children. -/
def all : Part := .nodes .named

/-- The child with a label, without the parentheses around it. -/
def bare (label : String) : Part :=
  .nodes (.strip "parenthesized_expression" (.field label))

/-- A container with what a query names; there is none if it is empty. -/
def gathered (name : String) (q : Query) : Part := .group name q false

/-- A container with what a query names, also if it is empty. -/
def always (name : String) (q : Query) : Part := .group name q true

/-- A container with the child of a label. -/
def boxed (label : String) : Part := gathered label (.field label)

/-- The parameters of a function. -/
def params : Query := .inField "parameters"

/-- The heritage of a class. -/
def heritage : Query := .childOfKind "class_heritage"

/-- The superclass of a class. -/
def superclass : Query :=
  .within heritage (.unwrap ["extends_clause"] (.notOfKind ["implements_clause"]))

/-- The interfaces a class implements. -/
def interfaces : Query :=
  .within heritage (.within (.ofKind ["implements_clause"]) .named)

/-- The names an import brings in. -/
def imported : Query :=
  .within (.childOfKind "import_clause") (.unwrap ["named_imports"] .named)

/-- The names an export gives out. -/
def exported : Query :=
  .within (.childOfKind "export_clause") .named

/-- The children of an element between its tags. -/
def content : Query :=
  .filter (.and (.not (.isField "open_tag")) (.not (.isField "close_tag"))) .named

/-! ## Rules -/

/-- Nodes that give a fact without properties. -/
def plain (kinds : List String) (parts : List Part) (positional : Bool := false) : Rule where
  kinds
  treatment := .emit { parts, positional }

/-- Nodes that give a fact with properties. -/
def described (kinds : List String) (properties : List (String × (View → Value)))
    (parts : List Part) (positional : Bool := false) : Rule where
  kinds
  treatment := .emit { properties, parts, positional }

/-- Nodes that only group their children. -/
def grouping (kinds : List String) : Rule where
  kinds
  treatment := .pass [all]

/-- Declarations of variables, functions and classes. -/
def declarationRules : List Rule :=
  [described ["lexical_declaration", "variable_declaration"]
     [("kind", fun v => (v.fieldText? "kind").getD "var"), ("declare", onlyDescribes)]
     [gathered "decls" (.ofKind ["variable_declarator"])],
   described ["variable_declarator"] [("definite", token "!")]
     [child "name", child "type", child "value"] true,
   described ["function_declaration", "generator_function_declaration"]
     [("async", token "async"), ("generator", yieldsValues), ("declare", onlyDescribes)]
     [child "name", gathered "params" params, child "body", child "return_type",
      child "type_parameters"],
   described ["function_signature"] [("async", token "async")]
     [child "name", gathered "params" params, child "return_type", child "type_parameters"],
   described ["class_declaration", "abstract_class_declaration", "class"]
     [("abstract", fun v => v.kind == "abstract_class_declaration"), ("declare", onlyDescribes)]
     [child "name", gathered "super" superclass, child "body", gathered "impl" interfaces,
      child "type_parameters", gathered "decors" (.fields "decorator")],
   plain ["class_body", "interface_body", "object_type", "enum_body"] [all],
   { kinds := ["method_definition", "method_signature", "abstract_method_signature"]
     treatment := .emit
       { kind := fun v =>
           if v.isIn "object" && v.kind == "method_definition" then some "obj_meth" else none
         properties :=
           [("kind", roleOfMethod), ("static", token "static"), ("async", token "async"),
            ("generator", token "*"), ("computed", fun v => nameIsComputed (v.field? "name")),
            ("accessibility", accessModifier)]
         parts := [child "name", always "params" params, child "body", child "return_type"] } },
   described ["field_definition", "public_field_definition"]
     [("static", token "static"), ("computed", fun v => nameIsComputed (fieldName? v)),
      ("optional", token "?"), ("readonly", token "readonly"), ("declare", token "declare"),
      ("accessibility", accessModifier)]
     [.nodes (.orElse (.field "property") (.field "name")), child "type", child "value",
      gathered "decors" (.fields "decorator")],
   plain ["class_static_block"] [child "body"],
   grouping ["computed_property_name", "class_heritage", "else_clause", "finally_clause",
     "import_clause", "named_imports", "export_clause", "ambient_declaration",
     "template_substitution", "switch_body"],
   plain ["decorator"] [all]]

/-- Statements. -/
def statementRules : List Rule :=
  [plain ["expression_statement", "return_statement", "throw_statement"] [all] true,
   plain ["statement_block"] [all],
   plain ["if_statement"] [bare "condition", child "consequence", child "alternative"] true,
   plain ["for_statement"]
     [child "initializer", child "condition", child "increment", child "body"] true,
   { kinds := ["for_in_statement"]
     treatment := .emit
       { kind := fun v => if v.operator? == some "of" then some "for_of" else none
         properties := [("await", token "await"), ("kind", text "kind")]
         parts := [child "left", child "right", child "body"]
         positional := true } },
   plain ["while_statement"] [bare "condition", child "body"] true,
   plain ["do_statement"] [child "body", bare "condition"] true,
   plain ["break_statement", "continue_statement"] [child "label"],
   plain ["with_statement"] [bare "object", child "body"] true,
   plain ["labeled_statement"] [child "label", child "body"] true,
   plain ["switch_statement"] [bare "value", always "cases" (.inField "body")],
   plain ["switch_case", "switch_default"] [child "value", always "conseq" (.fields "body")],
   plain ["try_statement"] [child "body", child "handler", child "finalizer"] true,
   plain ["catch_clause"] [child "parameter", child "type", child "body"] true,
   plain ["empty_statement", "debugger_statement", "this", "super", "null", "import"] []]

/-- Imports and exports. -/
def moduleRules : List Rule :=
  [{ kinds := ["import_statement"]
     applies := fun v => v.hasKind "import_require_clause"
     treatment := .emit
       { kind := fun _ => "import_eq"
         properties := [("isExport", fun _ => false)]
         parts :=
           [.nodes (.within (.childOfKind "import_require_clause") (.childOfKind "identifier")),
            .nodes (.childOfKind "import_require_clause")] } },
   described ["import_statement"]
     [("importKind", fun v => if v.containsToken "type" then "type" else "value")]
     [gathered "specs" imported, boxed "source"],
   plain ["import_specifier", "export_specifier"] [child "name", child "alias"],
   plain ["namespace_import", "namespace_export"] [all],
   plain ["import_require_clause"] [child "source"],
   described ["import_alias"] [("isExport", fun _ => false)] [all],
   { kinds := ["export_statement"]
     treatment := .emit
       { kind := fun v => exportKind v
         parts :=
           [child "declaration", child "value", gathered "specs" exported, boxed "source"] } }]

/-- Expressions. -/
def expressionRules : List Rule :=
  [described ["identifier", "property_identifier", "shorthand_property_identifier",
     "shorthand_property_identifier_pattern", "private_property_identifier", "type_identifier",
     "statement_identifier", "undefined"] [("name", fun v => v.text)] [],
   described ["number"] [("value", fun v => numberOfLiteral v.text.toList)] [],
   described ["string"]
     [("value", fun v => stringText (v.isIn "jsx_attribute") v.text.toList)] [],
   plain ["template_string"]
     [gathered "exprs" (.within (.ofKind ["template_substitution"]) .named)],
   described ["regex"]
     [("pattern", text "pattern"), ("flags", fun v => (v.fieldText? "flags").getD "")] [],
   described ["meta_property"]
     [("meta", fun v => (metaParts v.text.toList).1),
      ("property", fun v => (metaParts v.text.toList).2)] [],
   described ["true"] [("value", fun _ => true)] [],
   described ["false"] [("value", fun _ => false)] [],
   { kinds := ["call_expression"]
     applies := fun v => v.fieldIs "arguments" "template_string"
     treatment := .emit
       { kind := fun _ => "tag_templ", parts := [child "function", child "arguments"] } },
   described ["call_expression"] [("optional", present "optional_chain")]
     [child "function", always "args" (.inField "arguments"), child "type_arguments"],
   plain ["new_expression"]
     [child "constructor", always "args" (.inField "arguments"), child "type_arguments"],
   described ["member_expression"]
     [("optional", present "optional_chain"), ("computed", fun _ => false)]
     [child "object", child "property"],
   described ["subscript_expression"]
     [("optional", present "optional_chain"), ("computed", fun _ => true)]
     [child "object", child "index"],
   described ["assignment_expression", "augmented_assignment_expression"]
     [("operator", fun v => v.operator?.getD "=")] [boxed "left", boxed "right"],
   { kinds := ["binary_expression"]
     treatment := .emit
       { kind := fun v =>
           if ["&&", "||", "??"].contains (v.operator?.getD "") then some "logic_expr" else none
         properties := [("operator", fun v => v.operator?.getD "")]
         parts := [boxed "left", boxed "right"] } },
   described ["unary_expression"] [("operator", text "operator"), ("prefix", fun _ => true)]
     [child "argument"],
   described ["update_expression"]
     [("operator", text "operator"), ("prefix", fun v => v.opensWithToken)] [child "argument"],
   plain ["ternary_expression"] [child "condition", child "consequence", child "alternative"] true,
   plain ["parenthesized_expression", "await_expression", "spread_element", "rest_pattern",
     "jsx_expression", "jsx_attribute", "jsx_namespace_name", "type_annotation", "as_expression",
     "satisfies_expression", "non_null_expression", "union_type", "intersection_type",
     "array_type", "tuple_type", "literal_type", "parenthesized_type", "type_query",
     "lookup_type", "conditional_type", "nested_type_identifier", "type_arguments",
     "type_parameters", "type_parameter", "extends_type_clause", "generic_type",
     "type_assertion", "asserts_annotation", "type_predicate_annotation",
     "opting_type_annotation", "omitting_type_annotation", "adding_type_annotation",
     "mapped_type_clause", "infer_type", "optional_type", "rest_type", "nested_identifier",
     "instantiation_expression"] [all],
   grouping ["constraint", "default_type", "template_type"],
   plain ["this_type", "existential_type"] [],
   described ["readonly_type"] [("operator", fun _ => "readonly")] [all],
   described ["type_predicate"] [("asserts", fun _ => false)] [child "name", child "type"] true,
   { kinds := ["asserts"]
     applies := fun v => v.hasKind "type_predicate"
     treatment := .emit
       { properties := [("asserts", fun _ => true)]
         parts :=
           [.nodes (.within (.childOfKind "type_predicate") (.field "name")),
            .nodes (.within (.childOfKind "type_predicate") (.field "type"))]
         positional := true } },
   described ["asserts"] [("asserts", fun _ => true)] [.nodes (.first .named)] true,
   plain ["template_literal_type"] [gathered "types" (.within (.ofKind ["template_type"]) .named)],
   described ["index_type_query"] [("operator", fun _ => "keyof")] [all],
   plain ["sequence_expression"] [gathered "exprs" .named],
   described ["yield_expression"] [("delegate", token "*")] [all],
   described ["arrow_function"]
     [("async", token "async"),
      ("expression", fun v => (v.field? "body").any fun h => h.kind != "statement_block"),
      ("generator", fun _ => false)]
     [always "params" (.orElse (.field "parameter") params), child "body", child "return_type",
      child "type_parameters"],
   described ["function_expression", "function", "generator_function"]
     [("async", token "async"), ("generator", yieldsValues)]
     [child "name", always "params" params, child "body", child "return_type",
      child "type_parameters"],
   plain ["object", "object_pattern"] [gathered "props" .named],
   plain ["array", "array_pattern"] [gathered "elems" .named],
   described ["pair", "pair_pattern"]
     [("computed", fun v => nameIsComputed (v.field? "key")), ("shorthand", fun _ => false)]
     [child "key", child "value"] true,
   plain ["assignment_pattern", "object_assignment_pattern"] [boxed "left", boxed "right"]]

/-- Markup inside of expressions. -/
def markupRules : List Rule :=
  [plain ["jsx_element"] [child "open_tag", gathered "children" content, child "close_tag"],
   described ["jsx_self_closing_element"] [("selfClosing", fun _ => true)]
     [child "name", gathered "attrs" (.fields "attribute")],
   described ["jsx_opening_element"] [("selfClosing", fun _ => false)]
     [child "name", gathered "attrs" (.fields "attribute")],
   plain ["jsx_closing_element"] [child "name"],
   described ["jsx_text"] [("value", fun v => v.text)] [],
   { kinds := ["html_character_reference"], treatment := .elide }]

/-- Types and the declarations of them. -/
def typeRules : List Rule :=
  [{ kinds := ["predefined_type"]
     treatment := .emit { kind := fun v => (predefinedTypes.lookup v.text).getD "any" } },
   described ["interface_declaration"] [("declare", onlyDescribes)]
     [child "name", child "type_parameters", .nodes (.childOfKind "extends_type_clause"),
      child "body"],
   described ["property_signature"] [("optional", token "?"), ("readonly", token "readonly")]
     [child "name", child "type"],
   plain ["call_signature", "construct_signature"] [always "params" params, child "return_type"],
   plain ["index_signature"] [all],
   plain ["function_type"] [always "params" params, child "return_type"],
   described ["constructor_type"] [("abstract", token "abstract")]
     [always "params" params, .nodes (.orElse (.field "type") (.field "return_type")),
      child "type_parameters"],
   described ["type_alias_declaration"] [("declare", onlyDescribes)]
     [child "name", child "type_parameters", child "value"],
   described ["enum_declaration"] [("const", token "const"), ("declare", onlyDescribes)]
     [child "name", always "members" (.inField "body")],
   plain ["enum_assignment"] [child "name", child "value"] true,
   described ["internal_module", "module"] [("declare", onlyDescribes)]
     [child "name", child "body"],
   described ["required_parameter", "optional_parameter"]
     [("optional", fun v => v.kind == "optional_parameter"), ("readonly", token "readonly"),
      ("accessibility", accessModifier)]
     [child "pattern", child "type", child "value", gathered "decors" (.fields "decorator")]]

/-- The rules for TypeScript and JavaScript nodes. -/
def rules : List Rule :=
  grouping ["program"] ::
    { kinds := ["hash_bang_line", "accessibility_modifier", "override_modifier"]
      treatment := .elide } ::
    (declarationRules ++ statementRules ++ moduleRules ++ expressionRules ++ markupRules ++
      typeRules)

end FactStream.TypeScript

namespace FactStream

/-- The language family of TypeScript and JavaScript. -/
def Language.typeScript : Language where
  nameSpace := "ts"
  title := "TypeScript/JavaScript"
  aliases := ["typescript", "js", "javascript"]
  extensions := ["js", "jsx", "ts", "tsx"]
  rules := TypeScript.rules
  otherwise := none
  rename := TypeScript.rename
  commonKinds := { entries := TypeScript.commonKinds }
  naming := .javaScript

end FactStream
