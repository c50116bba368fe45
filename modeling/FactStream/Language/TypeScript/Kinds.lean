import FactStream.Fact

/-!
# TypeScript kinds

The names of kinds of TypeScript and JavaScript.
-/

namespace FactStream.TypeScript

/-- The kinds of facts by the kinds of nodes. -/
def renames : List (String × String) :=
  [("lexical_declaration", "variable"), ("variable_declaration", "variable"),
   ("variable_declarator", "var"), ("identifier", "ident"), ("property_identifier", "ident"),
   ("shorthand_property_identifier", "ident"), ("shorthand_property_identifier_pattern", "ident"),
   ("private_property_identifier", "private_name"), ("type_identifier", "ident"),
   ("statement_identifier", "ident"), ("undefined", "ident"), ("number", "numeric"),
   ("string", "string"), ("template_string", "templ_lit"), ("regex", "regexp"), ("true", "bool"),
   ("false", "bool"), ("call_expression", "call_expr"), ("new_expression", "new"),
   ("member_expression", "member_expr"), ("subscript_expression", "member_expr"),
   ("assignment_expression", "assign_expr"), ("augmented_assignment_expression", "assign_expr"),
   ("binary_expression", "binary_expr"), ("unary_expression", "unary_expr"),
   ("update_expression", "update_expr"), ("ternary_expression", "cond_expr"),
   ("parenthesized_expression", "paren_expr"), ("sequence_expression", "seq"),
   ("await_expression", "await_expr"), ("yield_expression", "yield_expr"),
   ("spread_element", "spread_elem"), ("arrow_function", "arrow_func_expr"),
   ("function_expression", "func_expr"), ("function", "func_expr"),
   ("generator_function", "func_expr"), ("function_declaration", "func"),
   ("generator_function_declaration", "func"), ("function_signature", "decl_func"),
   ("class_declaration", "class"), ("abstract_class_declaration", "class"),
   ("class", "class_expr"), ("class_body", "class_body"), ("method_definition", "class_meth"),
   ("method_signature", "method_sig"), ("abstract_method_signature", "method_sig"),
   ("field_definition", "class_prop"), ("public_field_definition", "class_prop"),
   ("class_static_block", "static_block"), ("object", "obj_expr"), ("pair", "obj_prop"),
   ("pair_pattern", "obj_prop"), ("array", "array_expr"), ("object_pattern", "obj_pattern"),
   ("array_pattern", "array_pattern"), ("assignment_pattern", "assign_pattern"),
   ("object_assignment_pattern", "assign_pattern"), ("rest_pattern", "rest"),
   ("statement_block", "block"), ("expression_statement", "expression"), ("if_statement", "if"),
   ("for_statement", "for"), ("for_in_statement", "for_in"), ("while_statement", "while"),
   ("do_statement", "do_while"), ("return_statement", "return"), ("throw_statement", "throw"),
   ("break_statement", "break"), ("continue_statement", "continue"),
   ("labeled_statement", "label"), ("switch_statement", "switch"), ("switch_case", "case"),
   ("switch_default", "case"), ("try_statement", "try"), ("catch_clause", "catch"),
   ("empty_statement", "empty"), ("debugger_statement", "debugger"),
   ("import_statement", "import"), ("import_specifier", "import_std"),
   ("namespace_import", "import_ns"), ("export_specifier", "export_spec"),
   ("namespace_export", "export_ns"), ("jsx_element", "jsx_elem"),
   ("jsx_self_closing_element", "jsx_elem"), ("jsx_opening_element", "jsx_open"),
   ("jsx_closing_element", "jsx_close"), ("jsx_attribute", "jsx_attr"),
   ("jsx_expression", "jsx_expr_cont"), ("jsx_namespace_name", "jsx_ns_name"),
   ("type_annotation", "type"), ("generic_type", "type_ref"),
   ("nested_type_identifier", "qual_name"), ("type_arguments", "type_args"),
   ("type_parameters", "type_param"), ("type_parameter", "type_param_def"),
   ("intersection_type", "isection_type"), ("array_type", "array"), ("literal_type", "lit_type"),
   ("parenthesized_type", "paren_type"), ("object_type", "type_lit"),
   ("lookup_type", "idx_access"), ("conditional_type", "cond_type"),
   ("index_type_query", "type_op"), ("interface_declaration", "iface"),
   ("interface_body", "iface_body"), ("extends_type_clause", "iface_ext"),
   ("property_signature", "prop_sig"), ("call_signature", "call_sig"),
   ("construct_signature", "constructor_sig"), ("index_signature", "idx_sig"),
   ("type_alias_declaration", "type_alias"), ("enum_declaration", "enum"),
   ("enum_assignment", "enum_memb"), ("as_expression", "as"),
   ("satisfies_expression", "satisfies"), ("non_null_expression", "non_null_expr"),
   ("internal_module", "mod"), ("module", "mod"), ("required_parameter", "param"),
   ("optional_parameter", "param"), ("meta_property", "meta"), ("with_statement", "with"),
   ("import_alias", "import_eq"), ("import_require_clause", "ext_mod_ref"),
   ("nested_identifier", "qual_name"), ("type_assertion", "type_assert"),
   ("type_predicate", "type_pred"), ("asserts", "type_pred"), ("asserts_annotation", "type"),
   ("type_predicate_annotation", "type"), ("opting_type_annotation", "type"),
   ("omitting_type_annotation", "type"), ("adding_type_annotation", "type"),
   ("mapped_type_clause", "type_param_def"), ("this_type", "this"), ("optional_type", "opt_type"),
   ("readonly_type", "type_op"), ("template_literal_type", "templ_lit_type"),
   ("constructor_type", "constructor")]

/-- The kind of a fact for the kind of a node. -/
def rename (kind : String) : String :=
  (renames.lookup kind).getD kind

/-- The common kinds. -/
def commonKinds : List (String × CommonKind) :=
  [("func", .func), ("func_expr", .func), ("arrow_func_expr", .func), ("class_meth", .func),
   ("obj_meth", .func), ("decl_func", .func), ("call_expr", .call), ("new", .call),
   ("tag_templ", .call), ("var", .var), ("param", .arg), ("import", .importDecl),
   ("block", .block), ("variable", .decl), ("class", .classDecl), ("class_expr", .classDecl),
   ("if", .stmt), ("for", .stmt), ("for_in", .stmt), ("for_of", .stmt), ("while", .stmt),
   ("do_while", .stmt), ("return", .stmt), ("throw", .stmt), ("break", .stmt), ("continue", .stmt),
   ("label", .stmt), ("switch", .stmt), ("try", .stmt), ("expression", .stmt), ("empty", .stmt),
   ("debugger", .stmt), ("with", .stmt), ("import_eq", .importDecl)]

/-- The kinds of predefined types by keyword. -/
def predefinedTypes : List (String × String) :=
  [("string", "string"), ("number", "number"), ("boolean", "boolean"), ("bigint", "int"),
   ("symbol", "symbol"), ("object", "object"), ("never", "never"), ("unknown", "unknown"),
   ("undefined", "undefined"), ("null", "null"), ("void", "void")]

end FactStream.TypeScript
