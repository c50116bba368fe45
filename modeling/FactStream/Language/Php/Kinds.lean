import FactStream.Fact

/-!
# PHP kinds

The names of kinds and operators of PHP.
-/

namespace FactStream.Php

/-- The kinds of facts by the kinds of nodes. -/
def renames : List (String × String) :=
  [("echo_statement", "stmt_echo"), ("expression_statement", "stmt_expression"),
   ("function_definition", "stmt_function"), ("return_statement", "stmt_return"),
   ("if_statement", "stmt_if"), ("else_if_clause", "stmt_elseif"), ("else_clause", "stmt_else"),
   ("while_statement", "stmt_while"), ("do_statement", "stmt_do"), ("for_statement", "stmt_for"),
   ("foreach_statement", "stmt_foreach"), ("switch_statement", "stmt_switch"),
   ("case_statement", "stmt_case"), ("default_statement", "stmt_case"),
   ("break_statement", "stmt_break"), ("continue_statement", "stmt_continue"),
   ("try_statement", "stmt_trycatch"), ("catch_clause", "stmt_catch"),
   ("finally_clause", "stmt_finally"), ("unset_statement", "stmt_unset"),
   ("global_declaration", "stmt_global"), ("function_static_declaration", "stmt_static"),
   ("static_variable_declaration", "stmt_staticvar"), ("const_declaration", "stmt_const"),
   ("const_element", "const"), ("namespace_definition", "stmt_namespace"),
   ("namespace_use_declaration", "stmt_use"), ("namespace_use_clause", "stmt_useuse"),
   ("namespace_use_group", "stmt_groupuse"), ("class_declaration", "stmt_class"),
   ("interface_declaration", "stmt_interface"), ("trait_declaration", "stmt_trait"),
   ("enum_declaration", "stmt_enum"), ("enum_case", "stmt_enumcase"),
   ("method_declaration", "stmt_classmethod"), ("property_declaration", "stmt_property"),
   ("property_element", "stmt_propertyproperty"),
   ("class_constant_declaration", "stmt_classconst"), ("use_declaration", "stmt_traituse"),
   ("declare_statement", "stmt_declare"), ("goto_statement", "stmt_goto"),
   ("named_label_statement", "stmt_label"), ("text", "stmt_inlinehtml"),
   ("simple_parameter", "param"), ("variadic_parameter", "param"),
   ("property_promotion_parameter", "param"), ("argument", "arg"),
   ("assignment_expression", "expr_assign"), ("reference_assignment_expression", "expr_assignref"),
   ("conditional_expression", "expr_ternary"), ("function_call_expression", "expr_funccall"),
   ("member_call_expression", "expr_methodcall"),
   ("nullsafe_member_call_expression", "expr_nullsafemethodcall"),
   ("scoped_call_expression", "expr_staticcall"), ("object_creation_expression", "expr_new"),
   ("member_access_expression", "expr_propertyfetch"),
   ("nullsafe_member_access_expression", "expr_nullsafepropertyfetch"),
   ("scoped_property_access_expression", "expr_staticpropertyfetch"),
   ("class_constant_access_expression", "expr_classconstfetch"),
   ("subscript_expression", "expr_arraydimfetch"), ("variable_name", "expr_variable"),
   ("dynamic_variable_name", "expr_variable"), ("name", "name"), ("qualified_name", "name"),
   ("namespace_name", "name"), ("named_type", "name"), ("primitive_type", "identifier"),
   ("optional_type", "nullabletype"), ("union_type", "uniontype"),
   ("intersection_type", "intersectiontype"), ("integer", "scalar_lnumber"),
   ("float", "scalar_dnumber"), ("string", "scalar_string"), ("encapsed_string", "scalar_string"),
   ("string_content", "scalar_encapsedstringpart"), ("string_value", "scalar_encapsedstringpart"),
   ("escape_sequence", "scalar_encapsedstringpart"), ("boolean", "expr_constfetch"),
   ("null", "expr_constfetch"), ("array_creation_expression", "expr_array"),
   ("array_element_initializer", "expr_arrayitem"), ("anonymous_function", "expr_closure"),
   ("anonymous_function_creation_expression", "expr_closure"),
   ("arrow_function", "expr_arrowfunction"), ("include_expression", "expr_include"),
   ("include_once_expression", "expr_include"), ("require_expression", "expr_include"),
   ("require_once_expression", "expr_include"), ("print_intrinsic", "expr_print"),
   ("clone_expression", "expr_clone"), ("yield_expression", "expr_yield"),
   ("match_expression", "expr_match"), ("match_conditional_expression", "matcharm"),
   ("match_default_expression", "matcharm"), ("list_literal", "expr_list"),
   ("shell_command_expression", "expr_shellexec"), ("throw_expression", "expr_throw"),
   ("exit_statement", "expr_exit"), ("error_suppression_expression", "expr_errorsuppress")]

/-- The kind of a fact for the kind of a node. -/
def rename (kind : String) : String :=
  (renames.lookup kind).getD kind

/-- The common kinds. All kinds of statements are looked up as `stmt`. -/
def commonKinds : List (String × CommonKind) :=
  [("stmt_function", .func), ("expr_funccall", .call), ("expr_variable", .var), ("arg", .arg),
   ("expr_include", .importDecl), ("block", .block), ("stmt_declare", .decl), ("stmt", .stmt)]

/-- Nodes that only group their children. -/
def grouping : List String :=
  ["program", "compound_statement", "declaration_list", "enum_declaration_list", "switch_block",
   "formal_parameters", "arguments", "parenthesized_expression", "text_interpolation",
   "base_clause", "class_interface_clause", "anonymous_function_use_clause", "match_block",
   "match_condition_list", "sequence_expression", "type_list", "colon_block"]

/-- Nodes that give no facts. -/
def silent : List String :=
  ["php_tag", "empty_statement", "visibility_modifier", "static_modifier", "abstract_modifier",
   "final_modifier", "readonly_modifier", "var_modifier", "reference_modifier", "attribute_list",
   "cast_type"]

/-! ## Operators -/

/-- The kinds of binary expressions by operator. -/
def binaryKinds : List (String × String) :=
  [("+", "expr_binaryop_plus"), ("-", "expr_binaryop_minus"), ("*", "expr_binaryop_mul"),
   ("/", "expr_binaryop_div"), ("%", "expr_binaryop_mod"), ("**", "expr_binaryop_pow"),
   (".", "expr_binaryop_concat"), ("&&", "expr_binaryop_booleanand"),
   ("and", "expr_binaryop_booleanand"), ("||", "expr_binaryop_booleanor"),
   ("or", "expr_binaryop_booleanor"), ("xor", "expr_binaryop_logicalxor"),
   ("&", "expr_binaryop_bitwiseand"), ("|", "expr_binaryop_bitwiseor"),
   ("^", "expr_binaryop_bitwisexor"), ("<<", "expr_binaryop_shiftleft"),
   (">>", "expr_binaryop_shiftright"), ("==", "expr_binaryop_equal"),
   ("!=", "expr_binaryop_notequal"), ("<>", "expr_binaryop_notequal"),
   ("===", "expr_binaryop_identical"), ("!==", "expr_binaryop_notidentical"),
   ("<", "expr_binaryop_smaller"), ("<=", "expr_binaryop_smallerorequal"),
   (">", "expr_binaryop_greater"), (">=", "expr_binaryop_greaterorequal"),
   ("<=>", "expr_binaryop_spaceship"), ("??", "expr_binaryop_coalesce"),
   ("instanceof", "expr_instanceof")]

/-- The kinds of compound assignments by operator. -/
def assignmentKinds : List (String × String) :=
  [("+=", "expr_assignop_plus"), ("-=", "expr_assignop_minus"), ("*=", "expr_assignop_mul"),
   ("/=", "expr_assignop_div"), ("%=", "expr_assignop_mod"), ("**=", "expr_assignop_pow"),
   (".=", "expr_assignop_concat"), ("&=", "expr_assignop_bitwiseand"),
   ("|=", "expr_assignop_bitwiseor"), ("^=", "expr_assignop_bitwisexor"),
   ("<<=", "expr_assignop_shiftleft"), (">>=", "expr_assignop_shiftright"),
   ("??=", "expr_assignop_coalesce")]

/-- The kinds of unary expressions by operator. -/
def unaryKinds : List (String × String) :=
  [("!", "expr_booleannot"), ("-", "expr_unaryminus"), ("+", "expr_unaryplus"),
   ("~", "expr_bitwisenot"), ("@", "expr_errorsuppress")]

/-- The kinds of casts by type. -/
def castKinds : List (String × String) :=
  [("int", "expr_cast_int"), ("integer", "expr_cast_int"), ("bool", "expr_cast_bool"),
   ("boolean", "expr_cast_bool"), ("float", "expr_cast_double"), ("double", "expr_cast_double"),
   ("real", "expr_cast_double"), ("string", "expr_cast_string"), ("binary", "expr_cast_string"),
   ("array", "expr_cast_array"), ("object", "expr_cast_object"), ("unset", "expr_cast_unset")]

end FactStream.Php
