import FactStream.Fact
import FactStream.Text.Ascii
import FactStream.Text.Slice

/-!
# C# kinds

The names of kinds, tokens and operators of C#.
-/

namespace FactStream.CSharp

/-- Words written together, each with a capital: `class_declaration` is `ClassDeclaration`. -/
def capitalizeWords (snake : String) : String :=
  let capital : List Char → List Char
    | [] => []
    | c :: rest => Text.upperAscii c :: rest
  String.ofList ((Text.split (· = '_') snake.toList).flatMap capital)

/-- The name of a keyword token: `public` is `PublicKeyword`. -/
def keywordName (keyword : String) : String :=
  capitalizeWords keyword ++ "Keyword"

/-- Kinds that own their name as a token and not as a node. -/
def declaresName : List String :=
  ["class_declaration", "constructor_declaration", "delegate_declaration",
   "destructor_declaration", "enum_declaration", "enum_member_declaration", "event_declaration",
   "interface_declaration", "local_function_statement", "method_declaration", "parameter",
   "property_declaration", "record_declaration", "struct_declaration", "type_parameter",
   "variable_declarator", "catch_declaration"]

/-- Kinds of facts that are not the node kind in another case. -/
def renames : List (String × String) :=
  [("identifier", "IdentifierName"), ("implicit_type", "IdentifierName"),
   ("integer_literal", "NumericLiteralExpression"), ("real_literal", "NumericLiteralExpression"),
   ("string_literal", "StringLiteralExpression"),
   ("verbatim_string_literal", "StringLiteralExpression"),
   ("raw_string_literal", "StringLiteralExpression"),
   ("character_literal", "CharacterLiteralExpression"), ("null_literal", "NullLiteralExpression"),
   ("this", "ThisExpression"), ("member_access_expression", "SimpleMemberAccessExpression"),
   ("foreach_statement", "ForEachStatement"), ("arrow_expression_clause", "ArrowExpressionClause"),
   ("declaration_list", "DeclarationList"), ("switch_body", "SwitchBody"),
   ("implicit_parameter", "Parameter"),
   ("type_parameter_constraints_clause", "TypeParameterConstraintClause")]

/-- The kind of a fact for the kind of a node. -/
def rename (kind : String) : String :=
  (renames.lookup kind).getD (capitalizeWords kind)

/-- The common kinds. -/
def commonKinds : List (String × CommonKind) :=
  [("MethodDeclaration", .func), ("ConstructorDeclaration", .func),
   ("DestructorDeclaration", .func), ("OperatorDeclaration", .func),
   ("ConversionOperatorDeclaration", .func), ("LocalFunctionStatement", .func),
   ("ParenthesizedLambdaExpression", .func), ("SimpleLambdaExpression", .func),
   ("AccessorDeclaration", .func), ("InvocationExpression", .call),
   ("ObjectCreationExpression", .call), ("ImplicitObjectCreationExpression", .call),
   ("VariableDeclarator", .var), ("Parameter", .arg), ("Argument", .arg),
   ("UsingDirective", .importDecl), ("Block", .block), ("VariableDeclaration", .decl),
   ("LocalDeclarationStatement", .decl), ("FieldDeclaration", .decl),
   ("PropertyDeclaration", .decl), ("EventFieldDeclaration", .decl),
   ("ClassDeclaration", .classDecl), ("StructDeclaration", .classDecl),
   ("InterfaceDeclaration", .classDecl), ("RecordDeclaration", .classDecl),
   ("EnumDeclaration", .classDecl), ("ExpressionStatement", .stmt), ("ReturnStatement", .stmt),
   ("IfStatement", .stmt), ("ForStatement", .stmt), ("ForEachStatement", .stmt),
   ("WhileStatement", .stmt), ("DoStatement", .stmt), ("SwitchStatement", .stmt),
   ("TryStatement", .stmt), ("ThrowStatement", .stmt), ("BreakStatement", .stmt),
   ("ContinueStatement", .stmt), ("YieldReturnStatement", .stmt), ("UsingStatement", .stmt),
   ("LockStatement", .stmt), ("EmptyStatement", .stmt)]

/-- The names of punctuation tokens. -/
def punctuation : List (String × String) :=
  [(";", "SemicolonToken"), (",", "CommaToken"), (".", "DotToken"), (":", "ColonToken"),
   ("::", "ColonColonToken"), ("(", "OpenParenToken"), (")", "CloseParenToken"),
   ("\x7b", "OpenBraceToken"), ("\x7d", "CloseBraceToken"), ("[", "OpenBracketToken"),
   ("]", "CloseBracketToken"), ("<", "LessThanToken"), (">", "GreaterThanToken"),
   ("<=", "LessThanEqualsToken"), (">=", "GreaterThanEqualsToken"), ("=", "EqualsToken"),
   ("==", "EqualsEqualsToken"), ("!=", "ExclamationEqualsToken"), ("=>", "EqualsGreaterThanToken"),
   ("!", "ExclamationToken"), ("?", "QuestionToken"), ("??", "QuestionQuestionToken"),
   ("?.", "QuestionDotToken"), ("+", "PlusToken"), ("-", "MinusToken"), ("*", "AsteriskToken"),
   ("/", "SlashToken"), ("%", "PercentToken"), ("&", "AmpersandToken"), ("|", "BarToken"),
   ("^", "CaretToken"), ("~", "TildeToken"), ("&&", "AmpersandAmpersandToken"),
   ("||", "BarBarToken"), ("<<", "LessThanLessThanToken"), (">>", "GreaterThanGreaterThanToken"),
   ("++", "PlusPlusToken"), ("--", "MinusMinusToken"), ("+=", "PlusEqualsToken"),
   ("-=", "MinusEqualsToken"), ("*=", "AsteriskEqualsToken"), ("/=", "SlashEqualsToken"),
   ("%=", "PercentEqualsToken"), ("&=", "AmpersandEqualsToken"), ("|=", "BarEqualsToken"),
   ("^=", "CaretEqualsToken"), ("<<=", "LessThanLessThanEqualsToken"),
   (">>=", "GreaterThanGreaterThanEqualsToken"), ("??=", "QuestionQuestionEqualsToken"),
   ("$\"", "InterpolatedStringStartToken"), ("\"", "InterpolatedStringEndToken")]

/-- The kinds of expressions with two operands. -/
def binaryKinds : List (String × String) :=
  [("+", "AddExpression"), ("-", "SubtractExpression"), ("*", "MultiplyExpression"),
   ("/", "DivideExpression"), ("%", "ModuloExpression"), ("<<", "LeftShiftExpression"),
   (">>", "RightShiftExpression"), ("&&", "LogicalAndExpression"), ("||", "LogicalOrExpression"),
   ("&", "BitwiseAndExpression"), ("|", "BitwiseOrExpression"), ("^", "ExclusiveOrExpression"),
   ("==", "EqualsExpression"), ("!=", "NotEqualsExpression"), ("<", "LessThanExpression"),
   ("<=", "LessThanOrEqualExpression"), (">", "GreaterThanExpression"),
   (">=", "GreaterThanOrEqualExpression"), ("??", "CoalesceExpression")]

/-- The kinds of assignments. -/
def assignmentKinds : List (String × String) :=
  [("=", "SimpleAssignmentExpression"), ("+=", "AddAssignmentExpression"),
   ("-=", "SubtractAssignmentExpression"), ("*=", "MultiplyAssignmentExpression"),
   ("/=", "DivideAssignmentExpression"), ("%=", "ModuloAssignmentExpression"),
   ("&=", "AndAssignmentExpression"), ("|=", "OrAssignmentExpression"),
   ("^=", "ExclusiveOrAssignmentExpression"), ("<<=", "LeftShiftAssignmentExpression"),
   (">>=", "RightShiftAssignmentExpression"), ("??=", "CoalesceAssignmentExpression")]

/-- The kinds of expressions with an operator in front. -/
def leadingUnaryKinds : List (String × String) :=
  [("+", "UnaryPlusExpression"), ("-", "UnaryMinusExpression"), ("!", "LogicalNotExpression"),
   ("~", "BitwiseNotExpression"), ("++", "PreIncrementExpression"),
   ("--", "PreDecrementExpression"), ("&", "AddressOfExpression"),
   ("*", "PointerIndirectionExpression"), ("^", "IndexExpression")]

/-- The kinds of expressions with an operator behind. -/
def trailingUnaryKinds : List (String × String) :=
  [("++", "PostIncrementExpression"), ("--", "PostDecrementExpression"),
   ("!", "SuppressNullableWarningExpression")]

/-- The name of a token, if it has one. -/
def tokenName? (token : String) : Option String :=
  (punctuation.lookup token).or
    (if token ≠ "" ∧ token.toList.all Text.isAsciiLetter then some (keywordName token) else none)

end FactStream.CSharp
