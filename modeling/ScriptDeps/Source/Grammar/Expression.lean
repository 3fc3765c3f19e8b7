import ScriptDeps.Source.Grammar.Statement

/-!
# Expressions

The forms of expressions, of the literals in them and of the types that declarations give.
-/

namespace ScriptDeps.Source.Grammar

open Rule Phrase

/-- Two operands with a sign between them, grouped to the left. -/
def operation (level : Int) (sign : String) : Form := .leftward level [primary, sign, primary]

/-- Operators and their operands. -/
def operations : Grammar :=
  [(expression,
     [Form.oneOf [comparison, notOperation, booleanOperation, lambdaExpression, primary,
       conditional, namedExpression, asExpression]]),
   (primary,
     [Form.oneOf [awaitExpression, binaryOperation, Token.name], .tight (-3) [weakWords],
      Form.oneOf [softWords, stringLiteral, stringRow, Token.number, "True", "False", "None",
       unaryOperation, member, subscript, call, listDisplay, listComprehension, mapDisplay,
       mapComprehension, setDisplay, setComprehension, tupleDisplay, enclosed, generator, "...",
       listSplatTarget]]),
   (notOperation, [.tight 12 ["not", expression]]),
   (booleanOperation,
     [.leftward 11 [expression, "and", expression], .leftward 10 [expression, "or", expression]]),
   (binaryOperation,
     [operation 18 "+", operation 18 "-", operation 19 "*", operation 19 "@", operation 19 "/",
      operation 19 "%", operation 19 "//", .rightward 21 [primary, "**", primary],
      operation 14 "|", operation 15 "&", operation 16 "^", operation 17 "<<",
      operation 17 ">>"]),
   (unaryOperation, [.tight 20 [oneOf ["+", "-", "~"], primary]]),
   (awaitExpression, [.tight 20 ["await", primary]]),
   (notIn, [.seq ["not", "in"]]),
   (isNot, [.seq ["is", "not"]]),
   (comparison,
     [.leftward 13 [primary,
       series (seq [oneOf ["<", "<=", "==", "!=", ">=", ">", "<>", "in", notIn, "is", isNot],
         primary])]]),
   (conditional, [.rightward (-1) [expression, "if", expression, "else", expression]]),
   (lambdaExpression, [.tight (-2) ["lambda", optional lambdaParameters, ":", expression]]),
   (namedExpression, [.seq [namedTarget, ":=", expression]]),
   (namedTarget, [(Token.name : Rule), .tight (-3) [weakWords], softWords]),
   (asExpression, [.leftward 0 [expression, "as", expression]]),
   (yieldExpression, [.rightward 0 ["yield", oneOf [seq ["from", expression],
     optional expressions]]]),
   (expressionList,
     [.rightward 0 [expression, oneOf [",", seq [series (seq [",", expression]),
       optional ","]]]])]

/-- What may follow an operand, and arguments. -/
def trailers : Grammar :=
  [(member, [.tight 22 [primary, ".", Token.name]]),
   (subscript, [.tight 22 [primary, "[", trailed (oneOf [expression, slice]), "]"]]),
   (slice,
     [.seq [optional expression, ":", optional expression,
       optional (seq [":", optional expression])]]),
   (call, [.tight 22 [primary, oneOf [generator, arguments]]]),
   (arguments,
     [.seq ["(",
       optional (listed (oneOf [expression, listSplat, mapSplat, enclosedSplat,
         keywordArgument])),
       optional ",", ")"]]),
   (keywordArgument, [.seq [anyName, "=", expression]]),
   (listSplat, [.seq ["*", expression]]),
   (mapSplat, [.seq ["**", expression]]),
   (enclosedSplat, [.tight 1 ["(", oneOf [enclosedSplat, listSplat], ")"]])]

/-- Lists, sets, dictionaries and what stands in parentheses. -/
def displays : Grammar :=
  [(listDisplay, [.seq ["[", optional elements, "]"]]),
   (setDisplay, [.seq ["\x7b", elements, "\x7d"]]),
   (tupleDisplay, [.seq ["(", optional elements, ")"]]),
   (mapDisplay,
     [.seq ["\x7b", optional (listed (oneOf [pair, mapSplat])), optional ",", "\x7d"]]),
   (pair, [.seq [expression, ":", expression]]),
   (listComprehension, [.seq ["[", expression, clauses, "]"]]),
   (mapComprehension, [.seq ["\x7b", pair, clauses, "\x7d"]]),
   (setComprehension, [.seq ["\x7b", expression, clauses, "\x7d"]]),
   (generator, [.seq ["(", expression, clauses, ")"]]),
   (clauses, [.seq [forClause, many (oneOf [forClause, ifClause])]]),
   (forClause,
     [.leftward 0 [optional "async", "for", leftSide, "in", trailed clauseSource]]),
   (clauseSource, [Form.oneOf [expression, clauseLambda]]),
   (clauseLambda, [.seq ["lambda", optional lambdaParameters, ":", clauseSource]]),
   (ifClause, [.seq ["if", expression]]),
   (enclosed, [.tight 1 ["(", oneOf [expression, yieldExpression], ")"]]),
   (elements, [trailed (oneOf [expression, yieldExpression, listSplat, enclosedSplat])])]

/-- String literals. -/
def strings : Grammar :=
  [(stringRow, [.seq [stringLiteral, series stringLiteral]]),
   (stringLiteral,
     [.seq [Token.openQuote, many (oneOf [interpolation, stringText]), Token.closeQuote]]),
   (stringText,
     [.rightward 0 [series (oneOf [Token.brace, Token.escape, Token.backslash,
       Token.fragment])]]),
   (interpolation,
     [.seq ["\x7b", interpolated, optional "=", optional Token.conversion, optional formatText,
       "\x7d"]]),
   (interpolated, [Form.oneOf [expression, expressionList, targetList, yieldExpression]]),
   (formatText, [.seq [":", many (oneOf [Token.format, interpolation])]])]

/-- Types. -/
def types : Grammar :=
  [(typing,
     [.tight 1 [expression],
      Form.oneOf [splatType, genericType, unionType, constrainedType, memberType]]),
   (typeParameters, [.seq ["[", trailed typing, "]"]]),
   (splatType, [.tight 1 [oneOf ["*", "**"], Token.name]]),
   (genericType, [.tight 1 [oneOf [Token.name, "type"], typeParameters]]),
   (unionType, [.leftward 0 [typing, "|", typing]]),
   (constrainedType, [.rightward 0 [typing, ":", typing]]),
   (memberType, [.seq [typing, ".", Token.name]])]

end ScriptDeps.Source.Grammar
