import ScriptDeps.Source.Rule

/-!
# Statements

The forms of statements, of the clauses they are made of and of the suites below them.
-/

namespace ScriptDeps.Source.Grammar

open Rule Phrase

/-- Words that are names wherever they do not begin a statement of their own. -/
def weakWords : Rule := oneOf ["print", "exec", "async", "await"]

/-- Words that are names wherever they cannot stand for themselves. -/
def softWords : Rule := oneOf ["type", "match"]

/-- A name, or a word used as one. -/
def anyName : Rule := oneOf [Token.name, weakWords, softWords]

/-- A statement without a suite. -/
def simpleStatement : Rule :=
  oneOf [futureStatement, importStatement, fromStatement, printStatement, assertStatement,
    expressionStatement, returnStatement, deleteStatement, raiseStatement, passStatement,
    breakStatement, continueStatement, globalStatement, nonlocalStatement, execStatement,
    typeStatement]

/-- A statement with a suite. -/
def compoundStatement : Rule :=
  oneOf [ifStatement, forStatement, whileStatement, tryStatement, withStatement,
    functionDefinition, classDefinition, decoratedDefinition, matchStatement]

/-- What follows the colon of a compound statement: a line, a block, or nothing. -/
def suite : Rule := oneOf [line, seq [Token.indent, block], Token.newline]

/-- One expression or several. -/
def expressions : Rule := oneOf [expression, expressionList]

/-- What stands on the left of an assignment. -/
def leftSide : Rule := oneOf [target, targetList]

/-- Scripts, blocks and lines. -/
def layout : Grammar :=
  [(script, [series statement]),
   (statement, [Form.oneOf [line, compoundStatement]]),
   (line, [.seq [separated ";" simpleStatement, optional ";", Token.newline]]),
   (block, [.seq [many statement, Token.dedent]])]

/-- Statements that import. -/
def imports : Grammar :=
  [(importStatement, [.seq ["import", importList]]),
   (dots, [Rule.series "."]),
   (relativePath, [.seq [dots, optional dottedName]]),
   (futureStatement,
     [.seq ["from", "__future__", "import", oneOf [importList, seq ["(", importList, ")"]]]]),
   (fromStatement,
     [.seq ["from", oneOf [relativePath, dottedName], "import",
       oneOf [star, importList, seq ["(", importList, ")"]]]]),
   (importList, [trailed (oneOf [dottedName, renamed])]),
   (renamed, [.seq [dottedName, "as", Token.name]]),
   (star, [("*" : Rule)]),
   (dottedName, [.tight 1 [separated "." Token.name]])]

/-- Statements of an older form of the language. -/
def oldStatements : Grammar :=
  [(printStatement,
     [.tight 1 ["print", redirection, many (seq [",", expression]), optional ","],
      { Form.tight (-3) ["print", trailed expression] with weight := -1 }]),
   (redirection, [.seq [">>", expression]]),
   (execStatement,
     [.seq ["exec", oneOf [stringLiteral, Token.name],
       optional (seq ["in", listed expression])]])]

/-- Other statements without a suite. -/
def simpleStatements : Grammar :=
  [(assertStatement, [.seq ["assert", listed expression]]),
   (expressionStatement,
     [Form.oneOf [expression, trailed expression, assignment, augmentedAssignment,
       yieldExpression]]),
   (returnStatement, [.seq ["return", optional expressions]]),
   (deleteStatement, [.seq ["del", expressions]]),
   (raiseStatement, [.seq ["raise", optional expressions, optional (seq ["from", expression])]]),
   (passStatement, [.leftward 0 ["pass"]]),
   (breakStatement, [.leftward 0 ["break"]]),
   (continueStatement, [.leftward 0 ["continue"]]),
   (globalStatement, [.seq ["global", listed Token.name]]),
   (nonlocalStatement, [.seq ["nonlocal", listed Token.name]]),
   (typeStatement, [{ Form.seq ["type", typing, "=", typing] with weight := 1 }]),
   (assignment,
     [.seq [leftSide, oneOf [seq ["=", assigned], seq [":", typing],
       seq [":", typing, "=", assigned]]]]),
   (augmentedAssignment,
     [.seq [leftSide,
       oneOf ["+=", "-=", "*=", "/=", "@=", "//=", "%=", "**=", ">>=", "<<=", "&=", "^=", "|="],
       assigned]]),
   (assigned,
     [Form.oneOf [expression, expressionList, assignment, augmentedAssignment, targetList,
       yieldExpression]])]

/-- Statements that choose and repeat. -/
def controlStatements : Grammar :=
  [(ifStatement,
     [.seq ["if", expression, ":", suite, many elifClause, optional elseClause]]),
   (elifClause, [.seq ["elif", expression, ":", suite]]),
   (elseClause, [.seq ["else", ":", suite]]),
   (matchStatement, [.seq ["match", trailed expression, ":", cases]]),
   (cases, [Form.oneOf [seq [Token.indent, many caseClause, Token.dedent], Token.newline]]),
   (caseClause, [.seq ["case", trailed casePattern, optional ifClause, ":", suite]]),
   (forStatement,
     [.seq [optional "async", "for", leftSide, "in", expressions, ":", suite,
       optional elseClause]]),
   (whileStatement, [.seq ["while", expression, ":", suite, optional elseClause]]),
   (tryStatement,
     [.seq ["try", ":", suite,
       oneOf [seq [series exceptClause, optional elseClause, optional finallyClause],
         seq [series exceptGroupClause, optional elseClause, optional finallyClause],
         finallyClause]]]),
   (exceptClause,
     [.seq ["except", optional (seq [expression, optional (seq [oneOf ["as", ","], expression])]),
       ":", suite]]),
   (exceptGroupClause,
     [.seq ["except*", expression, optional (seq ["as", expression]), ":", suite]]),
   (finallyClause, [.seq ["finally", ":", suite]]),
   (withStatement, [.seq [optional "async", "with", managers, ":", suite]]),
   (managers, [Form.oneOf [trailed manager, seq ["(", trailed manager, ")"]]]),
   (manager, [{ Form.seq [expression] with weight := 1 }])]

/-- Statements that define. -/
def definitions : Grammar :=
  [(functionDefinition,
     [.seq [optional "async", "def", Token.name, optional typeParameters, parameters,
       optional (seq ["->", typing]), ":", suite]]),
   (classDefinition,
     [.seq ["class", Token.name, optional typeParameters, optional arguments, ":", suite]]),
   (decoratedDefinition,
     [.seq [series decorator, oneOf [classDefinition, functionDefinition]]]),
   (decorator, [.seq ["@", expression, Token.newline]])]

end ScriptDeps.Source.Grammar
