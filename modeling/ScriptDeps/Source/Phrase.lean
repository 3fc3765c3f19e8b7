import ScriptDeps.Source.Token

/-!
# Phrases

The parts that a script is made of, from the whole script down to a single literal. A phrase that
only gathers others has no node of its own in a syntax tree.
-/

namespace ScriptDeps.Source

/-- A part of a script that the grammar describes. -/
inductive Phrase where
  /-- A whole script. -/
  | script
  /-- A statement, or several on a line. -/
  | statement
  /-- Statements on one line, up to its end. -/
  | line
  /-- An import of modules. -/
  | importStatement
  /-- The dots in front of a relative module path. -/
  | dots
  /-- A module path relative to the package. -/
  | relativePath
  /-- An import of language features. -/
  | futureStatement
  /-- An import of names from a module. -/
  | fromStatement
  /-- The names that an import lists. -/
  | importList
  /-- A dotted name that is given another name. -/
  | renamed
  /-- The star that imports every name. -/
  | star
  /-- A print statement. -/
  | printStatement
  /-- Where a print statement prints to. -/
  | redirection
  /-- An assertion. -/
  | assertStatement
  /-- Expressions, or an assignment, as a statement. -/
  | expressionStatement
  /-- An expression that gives its value a name. -/
  | namedExpression
  /-- The name that an expression gives to its value. -/
  | namedTarget
  /-- A return from a function. -/
  | returnStatement
  /-- A deletion. -/
  | deleteStatement
  /-- The raising of an exception. -/
  | raiseStatement
  /-- A statement that does nothing. -/
  | passStatement
  /-- The end of a loop. -/
  | breakStatement
  /-- The end of one turn of a loop. -/
  | continueStatement
  /-- A choice by conditions. -/
  | ifStatement
  /-- A further condition of a choice. -/
  | elifClause
  /-- What is done otherwise. -/
  | elseClause
  /-- A choice by patterns. -/
  | matchStatement
  /-- The cases of a choice by patterns. -/
  | cases
  /-- One case of a choice by patterns. -/
  | caseClause
  /-- A loop over values. -/
  | forStatement
  /-- A loop under a condition. -/
  | whileStatement
  /-- A statement that handles exceptions. -/
  | tryStatement
  /-- A clause that handles an exception. -/
  | exceptClause
  /-- A clause that handles a group of exceptions. -/
  | exceptGroupClause
  /-- What is done in the end. -/
  | finallyClause
  /-- A statement under context managers. -/
  | withStatement
  /-- The context managers of a statement. -/
  | managers
  /-- One context manager. -/
  | manager
  /-- The definition of a function. -/
  | functionDefinition
  /-- The parameters of a function, in their parentheses. -/
  | parameters
  /-- The parameters of a lambda expression. -/
  | lambdaParameters
  /-- Unpacked values. -/
  | listSplat
  /-- Unpacked keys and values. -/
  | mapSplat
  /-- A declaration of global names. -/
  | globalStatement
  /-- A declaration of names of an outer function. -/
  | nonlocalStatement
  /-- An exec statement. -/
  | execStatement
  /-- The definition of a type. -/
  | typeStatement
  /-- The definition of a class. -/
  | classDefinition
  /-- Types in brackets. -/
  | typeParameters
  /-- Unpacked values in parentheses. -/
  | enclosedSplat
  /-- The arguments of a call. -/
  | arguments
  /-- A definition under decorators. -/
  | decoratedDefinition
  /-- A decorator. -/
  | decorator
  /-- The statements of an indented block. -/
  | block
  /-- Expressions with commas between them. -/
  | expressionList
  /-- Names with dots between them. -/
  | dottedName
  /-- A pattern of a case. -/
  | casePattern
  /-- A pattern of a case that binds no name as a whole. -/
  | simplePattern
  /-- A pattern of a case with a name for what it matches. -/
  | asPattern
  /-- Alternative patterns of a case. -/
  | unionPattern
  /-- The patterns after the first of a union. -/
  | unionTail
  /-- Patterns of a case in brackets. -/
  | listPattern
  /-- Patterns of a case in parentheses. -/
  | tuplePattern
  /-- Patterns of a case for keys and values. -/
  | mapPattern
  /-- A pattern of a case for a key and its value. -/
  | keyValuePattern
  /-- A pattern of a case for a named attribute. -/
  | keywordPattern
  /-- A pattern of a case for all that is left. -/
  | splatPattern
  /-- A pattern of a case for an object of a class. -/
  | classPattern
  /-- A pattern of a case for a complex number. -/
  | complexPattern
  /-- Parameters with commas between them. -/
  | parameterList
  /-- Targets with commas between them, in brackets. -/
  | targets
  /-- One parameter. -/
  | parameter
  /-- What can be assigned to. -/
  | target
  /-- Targets in parentheses. -/
  | tupleTarget
  /-- Targets in brackets. -/
  | listTarget
  /-- A parameter with a default. -/
  | defaultParameter
  /-- A parameter with a type and a default. -/
  | typedDefaultParameter
  /-- A target for all values that are left. -/
  | listSplatTarget
  /-- A target for all keys and values that are left. -/
  | mapSplatTarget
  /-- An expression with a name for its value. -/
  | asExpression
  /-- What a clause of a comprehension runs over. -/
  | clauseSource
  /-- An expression. -/
  | expression
  /-- An operand of operators. -/
  | primary
  /-- A negation. -/
  | notOperation
  /-- A conjunction or disjunction. -/
  | booleanOperation
  /-- Two operands with a sign between them. -/
  | binaryOperation
  /-- An operand behind a sign. -/
  | unaryOperation
  /-- The words that deny membership. -/
  | notIn
  /-- The words that deny identity. -/
  | isNot
  /-- A chain of comparisons. -/
  | comparison
  /-- A function without a name. -/
  | lambdaExpression
  /-- A function without a name in a clause of a comprehension. -/
  | clauseLambda
  /-- An assignment or a declaration of a type. -/
  | assignment
  /-- An assignment with an operation. -/
  | augmentedAssignment
  /-- Targets with commas between them. -/
  | targetList
  /-- What is assigned. -/
  | assigned
  /-- What a generator gives. -/
  | yieldExpression
  /-- A member of a value. -/
  | member
  /-- An element of a value. -/
  | subscript
  /-- A range of elements. -/
  | slice
  /-- A call. -/
  | call
  /-- A parameter with a type. -/
  | typedParameter
  /-- A type. -/
  | typing
  /-- An unpacked type. -/
  | splatType
  /-- A type with types in brackets. -/
  | genericType
  /-- One of two types. -/
  | unionType
  /-- A type with a bound. -/
  | constrainedType
  /-- A type that is part of another. -/
  | memberType
  /-- A named argument. -/
  | keywordArgument
  /-- A list. -/
  | listDisplay
  /-- A set. -/
  | setDisplay
  /-- A tuple. -/
  | tupleDisplay
  /-- A dictionary. -/
  | mapDisplay
  /-- A key and its value. -/
  | pair
  /-- A list made by clauses. -/
  | listComprehension
  /-- A dictionary made by clauses. -/
  | mapComprehension
  /-- A set made by clauses. -/
  | setComprehension
  /-- A generator made by clauses. -/
  | generator
  /-- The clauses of a comprehension. -/
  | clauses
  /-- An expression in parentheses. -/
  | enclosed
  /-- The elements of a list, a set or a tuple. -/
  | elements
  /-- A clause of a comprehension that runs over values. -/
  | forClause
  /-- A clause that selects. -/
  | ifClause
  /-- A choice between two expressions. -/
  | conditional
  /-- String literals in a row. -/
  | stringRow
  /-- A string literal. -/
  | stringLiteral
  /-- Text of a string literal. -/
  | stringText
  /-- An interpolated value of a string literal. -/
  | interpolation
  /-- What is interpolated. -/
  | interpolated
  /-- The format of an interpolated value. -/
  | formatText
  /-- A value that is waited for. -/
  | awaitExpression
  /-- The sign after parameters without a name. -/
  | slashSeparator
  /-- The sign before parameters with a name. -/
  | starSeparator
  deriving DecidableEq, Repr

namespace Phrase

/-- Phrases that only gather others and have no node of their own. -/
def isTransparent : Phrase → Bool
  | .script | .statement | .line | .importList | .namedTarget | .cases | .simplePattern | .asPattern
  | .unionTail | .listPattern | .tuplePattern | .keyValuePattern | .parameterList | .targets
  | .parameter | .target | .clauseSource | .expression | .primary | .notIn | .isNot | .assigned
  | .clauses | .elements | .interpolated => true
  | _ => false

end Phrase

end ScriptDeps.Source
