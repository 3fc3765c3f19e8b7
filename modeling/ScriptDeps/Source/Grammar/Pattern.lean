import ScriptDeps.Source.Grammar.Statement

/-!
# Patterns

The forms of parameters, of the targets of assignments and of the patterns of cases.
-/

namespace ScriptDeps.Source.Grammar

open Rule Phrase

/-- Parameters of functions. -/
def parameterForms : Grammar :=
  [(parameters, [.seq ["(", optional parameterList, ")"]]),
   (lambdaParameters, [(parameterList : Rule)]),
   (parameterList, [trailed parameter]),
   (parameter,
     [Form.oneOf [Token.name, typedParameter, defaultParameter, typedDefaultParameter,
       listSplatTarget, tupleTarget, starSeparator, slashSeparator, mapSplatTarget]]),
   (defaultParameter, [.seq [oneOf [Token.name, tupleTarget], "=", expression]]),
   (typedParameter,
     [.tight (-1) [oneOf [Token.name, listSplatTarget, mapSplatTarget], ":", typing]]),
   (typedDefaultParameter, [.tight (-1) [Token.name, ":", typing, "=", expression]]),
   (slashSeparator, [("/" : Rule)]),
   (starSeparator, [("*" : Rule)])]

/-- The forms of a target behind stars. -/
def splatTarget (stars : String) : List Form :=
  [.seq [stars, Token.name], .tight (-3) [stars, weakWords],
   .seq [stars, oneOf [softWords, subscript, member]]]

/-- What can be assigned to. -/
def targetForms : Grammar :=
  [(target,
     [(Token.name : Rule), .tight (-3) [weakWords],
      Form.oneOf [softWords, subscript, member, listSplatTarget, tupleTarget, listTarget]]),
   (targets, [trailed target]),
   (targetList,
     [.seq [target, oneOf [",", seq [series (seq [",", target]), optional ","]]]]),
   (tupleTarget, [.seq ["(", optional targets, ")"]]),
   (listTarget, [.seq ["[", optional targets, "]"]]),
   (listSplatTarget, splatTarget "*"),
   (mapSplatTarget, splatTarget "**")]

/-- The patterns of cases. -/
def casePatterns : Grammar :=
  [(casePattern, [.tight 1 [oneOf [asPattern, keywordPattern, simplePattern]]]),
   (simplePattern,
     [.tight 1 [oneOf [classPattern, splatPattern, unionPattern, listPattern, tuplePattern,
       mapPattern, stringLiteral, stringRow, "True", "False", "None",
       seq [optional "-", Token.number], complexPattern, dottedName, "_"]]]),
   (asPattern, [.seq [casePattern, "as", Token.name]]),
   (unionPattern, [.rightward 0 [simplePattern, unionTail]]),
   (unionTail, [.leftward 0 ["|", simplePattern], .leftward 0 [unionTail, "|", simplePattern]]),
   (listPattern, [.seq ["[", optional (trailed casePattern), "]"]]),
   (tuplePattern, [.seq ["(", optional (trailed casePattern), ")"]]),
   (mapPattern,
     [.seq ["\x7b", optional (trailed (oneOf [keyValuePattern, splatPattern])), "\x7d"]]),
   (keyValuePattern, [.seq [simplePattern, ":", casePattern]]),
   (keywordPattern, [.seq [Token.name, "=", simplePattern]]),
   (splatPattern, [.tight 1 [oneOf ["*", "**"], oneOf [Token.name, "_"]]]),
   (classPattern, [.seq [dottedName, "(", optional (trailed casePattern), ")"]]),
   (complexPattern,
     [.tight 1 [optional "-", Token.number, oneOf ["+", "-"], Token.number]])]

end ScriptDeps.Source.Grammar
