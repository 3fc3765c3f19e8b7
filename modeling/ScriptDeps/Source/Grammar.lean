import ScriptDeps.Source.Grammar.Expression
import ScriptDeps.Source.Grammar.Pattern

/-!
# The grammar of scripts

All phrases with their forms. Where two readings of a text compete, the order of the phrases says
which is tried first.
-/

namespace ScriptDeps.Source

open Grammar

/-- The grammar of scripts. -/
def grammar : Grammar :=
  layout ++ imports ++ oldStatements ++ simpleStatements ++ controlStatements ++ definitions ++
    casePatterns ++ parameterForms ++ targetForms ++ operations ++ trailers ++ displays ++
    strings ++ types

end ScriptDeps.Source
