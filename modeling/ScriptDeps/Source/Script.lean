import ScriptDeps.Source.Progress

/-!
# Scripts

The syntax tree of a script. Main definition: `parse?` gives a tree exactly when the whole text
follows the grammar.
-/

namespace ScriptDeps.Source

/-- The automaton of the grammar of scripts. -/
def automaton : Automaton := .ofGrammar grammar

/-- The syntax tree of a script, if it follows the grammar. -/
def parse? (source : List Char) : Option Tree := (Progress.start source).finish? 0 automaton

end ScriptDeps.Source
