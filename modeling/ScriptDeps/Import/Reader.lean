import ScriptDeps.Import.Basic
import ScriptDeps.NameSet
import ScriptDeps.Source.Position
import ScriptDeps.Source.Script

/-!
# Reading imports

The imports of a script are found in its syntax tree, at any depth, in the order of the text. A
script that does not follow the grammar has none, nor has one with a print or exec statement.
-/

namespace ScriptDeps

open Source

/-- The text of a tree. -/
def textOf (t : Tree) : String := String.ofList t.text

/-- The parts of a statement that are phrases and not tokens. -/
def phrases (parts : List Tree) : List Tree :=
  parts.filter fun
    | .leaf _ _ => false
    | .node _ _ => true

/-- An imported name and the name it is given instead. -/
def Source.Tree.importedName : Tree → String × Option String
  | .node .renamed parts =>
    ((phrases parts).head?.elim "" textOf, parts.getLast?.map textOf)
  | t => (textOf t, none)

/-- The path of the module that names are imported from: dots and name without what stands between
them. -/
def Source.Tree.modulePath : Tree → String
  | .node .relativePath parts => String.join (parts.map textOf)
  | t => textOf t

/-- The names that a statement imports, the star among them. -/
def Source.Tree.importedNames (names : List Tree) : List String :=
  if names.any (Tree.isOf .star) then ["*"] else names.map (·.importedName.1)

namespace Import

/-- The imports of one statement that imports modules: one for each name. -/
def ofModules (p : Position) (statement : Tree) : List Import :=
  (Tree.located p statement.children).filterMap fun (q, t) =>
    match t with
    | .leaf _ _ => none
    | t =>
      let (path, rename) := t.importedName
      some ⟨path, [], .module, q.line, q.column, textOf statement, .unknown, rename⟩

/-- The import of one statement that imports names from a module. -/
def ofNames (p : Position) (statement : Tree) : List Import :=
  let q := p.ofTree statement
  match phrases statement.children with
  | [] => []
  | target :: names =>
    [⟨target.modulePath, Tree.importedNames names, .names, q.line, q.column, textOf statement,
      .unknown, none⟩]

/-- The import of one statement that imports language features. -/
def ofFuture (p : Position) (statement : Tree) : Import :=
  let q := p.ofTree statement
  ⟨"__future__", Tree.importedNames (phrases statement.children), .future, q.line, q.column,
    textOf statement, .unknown, none⟩

mutual

/-- The imports in a tree whose gap begins at a point. -/
def ofTree (p : Position) : Tree → List Import
  | .leaf _ _ => []
  | .node .importStatement parts => ofModules p (.node .importStatement parts)
  | .node .fromStatement parts => ofNames p (.node .fromStatement parts)
  | .node .futureStatement parts => [ofFuture p (.node .futureStatement parts)]
  | .node _ parts => ofTrees p parts

/-- The imports in trees that stand in a row. -/
def ofTrees (p : Position) : List Tree → List Import
  | [] => []
  | t :: ts => ofTree p t ++ ofTrees (p.past t) ts

end

end Import

/-- Statements of an older form of the language. -/
inductive OldStatement where
  /-- A print statement. -/
  | print
  /-- An exec statement. -/
  | exec
  deriving DecidableEq, Repr

namespace OldStatement

/-- What the statement is called. -/
def name : OldStatement → String
  | print => "print statement"
  | exec => "exec statement"

mutual

/-- The first old statement in a tree whose gap begins at a point, and where it begins. -/
def first? (p : Position) : Tree → Option (OldStatement × Position)
  | .leaf _ _ => none
  | .node .printStatement parts => some (.print, p.ofTree (.node .printStatement parts))
  | .node .execStatement parts => some (.exec, p.ofTree (.node .execStatement parts))
  | .node _ parts => firstOf? p parts

/-- The first old statement in trees that stand in a row. -/
def firstOf? (p : Position) : List Tree → Option (OldStatement × Position)
  | [] => none
  | t :: ts => (first? p t).or (firstOf? (p.past t) ts)

end

end OldStatement

/-- Why a script cannot be read. -/
inductive SyntaxError where
  /-- The text does not follow the grammar. Where it does not, and what is missing there, is told by
  the recovery from errors, which is not followed. -/
  | malformed
  /-- The text has an old statement. -/
  | old (statement : OldStatement) (position : Position)
  deriving DecidableEq, Repr

/-- What a syntax error says. -/
def SyntaxError.message : SyntaxError → String
  | malformed => "syntax error"
  | old statement p =>
    s!"syntax error at line {p.line}, column {p.column}: {statement.name} is Python 2 syntax"

/-- The imports of a script, in the order of the text. -/
def Import.ofSource (source : List Char) : Except SyntaxError (List Import) :=
  match Source.parse? source with
  | none => .error .malformed
  | some tree =>
    match OldStatement.first? .start tree with
    | some (statement, p) => .error (.old statement p)
    | none => .ok (Import.ofTree .start tree)

/-- The first components of the modules that a script imports, each once and in ascending order. -/
def Import.topLevelNames (source : List Char) : Except SyntaxError (List String) :=
  match Import.ofSource source with
  | .error e => .error e
  | .ok imports => .ok (NameSet.ofList (imports.filterMap Import.topLevel)).toList

end ScriptDeps
