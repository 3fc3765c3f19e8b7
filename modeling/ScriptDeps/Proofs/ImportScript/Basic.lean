import ScriptDeps.Import.Basic
import ScriptDeps.Proofs.Source.Taking

/-!
# Import scripts

An import script is made of import statements, in blocks that may stand in blocks. It is printed one
statement or header on a line, with four more spaces of indentation in each block. Each statement
has its imports, with their places in the printed text.
-/

namespace ScriptDeps

open Source

namespace ImportScript

/-- Words that are no names: keywords, words that are keywords in some places, the words of older
statements and the module of language features. -/
def keywords : List String :=
  ["False", "None", "True", "and", "as", "assert", "async", "await", "break", "class", "continue",
   "def", "del", "elif", "else", "except", "finally", "for", "from", "global", "if", "import", "in",
   "is", "lambda", "nonlocal", "not", "or", "pass", "raise", "return", "try", "while", "with",
   "yield", "_", "case", "match", "type", "print", "exec", "__future__"]

/-- A name of the basic alphabet that is no keyword. -/
structure Name where
  /-- The text. -/
  text : List Char
  /-- It begins with a letter or underscore. -/
  head : text.head?.any isWordStart = true
  /-- It has only letters, digits and underscores. -/
  tail : text.all isWordChar = true
  /-- It is no keyword. -/
  free : String.ofList text ∉ keywords

/-- Names with dots between them. -/
structure Dotted where
  /-- The first name. -/
  first : Name
  /-- The other names. -/
  more : List Name

/-- The text of a dotted name. -/
def Dotted.text (d : Dotted) : List Char := d.first.text ++ d.more.flatMap fun n => '.' :: n.text

/-- What is imported, and the name it may be given instead of its own. -/
structure Entry where
  /-- What is imported. -/
  path : Dotted
  /-- The other name. -/
  rename : Option Name

namespace Entry

/-- The text behind the path. -/
def ending (e : Entry) : List Char := e.rename.elim [] fun n => " as ".toList ++ n.text

/-- The text of an entry. -/
def text (e : Entry) : List Char := e.path.text ++ e.ending

end Entry

/-- A name imported from a module, and the name it may be given instead of its own. -/
structure Item where
  /-- The imported name. -/
  name : Name
  /-- The other name. -/
  rename : Option Name

/-- A name imported from a module is a path of one component. -/
def Item.entry (i : Item) : Entry := ⟨⟨i.name, []⟩, i.rename⟩

/-- The module that names are imported from. -/
inductive Target where
  /-- A dotted name. -/
  | absolute (path : Dotted)
  /-- A dot and some more, which a dotted name may follow. -/
  | relative (dots : Nat) (path : Option Dotted)

/-- The text of a module that names are imported from. -/
def Target.text : Target → List Char
  | absolute path => path.text
  | relative dots path => '.' :: List.replicate dots '.' ++ path.elim [] Dotted.text

/-- The text of entries with commas between them. -/
def entriesText (first : Entry) (more : List Entry) : List Char :=
  first.text ++ more.flatMap fun e => ", ".toList ++ e.text

/-- A statement that imports. -/
inductive Line where
  /-- Modules are imported. -/
  | modules (first : Entry) (more : List Entry)
  /-- Names are imported from a module. -/
  | names (target : Target) (first : Item) (more : List Item)
  /-- All names are imported from a module. -/
  | star (target : Target)
  /-- Language features are switched on. -/
  | future (first : Item) (more : List Item)

/-- The text of an import statement. -/
def Line.text : Line → List Char
  | modules first more => "import ".toList ++ entriesText first more
  | names target first more =>
    "from ".toList ++ target.text ++ " import ".toList ++
      entriesText first.entry (more.map Item.entry)
  | star target => "from ".toList ++ target.text ++ " import *".toList
  | future first more =>
    "from __future__ import ".toList ++ entriesText first.entry (more.map Item.entry)

/-- What opens a block. -/
inductive Opening where
  /-- A condition. -/
  | choice
  /-- The definition of a function. -/
  | function
  /-- The definition of a class. -/
  | record

/-- The text of the line that opens a block. -/
def Opening.text (name : Name) : Opening → List Char
  | choice => "if ".toList ++ name.text ++ ":".toList
  | function => "def ".toList ++ name.text ++ "():".toList
  | record => "class ".toList ++ name.text ++ ":".toList

mutual

/-- A statement of an import script. -/
inductive Statement where
  /-- An import. -/
  | line (l : Line)
  /-- A block. -/
  | block (opening : Opening) (name : Name) (body : Body)

/-- One or more statements. -/
inductive Body where
  /-- One statement. -/
  | one (s : Statement)
  /-- A statement and those behind it. -/
  | more (s : Statement) (rest : Body)

end

/-- The indentation of a line. -/
def indentation (depth : Nat) : List Char := List.replicate (4 * depth) ' '

mutual

/-- The lines of a statement. -/
def Statement.lines (depth : Nat) : Statement → List (List Char)
  | .line l => [indentation depth ++ l.text]
  | .block opening name body =>
    (indentation depth ++ opening.text name) :: body.lines (depth + 1)

/-- The lines of statements. -/
def Body.lines (depth : Nat) : Body → List (List Char)
  | .one s => s.lines depth
  | .more s rest => s.lines depth ++ rest.lines depth

end

mutual

/-- How many blocks stand in one another in a statement. -/
def Statement.depth : Statement → Nat
  | .line _ => 0
  | .block _ _ body => body.depth + 1

/-- How many blocks stand in one another in some statements. -/
def Body.depth : Body → Nat
  | .one s => s.depth
  | .more s rest => max s.depth rest.depth

end

/-- The imports of entries, of which the first begins at a place. -/
def entryImports (line : Nat) (raw : String) (column : Nat) : List Entry → List Import
  | [] => []
  | e :: es =>
    ⟨String.ofList e.path.text, [], .module, line, column, raw, .unknown,
        e.rename.map fun n => String.ofList n.text⟩ ::
      entryImports line raw (column + e.text.length + 2) es

/-- The names of the imported items. -/
def itemNames (items : List Item) : List String := items.map fun i => String.ofList i.name.text

/-- The imports of a statement that stands at a place. -/
def Line.imports (line column : Nat) (l : Line) : List Import :=
  let raw := String.ofList l.text
  match l with
  | modules first more => entryImports line raw (column + 7) (first :: more)
  | names target first more =>
    [⟨String.ofList target.text, itemNames (first :: more), .names, line, column, raw, .unknown,
      none⟩]
  | star target =>
    [⟨String.ofList target.text, ["*"], .names, line, column, raw, .unknown, none⟩]
  | future first more =>
    [⟨"__future__", itemNames (first :: more), .future, line, column, raw, .unknown, none⟩]

mutual

/-- The imports of a statement that begins on a line. -/
def Statement.imports (line depth : Nat) : Statement → List Import
  | .line l => l.imports line (4 * depth)
  | .block _ _ body => body.imports (line + 1) (depth + 1)

/-- The imports of statements of which the first begins on a line. -/
def Body.imports (line depth : Nat) : Body → List Import
  | .one s => s.imports line depth
  | .more s rest => s.imports line depth ++ rest.imports (line + (s.lines depth).length) depth

end

end ImportScript

/-- A script of imports, in blocks that may stand in blocks. -/
structure ImportScript where
  /-- The statements, if there are any. -/
  body : Option ImportScript.Body

namespace ImportScript

/-- The text of an import script: each line ends with a line end. -/
def print (p : ImportScript) : List Char :=
  p.body.elim [] fun b => ((b.lines 0).map (· ++ ['\n'])).flatten

/-- The imports of an import script, in the order of the text. -/
def imports (p : ImportScript) : List Import := p.body.elim [] (·.imports 1 0)

/-- How many blocks stand in one another in an import script. -/
def depth (p : ImportScript) : Nat := p.body.elim 0 (·.depth)

end ImportScript

end ScriptDeps
