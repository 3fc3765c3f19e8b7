import ScriptDeps.Source.Token

/-!
# Expected tokens

What a text is read as depends on the tokens that the grammar could take next.
-/

namespace ScriptDeps.Source

/-- The tokens that may come next at a point of a script. -/
structure Expected where
  /-- The end of a statement. -/
  newline : Bool
  /-- The start of a block. -/
  indent : Bool
  /-- The end of a block. -/
  dedent : Bool
  /-- The opening of a string literal. -/
  openQuote : Bool
  /-- Text of a string literal. -/
  fragment : Bool
  /-- A closing bracket of any kind. -/
  bracket : Bool
  /-- A clause that handles an exception. -/
  handler : Bool
  /-- The end of the script. -/
  finish : Bool
  /-- A name. -/
  name : Bool
  /-- A number. -/
  number : Bool
  /-- A conversion of an interpolated value. -/
  conversion : Bool
  /-- A backslash with the characters that it gives a meaning. -/
  escape : Bool
  /-- A backslash that stands for itself. -/
  backslash : Bool
  /-- Text of a format. -/
  format : Bool
  /-- Words that stand for themselves. -/
  words : List String
  /-- Signs that stand for themselves. -/
  signs : List String
  /-- Words that are no names here, although they cannot come next. -/
  reserved : List String
  deriving DecidableEq, Repr, Inhabited

namespace Expected

/-- Nothing may come next. -/
def nothing : Expected where
  newline := false
  indent := false
  dedent := false
  openQuote := false
  fragment := false
  bracket := false
  handler := false
  finish := false
  name := false
  number := false
  conversion := false
  escape := false
  backslash := false
  format := false
  words := []
  signs := []
  reserved := []

/-- One more token may come next. -/
def add (e : Expected) : Token → Expected
  | .newline => { e with newline := true }
  | .indent => { e with indent := true }
  | .dedent => { e with dedent := true }
  | .openQuote => { e with openQuote := true }
  | .fragment => { e with fragment := true }
  | .finish => { e with finish := true }
  | .name => { e with name := true }
  | .number => { e with number := true }
  | .conversion => { e with conversion := true }
  | .escape => { e with escape := true }
  | .backslash => { e with backslash := true }
  | .format => { e with format := true }
  | .word text => { e with words := text :: e.words, handler := e.handler || text == "except" }
  | .sign text =>
    { e with
      signs := text :: e.signs
      bracket := e.bracket || [")", "]", "\x7d"].contains text }
  | .brace | .closeQuote | .comment | .joint => e

/-- What may come next when any of some tokens may. -/
def ofTokens (tokens : List Token) : Expected := tokens.foldl add .nothing

/-- A comment line takes part in finding the indentation. -/
def seesComments (e : Expected) : Bool := e.indent || e.dedent || e.newline || e.handler

/-- A name, or a word made like one, may come next. -/
def takesName (e : Expected) : Bool := e.name || !e.words.isEmpty

end Expected

end ScriptDeps.Source
