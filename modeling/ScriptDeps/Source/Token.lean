/-!
# Tokens

A token is a class of texts that the grammar of scripts is built on: words and signs that stand for
themselves, names, numbers, the parts of string literals, and the layout marks that have no text.
-/

namespace ScriptDeps.Source

/-- A class of texts that a script is made of. -/
inductive Token where
  /-- The end of a statement. -/
  | newline
  /-- The start of a block. -/
  | indent
  /-- The end of a block. -/
  | dedent
  /-- The opening of a string literal. -/
  | openQuote
  /-- Plain text of a string literal. -/
  | fragment
  /-- A doubled brace, which stands for one brace in a literal with interpolations. -/
  | brace
  /-- The end of a string literal. -/
  | closeQuote
  /-- The end of the script. -/
  | finish
  /-- A word that stands for itself. -/
  | word (text : String)
  /-- Any other text that stands for itself. -/
  | sign (text : String)
  /-- A name. -/
  | name
  /-- A number. -/
  | number
  /-- A backslash in a string literal with the characters that it gives a meaning. -/
  | escape
  /-- A backslash in a string literal that stands for itself. -/
  | backslash
  /-- How an interpolated value is converted. -/
  | conversion
  /-- Plain text of the format of an interpolated value. -/
  | format
  /-- A comment, which may stand between any two tokens. -/
  | comment
  /-- A line end behind a backslash, which may stand between any two tokens. -/
  | joint
  deriving DecidableEq, Repr

namespace Token

/-- The token of a text that stands for itself: a word if it is made like one. -/
def ofText (text : String) : Token :=
  if text.toList.all fun c => c.isAlpha || c == '_' then .word text else .sign text

end Token

end ScriptDeps.Source
