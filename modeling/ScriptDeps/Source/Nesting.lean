/-!
# Nesting

At a point of a script some blocks and string literals are open. What is open decides how line
ends, indentation and quote marks are read.
-/

namespace ScriptDeps.Source

/-- How an open string literal is read. -/
structure Quote where
  /-- The quote mark. -/
  mark : Char
  /-- The mark stands three times at either end. -/
  triple : Bool
  /-- Braces hold expressions. -/
  interpolated : Bool
  /-- A backslash stands for itself. -/
  raw : Bool
  /-- The literal holds bytes. -/
  bytes : Bool
  deriving DecidableEq, Repr

/-- What is open at a point of a script. -/
structure Nesting where
  /-- Indentation of the open blocks, innermost first. -/
  indents : List Nat
  /-- The open string literals, innermost first. -/
  quotes : List Quote
  /-- The last string literal that was opened, with none closed since, holds interpolations. -/
  interpolated : Bool
  deriving DecidableEq, Repr

namespace Nesting

/-- Nothing is open. -/
def none : Nesting := ⟨[], [], false⟩

/-- The indentation of the innermost block, zero outside all blocks. -/
def current (n : Nesting) : Nat := n.indents.headD 0

/-- The number of blocks that can be told apart. -/
def depthLimit : Nat := 1022

/-- A block opens; its indentation counts modulo 256. -/
def openBlock (n : Nesting) (width : Nat) : Nesting :=
  if n.indents.length + n.quotes.length < depthLimit then
    { n with indents := width % 256 :: n.indents }
  else n

/-- The innermost block ends. -/
def closeBlock (n : Nesting) : Nesting := { n with indents := n.indents.tail }

/-- A string literal opens. -/
def openQuote (n : Nesting) (q : Quote) : Nesting :=
  { n with quotes := q :: n.quotes, interpolated := q.interpolated }

/-- The innermost string literal ends. -/
def closeQuote (n : Nesting) : Nesting :=
  { n with quotes := n.quotes.tail, interpolated := false }

end Nesting

end ScriptDeps.Source
