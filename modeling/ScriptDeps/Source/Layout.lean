import ScriptDeps.Source.Expected
import ScriptDeps.Source.Nesting

/-!
# Line ends and indentation

Whether a line end closes a statement, opens a block or ends one depends on the tokens that may
come next and on the indentation of the blocks that are open. `survey` looks over the blanks and
comment lines in front of a token, and `Survey.mark?` says which layout mark comes before it.
-/

namespace ScriptDeps.Source

/-- What a look over blank lines and comment lines finds. -/
structure Survey where
  /-- A line end, or the end of the text, was met. -/
  crossed : Bool
  /-- Indentation of the text that follows. -/
  width : UInt16
  /-- Indentation of the first comment line. -/
  comment : Option UInt16
  /-- The blanks that were looked over. -/
  gap : List Char
  /-- The text that follows. -/
  rest : List Char
  deriving DecidableEq, Repr

/-- The survey of a text with one more character in front that is looked over. -/
def passing (c : Char) (v : Option Survey) : Option Survey :=
  v.map fun v => { v with gap := c :: v.gap }

/-- Look over blanks, joined lines and, where they count, comment lines. A comment on the line of
the last token, or a backslash that joins no lines, ends the look without an answer. -/
def survey (comments : Bool) (crossed : Bool) (width : UInt16) (comment : Option UInt16)
    (inComment : Bool) : List Char → Option Survey
  | [] => some ⟨true, 0, comment, [], []⟩
  | c :: s =>
    if inComment then
      if c = '\n' ∨ c = '\x00' then passing c (survey comments crossed 0 comment false s)
      else passing c (survey comments crossed width comment true s)
    else if c = '\n' then passing c (survey comments true 0 comment false s)
    else if c = ' ' then passing c (survey comments crossed (width + 1) comment false s)
    else if c = '\t' then passing c (survey comments crossed (width + 8) comment false s)
    else if c = '\r' ∨ c = '\x0c' then passing c (survey comments crossed 0 comment false s)
    else if c = '#' ∧ comments then
      if crossed then passing c (survey comments true width (comment <|> some width) true s)
      else none
    else if c = '\\' then
      match s with
      | [] => passing c (some ⟨true, 0, comment, [], []⟩)
      | ['\r'] => passing c (passing '\r' (some ⟨true, 0, comment, [], []⟩))
      | '\r' :: '\n' :: s' =>
        passing c (passing '\r' (passing '\n' (survey comments crossed width comment false s')))
      | '\n' :: s' => passing c (passing '\n' (survey comments crossed width comment false s'))
      | _ => none
    else some ⟨crossed, width, comment, [], c :: s⟩

/-- Marks that begin a string literal without a letter before them. -/
def isQuoteMark (c : Char) : Bool := c == '\'' || c == '"' || c == '`'

/-- The layout mark that a survey gives where some tokens may come next. A block ends also where its
end is not expected, if neither the end of a statement nor a closing bracket is and no string
literal begins; but it does not end inside an interpolated string literal, and a comment as deep as
the block keeps it open. -/
def Survey.mark? (v : Survey) (e : Expected) (n : Nesting) : Option Token :=
  if v.crossed then
    if e.indent ∧ n.current < v.width.toNat then some .indent
    else if (e.dedent ∨ !e.newline ∧ !(e.openQuote && v.rest.head?.any isQuoteMark) ∧ !e.bracket) ∧
        v.width.toNat < n.current ∧ !n.interpolated ∧ v.comment.all (·.toNat < n.current) then
      some .dedent
    else if e.newline then some .newline
    else none
  else none

/-- What is open after a layout mark that a survey gives. -/
def Survey.nesting (v : Survey) (mark : Token) (n : Nesting) : Nesting :=
  match mark with
  | .indent => n.openBlock v.width.toNat
  | .dedent => n.closeBlock
  | _ => n

/-- A survey with one more character in front comes from one without. -/
theorem passing_eq_some {c : Char} {v : Option Survey} {w : Survey} (h : passing c v = some w) :
    ∃ u, v = some u ∧ w.gap = c :: u.gap ∧ w.rest = u.rest := by
  obtain ⟨u, hu, rfl⟩ := Option.map_eq_some_iff.1 h
  exact ⟨u, hu, rfl, rfl⟩

/-- What was looked over and what follows are the text. -/
theorem survey_append {comments crossed inComment : Bool} {width : UInt16}
    {comment : Option UInt16} {s : List Char} {v : Survey}
    (h : survey comments crossed width comment inComment s = some v) : v.gap ++ v.rest = s := by
  induction hn : s.length using Nat.strongRecOn
    generalizing crossed inComment width comment s v with
  | ind n ih =>
    have hshorter {crossed inComment : Bool} {width : UInt16} {comment : Option UInt16}
        {t : List Char} {w : Survey} (ht : t.length < s.length)
        (hw : survey comments crossed width comment inComment t = some w) : w.gap ++ w.rest = t :=
      ih t.length (hn ▸ ht) hw rfl
    clear ih
    unfold survey at h
    grind [passing_eq_some]

end ScriptDeps.Source
