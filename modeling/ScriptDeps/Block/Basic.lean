import ScriptDeps.Text.Blank
import ScriptDeps.Text.Lines

/-!
# The metadata block inside a script

A block runs from the first open marker line to the first close marker line after it, line endings
included. Finding one cuts the script into the text before it, the block and the text after it, and
those three joined are always the script again.
-/

namespace ScriptDeps.Block

open ScriptDeps.Text

/-- The text of a comment line without its hash sign and the blanks around it. -/
def commentBody? (line : List Char) : Option (List Char) :=
  (dropLead? ['#'] (trim line)).map trim

/-- The text of the comment that opens a block. -/
def openBody : List Char := "/// script".toList

/-- The text of the comment that closes a block. -/
def closeBody : List Char := "///".toList

/-- A line that opens a block. -/
def isOpen (line : List Char) : Bool := commentBody? line == some openBody

/-- A line that closes a block. -/
def isClose (line : List Char) : Bool := commentBody? line == some closeBody

/-- A list cut into the part before the first element that `p` accepts, and the part from it on. -/
def cutAt {α : Type} (p : α → Bool) : List α → Option (List α × α × List α)
  | [] => none
  | a :: rest =>
    if p a then some ([], a, rest)
    else (cutAt p rest).map fun (before, found, after) => (a :: before, found, after)

/-- The lines before the block, of the block, and after it. -/
def cutLines (lines : List (List Char)) :
    Option (List (List Char) × List (List Char) × List (List Char)) := do
  let (before, opening, rest) ← cutAt isOpen lines
  let (body, closing, after) ← cutAt isClose rest
  some (before, opening :: body ++ [closing], after)

/-- A script cut at its block; without a block all of it stands before. -/
structure Split where
  /-- The text before the block, or the whole script. -/
  before : List Char
  /-- The block with its line endings, empty when there is none. -/
  block : List Char
  /-- The text after the block. -/
  after : List Char
  deriving DecidableEq, Repr

/-- A script has a block when that part of the cut holds text. -/
def Split.hasBlock (s : Split) : Bool := !s.block.isEmpty

/-- Cut a script at its block. -/
def split (content : List Char) : Split :=
  match cutLines (lines content) with
  | some (before, block, after) => ⟨before.flatten, block.flatten, after.flatten⟩
  | none => ⟨content, [], []⟩

/-- A stretch of a text in bytes, from `start` up to but not including `stop`. -/
structure Range where
  /-- First byte. -/
  start : Nat
  /-- First byte no longer in the stretch. -/
  stop : Nat
  deriving DecidableEq, Repr

/-- The bytes that the block of a script covers. -/
def find? (content : List Char) : Option Range :=
  (cutLines (lines content)).map fun (before, block, _) =>
    let start := byteLength before.flatten
    ⟨start, start + byteLength block.flatten⟩

/-- A script has a block. -/
def isPresent (content : List Char) : Bool := (find? content).isSome

/-- Put `block`, written without a final newline, into a script: in place of its own block, else
after a first line that starts with `#!`, else at the top. -/
def reconcile (content block : List Char) : List Char :=
  let parts := split content
  if parts.hasBlock then parts.before ++ block ++ ['\n'] ++ parts.after
  else
    match lines content with
    | first :: rest =>
      if (dropLead? ['#', '!'] first).isSome then
        first ++ (if first.getLast? = some '\n' then [] else ['\n']) ++ block ++ ['\n']
          ++ rest.flatten
      else block ++ ['\n'] ++ content
    | [] => block ++ ['\n']

/-- A cut loses no element. -/
theorem append_of_cutAt {α : Type} {p : α → Bool} {l before after : List α} {a : α}
    (h : cutAt p l = some (before, a, after)) : before ++ a :: after = l := by
  induction l generalizing before with
  | nil => simp [cutAt] at h
  | cons b l ih =>
    unfold cutAt at h
    split at h
    · simp_all
    · obtain ⟨⟨x, y, z⟩, hx, hy⟩ := Option.map_eq_some_iff.1 h
      simp only [Prod.mk.injEq] at hy
      obtain ⟨rfl, rfl, rfl⟩ := hy
      simp [ih hx]

/-- The three parts of a script, joined, are the script. -/
theorem split_append (content : List Char) :
    (split content).before ++ (split content).block ++ (split content).after = content := by
  unfold split cutLines
  cases h : cutAt isOpen (lines content) with
  | none => simp
  | some t =>
    obtain ⟨before, opening, rest⟩ := t
    cases h' : cutAt isClose rest with
    | none => simp [h']
    | some u =>
      obtain ⟨body, closing, after⟩ := u
      have h₁ := append_of_cutAt h
      have h₂ := append_of_cutAt h'
      have h₃ := flatten_lines content
      rw [← h₁, ← h₂] at h₃
      simpa [h, h'] using h₃

end ScriptDeps.Block
