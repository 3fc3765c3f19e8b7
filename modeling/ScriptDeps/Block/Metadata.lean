import ScriptDeps.Block.Basic
import ScriptDeps.DependencyList
import ScriptDeps.Toml.Document

/-!
# What a metadata block says

A block is written line by line as comments between its two markers. Reading one takes the comment
signs away and reads what is left in the TOML format; keys that say nothing about the script are
let be.
-/

namespace ScriptDeps

open Text

namespace Block

/-- The line that opens a block. -/
def openMarker : List Char := '#' :: ' ' :: openBody

/-- The line that closes a block. -/
def closeMarker : List Char := '#' :: ' ' :: closeBody

/-- The line that says which versions of the interpreter a script runs on. -/
def versionLine (version : List Char) : List Char :=
  "# requires-python = \"".toList ++ version ++ ['"']

/-- The line of one package. -/
def dependencyLine (name : List Char) : List Char := "#     \"".toList ++ name ++ "\",".toList

/-- The lines that list the packages, none if there is no package. -/
def dependencyLines (dependencies : DependencyList) : List (List Char) :=
  if dependencies.isEmpty then []
  else
    "# dependencies = [".toList :: dependencies.names.map (dependencyLine ·.toList)
      ++ ["# ]".toList]

/-- The block for some packages and a version, without a final newline. -/
def generate (dependencies : DependencyList) (version : String) : List Char :=
  joinWith ['\n'] <|
    openMarker :: versionLine version.toList :: dependencyLines dependencies ++ [closeMarker]

/-- A line of a block without its comment sign and one blank after it. -/
def uncomment (line : List Char) : List Char :=
  let line := trimStart line
  let line := (dropLead? ['#'] line).getD line
  (dropLead? [' '] line).getD line

/-- One of the two markers of a block. -/
inductive Marker where
  /-- The marker at the start. -/
  | opening
  /-- The marker at the end. -/
  | closing
  deriving DecidableEq, Repr

/-- Why a block cannot be read. -/
inductive Error where
  /-- It lacks a marker. -/
  | missing (marker : Marker)
  /-- What it says is malformed, or a key has a value of the wrong kind. Which of the two, and
  where, is not kept. -/
  | malformed
  deriving DecidableEq, Repr

/-- What a marker is called. -/
def Marker.name : Marker → String
  | .opening => "opening"
  | .closing => "closing"

/-- What an error says. -/
def Error.message : Error → String
  | .missing marker => s!"Metadata block is missing its {marker.name} marker"
  | .malformed => "Invalid TOML in metadata block"

/-- The text between the markers of a block. -/
def body (block : List Char) : Except Error (List Char) :=
  match bareLines block with
  | first :: rest =>
    if isOpen first then
      match cutAt isClose rest with
      | some (lines, _, _) => .ok (joinWith ['\n'] (lines.map uncomment))
      | none => .error (.missing .closing)
    else .error (.missing .opening)
  | [] => .error (.missing .opening)

end Block

/-- What a block says about its script. -/
structure Metadata where
  /-- The versions of the interpreter that the script runs on. -/
  requiresPython : Option String
  /-- The packages that the script needs. -/
  dependencies : List String
  deriving DecidableEq, Repr

namespace Metadata

/-- An entry that may be missing but must else be of some kind. -/
def optional {α : Type} (kind : Toml.Value → Option α) (key : String)
    (entries : List (String × Toml.Value)) : Option (Option α) :=
  match Toml.find? key entries with
  | none => some none
  | some v => (kind v).map some

/-- The metadata that a text in the TOML format gives. -/
def ofToml? (text : List Char) : Option Metadata := do
  let entries ← Toml.read? text
  let requiresPython ← optional Toml.Value.string? "requires-python" entries
  let dependencies ← optional Toml.Value.strings? "dependencies" entries
  some ⟨requiresPython, dependencies.getD []⟩

/-- The metadata that a block gives, its marker lines included. -/
def ofBlock (block : List Char) : Except Block.Error Metadata :=
  match Block.body block with
  | .error e => .error e
  | .ok text =>
    match ofToml? text with
    | some metadata => .ok metadata
    | none => .error .malformed

end Metadata

end ScriptDeps
