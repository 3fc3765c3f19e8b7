import ScriptDeps.Host.Error
import ScriptDeps.Host.Program
import ScriptDeps.Text.Split

/-!
# Files

A file system holds files and directories. A file may be readable, writable and a program, in any
combination, and stays so when it is written. A path is written with slashes and begins at the root
or in the working directory; walking it needs a directory at each step but the last.
-/

namespace ScriptDeps

/-- The names from the root to a place in a file system. -/
abbrev Path := List String

/-- What may be done with a file. -/
structure Mode where
  /-- It may be read. -/
  readable : Bool
  /-- It may be written. -/
  writable : Bool
  /-- What it does when it is started, by the bytes that it holds, if it may be started. -/
  program : Option (List UInt8 → Program)

/-- What may be done with a new file: it is read and written, and not started. -/
def Mode.new : Mode := ⟨true, true, none⟩

/-- What stands at a place. -/
inductive Entry where
  /-- A file, and what may be done with it. -/
  | file (content : List UInt8) (mode : Mode)
  /-- A directory. -/
  | directory

/-- Places with what stands there; the root is a directory. -/
structure FileSystem where
  /-- The places other than the root. -/
  entries : List (Path × Entry)

/-- The names in a written path, those between two slashes in a row being empty. -/
def namesIn (path : String) : List String := (Text.splitOn '/' path.toList).map String.ofList

/-- Give a key another value, at its place or at the end. -/
def setValue {α β : Type} [DecidableEq α] (key : α) (value : β) : List (α × β) → List (α × β)
  | [] => [(key, value)]
  | (k, v) :: rest => if k = key then (k, value) :: rest else (k, v) :: setValue key value rest

namespace FileSystem

/-- What stands at a place. -/
def find? (fs : FileSystem) (p : Path) : Option Entry :=
  if p = [] then some .directory else fs.entries.lookup p

/-- Put something at a place. -/
def set (fs : FileSystem) (p : Path) (e : Entry) : FileSystem := ⟨setValue p e fs.entries⟩

/-- Take away what stands at a place. -/
def erase (fs : FileSystem) (p : Path) : FileSystem := ⟨fs.entries.filter fun (q, _) => q ≠ p⟩

/-- The place that names lead to from a place, and what stands there. -/
def walk (fs : FileSystem) : Path → List String → Except SystemError (Path × Entry)
  | p, [] =>
    match fs.find? p with
    | some e => .ok (p, e)
    | none => .error .notFound
  | p, name :: names =>
    match fs.find? p with
    | none => .error .notFound
    | some .directory =>
      if name = "" ∨ name = "." then fs.walk p names
      else if name = ".." then fs.walk p.dropLast names
      else if name.utf8ByteSize > 255 then .error .nameTooLong
      else fs.walk (p ++ [name]) names
    | some _ => .error .notDirectory

/-- Where a written path begins, if it is one. -/
def start (directory : Path) (path : String) : Except SystemError Path :=
  if path.toList.contains '\x00' then .error .nulInPath
  else if path = "" then .error .notFound
  else if path.utf8ByteSize > 4095 then .error .nameTooLong
  else .ok (if path.toList.head? = some '/' then [] else directory)

/-- The place of a written path, and what stands there. -/
def locate (fs : FileSystem) (directory : Path) (path : String) :
    Except SystemError (Path × Entry) :=
  match start directory path with
  | .error e => .error e
  | .ok p => fs.walk p (namesIn path)

/-- Something stands at a written path. -/
def exists? (fs : FileSystem) (directory : Path) (path : String) : Bool :=
  (fs.locate directory path).toBool

/-- The bytes of a file. -/
def read (fs : FileSystem) (directory : Path) (path : String) : Except SystemError (List UInt8) :=
  match fs.locate directory path with
  | .error e => .error e
  | .ok (_, .file content mode) => if mode.readable then .ok content else .error .denied
  | .ok (_, .directory) => .error .isDirectory

/-- The place where a file of a name can be made or replaced in a directory. -/
def targetIn (fs : FileSystem) (p : Path) (name : String) : Except SystemError Path :=
  if name = "" ∨ name = "." ∨ name = ".." then .error .isDirectory
  else if name.utf8ByteSize > 255 then .error .nameTooLong
  else
    match fs.find? (p ++ [name]) with
    | some .directory => .error .isDirectory
    | some (.file _ mode) => if mode.writable then .ok (p ++ [name]) else .error .denied
    | none => .ok (p ++ [name])

/-- The place where a file of a written path can be made or replaced. A path that ends in a slash is
one of a directory, whether there is one or not. -/
def target (fs : FileSystem) (directory : Path) (path : String) : Except SystemError Path :=
  let names := namesIn path
  let proper := (names.reverse.dropWhile (· = "")).reverse
  match start directory path with
  | .error e => .error e
  | .ok p =>
    match fs.walk p (proper.dropLast ++ [""]) with
    | .error e => .error e
    | .ok (p, _) => fs.targetIn p (names.getLastD "")

/-- What may be done with the file at a place, or with one that is made there. -/
def modeAt (fs : FileSystem) (p : Path) : Mode :=
  match fs.find? p with
  | some (.file _ mode) => mode
  | _ => .new

/-- Put bytes into a file at a place. A file that stood there keeps its mode. -/
def put (fs : FileSystem) (p : Path) (content : List UInt8) : FileSystem :=
  fs.set p (.file content (fs.modeAt p))

/-- Write a file. -/
def write (fs : FileSystem) (directory : Path) (path : String) (content : List UInt8) :
    Except SystemError FileSystem :=
  match fs.target directory path with
  | .error e => .error e
  | .ok p => .ok (fs.put p content)

end FileSystem

end ScriptDeps
