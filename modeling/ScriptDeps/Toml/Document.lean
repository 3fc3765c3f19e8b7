import ScriptDeps.Toml.Scalar

/-!
# Documents

A document is a list of lines: headers that open a table, and entries of the table that is open. No
key is given twice and no table is opened twice, in whatever way it is written. Main definition:
`read?` gives the entries of a document exactly when it keeps all rules.
-/

namespace ScriptDeps.Toml

/-! ## Tables under construction -/

/-- How a table came to be. -/
inductive Form where
  /-- It was opened by a header, or is an inline table or the document. -/
  | explicit
  /-- A header of a table inside it was read. -/
  | implied
  /-- A key with dots led through it. -/
  | dotted
  deriving DecidableEq, Repr

/-- What a key holds while the document is read. -/
inductive Item where
  /-- A value that cannot be added to. -/
  | value (v : Value)
  /-- A table. -/
  | table (form : Form) (entries : List (String × Item))
  /-- Tables in a row, of which the last is open. -/
  | tables (earlier : List (List (String × Item))) (last : List (String × Item))

/-- The entries of a table under construction. -/
abbrev Entries := List (String × Item)

/-- Give a key another item, at its place or at the end. -/
def setEntry (key : String) (item : Item) : Entries → Entries
  | [] => [(key, item)]
  | (k, i) :: rest => if k = key then (k, item) :: rest else (k, i) :: setEntry key item rest

/-- Change the table at the end of a path, which begins in a table of some form. Tables that are
missing on the way are made; a key with dots does not lead through a table that has a header. -/
def changeAt (dotted : Bool) (change : Form → Entries → Option (Form × Entries)) :
    (path : List String) → Form → Entries → Option (Form × Entries)
  | [], form, entries => change form entries
  | key :: path, form, entries => do
    let item ←
      match entries.lookup key with
      | none =>
        let (f, es) ← changeAt dotted change path (if dotted then .dotted else .implied) []
        some (Item.table f es)
      | some (.value _) => none
      | some (.tables earlier last) =>
        let (_, es) ← changeAt dotted change path .explicit last
        some (.tables earlier es)
      | some (.table f es) =>
        if dotted ∧ f = .explicit then none
        else
          let (f, es) ← changeAt dotted change path f es
          some (.table f es)
    some (form, setEntry key item entries)

/-- Add an entry whose key may have dots to a table. -/
def addEntry (keys : List String) (item : Item) (form : Form) (entries : Entries) :
    Option (Form × Entries) :=
  let path := keys.dropLast
  changeAt true
    (fun form entries =>
      if decide (form = .dotted) == path.isEmpty then none
      else
        match keys.getLast?, entries.lookup (keys.getLastD "") with
        | some key, none => some (form, entries ++ [(key, item)])
        | _, _ => none)
    path form entries

/-- Open the table that a header names. -/
def openTable (path : List String) (entries : Entries) : Option Entries :=
  (changeAt false
    (fun form entries =>
      let key := path.getLastD ""
      match entries.lookup key with
      | none => some (form, entries ++ [(key, .table .explicit [])])
      | some (.table .implied es) => some (form, setEntry key (.table .explicit es) entries)
      | some _ => none)
    path.dropLast .explicit entries).map (·.2)

/-- Open a further table in the row that a header names. -/
def openNextTable (path : List String) (entries : Entries) : Option Entries :=
  (changeAt false
    (fun form entries =>
      let key := path.getLastD ""
      match entries.lookup key with
      | none => some (form, entries ++ [(key, .tables [] [])])
      | some (.tables earlier last) =>
        some (form, setEntry key (.tables (earlier ++ [last]) []) entries)
      | some _ => none)
    path.dropLast .explicit entries).map (·.2)

mutual

/-- The value that an item has become. -/
def Item.toValue : Item → Value
  | .value v => v
  | .table _ entries => .table (entriesToValues entries)
  | .tables earlier last => .array (tablesToValues earlier ++ [.table (entriesToValues last)])

/-- The values that entries have become. -/
def entriesToValues : List (String × Item) → List (String × Value)
  | [] => []
  | (key, item) :: rest => (key, item.toValue) :: entriesToValues rest

/-- The values that tables in a row have become. -/
def tablesToValues : List (List (String × Item)) → List Value
  | [] => []
  | entries :: rest => .table (entriesToValues entries) :: tablesToValues rest

end

/-! ## Values with parts -/

/-- Values may be nested one less than this deep, and so many keys may not stand in a row. -/
def depthLimit : Nat := 80

/-- Skip blanks and a comment, up to the end of the line. -/
def skipComment? (s : List Char) : Option Rest :=
  match skipSpace s with
  | '#' :: s =>
    let rest := s.dropWhile isPlain
    if rest.isEmpty || (lineEnd? rest).isSome then some rest else none
  | s => some s

/-- Skip blanks, comments and line ends, over at most `limit` lines. -/
def skipLines? : (limit : Nat) → List Char → Option Rest
  | 0, _ => none
  | limit + 1, s => do
    let s ← skipComment? s
    match lineEnd? s with
    | some s => skipLines? limit s
    | none => some s

/-- Skip blanks, comments and line ends. -/
def skipBlank? (s : List Char) : Option Rest := skipLines? (s.length + 1) s

/-- Read the rest of an array, of at most `limit` values. -/
def items? (value : List Char → Option (Value × Rest)) : (limit : Nat) → List Char →
    Option (List Value × Rest)
  | 0, _ => none
  | limit + 1, s => do
    let s ← skipBlank? s
    match s with
    | ']' :: s => some ([], s)
    | s =>
      let (v, s) ← value s
      let s ← skipBlank? s
      match s with
      | ',' :: s =>
        let (vs, s) ← items? value limit s
        some (v :: vs, s)
      | ']' :: s => some ([v], s)
      | _ => none

/-- Read a key, an equals sign and a value. -/
def pair? (value : List Char → Option (Value × Rest)) (s : List Char) :
    Option (List String × Value × Rest) := do
  let (keys, s) ← keys? (depthLimit - 1) s
  let s ← mark? '=' s
  let (v, s) ← value (skipSpace s)
  some (keys, v, s)

/-- Read the rest of an inline table, of at most `limit` entries, into entries read before. -/
def inlineEntries? (value : List Char → Option (Value × Rest)) : (limit : Nat) → Entries →
    List Char → Option (Entries × Rest)
  | 0, _, _ => none
  | limit + 1, entries, s => do
    let (keys, v, s) ← pair? value s
    let (_, entries) ← addEntry keys (.value v) .explicit entries
    match skipSpace s with
    | ',' :: s => inlineEntries? value limit entries s
    | '\x7d' :: s => some (entries, s)
    | _ => none

/-- Read a value with at most `depth` values inside one another. -/
def value? : (depth : Nat) → List Char → Option (Value × Rest)
  | depth, s =>
    match s with
    | '"' :: _ => (quoted? s).map fun (text, s) => (.string (String.ofList text), s)
    | '\'' :: _ => (quoted? s).map fun (text, s) => (.string (String.ofList text), s)
    | '[' :: s =>
      match depth with
      | 0 => none
      | depth + 1 => (items? (value? depth) (s.length + 1) s).map fun (vs, s) => (.array vs, s)
    | '\x7b' :: s =>
      match depth with
      | 0 => none
      | depth + 1 =>
        match skipSpace s with
        | '\x7d' :: s => some (.table [], s)
        | s =>
          (inlineEntries? (value? depth) (s.length + 1) [] s).map fun (entries, s) =>
            (.table (entriesToValues entries), s)
    | s => scalar? s

/-! ## Lines -/

/-- What a line of a document says. -/
inductive Line where
  /-- Nothing. -/
  | empty
  /-- A table is opened. -/
  | header (path : List String)
  /-- A further table of a row is opened. -/
  | nextHeader (path : List String)
  /-- An entry of the open table. -/
  | entry (keys : List String) (v : Value)

/-- Read what a line says, without its end. -/
def line? (s : List Char) : Option (Line × Rest) :=
  match skipSpace s with
  | [] => some (.empty, [])
  | '#' :: s => some (.empty, '#' :: s)
  | '\n' :: s => some (.empty, '\n' :: s)
  | '\r' :: s => some (.empty, '\r' :: s)
  | '[' :: '[' :: s => do
    let (path, s) ← keys? (depthLimit - 1) s
    let s ← mark? ']' s
    let s ← mark? ']' s
    some (.nextHeader path, s)
  | '[' :: s => do
    let (path, s) ← keys? (depthLimit - 1) s
    let s ← mark? ']' s
    some (.header path, s)
  | s => (pair? (value? (depthLimit - 1)) s).map fun (keys, v, s) => (.entry keys v, s)

/-- Read the lines of a document, at most `limit`. -/
def lines? : (limit : Nat) → List Char → Option (List Line)
  | 0, _ => none
  | limit + 1, s => do
    let (line, s) ← line? s
    let s ← skipComment? s
    match s with
    | [] => some [line]
    | s => do
      let s ← lineEnd? s
      let rest ← lines? limit s
      some (line :: rest)

/-- A document under construction. -/
structure Draft where
  /-- The path of the open table. -/
  path : List String
  /-- All entries. -/
  entries : Entries

/-- Take in a line. -/
def Draft.add (d : Draft) : Line → Option Draft
  | .empty => some d
  | .header path => (openTable path d.entries).map (⟨path, ·⟩)
  | .nextHeader path => (openNextTable path d.entries).map (⟨path, ·⟩)
  | .entry keys v =>
    (changeAt false (addEntry keys (.value v)) d.path .explicit d.entries).map fun (_, entries) =>
      ⟨d.path, entries⟩

/-- The entries of a document, if it keeps all rules. -/
def read? (s : List Char) : Option (List (String × Value)) := do
  let s := if s.head? = some '\uFEFF' then s.tail else s
  let lines ← lines? (s.length + 1) s
  let draft ← lines.foldlM Draft.add ⟨[], []⟩
  some (entriesToValues draft.entries)

end ScriptDeps.Toml
