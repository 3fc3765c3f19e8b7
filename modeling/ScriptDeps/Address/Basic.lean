import ScriptDeps.Address.Domain
import ScriptDeps.Address.Number
import ScriptDeps.Address.Path
import ScriptDeps.Text.Blank

/-!
# Addresses

An address names something on another computer: a scheme, maybe a user, a host, maybe a port, a
path, and maybe a query and a fragment. `isAddress` tells the texts that are taken for one, and
`Address.ofText` reads them; `Address.text` is the one form in which an address is shown.
-/

namespace ScriptDeps

open Text

/-- A letter of the first 128 characters. -/
def isLetter (c : Char) : Bool := ('a' ≤ c && c ≤ 'z') || ('A' ≤ c && c ≤ 'Z')

/-- A character that a scheme may have after its first. -/
def isSchemeRest (c : Char) : Bool :=
  isLetter c || ('0' ≤ c && c ≤ '9') || c == '+' || c == '.' || c == '-'

/-- The scheme of a text and what follows the colon after it. -/
def splitScheme? : List Char → Option (List Char × List Char)
  | [] => none
  | c :: s =>
    if isLetter c then
      match s.dropWhile isSchemeRest with
      | ':' :: rest => some (c :: s.takeWhile isSchemeRest, rest)
      | _ => none
    else none

/-- A character that may begin the name of a computer in an address. -/
def beginsHost (c : Char) : Bool := c != '/' && c != '?' && c != '#' && !isBlank c

/-- A text is an address: a scheme, a colon and two slashes, and the beginning of a host. -/
def isAddress (text : String) : Bool :=
  match splitScheme? text.toList with
  | some (_, '/' :: '/' :: c :: _) => beginsHost c
  | _ => false

/-- The name and the password of a user, as they are written in an address. -/
structure Address.User where
  /-- The name. -/
  name : List Char
  /-- The password. -/
  password : List Char
  deriving DecidableEq, Repr

/-- An address in parts. -/
structure Address where
  /-- The scheme, in small letters. -/
  scheme : String
  /-- The user. -/
  user : Address.User
  /-- The host as it is shown. -/
  host : List Char
  /-- The port, unless it is the usual one of the scheme. -/
  port : Option Nat
  /-- The segments of the path. -/
  path : List (List Char)
  /-- The query. -/
  query : Option (List Char)
  /-- The fragment. -/
  fragment : Option (List Char)
  deriving DecidableEq, Repr

namespace Address

/-- A letter of the first 128 characters in its small form. -/
def lower (c : Char) : Char := if 'A' ≤ c ∧ c ≤ 'Z' then Char.ofNat (c.toNat + 32) else c

/-- The schemes that are best known, whose addresses always have a path. Each has a usual port, but
for that of files. -/
def usualPorts : List (String × Option Nat) :=
  [("http", some 80), ("https", some 443), ("ws", some 80), ("wss", some 443), ("ftp", some 21),
    ("file", none)]

/-- The scheme is one of the best known. -/
def isSpecial (scheme : String) : Bool := (usualPorts.lookup scheme).isSome

/-- The scheme is that of files, whose addresses have no user and no port. -/
def isFile (scheme : String) : Bool := scheme == "file"

/-- The character divides the segments of a path. -/
def isSlash (scheme : String) (c : Char) : Bool := c == '/' || (isSpecial scheme && c == '\\')

/-- The character ends the part of an address that names a host. -/
def endsHost (scheme : String) (c : Char) : Bool := isSlash scheme c || c == '?' || c == '#'

/-- A text without what an address may have around it and within it: controls and spaces at its
ends, tabs and line ends anywhere. -/
def bare (s : List Char) : List Char :=
  let s := ((s.reverse.dropWhile (·.toNat ≤ 0x20)).reverse).dropWhile (·.toNat ≤ 0x20)
  s.filter fun c => c != '\t' && c != '\n' && c != '\r'

/-! ## Parts -/

/-- The text of a user in front of the last at sign, and what follows it. -/
def splitUser (scheme : String) (s : List Char) : Option (List Char) × List Char :=
  let authority := s.takeWhile (!endsHost scheme ·)
  match authority.reverse.dropWhile (· != '@') with
  | [] => (none, s)
  | _ :: user => (some user.reverse, s.drop (user.length + 1))

/-- A user, in the form in which it is shown. -/
def userOf (text : List Char) : User :=
  let name := text.takeWhile (· != ':')
  ⟨percentEncode outsideUser name, percentEncode outsideUser (text.drop (name.length + 1))⟩

/-- There is something to show of a user. -/
def User.isNamed (u : User) : Bool := !u.name.isEmpty || !u.password.isEmpty

/-- The length of the host at the start of a text: it ends at a colon outside brackets. -/
def hostLength (scheme : String) : (bracketed : Bool) → List Char → Nat
  | _, [] => 0
  | bracketed, c :: s =>
    if (c = ':' ∧ !bracketed) ∨ endsHost scheme c then 0
    else hostLength scheme (if c = '[' then true else if c = ']' then false else bracketed) s + 1

/-- A host of eight numbers, without its first bracket. -/
def bracketedHost (s : List Char) : Except AddressError (List Char) :=
  if s.getLast? = some ']' then (longNumber? s.dropLast).map showLong else .error .longNumber

/-- A host under one of the best known schemes. -/
def specialHost (s : List Char) : Except AddressError (List Char) :=
  match s with
  | '[' :: s => bracketedHost s
  | s =>
    match domainOf s with
    | .error e => .error e
    | .ok [] => .error .emptyHost
    | .ok name => if endsInNumber name then (shortNumber? name).map showShort else .ok name

/-- A host under any other scheme. -/
def otherHost (s : List Char) : Except AddressError (List Char) :=
  match s with
  | '[' :: s => bracketedHost s
  | s =>
    if s.any fun c => "\x00\t\n\r #/:<>?@[\\]^|".toList.contains c then .error .character
    else .ok (percentEncode isControl s)

/-- The port at the start of a text, behind a colon, and what follows it. -/
def portOf (scheme : String) (s : List Char) : Except AddressError (Option Nat × List Char) :=
  match s with
  | ':' :: s =>
    let digits := s.takeWhile Char.isDigit
    let rest := s.drop digits.length
    let port := (valueOf? 10 digits).getD 0
    if rest.head?.any (!"/\\?#".toList.contains ·) ∨ 65535 < port then .error .port
    else if digits.isEmpty ∨ usualPorts.lookup scheme = some (some port) then .ok (none, rest)
    else .ok (some port, rest)
  | s => .ok (none, s)

/-- The path at the start of a text. -/
def pathOf (scheme : String) (s : List Char) : List (List Char) :=
  let text := s.takeWhile fun c => c != '?' && c != '#'
  match text with
  | [] => if isSpecial scheme then [[]] else []
  | c :: rest =>
    follow false [] (segmentsOf (isSlash scheme) (if isSlash scheme c then rest else text))

/-- The query and the fragment of a text. -/
def endingOf (scheme : String) (s : List Char) : Option (List Char) × Option (List Char) :=
  let rest := s.dropWhile fun c => c != '?' && c != '#'
  let query := (rest.takeWhile (· != '#')).tail
  let fragment := rest.dropWhile (· != '#')
  (if rest.head? = some '?' then
      some (percentEncode (outsideQuery (isSpecial scheme)) query)
    else none,
    if fragment.isEmpty then none else some (percentEncode outsideFragment fragment.tail))

/-! ## Reading -/

/-- The path at the start of an address of a file. -/
def filePath (s : List Char) : List (List Char) :=
  follow true [] (segmentsOf (isSlash "file") (s.takeWhile fun c => c != '?' && c != '#'))

/-- A path without the empty segments at its start, but for one that is the last. -/
def trimPath (path : List (List Char)) : List (List Char) :=
  let proper := path.dropWhile (·.isEmpty)
  if proper.isEmpty then [[]] else proper

/-- An address of a file, from what follows two slashes. A drive is no host, and where the path
begins with a drive there is none. -/
def ofFile (s : List Char) : Except AddressError Address :=
  let host := s.takeWhile (!endsHost "file" ·)
  let (host, rest) := if isDrive host then ([], s) else (host, s.drop host.length)
  let (query, fragment) := endingOf "file" rest
  let make (host : List Char) (path : List (List Char)) : Address :=
    ⟨"file", ⟨[], []⟩, host, none, trimPath path, query, fragment⟩
  if host.isEmpty then .ok (make [] (filePath rest))
  else
    match specialHost host with
    | .error e => .error e
    | .ok host =>
      if host = "localhost".toList then .ok (make [] (filePath rest))
      else
        let path := filePath (if rest.head?.any (isSlash "file") then rest.tail else rest)
        .ok (make (if path.head?.any isDrive then [] else host) path)

/-- An address on another computer, from what follows the slashes behind the scheme. -/
def ofRest (scheme : String) (s : List Char) : Except AddressError Address :=
  let (userText, s) := splitUser scheme s
  let hostText := s.take (hostLength scheme false s)
  let rest := s.drop hostText.length
  let user := userOf (userText.getD [])
  if hostText.isEmpty ∧ (isSpecial scheme ∨ user.isNamed ∨ rest.head? = some ':' ∨
      userText = some [] ∧ !rest.isEmpty) then .error .emptyHost
  else
    match if isSpecial scheme then specialHost hostText else otherHost hostText with
    | .error e => .error e
    | .ok host =>
      match portOf scheme rest with
      | .error e => .error e
      | .ok (port, rest) =>
        let (query, fragment) := endingOf scheme rest
        .ok ⟨scheme, user, host, port, pathOf scheme rest, query, fragment⟩

/-- Read an address: a scheme and what follows it. -/
def ofParts (scheme rest : List Char) : Except AddressError Address :=
  let scheme := String.ofList (scheme.map lower)
  if isFile scheme then ofFile (rest.drop 2)
  else if isSpecial scheme then ofRest scheme (rest.dropWhile (isSlash scheme))
  else ofRest scheme (rest.drop 2)

/-- Read a text that is an address. -/
def ofText (text : String) : Except AddressError Address :=
  match splitScheme? (bare text.toList) with
  | some (scheme, rest) => ofParts scheme rest
  | none => .error .emptyHost

/-! ## Writing -/

/-- The user of an address as it is shown. -/
def User.text (u : User) : List Char :=
  if !u.isNamed then []
  else u.name ++ (if u.password.isEmpty then [] else ':' :: u.password) ++ ['@']

/-- An address as it is shown. -/
def text (a : Address) : String :=
  String.ofList <|
    a.scheme.toList ++ "://".toList ++ a.user.text ++ a.host ++
      a.port.elim [] (fun port => ':' :: (toString port).toList) ++
      a.path.flatMap ('/' :: ·) ++ a.query.elim [] ('?' :: ·) ++ a.fragment.elim [] ('#' :: ·)

/-! ## Users -/

/-- The text that percent signs stand for, if it is one. -/
def plain? (s : List Char) : Option (List Char) := (Text.decode (percentDecode s)).toOption

/-- The address as a request is made for it: without a user, unless the user cannot be told from the
address. -/
def withoutUser (a : Address) : Address :=
  match plain? a.user.name with
  | none => a
  | some name =>
    let password := if a.user.password.isEmpty then none else plain? a.user.password
    if name.isEmpty ∧ password.isNone then a else { a with user := ⟨[], []⟩ }

end Address

end ScriptDeps
