import ScriptDeps.Address.Basic
import ScriptDeps.Host.Machine

/-!
# Remote scripts

A script may be named by an address instead of a path. It is then fetched into a file, which is
taken away again unless it is kept.
-/

namespace ScriptDeps

/-- Something can be fetched by the scheme of an address. -/
def Address.canFetch (a : Address) : Bool := ["http", "https"].contains a.scheme

/-! ## Errors -/

/-- Why a request got no answer. -/
inductive RequestError where
  /-- The address cannot be read. -/
  | address (e : AddressError)
  /-- Nothing is fetched by the scheme of the address. -/
  | scheme (address : Address)
  /-- There is no connection. -/
  | connect (address : Address) (e : SystemError)
  deriving DecidableEq, Repr

namespace RequestError

/-- What is said when something cannot be connected to. -/
def connectMessage (e : SystemError) : String := s!"tcp connect error: {e.message}"

/-- What a request error says of its cause. -/
def cause : RequestError → String
  | address e => e.message
  | scheme _ => "URL scheme is not allowed"
  | connect _ e => s!"error trying to connect: {connectMessage e}"

/-- What a request error says. -/
def message : RequestError → String
  | address e => s!"builder error: {(address e).cause}"
  | scheme a => s!"builder error for url ({a.text}): {(scheme a).cause}"
  | connect a e => s!"error sending request for url ({a.text}): {(connect a e).cause}"

/-- What a request error says, then what its causes say. -/
def causes (e : RequestError) : List String :=
  e.message :: e.cause ::
    match e with
    | address _ => []
    | scheme _ => []
    | connect _ e => [connectMessage e, e.message]

end RequestError

/-- Why a script could not be fetched. -/
inductive FetchError where
  /-- The request got no answer. -/
  | request (e : RequestError)
  /-- The answer is a refusal. -/
  | status (address : String) (status : Nat)
  /-- The copy could not be written. -/
  | system (e : SystemError)
  deriving DecidableEq, Repr

namespace FetchError

/-- What a fetch error says. -/
def message : FetchError → String
  | request e => s!"HTTP error: {e.message}"
  | status address code => s!"Failed to download {address}: HTTP {code}"
  | system e => s!"IO error: {e.message}"

/-- What a fetch error says, then what its causes say. -/
def causes (e : FetchError) : List String :=
  e.message ::
    match e with
    | request e => e.causes
    | status _ _ => []
    | system e => [e.message]

end FetchError

/-! ## Sources -/

/-- Where a script is. -/
structure Source where
  /-- The path of the script, or of its copy. -/
  path : String
  /-- The address that the copy was fetched from. -/
  address : Option String
  deriving DecidableEq, Repr

/-- The script is a copy of a remote one. -/
def Source.isRemote (s : Source) : Bool := s.address.isSome

namespace Machine

/-- Ask for what stands at an address. -/
def request (address : String) : Step (Except FetchError (List UInt8)) := do
  match Address.ofText address with
  | .error e => return .error (.request (.address e))
  | .ok a =>
    let a := a.withoutUser
    if a.canFetch then
      match (← get).network a.text with
      | .error e => return .error (.request (.connect a e))
      | .ok response =>
        if 200 ≤ response.status ∧ response.status < 300 then return .ok response.body
        else return .error (.status address response.status)
    else return .error (.request (.scheme a))

/-- Write a copy of what was fetched, and the path of the copy. -/
def writeCopy (body : List UInt8) : Step (Except FetchError String) := do
  let m ← get
  match m.files.target m.directory m.copyPath with
  | .error e => return .error (.system e)
  | .ok p => do
    set { m with files := m.files.put p body }
    return .ok m.copyPath

/-- Fetch a script into a file, and the path of that file. Notes about the download are shown on
request; the note is taken away when the answer is a refusal. -/
def fetch (address : String) (showProgress : Bool) : Step (Except FetchError String) := do
  note showProgress (.begun s!"Fetching {address}")
  match ← request address with
  | .error (.status address status) => do
    note showProgress .cleared
    return .error (.status address status)
  | .error e => return .error e
  | .ok body =>
    match ← writeCopy body with
    | .error e => return .error e
    | .ok path => do
      note showProgress (.ended s!"Downloaded {body.length} bytes")
      return .ok path

/-- Find a script: a path is taken as it is, and what an address names is fetched. -/
def resolve (sink : Sink) (script : String) (showProgress : Bool) :
    Step (Except FetchError Source) := do
  if isAddress script then
    say sink .info s!"Downloading script from {script}"
    match ← fetch script showProgress with
    | .error e => return .error e
    | .ok path => do
      say sink .verbose s!"Saved remote script to {path}"
      return .ok ⟨path, some script⟩
  else return .ok ⟨script, none⟩

/-- Let a script go: a copy of a remote one is taken away. -/
def release (s : Source) : Step Unit := do
  if s.isRemote then remove s.path

end Machine

end ScriptDeps
