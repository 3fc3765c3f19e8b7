/-!
# Errors in addresses

What can be wrong with the host or the port of an address; no other part of one can be wrong.
-/

namespace ScriptDeps

/-- Why an address cannot be read. -/
inductive AddressError where
  /-- There is no host. -/
  | emptyHost
  /-- The host is no domain name. -/
  | domain
  /-- The host has a character that no host has. -/
  | character
  /-- The host is made like a number of four bytes and is none. -/
  | shortNumber
  /-- The host is made like a number of sixteen bytes and is none. -/
  | longNumber
  /-- The port is no number or too large. -/
  | port
  deriving DecidableEq, Repr

/-- What an error in an address says. -/
def AddressError.message : AddressError → String
  | emptyHost => "empty host"
  | domain => "invalid international domain name"
  | character => "invalid domain character"
  | shortNumber => "invalid IPv4 address"
  | longNumber => "invalid IPv6 address"
  | port => "invalid port number"

end ScriptDeps
