import ScriptDeps.NameSet

/-!
# Lists of packages

The packages that a script depends on, in the order in which they are written. A list made from
names has each name once, in ascending order.
-/

namespace ScriptDeps

/-- Packages in the order in which they are written. -/
structure DependencyList where
  /-- The names of the packages. -/
  names : List String
  deriving DecidableEq, Repr

namespace DependencyList

/-- The list of no package. -/
def empty : DependencyList := ⟨[]⟩

/-- The list of the given packages, each once and in ascending order. -/
def ofNames (names : List String) : DependencyList := ⟨(NameSet.ofList names).toList⟩

/-- Number of packages. -/
def size (d : DependencyList) : Nat := d.names.length

/-- There is no package. -/
def isEmpty (d : DependencyList) : Bool := d.names.isEmpty

/-- A package is in the list. -/
def contains (d : DependencyList) (name : String) : Bool := d.names.contains name

/-- The packages with a comma and a blank between them. -/
def display (d : DependencyList) : String := ", ".intercalate d.names

/-- A list made from names has exactly their members. -/
theorem mem_ofNames {a : String} {names : List String} :
    a ∈ (ofNames names).names ↔ a ∈ names := NameSet.mem_ofList

end DependencyList

end ScriptDeps
