/-!
# Sets of names

A set of names is the list of its members in ascending order, each once. Names are ordered as their
bytes are, which is the order of their characters. Main statement: `mem_ofList`, the set made of a
list has exactly the members of the list.
-/

namespace ScriptDeps

/-- Insert a name into an ascending list. -/
def insertAscending (x : String) : List String → List String
  | [] => [x]
  | y :: ys =>
    if x < y then x :: y :: ys
    else if y < x then y :: insertAscending x ys
    else y :: ys

private theorem eq_of_not_lt {x y : String} (h : ¬x < y) (h' : ¬y < x) : x = y :=
  String.le_antisymm (String.not_lt.1 h') (String.not_lt.1 h)

/-- Insertion adds one member and keeps all others. -/
theorem mem_insertAscending {a x : String} {l : List String} :
    a ∈ insertAscending x l ↔ a = x ∨ a ∈ l := by
  induction l with
  | nil => simp [insertAscending]
  | cons y ys ih =>
    unfold insertAscending
    split
    · simp
    · split
      · simp [ih, or_left_comm]
      · next h h' =>
        have := eq_of_not_lt h h'
        simp [this]

/-- Insertion keeps a list ascending. -/
theorem pairwise_insertAscending {x : String} {l : List String}
    (h : l.Pairwise (· < ·)) : (insertAscending x l).Pairwise (· < ·) := by
  induction l with
  | nil => simp [insertAscending]
  | cons y ys ih =>
    have hy := List.pairwise_cons.1 h
    unfold insertAscending
    split
    · next hx =>
      refine List.pairwise_cons.2 ⟨?_, h⟩
      intro a ha
      rcases List.mem_cons.1 ha with rfl | ha
      · exact hx
      · exact String.lt_trans hx (hy.1 a ha)
    · split
      · next hx =>
        refine List.pairwise_cons.2 ⟨?_, ih hy.2⟩
        intro a ha
        rcases mem_insertAscending.1 ha with rfl | ha
        · exact hx
        · exact hy.1 a ha
      · exact h

/-- A set of names. -/
structure NameSet where
  /-- The names in ascending order. -/
  toList : List String
  /-- Every name is less than those after it. -/
  ascending : toList.Pairwise (· < ·)
  deriving DecidableEq

namespace NameSet

/-- The set with no name. -/
def empty : NameSet := ⟨[], .nil⟩

/-- The set with one more name. -/
def insert (s : NameSet) (x : String) : NameSet :=
  ⟨insertAscending x s.toList, pairwise_insertAscending s.ascending⟩

/-- The set of the names in a list. -/
def ofList (names : List String) : NameSet := names.foldl insert empty

/-- Number of names. -/
def size (s : NameSet) : Nat := s.toList.length

/-- The set has no name. -/
def isEmpty (s : NameSet) : Bool := s.toList.isEmpty

/-- A name is in the set. -/
def contains (s : NameSet) (x : String) : Bool := s.toList.contains x

/-- The names with a comma and a blank between them. -/
def display (s : NameSet) : String := ", ".intercalate s.toList

/-- Insertion of names one after another adds these names and keeps all others. -/
theorem mem_foldl_insert {a : String} (names : List String) (s : NameSet) :
    a ∈ (names.foldl insert s).toList ↔ a ∈ s.toList ∨ a ∈ names := by
  induction names generalizing s with
  | nil => simp
  | cons x names ih =>
    rw [List.foldl_cons, ih, insert, mem_insertAscending]
    simp only [List.mem_cons]
    constructor
    · rintro ((rfl | h) | h) <;> simp_all
    · rintro (h | rfl | h) <;> simp_all

/-- The set made of a list has exactly the members of the list. -/
theorem mem_ofList {a : String} {names : List String} :
    a ∈ (ofList names).toList ↔ a ∈ names := by
  simp [ofList, mem_foldl_insert, empty]

end NameSet

end ScriptDeps
