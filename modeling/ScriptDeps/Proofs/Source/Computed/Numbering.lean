import Mathlib.Data.List.Nodup
import ScriptDeps.Proofs.Source.Beginnings

/-!
# The numbered grammar by computation

What an automaton does in a given state can be found by evaluation, if its parts have a form that
evaluates fast: texts are compared as numbers, and a list is searched for doubles only where there
are some. The numbers of tokens and phrases and the productions are given here in such a form. Main
statements: `part_eq` and `productions_eq`.
-/

namespace ScriptDeps.Source.Computed

open Automaton

/-! ## Tokens as numbers -/

/-- Bytes as one number. -/
def bytesCode : List UInt8 → Nat
  | [] => 0
  | b :: bytes => b.toNat + 1 + 257 * bytesCode bytes

/-- A text as a number. -/
def textCode (text : String) : Nat := bytesCode text.toByteArray.data.toList

/-- A token as a number. -/
def tokenCode : Token → Nat
  | .newline => 0
  | .indent => 1
  | .dedent => 2
  | .openQuote => 3
  | .fragment => 4
  | .brace => 5
  | .closeQuote => 6
  | .finish => 7
  | .name => 8
  | .number => 9
  | .escape => 10
  | .backslash => 11
  | .conversion => 12
  | .format => 13
  | .comment => 14
  | .joint => 15
  | .word text => 16 + 2 * textCode text
  | .sign text => 17 + 2 * textCode text

private theorem bytesCode_injective : Function.Injective bytesCode := by
  intro s
  induction s with
  | nil =>
    intro t h
    cases t with
    | nil => rfl
    | cons b t =>
      simp only [bytesCode] at h
      omega
  | cons a s ih =>
    intro t h
    cases t with
    | nil =>
      simp only [bytesCode] at h
      omega
    | cons b t =>
      simp only [bytesCode] at h
      have ha : a.toNat < 256 := a.toNat_lt
      have hb : b.toNat < 256 := b.toNat_lt
      have hfirst : a.toNat = b.toNat := by omega
      rw [UInt8.toNat_inj.1 hfirst, ih (by omega : bytesCode s = bytesCode t)]

private theorem textCode_injective : Function.Injective textCode := by
  intro s t h
  have hdata := bytesCode_injective h
  exact String.toByteArray_inj.1 (ByteArray.ext (Array.toList_inj.1 hdata))

/-- No two tokens have the same number. -/
theorem tokenCode_injective : Function.Injective tokenCode := by
  intro t u h
  have htext {s t : String} {n : Nat} (h : n + 2 * textCode s = n + 2 * textCode t) : s = t :=
    textCode_injective (by omega)
  cases t <;> cases u <;> simp only [tokenCode] at h <;> first
    | rfl
    | omega
    | rw [htext h]

/-! ## Lists without doubles -/

private theorem idxOf_map {α β : Type} [BEq α] [LawfulBEq α] [BEq β] [LawfulBEq β] {f : α → β}
    (hf : Function.Injective f) (a : α) (l : List α) : (l.map f).idxOf (f a) = l.idxOf a := by
  induction l with
  | nil => rfl
  | cons b l ih =>
    by_cases h : b = a
    · simp [h]
    · have hne : f b ≠ f a := fun heq => h (hf heq)
      simp [List.idxOf_cons_ne, h, hne, ih]

private theorem eraseDups_map {α β : Type} [BEq α] [LawfulBEq α] [BEq β] [LawfulBEq β] {f : α → β}
    (hf : Function.Injective f) (l : List α) : (l.map f).eraseDups = l.eraseDups.map f := by
  induction hn : l.length using Nat.strongRecOn generalizing l with
  | ind n ih =>
    cases l with
    | nil => rfl
    | cons a l =>
      have hfilter : (l.map f).filter (fun b => !b == f a) = (l.filter fun b => !b == a).map f := by
        rw [List.filter_map]
        congr 1
        apply List.filter_congr
        intro b _
        by_cases h : b = a <;> simp [h, hf.eq_iff]
      have hshorter : (l.filter fun b => !b == a).length < n := by
        rw [← hn]
        exact Nat.lt_succ_of_le (List.length_filter_le _ _)
      rw [List.map_cons, List.eraseDups_cons, List.eraseDups_cons, hfilter, ih _ hshorter _ rfl,
        List.map_cons]

private theorem eraseDups_of_nodup {α : Type} [BEq α] [LawfulBEq α] {l : List α} (h : l.Nodup) :
    l.eraseDups = l := by
  induction h with
  | nil => rfl
  | @cons a l ha _ ih =>
    have hfilter : (l.filter fun b => !b == a) = l := by
      rw [List.filter_eq_self]
      intro b hb
      simpa using fun heq : b = a => ha b hb heq.symm
    rw [List.eraseDups_cons, hfilter, ih]

/-- A number is not in a list. -/
def absent (n : Nat) : List Nat → Bool
  | [] => true
  | m :: ms => cond (Nat.beq n m) false (absent n ms)

/-- A list of numbers has no number twice. -/
def distinct : List Nat → Bool
  | [] => true
  | n :: ns => cond (absent n ns) (distinct ns) false

private theorem not_mem_of_absent {n : Nat} {ms : List Nat} (h : absent n ms = true) : n ∉ ms := by
  induction ms with
  | nil => simp
  | cons m ms ih =>
    rw [absent] at h
    cases hm : Nat.beq n m with
    | true => simp [hm] at h
    | false =>
      rw [hm, cond_false] at h
      simp [ih h, Nat.ne_of_beq_eq_false hm]

private theorem nodup_of_distinct {ns : List Nat} (h : distinct ns = true) : ns.Nodup := by
  induction ns with
  | nil => simp
  | cons n ns ih =>
    rw [distinct] at h
    cases hn : absent n ns with
    | false => simp [hn] at h
    | true =>
      rw [hn, cond_true] at h
      exact List.nodup_cons.2 ⟨not_mem_of_absent hn, ih h⟩

/-- A part as a number. -/
def partCode : Part → Nat
  | .token t => Nat.mul 2 t
  | .phrase p => Nat.succ (Nat.mul 2 p)

/-- Parts as one number. Different parts may have the same number, but not where all numbers are
small. -/
def partsCode : List Part → Nat
  | [] => 0
  | x :: xs => Nat.add (Nat.succ (partCode x)) (Nat.mul 512 (partsCode xs))

/-- Leave out productions that occur twice. -/
def dedup (ps : List Production) : List Production :=
  cond (distinct (ps.map fun p => partsCode p.parts)) ps ps.eraseDups

/-- Productions that occur twice are left out, however it is found out that some do. -/
theorem dedup_eq (ps : List Production) : dedup ps = ps.eraseDups := by
  rw [dedup]
  cases h : distinct (ps.map fun p => partsCode p.parts) with
  | false => rfl
  | true => exact (eraseDups_of_nodup (List.Nodup.of_map _ (nodup_of_distinct h))).symm

/-! ## Numbers and productions -/

variable (g : Grammar)

/-- All rules. -/
def rules : List Rule := g.flatMap fun (_, forms) => forms.map (·.rule)

/-- The tokens as numbers, in their order. -/
def codes : List Nat := ((layoutTokens ++ (rules g).flatMap Rule.tokens).map tokenCode).eraseDups

/-- The phrases, then the series. -/
def phrases : List Symbol :=
  (g.map fun (p, _) => Symbol.phrase p) ++
    (((rules g).flatMap Rule.bodies).eraseDups.map Symbol.series)

/-- The number of a token. -/
def tokenNumber (t : Token) : Nat := (codes g).idxOf (tokenCode t)

/-- The part of a symbol. -/
def part : Symbol → Part
  | .token t => .token (tokenNumber g t)
  | p => .phrase ((phrases g).idxOf p)

/-- The productions of each phrase. -/
def productions : List (List Production) :=
  (phrases g).zipIdx.map fun (p, left) =>
    dedup ((formsOf g p).map fun (parts, f) =>
      (⟨left, parts.map (part g), f.level, f.side, f.weight⟩ : Production))

/-- The table of codes lists the tokens in the order of their numbers. -/
theorem codes_eq : codes g = (Numbering.ofGrammar g).tokens.map tokenCode :=
  eraseDups_map tokenCode_injective _

/-- The number of a token is found in the table of codes. -/
theorem tokenNumber_eq (t : Token) :
    tokenNumber g t = (Numbering.ofGrammar g).tokenNumber t := by
  rw [tokenNumber, codes_eq, idxOf_map tokenCode_injective]
  rfl

/-- A symbol has the part that it has in the numbered grammar. -/
theorem part_eq (x : Symbol) : part g x = (Numbering.ofGrammar g).partOf x := by
  cases x with
  | token t => exact congrArg Part.token (tokenNumber_eq g t)
  | phrase p => rfl
  | series body => rfl

/-- A phrase has the productions that it has in the numbered grammar. -/
theorem productions_eq : (Numbering.ofGrammar g).productions = (productions g).toArray := by
  have hpart : part g = (Numbering.ofGrammar g).partOf := funext (part_eq g)
  simp only [productions, dedup_eq, hpart]
  rfl

end ScriptDeps.Source.Computed
