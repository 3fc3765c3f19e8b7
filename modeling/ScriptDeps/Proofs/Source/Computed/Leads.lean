import Mathlib.Algebra.Group.Nat.Defs
import ScriptDeps.Proofs.Source.Computed.Numbering

/-!
# First tokens and leads by computation

A table of token sets is one number, with a row of 128 bits for each phrase; the last bit of a row
says that a lead inherits. Main statements: `row_firsts` and `row_leads`, that the tables hold what
the automaton holds.
-/

namespace ScriptDeps.Source.Computed

open Automaton

/-! ## Rows of bits -/

/-- One row of a table. -/
def row (rows p : Nat) : Nat :=
  Nat.mod (Nat.shiftRight rows (Nat.mul 128 p)) 340282366920938463463374607431768211456

/-- A table with some rows. -/
def pack : List Nat → Nat
  | [] => 0
  | x :: xs => Nat.add x (Nat.mul 340282366920938463463374607431768211456 (pack xs))

/-- A table with something joined to one row. -/
def joinRow (rows p x : Nat) : Nat := Nat.lor rows (Nat.shiftLeft x (Nat.mul 128 p))

private theorem row_eq (rows p : Nat) : row rows p = rows / 2 ^ (128 * p) % 2 ^ 128 := by
  rw [← Nat.shiftRight_eq_div_pow]
  rfl

/-- Every row of the empty table is empty. -/
theorem row_zero (p : Nat) : row 0 p = 0 := by
  simp [row_eq]

private theorem testBit_row (rows p i : Nat) :
    (row rows p).testBit i = (decide (i < 128) && rows.testBit (128 * p + i)) := by
  rw [row_eq, Nat.testBit_mod_two_pow, Nat.testBit_div_two_pow, Nat.add_comm]

/-- The rows of a table that is put together are what it was put together from. -/
theorem row_pack {xs : List Nat} (h : ∀ x ∈ xs, x < 2 ^ 128) (p : Nat) :
    row (pack xs) p = xs.getD p 0 := by
  induction xs generalizing p with
  | nil => simp [pack, row_zero]
  | cons x xs ih =>
    have hx : x < 2 ^ 128 := h x List.mem_cons_self
    have hpack : pack (x :: xs) = x + 2 ^ 128 * pack xs := rfl
    cases p with
    | zero =>
      rw [row_eq, hpack, Nat.mul_zero, Nat.pow_zero, Nat.div_one, Nat.add_mul_mod_self_left,
        Nat.mod_eq_of_lt hx]
      rfl
    | succ p =>
      have hshift : pack (x :: xs) / 2 ^ (128 * (p + 1)) = pack xs / 2 ^ (128 * p) := by
        rw [Nat.mul_succ, Nat.add_comm, Nat.pow_add, ← Nat.div_div_eq_div_mul, hpack,
          Nat.add_mul_div_left _ _ (by decide), Nat.div_eq_of_lt hx, Nat.zero_add]
      rw [row_eq, hshift, ← row_eq, ih fun y hy => h y (List.mem_cons_of_mem _ hy)]
      rfl

private theorem pack_inj {xs ys : List Nat} (hxs : ∀ x ∈ xs, x < 2 ^ 128)
    (hys : ∀ y ∈ ys, y < 2 ^ 128) (hlength : xs.length = ys.length) (h : pack xs = pack ys) :
    xs = ys := by
  apply List.ext_getElem hlength
  intro p hp hp'
  have hrow := row_pack hxs p
  rw [h, row_pack hys p] at hrow
  simpa [List.getD_eq_getElem?_getD, hp, hp'] using hrow.symm

/-- Joining something to a row leaves the other rows alone. -/
theorem row_joinRow {x : Nat} (hx : x < 2 ^ 128) (rows p q : Nat) :
    row (joinRow rows p x) q = if p = q then row rows q ||| x else row rows q := by
  have hjoin : joinRow rows p x = rows ||| x <<< (128 * p) := rfl
  apply Nat.eq_of_testBit_eq
  intro i
  have hhigh {j : Nat} (hj : 128 ≤ j) : x.testBit j = false :=
    Nat.testBit_lt_two_pow (Nat.lt_of_lt_of_le hx (Nat.pow_le_pow_right (by decide) hj))
  rw [testBit_row, hjoin, Nat.testBit_or, Nat.testBit_shiftLeft]
  by_cases hi : i < 128
  · by_cases hpq : p = q
    · subst hpq
      simp [testBit_row, hi]
    · rw [if_neg hpq, testBit_row]
      by_cases hle : 128 * p ≤ 128 * q + i
      · rw [hhigh (by omega)]
        simp
      · simp [hle]
  · have hout : x.testBit i = false := hhigh (by omega)
    split <;> simp [hi, hout, testBit_row]

/-- Evaluate a number before it is used. -/
def force (x : Nat) (f : Nat → Nat) : Nat := Nat.rec (f 0) (fun n _ => f (Nat.succ n)) x

/-- A value that is computed first is the same value. -/
theorem force_eq (x : Nat) (f : Nat → Nat) : force x f = f x := by
  cases x <;> rfl

/-- A set leaves the last bit of a row free. -/
def Fits (set : Nat) : Prop := set < 2 ^ 127

private theorem Fits.lt {set : Nat} (h : Fits set) : set < 2 ^ 128 := Nat.lt_trans h (by decide)

private theorem Fits.or {set other : Nat} (h : Fits set) (h' : Fits other) :
    Fits (set ||| other) := Nat.or_lt_two_pow h h'

private theorem fits_zero : Fits 0 := Nat.two_pow_pos 127

/-! ## First tokens -/

/-- The tokens that can begin a part. -/
def firstsOf (rows : Nat) : Part → Nat
  | .token t => Nat.shiftLeft 1 t
  | .phrase p => row rows p

/-- The tokens that can begin some parts, or those that follow where there are none. -/
def headOr (rows follow : Nat) : List Part → Nat
  | [] => follow
  | x :: _ => firstsOf rows x

variable (g : Grammar)

/-- The first tokens that are found when one more step is looked at. -/
def widen (rows : Nat) : Nat :=
  pack ((productions g).map fun ps =>
    ps.foldl (fun set p => Nat.lor set (headOr rows 0 p.parts)) 0)

/-- Look at more steps until nothing new is found. -/
def settleFirsts : Nat → Nat → Nat
  | 0, rows => rows
  | fuel + 1, rows =>
    force (widen g rows) fun wider => cond (Nat.beq wider rows) rows (settleFirsts fuel wider)

/-- The tokens that can begin each phrase. -/
def firsts : Nat := settleFirsts g ((productions g).length + 1) 0

/-- A table of the automaton in the form of a number. -/
structure Tells (rows : Nat) (sets : Array TokenSet) : Prop where
  /-- The number is put together from the sets. -/
  pack_eq : rows = pack sets.toList
  /-- There is a set for each phrase. -/
  size_eq : sets.size = (productions g).length
  /-- A set leaves the last bit free. -/
  fits : ∀ set ∈ sets.toList, Fits set

section

variable {g} {rows : Nat} {sets : Array TokenSet}

/-- A row is the set of its phrase. -/
theorem Tells.row_eq (h : Tells g rows sets) (p : Nat) : row rows p = sets.getD p 0 := by
  rw [h.pack_eq, row_pack fun x hx => (h.fits x hx).lt]
  simp [List.getD_eq_getElem?_getD, Array.getD_eq_getD_getElem?]

/-- The first tokens of a part are found in the table. -/
theorem Tells.firstsOf_eq (h : Tells g rows sets) (x : Part) : firstsOf rows x = x.firsts sets := by
  cases x with
  | token t => rfl
  | phrase p => exact h.row_eq p

/-- Tables that tell of symbols tell what a form may begin with. -/
theorem Tells.headOr_eq (h : Tells g rows sets) (follow : Nat) (parts : List Part) :
    headOr rows follow parts = parts.head?.elim follow (·.firsts sets) := by
  cases parts with
  | nil => rfl
  | cons x parts => exact h.firstsOf_eq x

private theorem Tells.fits_getD (h : Tells g rows sets) (p : Nat) : Fits (sets.getD p 0) := by
  rw [Array.getD_eq_getD_getElem?]
  cases hp : sets[p]? with
  | none => exact fits_zero
  | some set => exact h.fits set (Array.mem_toList_iff.2 (Array.mem_of_getElem? hp))

variable (hg : (codes g).length < 127)
include hg

private theorem Tells.fits_firsts (h : Tells g rows sets) (x : Symbol) :
    Fits ((part g x).firsts sets) := by
  cases x with
  | token t =>
    have ht : tokenNumber g t < 127 := Nat.lt_of_le_of_lt List.idxOf_le_length hg
    have hsingle : (part g (.token t)).firsts sets = 2 ^ tokenNumber g t :=
      Nat.one_shiftLeft _
    rw [hsingle, Fits]
    exact Nat.pow_lt_pow_right (by decide) ht
  | phrase p => exact h.fits_getD _
  | series body => exact h.fits_getD _

omit hg in
/-- The parts of productions are those of symbols. -/
theorem exists_part_of_mem_productions {ps : List Production} {p : Production} {x : Part}
    (hps : ps ∈ productions g) (hp : p ∈ ps) (hx : x ∈ p.parts) : ∃ y, x = part g y := by
  rw [productions, List.mem_map] at hps
  obtain ⟨⟨y, left⟩, _, rfl⟩ := hps
  simp only [dedup_eq, List.mem_eraseDups, List.mem_map] at hp
  obtain ⟨⟨parts, f⟩, _, rfl⟩ := hp
  obtain ⟨z, _, rfl⟩ := List.mem_map.1 hx
  exact ⟨z, rfl⟩

/-- The first tokens of some parts of a production leave the last bit free. -/
private theorem Tells.fits_headOr (h : Tells g rows sets) {follow : Nat} (hfollow : Fits follow)
    {parts : List Part} (hparts : ∀ x ∈ parts, ∃ y, x = part g y) :
    Fits (headOr rows follow parts) := by
  cases parts with
  | nil => exact hfollow
  | cons x parts =>
    obtain ⟨y, rfl⟩ := hparts x List.mem_cons_self
    rw [headOr, h.firstsOf_eq]
    exact h.fits_firsts hg y

private theorem Tells.widen (h : Tells g rows sets) :
    Tells g (widen g rows) ((Numbering.ofGrammar g).widen sets) where
  pack_eq := by
    rw [Computed.widen, Numbering.widen, productions_eq, List.map_toArray]
    congr 2
    funext ps
    congr 1
    funext set p
    rw [h.headOr_eq]
    rfl
  size_eq := by
    rw [Numbering.widen, productions_eq, Array.size_map]
    rfl
  fits := by
    intro set hset
    rw [Numbering.widen, productions_eq, Array.toList_map] at hset
    obtain ⟨ps, hps, rfl⟩ := List.mem_map.1 hset
    refine List.foldlRecOn (motive := Fits) ps _ fits_zero ?_
    intro set hset p hp
    rw [← h.headOr_eq]
    exact hset.or
      (h.fits_headOr hg fits_zero fun x hx => exists_part_of_mem_productions hps hp hx)

private theorem Tells.settleFirsts (fuel : Nat) (h : Tells g rows sets) :
    Tells g (settleFirsts g fuel rows) ((Numbering.ofGrammar g).settleFirsts fuel sets) := by
  induction fuel generalizing rows sets with
  | zero => exact h
  | succ fuel ih =>
    have hwider := h.widen hg
    rw [Computed.settleFirsts, force_eq, Numbering.settleFirsts]
    by_cases heq : (Numbering.ofGrammar g).widen sets = sets
    · have hrows : Computed.widen g rows = rows := by
        rw [hwider.pack_eq, h.pack_eq, heq]
      simpa [heq, hrows] using h
    · have hrows : Computed.widen g rows ≠ rows := by
        intro hrows
        rw [hwider.pack_eq, h.pack_eq] at hrows
        apply heq
        apply Array.toList_inj.1
        exact pack_inj (fun x hx => (hwider.fits x hx).lt)
          (fun x hx => (h.fits x hx).lt)
          (by rw [Array.length_toList, Array.length_toList, hwider.size_eq, h.size_eq]) hrows
      have hbeq : Nat.beq (Computed.widen g rows) rows = false := by
        cases hbeq : Nat.beq (Computed.widen g rows) rows with
        | false => rfl
        | true => exact absurd (Nat.eq_of_beq_eq_true hbeq) hrows
      simp only [heq, if_false, hbeq, cond_false]
      exact ih hwider

/-- The computed first tokens are those of the numbered grammar. -/
theorem tells_firsts : Tells g (firsts g) (Numbering.ofGrammar g).firsts := by
  have hsize : (Numbering.ofGrammar g).productions.size = (productions g).length := by
    rw [productions_eq]
    rfl
  rw [firsts, Numbering.firsts, hsize]
  apply Tells.settleFirsts hg
  refine ⟨?_, by rw [Array.size_map, hsize], ?_⟩
  · rw [Array.toList_map]
    induction (Numbering.ofGrammar g).productions.toList with
    | nil => rfl
    | cons ps l ih => rw [List.map_cons, pack, ← ih]
  · intro set hset
    rw [Array.toList_map, List.mem_map] at hset
    obtain ⟨_, _, rfl⟩ := hset
    exact fits_zero

end

/-! ## Leads -/

/-- A lead as a row. -/
def leadCode (l : Lead) : Nat := l.follow ||| if l.inherits then 2 ^ 127 else 0

/-- The tokens that may follow where some may follow the other phrase. -/
def before (lead follow : Nat) : Nat :=
  cond (Nat.beq (Nat.shiftRight lead 127) 1)
    (Nat.lor (Nat.mod lead 170141183460469231731687303715884105728) follow) lead

/-- The phrases that stand first in some productions, each with its lead, before those that are
already pending. -/
def leadsInto (rows lead : Nat) (pending : List (Nat × Nat)) : List Production → List (Nat × Nat)
  | [] => pending
  | p :: ps =>
    match p.parts with
    | .phrase q :: [] => (q, lead) :: leadsInto rows lead pending ps
    | .phrase q :: part :: _ => (q, firstsOf rows part) :: leadsInto rows lead pending ps
    | _ => leadsInto rows lead pending ps

variable (rows : Nat)

/-- Note pending leads and look into their phrases where they tell something new. -/
def settleLeads : Nat → List (Nat × Nat) → Nat → Nat
  | 0, _, leads => leads
  | _, [], leads => leads
  | fuel + 1, (p, lead) :: pending, leads =>
    match (productions g)[p]? with
    | none => settleLeads fuel pending leads
    | some ps =>
      force leads fun leads =>
      force (row leads p) fun known =>
      force (Nat.lor known lead) fun joined =>
      cond (Nat.beq joined known) (settleLeads fuel pending leads)
        (settleLeads fuel (leadsInto rows lead pending ps) (joinRow leads p joined))

/-- A limit on the leads that are noted for one phrase. -/
def leadLimit : Nat :=
  ((codes g).length + 2) * (productions g).foldl (fun count ps => count + ps.length + 1) 1

/-- The leads of all phrases in a phrase. -/
def leads (p : Nat) : Nat := settleLeads g rows (leadLimit g) [(p, 2 ^ 127)] 0

section

variable {g}

private theorem leadCode_eq {l : Lead} (h : Fits l.follow) :
    leadCode l = (if l.inherits then 2 ^ 127 else 0) + l.follow := by
  rw [leadCode]
  split
  · rw [Nat.or_comm]
    simpa using (Nat.two_pow_add_eq_or_of_lt (i := 127) h 1).symm
  · simp

private theorem leadCode_lt {l : Lead} (h : Fits l.follow) : leadCode l < 2 ^ 128 := by
  rw [leadCode_eq h]
  rw [Fits] at h
  split <;> omega

private theorem leadCode_join (a b : Lead) : leadCode (a.join b) = leadCode a ||| leadCode b := by
  apply Nat.eq_of_testBit_eq
  intro i
  cases ha : a.inherits <;> cases hb : b.inherits <;>
    simp [leadCode, Lead.join, ha, hb, Nat.testBit_or] <;>
    cases a.follow.testBit i <;> cases b.follow.testBit i <;> simp

private theorem leadCode_plain (follow : Nat) : leadCode ⟨follow, false⟩ = follow := by
  simp [leadCode]

private theorem leadCode_whole : leadCode ⟨0, true⟩ = 2 ^ 127 := by
  simp [leadCode]

private theorem eq_of_add_eq {m n : Nat} {i j : Bool} (hm : Fits m) (hn : Fits n)
    (h : (if i then 2 ^ 127 else 0) + m = (if j then 2 ^ 127 else 0) + n) : m = n ∧ i = j := by
  rw [Fits] at hm hn
  cases i <;> cases j <;> simp only [if_true, Bool.false_eq_true, if_false] at h <;>
    exact ⟨by omega, by first | rfl | omega⟩

private theorem leadCode_inj {a b : Lead} (ha : Fits a.follow) (hb : Fits b.follow)
    (h : leadCode a = leadCode b) : a = b := by
  rw [leadCode_eq ha, leadCode_eq hb] at h
  obtain ⟨hfollow, hinherits⟩ := eq_of_add_eq ha hb h
  cases a
  cases b
  congr

/-- What follows a lead is found in its row. -/
theorem before_leadCode {l : Lead} (h : Fits l.follow) (follow : Nat) :
    before (leadCode l) follow = l.before follow := by
  have hcode := leadCode_eq h
  have hshift : Nat.shiftRight (leadCode l) 127 = leadCode l / 2 ^ 127 :=
    Nat.shiftRight_eq_div_pow _ _
  rw [Fits] at h
  rw [before, hshift, Lead.before]
  cases hl : l.inherits with
  | true =>
    rw [hl, if_pos rfl] at hcode
    have hhigh : leadCode l / 2 ^ 127 = 1 := by omega
    have hlow : Nat.mod (leadCode l) (2 ^ 127) = l.follow := by
      change leadCode l % 2 ^ 127 = _
      omega
    rw [hhigh]
    exact congrArg (Nat.lor · follow) hlow
  | false =>
    rw [hl, if_neg Bool.false_ne_true, Nat.zero_add] at hcode
    rw [hcode, Nat.div_eq_of_lt h]
    rfl

end

/-- A table of leads in the form of a number. -/
structure TellsLeads (rows : Nat) (leads : Array Lead) : Prop where
  /-- A row is the lead of its phrase. -/
  row_eq : ∀ p, row rows p = leadCode (leads.getD p default)
  /-- There is a lead for each phrase. -/
  size_eq : leads.size = (productions g).length
  /-- A lead leaves the last bit free. -/
  fits : ∀ p, Fits (leads.getD p default).follow

section

variable {g} {table p : Nat} {leads : Array Lead} {lead : Lead}

/-- The row of a phrase stays as it is where a lead adds nothing to its own. -/
private theorem TellsLeads.beq_row (hleads : TellsLeads g table leads) (hlead : Fits lead.follow) :
    Nat.beq (leadCode ((leads.getD p default).join lead)) (row table p) =
      decide ((leads.getD p default).join lead = leads.getD p default) := by
  have hknown : Fits (leads.getD p default).follow := hleads.fits p
  rw [hleads.row_eq]
  by_cases heq : (leads.getD p default).join lead = leads.getD p default
  · rw [heq, Nat.beq_refl, decide_eq_true rfl]
  · rw [decide_eq_false heq]
    refine Bool.eq_false_iff.2 fun hbeq => heq ?_
    exact leadCode_inj (hknown.or hlead) hknown (Nat.eq_of_beq_eq_true hbeq)

/-- A table in which a lead joins the one of a phrase. -/
private theorem TellsLeads.join (hleads : TellsLeads g table leads) (hp : p < leads.size)
    (hlead : Fits lead.follow) :
    TellsLeads g (joinRow table p (leadCode ((leads.getD p default).join lead)))
      (leads.setIfInBounds p ((leads.getD p default).join lead)) := by
  have hjoin : Fits ((leads.getD p default).join lead).follow := (hleads.fits p).or hlead
  have hget (q : Nat) : (leads.setIfInBounds p ((leads.getD p default).join lead)).getD q default =
      if p = q then (leads.getD p default).join lead else leads.getD q default := by
    rw [Array.getD_eq_getD_getElem?, Array.getElem?_setIfInBounds]
    by_cases hpq : p = q
    · simp [hpq, hpq ▸ hp]
    · simp [hpq, Array.getD_eq_getD_getElem?]
  refine ⟨fun q => ?_, by rw [Array.size_setIfInBounds, hleads.size_eq], fun q => ?_⟩
  · rw [row_joinRow (leadCode_lt hjoin), hget]
    by_cases hpq : p = q
    · rw [if_pos hpq, if_pos hpq, hleads.row_eq, leadCode_join, ← hpq, ← Nat.or_assoc, Nat.or_self]
    · rw [if_neg hpq, if_neg hpq]
      exact hleads.row_eq q
  · rw [hget]
    by_cases hpq : p = q
    · rw [if_pos hpq]
      exact hjoin
    · rw [if_neg hpq]
      exact hleads.fits q

end

variable {g rows} {sets : Array TokenSet} (hg : (codes g).length < 127) (h : Tells g rows sets)
include hg h

/-- The pending leads that one phrase brings in. -/
private theorem leadsInto_eq {p : Nat} {ps : List Production} (hps : (productions g)[p]? = some ps)
    {lead : Lead} (hlead : Fits lead.follow) (pending : List (Nat × Nat)) :
    leadsInto rows (leadCode lead) pending ps =
        ((Numbering.ofGrammar g).leadsInto sets p lead).map (fun e => (e.1, leadCode e.2)) ++
          pending ∧
      ∀ e ∈ (Numbering.ofGrammar g).leadsInto sets p lead, Fits e.2.follow := by
  have hmem : ∀ q ∈ ps, ∀ x ∈ q.parts, ∃ y, x = part g y := fun q hq x hx =>
    exists_part_of_mem_productions (List.mem_of_getElem? hps) hq hx
  rw [Numbering.leadsInto, productions_eq, Array.getD_eq_getD_getElem?, List.getElem?_toArray, hps,
    Option.getD_some]
  clear hps
  induction ps with
  | nil => simp [leadsInto]
  | cons q ps ih =>
    obtain ⟨ih, ihfits⟩ := ih fun r hr => hmem r (List.mem_cons_of_mem _ hr)
    have hq := hmem q List.mem_cons_self
    rw [leadsInto]
    match hparts : q.parts with
    | [] => exact ⟨by simp [hparts, ih], by simpa [hparts] using ihfits⟩
    | .token t :: _ => exact ⟨by simp [hparts, ih], by simpa [hparts] using ihfits⟩
    | [.phrase r] => exact ⟨by simp [hparts, ih], by simpa [hparts, hlead] using ihfits⟩
    | .phrase r :: x :: _ =>
      obtain ⟨y, rfl⟩ := hq x (by simp [hparts])
      have hfirsts := h.fits_firsts hg y
      exact ⟨by simp [hparts, ih, h.firstsOf_eq, leadCode_plain],
        by simpa [hparts, hfirsts] using ihfits⟩

private theorem TellsLeads.settleLeads (fuel : Nat) {pending : List (Nat × Lead)} {table : Nat}
    {leads : Array Lead} (hpending : ∀ e ∈ pending, Fits e.2.follow)
    (hleads : TellsLeads g table leads) :
    TellsLeads g (settleLeads g rows fuel (pending.map fun e => (e.1, leadCode e.2)) table)
      ((Numbering.ofGrammar g).settleLeads sets fuel pending leads) := by
  induction fuel generalizing pending table leads with
  | zero => exact hleads
  | succ fuel ih =>
    match pending with
    | [] => exact hleads
    | (p, lead) :: pending =>
      have hlead : Fits lead.follow := hpending _ List.mem_cons_self
      have hrest : ∀ e ∈ pending, Fits e.2.follow := fun e he =>
        hpending e (List.mem_cons_of_mem _ he)
      rw [List.map_cons, Computed.settleLeads, Numbering.settleLeads]
      cases hps : (productions g)[p]? with
      | none =>
        have hout : leads.size ≤ p := by
          rw [hleads.size_eq]
          exact List.getElem?_eq_none_iff.1 hps
        have hinto : (Numbering.ofGrammar g).leadsInto sets p lead = [] := by
          simp [Numbering.leadsInto, productions_eq, hps]
        have hset (l : Lead) : leads.setIfInBounds p l = leads :=
          Array.setIfInBounds_eq_of_size_le hout
        simp only [hinto, hset, List.nil_append, ite_self]
        exact ih hrest hleads
      | some ps =>
        have hcode : Nat.lor (row table p) (leadCode lead) =
            leadCode ((leads.getD p default).join lead) := by
          rw [hleads.row_eq, leadCode_join]
          rfl
        simp only [force_eq, hcode, hleads.beq_row hlead]
        by_cases heq : (leads.getD p default).join lead = leads.getD p default
        · simp only [heq, if_true, decide_true, cond_true]
          exact ih hrest hleads
        · obtain ⟨hinto, hlt⟩ := leadsInto_eq hg h hps hlead
            (pending.map fun e => (e.1, leadCode e.2))
          have hp : p < leads.size := by
            rw [hleads.size_eq]
            exact (List.getElem?_eq_some_iff.1 hps).1
          simp only [heq, if_false, decide_false, cond_false, hinto, ← List.map_append]
          refine ih (fun e he => ?_) (hleads.join hp hlead)
          exact (List.mem_append.1 he).elim (hlt e) (hrest e)

/-- The computed leads are those of the numbered grammar. -/
theorem tellsLeads_leads (p : Nat) :
    TellsLeads g (leads g rows p) ((Numbering.ofGrammar g).leads sets p) := by
  have hlimit : leadLimit g = (Numbering.ofGrammar g).leadLimit := by
    rw [leadLimit, Numbering.leadLimit, codes_eq, List.length_map, productions_eq]
    simp
  have hpending : ∀ e ∈ [(p, (⟨0, true⟩ : Lead))], Fits e.2.follow := by
    simpa using fits_zero
  have hempty : TellsLeads g 0 ((Numbering.ofGrammar g).productions.map fun _ => default) := by
    have hdefault (q : Nat) : (((Numbering.ofGrammar g).productions.map fun _ =>
        (default : Lead)).getD q default) = default := by
      rw [Array.getD_eq_getD_getElem?, Array.getElem?_map]
      cases (Numbering.ofGrammar g).productions[q]? <;> rfl
    refine ⟨fun q => ?_, by simp [productions_eq], fun q => ?_⟩
    · rw [row_zero, hdefault]
      rfl
    · rw [hdefault]
      exact fits_zero
  rw [leads, hlimit, ← leadCode_whole]
  exact TellsLeads.settleLeads hg h _ hpending hempty

end ScriptDeps.Source.Computed
