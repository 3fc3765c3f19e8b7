import Mathlib.Computability.Language
import Mathlib.Data.List.TakeWhile
import ScriptDeps.Proofs.Host.Traces

/-!
# Which scripts are addresses

A script is named by an address or by a path. What makes an address is told by the pattern of its
beginning: a scheme, a colon, two slashes and the beginning of a host; what follows does not matter.
Everything else is a path, which is taken as it is: no message is told, nothing is changed, and no
other computer is asked. Main statement: `isAddress_exact`.
-/

namespace ScriptDeps

/-! ## The beginning of an address -/

/-- A letter, a digit or one of the signs that a scheme may have behind its first letter. -/
def GoesOnScheme (c : Char) : Prop := c.isAlphanum = true ∨ c ∈ ['+', '.', '-']

/-- None of the signs that end a host, and no blank. -/
def MayBeginHost (c : Char) : Prop := c ∉ ['/', '?', '#'] ∧ Text.isBlank c = false

/-- A letter, and behind it whatever a scheme may go on with. -/
def IsScheme (s : List Char) : Prop :=
  ∃ letter rest, s = letter :: rest ∧ letter.isAlpha = true ∧ ∀ c ∈ rest, GoesOnScheme c

/-- A text that begins as an address does: what stands in front of its first colon is a scheme, two
slashes stand behind that colon, and the next character begins a host. -/
def BeginsAddress (s : List Char) : Prop :=
  ∃ scheme host rest, s = scheme ++ ':' :: '/' :: '/' :: host :: rest ∧
    ':' ∉ scheme ∧ IsScheme scheme ∧ MayBeginHost host

/-- The letters of the reader are those of the basic alphabet. -/
theorem isLetter_iff {c : Char} : isLetter c = true ↔ c.isAlpha = true := by
  have halpha : c.isAlpha =
      (decide ('A' ≤ c ∧ c ≤ 'Z') || (decide ('a' ≤ c) && decide (c ≤ 'z'))) :=
    rfl
  simp only [halpha, isLetter, Bool.or_eq_true, Bool.and_eq_true, decide_eq_true_eq]
  exact or_comm

/-- A scheme goes on with the characters that the reader lets it go on with. -/
theorem isSchemeRest_iff {c : Char} : isSchemeRest c = true ↔ GoesOnScheme c := by
  simp only [GoesOnScheme, isSchemeRest, Char.isAlphanum, Char.isDigit, Bool.or_eq_true,
    Bool.and_eq_true, decide_eq_true_eq, isLetter_iff, Char.le_def, ge_iff_le, beq_iff_eq,
    List.mem_cons, List.not_mem_nil, or_false, or_assoc]

/-- A host begins with the characters that the reader lets it begin with. -/
theorem beginsHost_iff {c : Char} : beginsHost c = true ↔ MayBeginHost c := by
  simp only [MayBeginHost, beginsHost, Bool.and_eq_true, bne_iff_ne, Bool.not_eq_true',
    List.mem_cons, List.not_mem_nil, or_false, not_or, and_assoc, ne_eq]

/-- No scheme has a colon. -/
theorem IsScheme.colon_notMem {s : List Char} (h : IsScheme s) : ':' ∉ s := by
  obtain ⟨letter, rest, rfl, hletter, hrest⟩ := h
  rintro (_ | ⟨_, hmem⟩)
  · exact absurd hletter (by decide)
  · exact absurd (isSchemeRest_iff.2 (hrest ':' hmem)) (by decide)

/-- A scheme is split off in front of its colon. -/
theorem splitScheme?_eq_some_iff {s scheme rest : List Char} :
    splitScheme? s = some (scheme, rest) ↔ IsScheme scheme ∧ s = scheme ++ ':' :: rest := by
  constructor
  · intro h
    cases s with
    | nil => simp [splitScheme?] at h
    | cons letter t =>
      rw [splitScheme?] at h
      split at h
      next hletter =>
        split at h
        next _ hdrop =>
          obtain ⟨rfl, rfl⟩ := Prod.mk.inj (Option.some.inj h)
          refine ⟨⟨letter, _, rfl, isLetter_iff.1 hletter, fun c hc => ?_⟩, ?_⟩
          · exact isSchemeRest_iff.1 (List.mem_takeWhile_imp hc)
          · rw [List.cons_append, ← hdrop, List.takeWhile_append_dropWhile]
        next => exact absurd h nofun
      next => exact absurd h nofun
  · rintro ⟨⟨letter, t, rfl, hletter, ht⟩, rfl⟩
    have hrest : ∀ c ∈ t, isSchemeRest c = true := fun c hc => isSchemeRest_iff.2 (ht c hc)
    have hcolon : isSchemeRest ':' = false := by decide
    have htake : (t ++ ':' :: rest).takeWhile isSchemeRest = t := by
      rw [List.takeWhile_append_of_pos hrest, List.takeWhile_cons_of_neg (by simp [hcolon]),
        List.append_nil]
    have hdrop : (t ++ ':' :: rest).dropWhile isSchemeRest = ':' :: rest := by
      rw [List.dropWhile_append_of_pos hrest, List.dropWhile_cons_of_neg (by simp [hcolon])]
    rw [List.cons_append, splitScheme?, if_pos (isLetter_iff.2 hletter), htake, hdrop]
    rfl

/-- A text is taken for an address if it begins as one does. -/
theorem isAddress_iff {text : String} : isAddress text = true ↔ BeginsAddress text.toList := by
  constructor
  · intro h
    rw [isAddress] at h
    split at h
    next scheme host rest hsplit =>
      obtain ⟨hscheme, htext⟩ := splitScheme?_eq_some_iff.1 hsplit
      exact ⟨scheme, host, rest, htext, hscheme.colon_notMem, hscheme, beginsHost_iff.1 h⟩
    next => exact absurd h Bool.false_ne_true
  · rintro ⟨scheme, host, rest, htext, -, hscheme, hhost⟩
    rw [isAddress, splitScheme?_eq_some_iff.2 ⟨hscheme, htext⟩]
    exact beginsHost_iff.2 hhost

/-- What follows the beginning of an address does not matter. -/
theorem BeginsAddress.append {s : List Char} (h : BeginsAddress s) (t : List Char) :
    BeginsAddress (s ++ t) := by
  obtain ⟨scheme, host, rest, rfl, hbegin⟩ := h
  exact ⟨scheme, host, rest ++ t, by simp, hbegin⟩

/-! ## The same as a pattern -/

open scoped Computability

/-- The texts of one character of a class. -/
def oneOf (p : Char → Prop) : Language Char := {s | ∃ c, p c ∧ s = [c]}

/-- The pattern of an address up to the end of its host. -/
def addressPattern : Language Char :=
  oneOf (fun c => c.isAlpha = true) * (oneOf GoesOnScheme)∗ * {"://".toList} *
    (oneOf MayBeginHost * (oneOf MayBeginHost)∗)

/-- Characters of a class in a row, any number of them. -/
theorem mem_kstar_oneOf {p : Char → Prop} {s : List Char} :
    s ∈ (oneOf p)∗ ↔ ∀ c ∈ s, p c := by
  rw [Language.mem_kstar]
  constructor
  · rintro ⟨parts, rfl, hparts⟩ c hc
    obtain ⟨part, hpart, hc⟩ := List.mem_flatten.1 hc
    obtain ⟨d, hd, rfl⟩ := hparts part hpart
    rwa [List.mem_singleton.1 hc]
  · intro h
    refine ⟨s.map ([·]), ?_, fun part hpart => ?_⟩
    · induction s with
      | nil => rfl
      | cons c s ih =>
        rw [List.map_cons, List.flatten_cons, ← ih fun d hd => h d (List.mem_cons_of_mem _ hd)]
        rfl
    · obtain ⟨c, hc, rfl⟩ := List.mem_map.1 hpart
      exact ⟨c, h c hc, rfl⟩

/-- A text begins as an address does if the pattern fits some beginning of it. -/
theorem beginsAddress_iff_pattern {s : List Char} :
    BeginsAddress s ↔ ∃ t ∈ addressPattern, t <+: s := by
  constructor
  · rintro ⟨_, host, rest, rfl, -, ⟨letter, others, rfl, hletter, hothers⟩, hhost⟩
    refine ⟨[letter] ++ others ++ "://".toList ++ ([host] ++ []), ?_, rest, by simp⟩
    have hletter : [letter] ∈ oneOf fun c => c.isAlpha = true := ⟨letter, hletter, rfl⟩
    have hhost : [host] ∈ oneOf MayBeginHost := ⟨host, hhost, rfl⟩
    have hscheme := Language.append_mem_mul hletter (mem_kstar_oneOf.2 hothers)
    exact Language.append_mem_mul (Language.append_mem_mul hscheme rfl)
      (Language.append_mem_mul hhost (Language.nil_mem_kstar _))
  · rintro ⟨t, ht, rest, rfl⟩
    obtain ⟨_, hbefore, _, hbehind, rfl⟩ := Language.mem_mul.1 ht
    obtain ⟨_, hscheme, _, rfl, rfl⟩ := Language.mem_mul.1 hbefore
    obtain ⟨_, ⟨letter, hletter, rfl⟩, others, hothers, rfl⟩ := Language.mem_mul.1 hscheme
    obtain ⟨_, ⟨host, hhost, rfl⟩, more, -, rfl⟩ := Language.mem_mul.1 hbehind
    have his : IsScheme ([letter] ++ others) :=
      ⟨letter, others, rfl, hletter, mem_kstar_oneOf.1 hothers⟩
    exact ⟨[letter] ++ others, host, more ++ rest, by simp, his.colon_notMem, his, hhost⟩

/-! ## Scripts -/

namespace Machine

/-- A step does the same whatever other computers would answer, so that it asks none of them. -/
def AsksNobody {α : Type} (x : Step α) (m : Machine) : Prop :=
  ∀ network, x.run { m with network } = ((x.run m).1, { (x.run m).2 with network })

/-- A script that no address names is where its path says. -/
theorem run_resolve_path {script : String} (h : isAddress script = false) (sink : Sink)
    (showProgress : Bool) (m : Machine) :
    (resolve sink script showProgress).run m = (.ok ⟨script, none⟩, m) := by
  simp only [resolve, h, Bool.false_eq_true, if_false, run_pure]

end Machine

open Machine

/-- A script is an address exactly if it begins as the pattern says, whatever follows; and exactly
the others are paths, which are taken as they are, on a machine that stays as it is, whoever is to
receive messages and whether downloads are to be noted or not. -/
theorem isAddress_exact (script : String) :
    (isAddress script = true ↔ BeginsAddress script.toList) ∧
      (isAddress script = true ↔ ∃ t ∈ addressPattern, t <+: script.toList) ∧
      (isAddress script = true → ∀ rest, isAddress (script ++ rest) = true) ∧
      ∀ (sink : Sink) (showProgress : Bool) (m : Machine),
        (resolve sink script showProgress).run m = (.ok ⟨script, none⟩, m) ∧
          AsksNobody (resolve sink script showProgress) m ↔ isAddress script = false := by
  refine ⟨isAddress_iff, isAddress_iff.trans beginsAddress_iff_pattern, fun h rest => ?_,
    fun sink showProgress m => ⟨?_, fun h => ⟨run_resolve_path h _ _ m, fun network => ?_⟩⟩⟩
  · rw [isAddress_iff, String.toList_append]
    exact (isAddress_iff.1 h).append rest.toList
  · rintro ⟨hrun, -⟩
    exact (isRemote_resolve (congrArg Prod.fst hrun)).symm
  · rw [run_resolve_path h, run_resolve_path h]

end ScriptDeps
