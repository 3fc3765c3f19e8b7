import Mathlib.Logic.Function.Basic
import ScriptDeps.Proofs.Data.Json
import ScriptDeps.Report

/-!
# Reports that are read back

A report that is written in the JSON format can be read, and is the same in every field: the fields
that an import lacks when it has no items or no other name are read as just that, and every word
stands for one form or origin. Main statement: `ofJson?_write`.
-/

namespace ScriptDeps

open Data

/-! ## Fields -/

/-- The word for a form stands for it. -/
theorem Import.Form.ofWord?_word (form : Import.Form) : Form.ofWord? form.word = some form := by
  cases form <;> decide

/-- The word for an origin stands for it. -/
theorem Import.Origin.ofWord?_word (origin : Import.Origin) :
    Origin.ofWord? origin.word = some origin := by
  cases origin <;> decide

namespace Data

/-- A whole number is the value of its digits. -/
theorem natural?_natural (n : Nat) : (natural n).natural? = some n := by
  have hall : (Nat.toDigits 10 n).all Char.isDigit = true := List.all_eq_true.2 fun c hc =>
    Nat.isDigit_of_mem_toDigits (b := 10) (n := n) (by decide) (by decide) hc
  have hvalue := Nat.ofDigitChars_ten_toDigits (n := n)
  rw [Nat.ofDigitChars_eq_foldl] at hvalue
  simpa [natural, natural?, Json.toList_toString, hall, Nat.toDigits_ne_nil] using hvalue

/-- Values that are each read back are read back in a row. -/
theorem mapM_map_eq_some {α : Type} {write : α → Data} {read : Data → Option α} {values : List α}
    (h : ∀ a ∈ values, read (write a) = some a) : (values.map write).mapM read = some values := by
  induction values with
  | nil => rfl
  | cons a values ih =>
    have hrest := ih fun b hb => h b (List.mem_cons_of_mem _ hb)
    simp [h a List.mem_cons_self, hrest]

/-- Texts are read back. -/
theorem strings?_texts (values : List String) : (texts values).strings? = some values :=
  mapM_map_eq_some fun _ _ => rfl

end Data

/-- An import is read back from its fields. -/
theorem Import.ofData?_toData (i : Import) : Import.ofData? i.toData = some i := by
  obtain ⟨path, items, form, line, column, raw, origin, rename⟩ := i
  have hitems : ∀ values, (texts values).strings? = some values := strings?_texts
  cases items <;> cases rename <;>
    simp [ofData?, toData, field?, List.lookup_cons, Data.string?, natural?_natural,
      Form.ofWord?_word, Origin.ofWord?_word, hitems]

namespace Report

/-- A report is read back from its fields. -/
theorem ofData?_toData (r : Report) : ofData? r.toData = some r := by
  obtain ⟨script, pythonVersion, ⟨imports, bundled, ⟨names⟩, failed⟩, block, timestamp,
    toolVersion⟩ := r
  have himports : (imports.map Import.toData).mapM Import.ofData? = some imports :=
    mapM_map_eq_some fun i _ => i.ofData?_toData
  simp [ofData?, toData, field?, List.lookup_cons, Data.string?, Data.items?, Data.boolean?,
    strings?_texts, DependencyList.ofData?, himports]

open Json

private theorem nests_texts (n : Nat) (values : List String) : Nests (n + 2) (texts values) := by
  refine .list fun d hd => ?_
  obtain ⟨s, -, rfl⟩ := List.mem_map.1 hd
  exact .string n s

private theorem nests_import (n : Nat) (i : Import) : Nests (n + 3) i.toData := by
  refine .record fun f hf => ?_
  simp only [List.mem_append, List.mem_cons, List.not_mem_nil, or_false, List.mem_map] at hf
  rcases hf with ((rfl | hf) | rfl | rfl | rfl | rfl | rfl) | ⟨name, -, rfl⟩
  · exact .string (n + 1) _
  · split at hf
    · exact absurd hf List.not_mem_nil
    · obtain rfl := List.mem_singleton.1 hf
      exact nests_texts n _
  · exact .string (n + 1) _
  · exact .natural (n + 1) _
  · exact .natural (n + 1) _
  · exact .string (n + 1) _
  · exact .string (n + 1) _
  · exact .string (n + 1) _

/-- An item of an import in a report is nested deepest. -/
theorem nests_toData (r : Report) : Nests 5 r.toData := by
  refine .record fun f hf => ?_
  simp only [List.mem_cons, List.not_mem_nil, or_false] at hf
  rcases hf with rfl | rfl | rfl | rfl | rfl | rfl | rfl | rfl
  · exact .string 3 _
  · exact .string 3 _
  · refine .list fun d hd => ?_
    obtain ⟨i, -, rfl⟩ := List.mem_map.1 hd
    exact nests_import 0 i
  · exact nests_texts 2 _
  · exact nests_texts 2 _
  · exact .boolean 3 _
  · exact .string 3 _
  · refine .record fun f hf => ?_
    simp only [List.mem_cons, List.not_mem_nil, or_false] at hf
    rcases hf with rfl | rfl
    · exact .string 2 _
    · exact .string 2 _

/-- A report that is written in the JSON format is read back in every field, so that two reports
that differ are written differently. -/
theorem ofJson?_write :
    (∀ r : Report, ofJson? (r.write .json) = some r) ∧
      Function.Injective fun r : Report => r.write .json := by
  have hread : ∀ r : Report, ofJson? (r.write .json) = some r := by
    intro r
    have hdepth : Nests depthLimit r.toData := (nests_toData r).mono (by decide)
    rw [ofJson?, write, String.toList_ofList, read?_pretty hdepth]
    exact ofData?_toData r
  refine ⟨hread, fun r s h => ?_⟩
  have hsome := hread r
  simp only at h
  rw [h, hread s] at hsome
  exact (Option.some.inj hsome).symm

end Report

end ScriptDeps
