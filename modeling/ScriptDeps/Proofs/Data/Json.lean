import ScriptDeps.Data.Json
import ScriptDeps.Data.JsonReader

/-!
# Reading what was written in the JSON format

Data that are written over several lines in the JSON format are read back as they were, with any
text behind them that no number goes on with. Each reader undoes the writer of the same thing, and
what follows stays as it is: characters of a text, whole texts, numbers, items and fields, and then
data by induction on how deep they are nested. Main statement: `read?_pretty`.
-/

namespace ScriptDeps.Data.Json

/-! ## Blanks -/

/-- Blanks in front of a text that begins with none are skipped. -/
theorem skipSpace_append {space : List Char} (h : ∀ c ∈ space, isSpace c = true) (s : List Char) :
    skipSpace (space ++ s) = skipSpace s :=
  List.dropWhile_append_of_pos h

/-- Nothing is skipped in front of a character that is no space. -/
theorem skipSpace_cons {c : Char} (h : isSpace c = false) (s : List Char) :
    skipSpace (c :: s) = c :: s := by
  simp [skipSpace, h]

/-- A new line and its indentation are spaces. -/
theorem isSpace_of_mem_newLine {level : Nat} {c : Char} (h : c ∈ newLine level) :
    isSpace c = true := by
  rcases List.mem_cons.1 h with rfl | h
  · decide
  · obtain rfl := List.eq_of_mem_replicate h
    decide

/-! ## Texts -/

private theorem hexValue?_hexDigit : ∀ n < 16, hexValue? (hexDigit n) = some n := by decide

private theorem unit?_escape {n : Nat} (h : n < 0x20) :
    unit? ['0', '0', hexDigit (n / 16), hexDigit (n % 16)] = some n := by
  have hzero : hexValue? '0' = some 0 := by decide
  simp only [unit?, List.foldlM_cons, List.foldlM_nil, hzero,
    hexValue?_hexDigit (n / 16) (by omega), hexValue?_hexDigit (n % 16) (by omega)]
  simp
  omega

private theorem charOfCode?_toNat (c : Char) : charOfCode? c.toNat = some c := by
  have h : c.toNat.isValidChar := c.valid
  rw [charOfCode?, dif_pos h]
  rfl

/-- A written character is read back, whatever follows. -/
theorem quoted?_escape (c : Char) (s : List Char) :
    quoted? (escape c ++ s) = consTo c (quoted? s) := by
  unfold escape
  split
  case h_8 hquote hslash _ _ _ _ _ =>
    split
    · next hcontrol =>
      rw [List.cons_append, quoted?.eq_def]
      simp [unit?_escape hcontrol, charOfCode?_toNat]
    · next hcontrol =>
      rw [List.singleton_append, quoted?.eq_def]
      simp only [if_neg hquote, if_neg hslash, if_neg hcontrol]
  all_goals simp [quoted?, escaped?]

/-- A written text is read back up to the quote that ends it. -/
theorem quoted?_flatMap_escape (s rest : List Char) :
    quoted? (s.flatMap escape ++ '"' :: rest) = some (s, rest) := by
  induction s with
  | nil => rw [List.flatMap_nil, List.nil_append, quoted?.eq_def]; rfl
  | cons c s ih => rw [List.flatMap_cons, List.append_assoc, quoted?_escape, ih, consTo]; rfl

/-! ## Numbers -/

/-- A text with which no number goes on. -/
def EndsNumber (s : List Char) : Prop :=
  ∀ c ∈ s.head?, c.isDigit = false ∧ c ≠ '.' ∧ c ≠ 'e' ∧ c ≠ 'E'

/-- Only the digits of zero begin with a zero. -/
private theorem toDigits_eq_of_head? {n : Nat} (h : (Nat.toDigits 10 n).head? = some '0') :
    n = 0 := by
  induction n using Nat.strongRecOn with
  | _ n ih =>
    rw [Nat.toDigits_eq_if (by decide)] at h
    split at h
    · next hlt =>
      have hdigit : ∀ k < 10, [Nat.digitChar k].head? = some '0' → k = 0 := by decide
      exact hdigit n hlt h
    · next hge =>
      obtain ⟨c, digits, hdigits⟩ := List.exists_cons_of_ne_nil
        (Nat.toDigits_ne_nil (b := 10) (n := n / 10))
      have hzero := ih (n / 10) (by omega) (by rw [hdigits] at h ⊢; exact h)
      omega

/-- The digits of a number begin with a digit, and thus with no other character. -/
private theorem exists_toDigits_eq_cons (n : Nat) : ∃ c ds, Nat.toDigits 10 n = c :: ds ∧
    ∀ d : Char, d.isDigit = false → c ≠ d := by
  obtain ⟨c, ds, hds⟩ := List.exists_cons_of_ne_nil (Nat.toDigits_ne_nil (b := 10) (n := n))
  refine ⟨c, ds, hds, ?_⟩
  rintro d hd rfl
  have hdigit : c.isDigit = true :=
    Nat.isDigit_of_mem_toDigits (b := 10) (n := n) (by decide) (by decide) (by simp [hds])
  exact Bool.noConfusion (hd.symm.trans hdigit)

/-- The digits of a number are read back where the number ends. -/
theorem number?_toDigits (n : Nat) {rest : List Char} (h : EndsNumber rest) :
    number? (Nat.toDigits 10 n ++ rest) = some (Nat.toDigits 10 n, rest) := by
  obtain ⟨c, ds, hds, hother⟩ := exists_toDigits_eq_cons n
  have hall : ∀ d ∈ Nat.toDigits 10 n, d.isDigit = true := fun d hd =>
    Nat.isDigit_of_mem_toDigits (by decide) (by decide) hd
  have hwhole : (if (Nat.toDigits 10 n ++ rest).head? = some '0' then
      (['0'], (Nat.toDigits 10 n ++ rest).tail) else digits (Nat.toDigits 10 n ++ rest)) =
        (Nat.toDigits 10 n, rest) := by
    split
    · next hzero =>
      obtain rfl : n = 0 := toDigits_eq_of_head? (by rw [hds] at hzero ⊢; exact hzero)
      rfl
    · have htake : rest.takeWhile Char.isDigit = [] ∧ rest.dropWhile Char.isDigit = rest := by
        cases rest with
        | nil => exact ⟨rfl, rfl⟩
        | cons d rest => simp [(h d rfl).1]
      rw [digits, List.takeWhile_append_of_pos hall, List.dropWhile_append_of_pos hall, htake.1,
        htake.2, List.append_nil]
  have hsign : (Nat.toDigits 10 n ++ rest).head? ≠ some '-' := by
    simpa [hds] using hother '-' (by decide)
  have hne : ¬(Nat.toDigits 10 n).isEmpty = true := by simp [hds]
  unfold number?
  simp only [if_neg hsign, hwhole, if_neg hne]
  cases rest with
  | nil => simp
  | cons d rest =>
    obtain ⟨-, hpoint, he, hE⟩ := h d rfl
    split
    · next hcons => exact absurd (List.cons.inj hcons).1 hpoint
    · simp [he, hE]

/-! ## Values -/

/-- Data of whole numbers, texts, truth values and nothing, with at most so many values inside one
another. -/
inductive Nests : Nat → Data → Prop
  | null (n : Nat) : Nests (n + 1) .null
  | boolean (n : Nat) (b : Bool) : Nests (n + 1) (.boolean b)
  | natural (n k : Nat) : Nests (n + 1) (.natural k)
  | string (n : Nat) (s : String) : Nests (n + 1) (.string s)
  | list {n : Nat} {items : List Data} (h : ∀ d ∈ items, Nests n d) : Nests (n + 1) (.list items)
  | record {n : Nat} {fields : List (String × Data)} (h : ∀ f ∈ fields, Nests n f.2) :
    Nests (n + 1) (.record fields)

/-- Data may be nested less deep than allowed. -/
theorem Nests.mono {n m : Nat} {d : Data} (h : Nests n d) (hnm : n ≤ m) : Nests m d := by
  induction h generalizing m with
  | list _ ih =>
    obtain ⟨m, rfl⟩ : ∃ k, m = k + 1 := ⟨m - 1, by omega⟩
    exact .list fun d hd => ih d hd (by omega)
  | record _ ih =>
    obtain ⟨m, rfl⟩ : ∃ k, m = k + 1 := ⟨m - 1, by omega⟩
    exact .record fun f hf => ih f hf (by omega)
  | _ =>
    obtain ⟨m, rfl⟩ : ∃ k, m = k + 1 := ⟨m - 1, by omega⟩
    constructor

/-- A reader that reads data back where they are written at a level, behind blanks and in front of a
text with which no number goes on. -/
def ReadsBack (value : List Char → Option (Data × Rest)) (level : Nat) (d : Data) : Prop :=
  ∀ space rest, (∀ c ∈ space, isSpace c = true) → EndsNumber rest →
    value (space ++ pretty level d ++ rest) = some (d, rest)

/-- A number is written by its digits. -/
theorem toList_toString (k : Nat) : (toString k).toList = Nat.toDigits 10 k := by
  rw [Nat.toString_eq_ofList_toDigits, String.toList_ofList]

private theorem isSpace_of_not_isDigit {c : Char} (h : ∀ d : Char, d.isDigit = false → c ≠ d) :
    isSpace c = false := by
  simp [isSpace, h ' ' (by decide), h '\t' (by decide), h '\n' (by decide), h '\r' (by decide)]

/-- Written data begin with a character that is neither blank nor a closing bracket. -/
theorem exists_pretty_eq_cons {n : Nat} {d : Data} (h : Nests n d) (level : Nat) :
    ∃ c t, pretty level d = c :: t ∧ isSpace c = false ∧ c ≠ ']' := by
  cases h with
  | null => exact ⟨_, _, rfl, by decide, by decide⟩
  | boolean _ b => cases b <;> exact ⟨_, _, rfl, by decide, by decide⟩
  | natural _ k =>
    obtain ⟨c, ds, hds, hother⟩ := exists_toDigits_eq_cons k
    exact ⟨c, ds, (toList_toString k).trans hds, isSpace_of_not_isDigit hother,
      hother _ (by decide)⟩
  | string => exact ⟨_, _, rfl, by decide, by decide⟩
  | @list _ items _ => cases items <;> exact ⟨_, _, rfl, by decide, by decide⟩
  | @record _ fields _ =>
    match fields with
    | [] => exact ⟨_, _, rfl, by decide, by decide⟩
    | (name, value) :: fields => exact ⟨_, _, by rw [pretty]; rfl, by decide, by decide⟩

private theorem endsNumber_cons {c : Char} (h : c.isDigit = false ∧ c ≠ '.' ∧ c ≠ 'e' ∧ c ≠ 'E')
    (s : List Char) : EndsNumber (c :: s) := by
  intro d hd
  obtain rfl : c = d := by simpa using hd
  exact h

private theorem skipSpace_newLine_cons {c : Char} (hc : isSpace c = false) (level : Nat)
    (s : List Char) : skipSpace (newLine level ++ c :: s) = c :: s := by
  rw [skipSpace_append fun _ => isSpace_of_mem_newLine, skipSpace_cons hc]

section Readers

variable {value : List Char → Option (Data × Rest)} {level : Nat}

/-- One item is read back, and what follows it is looked at. -/
private theorem items?_succ {d : Data} (h : ReadsBack value level d) (limit : Nat)
    {space s : List Char} (hspace : ∀ c ∈ space, isSpace c = true) (hs : EndsNumber s) :
    items? value (limit + 1) (space ++ pretty level d ++ s) =
      match skipSpace s with
      | ',' :: s => (items? value limit s).map fun (ds, s) => (d :: ds, s)
      | ']' :: s => some ([d], s)
      | _ => none := by
  rw [items?, h space s hspace hs]
  simp only [Option.bind_eq_bind, Option.bind_some]
  generalize skipSpace s = t
  split
  · exact Option.map_eq_bind.symm
  · rfl
  · simp

/-- One field is read back, and what follows it is looked at. -/
private theorem fields?_succ {d : Data} (h : ReadsBack value level d) (limit : Nat) (name : String)
    {space s : List Char} (hspace : ∀ c ∈ space, isSpace c = true) (hs : EndsNumber s) :
    fields? value (limit + 1) (space ++ (quote name ++ ": ".toList ++ pretty level d) ++ s) =
      match skipSpace s with
      | ',' :: s => (fields? value limit s).map fun (ds, s) => ((name, d) :: ds, s)
      | '\x7d' :: s => some ([(name, d)], s)
      | _ => none := by
  have hvalue : value (' ' :: (pretty level d ++ s)) = some (d, s) :=
    h [' '] s (List.forall_mem_singleton.2 rfl) hs
  have hcolon : skipSpace (": ".toList ++ (pretty level d ++ s)) =
      ':' :: ' ' :: (pretty level d ++ s) := skipSpace_cons (by decide) _
  rw [fields?, quote]
  simp only [List.append_assoc, List.cons_append, List.nil_append, skipSpace_append hspace,
    skipSpace_cons (c := '"') (by decide), quoted?_flatMap_escape, Option.bind_eq_bind,
    Option.bind_some, hcolon, hvalue, String.ofList_toList]
  generalize skipSpace s = t
  split
  · exact Option.map_eq_bind.symm
  · rfl
  · simp

/-- The items of a list are read back up to the bracket that ends it. -/
theorem items?_prettyItems (outer : Nat) {item : Data} {items : List Data}
    (h : ∀ d ∈ item :: items, ReadsBack value level d) {limit : Nat}
    (hlimit : items.length < limit) {space : List Char} (hspace : ∀ c ∈ space, isSpace c = true)
    (rest : List Char) :
    items? value limit (space ++ pretty level item ++
      (prettyItems level items ++ (newLine outer ++ ']' :: rest))) =
        some (item :: items, rest) := by
  obtain ⟨limit, rfl⟩ : ∃ k, limit = k + 1 := ⟨limit - 1, by omega⟩
  induction items generalizing item limit space with
  | nil =>
    have hends : EndsNumber (newLine outer ++ ']' :: rest) := endsNumber_cons (by decide) _
    rw [prettyItems, List.nil_append, items?_succ (h item List.mem_cons_self) limit hspace hends,
      skipSpace_newLine_cons (by decide)]
    rfl
  | cons next items ih =>
    obtain ⟨limit, rfl⟩ : ∃ k, limit = k + 1 := ⟨limit - 1, by simp at hlimit; omega⟩
    have hnext := ih (fun d hd => h d (List.mem_cons_of_mem _ hd))
      (fun _ (hc : _ ∈ newLine level) => isSpace_of_mem_newLine hc) limit (by simp at hlimit; omega)
    have hends : EndsNumber (prettyItems level (next :: items) ++ (newLine outer ++ ']' :: rest)) :=
      endsNumber_cons (by decide) _
    rw [items?_succ (h item List.mem_cons_self) _ hspace hends, prettyItems]
    simp only [List.cons_append, List.append_assoc] at hnext ⊢
    rw [skipSpace_cons (by decide)]
    simp only [hnext, Option.map_some]

/-- The fields of a record are read back up to the bracket that ends it. -/
theorem fields?_prettyFields (outer : Nat) {name : String} {d : Data}
    {fields : List (String × Data)} (h : ∀ f ∈ (name, d) :: fields, ReadsBack value level f.2)
    {limit : Nat} (hlimit : fields.length < limit) {space : List Char}
    (hspace : ∀ c ∈ space, isSpace c = true) (rest : List Char) :
    fields? value limit (space ++ (quote name ++ ": ".toList ++ pretty level d) ++
      (prettyFields level fields ++ (newLine outer ++ '\x7d' :: rest))) =
        some ((name, d) :: fields, rest) := by
  obtain ⟨limit, rfl⟩ : ∃ k, limit = k + 1 := ⟨limit - 1, by omega⟩
  induction fields generalizing name d limit space with
  | nil =>
    have hends : EndsNumber (newLine outer ++ '\x7d' :: rest) := endsNumber_cons (by decide) _
    rw [prettyFields, List.nil_append,
      fields?_succ (h (name, d) List.mem_cons_self) limit name hspace hends,
      skipSpace_newLine_cons (by decide)]
    rfl
  | cons next fields ih =>
    obtain ⟨limit, rfl⟩ : ∃ k, limit = k + 1 := ⟨limit - 1, by simp at hlimit; omega⟩
    have hnext := ih (fun f hf => h f (List.mem_cons_of_mem _ hf))
      (fun _ (hc : _ ∈ newLine level) => isSpace_of_mem_newLine hc) limit (by simp at hlimit; omega)
    have hends : EndsNumber
        (prettyFields level (next :: fields) ++ (newLine outer ++ '\x7d' :: rest)) :=
      endsNumber_cons (by decide) _
    rw [fields?_succ (h (name, d) List.mem_cons_self) _ name hspace hends, prettyFields]
    simp only [List.cons_append, List.append_assoc] at hnext ⊢
    rw [skipSpace_cons (by decide)]
    simp only [hnext, Option.map_some]

end Readers

/-- Written items are at least as long as there are items. -/
private theorem length_le_length_prettyItems (level : Nat) (items : List Data) :
    items.length ≤ (prettyItems level items).length := by
  induction items with
  | nil => exact Nat.zero_le _
  | cons d items ih =>
    rw [prettyItems, List.length_append, List.length_append, List.length_cons, List.length_cons]
    omega

private theorem length_le_length_prettyFields (level : Nat) (fields : List (String × Data)) :
    fields.length ≤ (prettyFields level fields).length := by
  induction fields with
  | nil => exact Nat.zero_le _
  | cons f fields ih =>
    rw [prettyFields, List.length_append]
    simp only [List.length_cons, List.length_append]
    omega

/-- The digits of a number are no word, and they are read as a number. -/
private theorem value?_natural (n k : Nat) (level : Nat) :
    ReadsBack (value? (n + 1)) level (.natural k) := by
  intro space rest hspace hrest
  obtain ⟨c, ds, hds, hne⟩ := exists_toDigits_eq_cons k
  have hpretty : pretty level (.natural k) = c :: ds := (toList_toString k).trans hds
  have hnumber := number?_toDigits k hrest
  rw [hds, List.cons_append] at hnumber
  rw [value?, List.append_assoc, skipSpace_append hspace, hpretty, List.cons_append,
    skipSpace_cons (isSpace_of_not_isDigit hne)]
  split
  · next heq => exact absurd (List.cons.inj heq).1 (hne _ (by decide))
  · next heq => exact absurd (List.cons.inj heq).1 (hne _ (by decide))
  · next heq => exact absurd (List.cons.inj heq).1 (hne _ (by decide))
  · have hwords : (words.find? fun w => w.1.isPrefixOf (c :: (ds ++ rest))) = none := by
      simp [words, (hne 'n' (by decide)).symm, (hne 't' (by decide)).symm,
        (hne 'f' (by decide)).symm]
    rw [hwords]
    simp only [hnumber, Option.map_some, Data.natural]
    rw [← hds, Nat.toString_eq_ofList_toDigits]

/-- A text stands between quotes. -/
private theorem value?_string (n : Nat) (s : String) (level : Nat) :
    ReadsBack (value? (n + 1)) level (.string s) := by
  intro space rest hspace _
  have hpretty : pretty level (.string s) ++ rest =
      '"' :: (s.toList.flatMap escape ++ '"' :: rest) := by
    simp [pretty, scalar, quote]
  rw [value?, List.append_assoc, skipSpace_append hspace, hpretty, skipSpace_cons (by decide)]
  simp [quoted?_flatMap_escape]

/-- A list is read back if its items are: no item begins with the bracket that ends the list. -/
private theorem value?_list {n : Nat} {items : List Data} (hnests : ∀ d ∈ items, Nests n d)
    (h : ∀ d ∈ items, ∀ level, ReadsBack (value? n) level d) (level : Nat) :
    ReadsBack (value? (n + 1)) level (.list items) := by
  intro space rest hspace _
  rw [value?, List.append_assoc, skipSpace_append hspace]
  cases items with
  | nil => rfl
  | cons item items =>
    obtain ⟨c, t, hcons, hblank, hbracket⟩ :=
      exists_pretty_eq_cons (hnests item List.mem_cons_self) (level + 1)
    have hpretty : pretty level (.list (item :: items)) ++ rest =
        '[' :: (newLine (level + 1) ++ (pretty (level + 1) item ++
          (prettyItems (level + 1) items ++ (newLine level ++ ']' :: rest)))) := by
      simp [pretty]
    have hlimit : items.length < (pretty (level + 1) item ++
        (prettyItems (level + 1) items ++ (newLine level ++ ']' :: rest))).length + 1 := by
      have := length_le_length_prettyItems (level + 1) items
      simp only [List.length_append]
      omega
    have hread := items?_prettyItems level (fun d hd => h d hd (level + 1)) hlimit
      (List.forall_mem_nil _) rest
    rw [List.nil_append] at hread
    rw [hpretty, skipSpace_cons (by decide)]
    simp only [skipSpace_append fun _ => isSpace_of_mem_newLine]
    rw [hcons, List.cons_append] at hread ⊢
    rw [skipSpace_cons hblank]
    split
    · next heq => exact absurd (List.cons.inj heq).1 hbracket
    · rw [hread]
      rfl

/-- A record is read back if the values of its fields are: its first field begins with a quote. -/
private theorem value?_record {n : Nat} {fields : List (String × Data)}
    (h : ∀ f ∈ fields, ∀ level, ReadsBack (value? n) level f.2) (level : Nat) :
    ReadsBack (value? (n + 1)) level (.record fields) := by
  intro space rest hspace _
  rw [value?, List.append_assoc, skipSpace_append hspace]
  match fields with
  | [] => rfl
  | (name, d) :: fields =>
    have hpretty : pretty level (.record ((name, d) :: fields)) ++ rest =
        '\x7b' :: (newLine (level + 1) ++ (quote name ++ ": ".toList ++ pretty (level + 1) d ++
          (prettyFields (level + 1) fields ++ (newLine level ++ '\x7d' :: rest)))) := by
      simp [pretty]
    have hlimit : fields.length < (quote name ++ ": ".toList ++ pretty (level + 1) d ++
        (prettyFields (level + 1) fields ++ (newLine level ++ '\x7d' :: rest))).length + 1 := by
      have := length_le_length_prettyFields (level + 1) fields
      simp only [List.length_append]
      omega
    have hread := fields?_prettyFields level (fun f hf => h f hf (level + 1)) hlimit
      (List.forall_mem_nil _) rest
    rw [List.nil_append] at hread
    rw [hpretty, skipSpace_cons (by decide)]
    simp only [skipSpace_append fun _ => isSpace_of_mem_newLine]
    rw [quote, List.cons_append, List.cons_append, List.cons_append, List.cons_append] at hread ⊢
    rw [skipSpace_cons (by decide)]
    split
    · next heq => exact absurd (List.cons.inj heq).1 (by decide)
    · rw [hread]
      rfl

/-- Data that are not nested too deep are read back. -/
theorem readsBack_value? {n : Nat} {d : Data} (h : Nests n d) (level : Nat) :
    ReadsBack (value? n) level d := by
  induction h generalizing level with
  | natural n k => exact value?_natural n k level
  | string n s => exact value?_string n s level
  | list hnests ih => exact value?_list hnests ih level
  | record _ ih => exact value?_record ih level
  | null n =>
    intro space rest hspace _
    rw [value?, List.append_assoc, skipSpace_append hspace]
    rfl
  | boolean n b =>
    intro space rest hspace _
    rw [value?, List.append_assoc, skipSpace_append hspace]
    cases b <;> rfl

/-- Data that are not nested too deep are read back from their written form. -/
theorem read?_pretty {d : Data} (h : Nests depthLimit d) : read? (pretty 0 d) = some d := by
  have hread := readsBack_value? h 0 [] [] (by simp) (by simp [EndsNumber])
  rw [List.nil_append, List.append_nil] at hread
  rw [read?, hread]
  rfl

end ScriptDeps.Data.Json
