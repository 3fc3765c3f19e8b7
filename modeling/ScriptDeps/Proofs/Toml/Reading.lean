import ScriptDeps.Proofs.Text.Lines
import ScriptDeps.Toml.Document

/-!
# Reading texts and lists of texts

What the reader makes of a text in double quotes that needs no escapes, of a list of such texts over
several lines, and of lines that give a key a value. Main statement: `read?_assignments`, a document
of such lines has one entry for each.
-/

namespace ScriptDeps.Toml

open ScriptDeps.Text

/-- A character that stands for itself between double quotes. -/
def isLiteral (c : Char) : Bool := c != '"' && c != '\\' && !isControl c

private theorem isPlain_of_isLiteral {c : Char} (h : isLiteral c = true) : isPlain c = true := by
  simp only [isLiteral, isControl, Bool.and_eq_true, Bool.not_eq_true', Bool.or_eq_false_iff,
    decide_eq_false_iff_not] at h
  have hlow : 0x20 ≤ c.toNat := by omega
  have hhigh : c.toNat ≠ 0x7F := by
    intro heq
    have hspan := h.2.2
    rw [heq] at hspan
    exact absurd hspan (by decide)
  simp [isPlain, hlow, hhigh]

/-- Characters that stand for themselves are read up to the quote. -/
theorem basicString_append {s : List Char} (h : ∀ c ∈ s, isLiteral c = true) (rest : List Char) :
    basicString (s ++ '"' :: rest) = some (s, rest) := by
  induction s with
  | nil => simp [basicString]
  | cons c s ih =>
    have hc : isLiteral c = true := h c List.mem_cons_self
    have hrest := ih fun d hd => h d (List.mem_cons_of_mem _ hd)
    have hplain := isPlain_of_isLiteral hc
    have hquote : c ≠ '"' := by
      rintro rfl
      exact absurd hc (by decide)
    have hslash : c ≠ '\\' := by
      rintro rfl
      exact absurd hc (by decide)
    simp [basicString, hquote, hslash, hplain, hrest, consTo]

/-- A text in double quotes is read. -/
theorem value?_string {s : List Char} (h : ∀ c ∈ s, isLiteral c = true) (depth : Nat)
    (rest : List Char) (hrest : rest.head? ≠ some '"') :
    value? depth ('"' :: (s ++ '"' :: rest)) = some (.string (String.ofList s), rest) := by
  have hquoted : quoted? ('"' :: (s ++ '"' :: rest)) = some (s, rest) := by
    have hbasic := basicString_append h rest
    cases s with
    | nil =>
      cases rest with
      | nil => simp [quoted?, basicString]
      | cons d rest =>
        have hd : d ≠ '"' := by simpa using hrest
        simp [quoted?, basicString, hd]
    | cons c s =>
      have hquote : c ≠ '"' := by
        rintro rfl
        exact absurd (h _ List.mem_cons_self) (by decide)
      simpa [quoted?, hquote] using hbasic
  unfold value?
  simp [hquoted]

/-! ## Lists over several lines -/

/-- A character at which skipping blanks, comments and line ends stops. -/
def isStop (c : Char) : Bool := !isSpace c && c != '#' && c != '\n' && c != '\r'

private theorem skipComment?_stop {s : List Char} {c : Char} (hs : ∀ b ∈ s, isSpace b = true)
    (hc : isStop c = true) (t : List Char) : skipComment? (s ++ c :: t) = some (c :: t) := by
  have hspace : isSpace c = false := by
    simp only [isStop, Bool.and_eq_true, Bool.not_eq_true'] at hc
    exact hc.1.1.1
  have hhash : c ≠ '#' := by
    rintro rfl
    exact absurd hc (by decide)
  have hskip : skipSpace (s ++ c :: t) = c :: t := by
    rw [skipSpace, List.dropWhile_append_of_pos hs, List.dropWhile_cons_of_neg (by simp [hspace])]
  rw [skipComment?, hskip]
  simp [hhash]

private theorem lineEnd?_stop {c : Char} (hc : isStop c = true) (t : List Char) :
    lineEnd? (c :: t) = none := by
  have hnew : c ≠ '\n' := by
    rintro rfl
    exact absurd hc (by decide)
  have hreturn : c ≠ '\r' := by
    rintro rfl
    exact absurd hc (by decide)
  simp [lineEnd?, hnew, hreturn]

/-- Nothing is skipped before a character that stops. -/
theorem skipBlank?_stop {c : Char} (hc : isStop c = true) (t : List Char) :
    skipBlank? (c :: t) = some (c :: t) := by
  have hcomment := skipComment?_stop (s := []) (by simp) hc t
  rw [List.nil_append] at hcomment
  simp [skipBlank?, skipLines?, hcomment, lineEnd?_stop hc]

/-- A line end and the blanks behind it are skipped. -/
theorem skipBlank?_newline {s : List Char} {c : Char} (hs : ∀ b ∈ s, isSpace b = true)
    (hc : isStop c = true) (t : List Char) :
    skipBlank? ('\n' :: (s ++ c :: t)) = some (c :: t) := by
  have hfirst : skipComment? ('\n' :: (s ++ c :: t)) = some ('\n' :: (s ++ c :: t)) := by
    simp [skipComment?, skipSpace, isSpace]
  have hend : lineEnd? ('\n' :: (s ++ c :: t)) = some (s ++ c :: t) := rfl
  have hcomment := skipComment?_stop hs hc t
  simp [skipBlank?, skipLines?, hfirst, hend, hcomment, lineEnd?_stop hc]

/-- Texts that each stand behind a newline are no more than the characters in them. -/
theorem length_le_length_flatten {α : Type} (f : α → List Char) (l : List α) :
    l.length ≤ (l.map fun a => '\n' :: f a).flatten.length := by
  induction l with
  | nil => simp
  | cons a l ih =>
    rw [List.map_cons, List.flatten_cons, List.length_append, List.length_cons, List.length_cons]
    omega

/-- An item of a list on a line of its own. -/
def itemLine (s : List Char) : List Char := [' ', ' ', ' ', ' ', '"'] ++ s ++ ['"', ',']

/-- Texts on lines of their own up to the bracket that closes their list are read. -/
theorem items?_strings {items : List (List Char)}
    (h : ∀ s ∈ items, ∀ c ∈ s, isLiteral c = true) (depth : Nat) {limit : Nat}
    (hlimit : items.length < limit) (rest : List Char) :
    items? (value? depth) limit
        ((items.map fun s => '\n' :: itemLine s).flatten ++ '\n' :: ']' :: rest) =
      some (items.map fun s => .string (String.ofList s), rest) := by
  induction items generalizing limit with
  | nil =>
    obtain ⟨limit, rfl⟩ := Nat.exists_eq_succ_of_ne_zero (Nat.ne_of_gt hlimit)
    have hskip := skipBlank?_newline (s := []) (c := ']') (by simp) (by decide) rest
    rw [List.nil_append] at hskip
    simp [items?, hskip]
  | cons s items ih =>
    obtain ⟨limit, rfl⟩ := Nat.exists_eq_succ_of_ne_zero (Nat.ne_of_gt (Nat.zero_lt_of_lt hlimit))
    have hlimit' : items.length < limit := by
      rw [List.length_cons] at hlimit
      omega
    have hrest := ih (fun t ht => h t (List.mem_cons_of_mem _ ht)) hlimit'
    generalize htail : (items.map fun s => '\n' :: itemLine s).flatten ++ '\n' :: ']' :: rest = tail
      at hrest
    have htext : ((s :: items).map fun s => '\n' :: itemLine s).flatten ++ '\n' :: ']' :: rest =
        '\n' :: ([' ', ' ', ' ', ' '] ++ '"' :: (s ++ '"' :: ',' :: tail)) := by
      rw [← htail]
      simp [itemLine]
    have hskip := skipBlank?_newline (s := [' ', ' ', ' ', ' ']) (c := '"')
      (List.all_eq_true.1 (by decide)) (by decide) (s ++ '"' :: ',' :: tail)
    have hvalue := value?_string (h s List.mem_cons_self) depth (',' :: tail) (by simp)
    have hcomma := skipBlank?_stop (c := ',') (by decide) tail
    rw [htext, items?, hskip]
    simp [hvalue, hcomma, hrest]

/-- A list of texts on lines of their own is read. -/
theorem value?_strings {items : List (List Char)}
    (h : ∀ s ∈ items, ∀ c ∈ s, isLiteral c = true) (depth : Nat) (rest : List Char) :
    value? (depth + 1)
        ('[' :: ((items.map fun s => '\n' :: itemLine s).flatten ++ '\n' :: ']' :: rest)) =
      some (.array (items.map fun s => .string (String.ofList s)), rest) := by
  have hlimit : items.length <
      ((items.map fun s => '\n' :: itemLine s).flatten ++ '\n' :: ']' :: rest).length + 1 := by
    have hle := length_le_length_flatten itemLine items
    rw [List.length_append]
    omega
  have hitems := items?_strings h depth hlimit rest
  unfold value?
  simp only [hitems, Option.map_some]

/-! ## Lines that give a key a value -/

/-- A key without quotes, and a text that gives it a value. -/
structure Assignment where
  /-- The key. -/
  key : List Char
  /-- The text of the value. -/
  text : List Char
  /-- The value. -/
  value : Value

namespace Assignment

/-- The line of an assignment. -/
def line (a : Assignment) : List Char := a.key ++ [' ', '=', ' '] ++ a.text

/-- An assignment whose key is plain, and whose text is read as its value up to its end. -/
structure Reads (a : Assignment) : Prop where
  /-- The key is not empty. -/
  key_ne_nil : a.key ≠ []
  /-- The key is made of plain letters. -/
  key_letters : ∀ c ∈ a.key, isKeyLetter c = true
  /-- No blank stands in front of the value. -/
  text_start : ∀ rest, skipSpace (a.text ++ rest) = a.text ++ rest
  /-- The text is read as the value. -/
  text_value : ∀ rest, rest.head? ≠ some '"' →
    value? (depthLimit - 1) (a.text ++ rest) = some (a.value, rest)

end Assignment

private theorem ne_of_isKeyLetter {c d : Char} (hc : isKeyLetter c = true)
    (hd : isKeyLetter d = false) : c ≠ d := by
  rintro rfl
  rw [hc] at hd
  exact Bool.noConfusion hd

/-- A key without quotes is read up to the first other character. -/
theorem key?_plain {key : List Char} (hne : key ≠ []) (hkey : ∀ c ∈ key, isKeyLetter c = true)
    {d : Char} (hd : isKeyLetter d = false) (rest : List Char) :
    key? (key ++ d :: rest) = some (key, d :: rest) := by
  have htake : (key ++ d :: rest).takeWhile isKeyLetter = key := by
    have hall : key.takeWhile isKeyLetter = key := List.takeWhile_eq_self_iff.2 hkey
    rw [List.takeWhile_append, hall]
    simp [hd]
  obtain ⟨c, s, rfl⟩ := List.exists_cons_of_ne_nil hne
  have hc : isKeyLetter c = true := hkey c List.mem_cons_self
  unfold key?
  split
  · next heq => exact absurd (List.cons.inj heq).1 (ne_of_isKeyLetter hc (by decide))
  · next heq => exact absurd (List.cons.inj heq).1 (ne_of_isKeyLetter hc (by decide))
  · simp only [htake]
    simp

/-- No blank is skipped in front of a key without quotes. -/
private theorem skipSpace_plain {key : List Char} (hne : key ≠ [])
    (hkey : ∀ c ∈ key, isKeyLetter c = true) (rest : List Char) :
    skipSpace (key ++ rest) = key ++ rest := by
  obtain ⟨c, s, rfl⟩ := List.exists_cons_of_ne_nil hne
  have hc : isKeyLetter c = true := hkey c List.mem_cons_self
  have hblank := ne_of_isKeyLetter hc (d := ' ') (by decide)
  have htab := ne_of_isKeyLetter hc (d := '\t') (by decide)
  simp [skipSpace, isSpace, hblank, htab]

private theorem keys?_plain {key : List Char} (hne : key ≠ [])
    (hkey : ∀ c ∈ key, isKeyLetter c = true) (limit : Nat) (rest : List Char) :
    keys? (limit + 1) (key ++ ' ' :: '=' :: rest) = some ([String.ofList key], '=' :: rest) := by
  have hread := key?_plain hne hkey (d := ' ') (by decide) ('=' :: rest)
  have hbehind : skipSpace (' ' :: '=' :: rest) = '=' :: rest := by
    simp [skipSpace, isSpace]
  rw [keys?, skipSpace_plain hne hkey, hread]
  simp [hbehind]

/-- The line of an assignment is read up to its end. -/
theorem line?_assignment {a : Assignment} (ha : a.Reads) (rest : List Char)
    (hrest : rest.head? ≠ some '"') :
    line? (a.line ++ rest) = some (.entry [String.ofList a.key] a.value, rest) := by
  have hline : a.line ++ rest = a.key ++ ' ' :: '=' :: ' ' :: (a.text ++ rest) := by
    simp [Assignment.line]
  have hspace : skipSpace (' ' :: (a.text ++ rest)) = a.text ++ rest := by
    have hstart := ha.text_start rest
    simpa [skipSpace, isSpace] using hstart
  have hpair : pair? (value? (depthLimit - 1)) (a.line ++ rest) =
      some ([String.ofList a.key], a.value, rest) := by
    rw [hline, pair?]
    have hkeys := keys?_plain ha.key_ne_nil ha.key_letters (depthLimit - 2)
      (' ' :: (a.text ++ rest))
    have hlimit : depthLimit - 2 + 1 = depthLimit - 1 := by decide
    rw [hlimit] at hkeys
    simp [hkeys, mark?, hspace, ha.text_value rest hrest]
  obtain ⟨c, s, hkey⟩ := List.exists_cons_of_ne_nil ha.key_ne_nil
  have hc : isKeyLetter c = true := ha.key_letters c (hkey ▸ List.mem_cons_self)
  have hskip : skipSpace (a.line ++ rest) = a.line ++ rest := by
    rw [hline, skipSpace_plain ha.key_ne_nil ha.key_letters]
  have hhead : a.line ++ rest = c :: (s ++ ' ' :: '=' :: ' ' :: (a.text ++ rest)) := by
    rw [hline, hkey, List.cons_append]
  -- The other kinds of lines all begin with a character that no key has.
  have hother {d : Char} (hd : isKeyLetter d = false) (t : List Char) :
      a.line ++ rest ≠ d :: t := by
    intro heq
    rw [hhead] at heq
    exact ne_of_isKeyLetter hc hd (List.cons.inj heq).1
  unfold line?
  rw [hskip]
  split
  · next heq => simp [hhead] at heq
  · next heq => exact absurd heq (hother (by decide) _)
  · next heq => exact absurd heq (hother (by decide) _)
  · next heq => exact absurd heq (hother (by decide) _)
  · next heq => exact absurd heq (hother (by decide) _)
  · next heq => exact absurd heq (hother (by decide) _)
  · rw [hpair]
    rfl

/-! ## Documents of such lines -/

/-- The lines of assignments are read, each as its entry. -/
theorem lines?_assignments {a : Assignment} {as : List Assignment} (h : ∀ b ∈ a :: as, b.Reads)
    {limit : Nat} (hlimit : as.length < limit) :
    lines? limit (a.line ++ (as.map fun b => '\n' :: b.line).flatten) =
      some ((a :: as).map fun b => .entry [String.ofList b.key] b.value) := by
  induction as generalizing a limit with
  | nil =>
    obtain ⟨limit, rfl⟩ := Nat.exists_eq_succ_of_ne_zero (Nat.ne_of_gt hlimit)
    have hline := line?_assignment (h a List.mem_cons_self) [] (by simp)
    have hcomment : skipComment? [] = some [] := rfl
    rw [List.map_nil, List.flatten_nil, lines?, hline]
    simp [hcomment]
  | cons b bs ih =>
    obtain ⟨limit, rfl⟩ := Nat.exists_eq_succ_of_ne_zero (Nat.ne_of_gt (Nat.zero_lt_of_lt hlimit))
    have hlimit' : bs.length < limit := by
      rw [List.length_cons] at hlimit
      omega
    have hrest := ih (a := b) (fun x hx => h x (List.mem_cons_of_mem _ hx)) hlimit'
    have hline := line?_assignment (h a List.mem_cons_self)
      ('\n' :: (b.line ++ (bs.map fun b => '\n' :: b.line).flatten)) (by simp)
    have hcomment : ∀ t, skipComment? ('\n' :: t) = some ('\n' :: t) := by
      intro t
      simp [skipComment?, skipSpace, isSpace]
    simp only [List.map_cons, List.flatten_cons, List.cons_append]
    rw [lines?, hline]
    simp [hcomment, lineEnd?, hrest]

private theorem add_entry {key : String} {v : Value} {entries : Entries}
    (hkey : entries.lookup key = none) :
    Draft.add ⟨[], entries⟩ (.entry [key] v) = some ⟨[], entries ++ [(key, .value v)]⟩ := by
  simp [Draft.add, changeAt, addEntry, hkey]

private theorem foldlM_add (as : List Assignment) (entries : Entries)
    (h : (entries.map Prod.fst ++ as.map fun a => String.ofList a.key).Nodup) :
    (as.map fun a => Line.entry [String.ofList a.key] a.value).foldlM Draft.add ⟨[], entries⟩ =
      some ⟨[], entries ++ as.map fun a => (String.ofList a.key, .value a.value)⟩ := by
  induction as generalizing entries with
  | nil => simp
  | cons a as ih =>
    have hkey : entries.lookup (String.ofList a.key) = none := by
      rw [List.lookup_eq_none_iff]
      intro e he
      have hdisjoint := (List.nodup_append.1 h).2.2 e.1 (List.mem_map_of_mem he)
        (String.ofList a.key) (by simp)
      simpa using Ne.symm hdisjoint
    have hrest := ih (entries ++ [(String.ofList a.key, .value a.value)]) (by simpa using h)
    rw [List.map_cons, List.foldlM_cons, add_entry hkey]
    simpa using hrest

private theorem entriesToValues_map (as : List Assignment) :
    entriesToValues (as.map fun a => (String.ofList a.key, .value a.value)) =
      as.map fun a => (String.ofList a.key, a.value) := by
  induction as with
  | nil => simp [entriesToValues]
  | cons a as ih => simp [entriesToValues, Item.toValue, ih]

/-- A document of assignments to different keys has an entry for each. -/
theorem read?_assignments (a : Assignment) (as : List Assignment) (h : ∀ b ∈ a :: as, b.Reads)
    (hkeys : ((a :: as).map fun b => String.ofList b.key).Nodup) :
    read? (a.line ++ (as.map fun b => '\n' :: b.line).flatten) =
      some ((a :: as).map fun b => (String.ofList b.key, b.value)) := by
  obtain ⟨c, s, hkey⟩ := List.exists_cons_of_ne_nil (h a List.mem_cons_self).key_ne_nil
  have hc : isKeyLetter c = true :=
    (h a List.mem_cons_self).key_letters c (hkey ▸ List.mem_cons_self)
  have hmark : c ≠ '\uFEFF' := ne_of_isKeyLetter hc (by decide)
  have hhead : (a.line ++ (as.map fun b => '\n' :: b.line).flatten).head? ≠ some '\uFEFF' := by
    simpa [Assignment.line, hkey] using hmark
  have hlimit : as.length < (a.line ++ (as.map fun b => '\n' :: b.line).flatten).length + 1 := by
    have hle := length_le_length_flatten Assignment.line as
    rw [List.length_append]
    omega
  have hlines := lines?_assignments h hlimit
  have hfold := foldlM_add (a :: as) [] (by simpa using hkeys)
  rw [List.nil_append] at hfold
  rw [read?, if_neg hhead]
  simp only [hlines, hfold, Option.bind_eq_bind, Option.bind_some, entriesToValues_map]

end ScriptDeps.Toml
