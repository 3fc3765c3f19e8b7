import Mathlib.Tactic.SplitIfs
import ScriptDeps.Host.FileSystem

/-!
# Reading what was written

A file that is written at a path at which one could be read is the file that is read there
afterwards: the directories on the way are not touched, and the file stays as readable as it was. A
file that is made where nothing stood is found there afterwards, and all else where it was. Main
statements: `read_of_write` and `locate_set_of_target`.
-/

namespace ScriptDeps

/-! ## Values of keys -/

section

variable {α β : Type} [DecidableEq α] [BEq α] [LawfulBEq α] {key other : α} {value : β}
  {l : List (α × β)}

/-- A key that was given a value has it. -/
theorem lookup_setValue_self : (setValue key value l).lookup key = some value := by
  induction l with
  | nil => simp [setValue]
  | cons entry rest ih =>
    obtain ⟨k, v⟩ := entry
    rw [setValue]
    by_cases h : k = key
    · simp [h]
    · have hbeq : (key == k) = false := by simpa using Ne.symm h
      rw [if_neg h, List.lookup_cons, hbeq, ih]

/-- All other keys keep their values. -/
theorem lookup_setValue_of_ne (h : other ≠ key) :
    (setValue key value l).lookup other = l.lookup other := by
  have hbeq : (other == key) = false := by simpa using h
  induction l with
  | nil => rw [setValue, List.lookup_cons, hbeq]
  | cons entry rest ih =>
    obtain ⟨k, v⟩ := entry
    rw [setValue]
    by_cases hk : k = key
    · subst hk
      rw [if_pos rfl, List.lookup_cons, List.lookup_cons, hbeq]
    · rw [if_neg hk, List.lookup_cons, List.lookup_cons, ih]

end

namespace FileSystem

variable {fs fs' : FileSystem} {directory p p' q : Path} {names : List String} {e e' : Entry}

/-! ## Places -/

/-- What was put at a place stands there. -/
theorem find?_set_self (h : p ≠ []) : (fs.set p e).find? p = some e := by
  rw [find?, if_neg h]
  exact lookup_setValue_self

/-- At all other places stands what stood there. -/
theorem find?_set_of_ne (h : q ≠ p) : (fs.set p e).find? q = fs.find? q := by
  rw [find?, find?]
  exact ite_congr rfl (fun _ => rfl) fun _ => lookup_setValue_of_ne h

/-- A way of no names ends where it begins. -/
theorem walk_nil_eq_ok_iff : fs.walk p [] = .ok (q, e) ↔ p = q ∧ fs.find? p = some e := by
  rw [walk]
  cases fs.find? p <;> simp

/-- A way with a name leads through a directory. -/
theorem find?_of_walk_cons {name : String} (h : fs.walk p (name :: names) = .ok (q, e)) :
    fs.find? p = some .directory := by
  rw [walk] at h
  cases hp : fs.find? p with
  | none => simp [hp] at h
  | some entry =>
    cases entry with
    | file _ _ => simp [hp] at h
    | directory => rfl

/-- A way goes one step on in a directory. -/
theorem walk_cons (h : fs.find? p = some .directory) (name : String) (names : List String) :
    fs.walk p (name :: names) =
      if name = "" ∨ name = "." then fs.walk p names
      else if name = ".." then fs.walk p.dropLast names
      else if name.utf8ByteSize > 255 then .error .nameTooLong
      else fs.walk (p ++ [name]) names := by
  rw [walk, h]

/-- A way is the same wherever the directories are still there and something stands at its end. -/
theorem walk_of_walk
    (hdirectory : ∀ r, fs.find? r = some .directory → fs'.find? r = some .directory)
    (hlast : fs.find? q = some e → fs'.find? q = some e') (h : fs.walk p names = .ok (q, e)) :
    fs'.walk p names = .ok (q, e') := by
  induction names generalizing p with
  | nil =>
    obtain ⟨rfl, hp⟩ := walk_nil_eq_ok_iff.1 h
    exact walk_nil_eq_ok_iff.2 ⟨rfl, hlast hp⟩
  | cons name names ih =>
    have hp := find?_of_walk_cons h
    rw [walk_cons hp] at h
    rw [walk_cons (hdirectory p hp)]
    split_ifs at h ⊢
    · exact ih h
    · exact ih h
    · exact ih h

/-- The way to a place that is no directory is the same when something else stands there. -/
theorem walk_set (hplace : fs.find? q = some e) (hfile : e ≠ .directory)
    (h : fs.walk p names = .ok (q, e)) : (fs.set q e').walk p names = .ok (q, e') := by
  have hne : q ≠ [] := by
    rintro rfl
    rw [find?, if_pos rfl] at hplace
    exact hfile (Option.some.inj hplace).symm
  refine walk_of_walk (fun r hr => ?_) (fun _ => find?_set_self hne) h
  -- a directory is not the place, so it is still there
  have hrq : r ≠ q := by
    rintro rfl
    exact hfile (Option.some.inj (hplace.symm.trans hr))
  rw [find?_set_of_ne hrq, hr]

/-- A path goes on from the directory that its first names lead to. -/
theorem walk_append (h : fs.walk p (names ++ [""]) = .ok (q, e)) (rest : List String) :
    fs.walk p (names ++ rest) = fs.walk q rest := by
  induction names generalizing p with
  | nil =>
    rw [List.nil_append, walk_cons (find?_of_walk_cons h), if_pos (.inl rfl)] at h
    rw [List.nil_append, (walk_nil_eq_ok_iff.1 h).1]
  | cons name names ih =>
    have hp := find?_of_walk_cons h
    rw [List.cons_append, walk_cons hp] at h ⊢
    split_ifs at h ⊢
    · exact ih h
    · exact ih h
    · exact ih h

/-! ## Files -/

/-- A file that stands at a place has its own mode there. -/
theorem modeAt_of_find? {content : List UInt8} {mode : Mode}
    (h : fs.find? p = some (.file content mode)) : fs.modeAt p = mode := by
  rw [modeAt, h]

/-- Where nothing stands, a file gets the mode of a new one. -/
theorem modeAt_of_none (h : fs.find? p = none) : fs.modeAt p = .new := by
  rw [modeAt, h]

/-- A file can be made or replaced at a proper name, where no directory stands. -/
theorem of_targetIn {name : String} (h : fs.targetIn p name = .ok q) :
    ¬(name = "" ∨ name = "." ∨ name = "..") ∧ q = p ++ [name] := by
  rw [targetIn] at h
  split_ifs at h with hname
  · split at h
    · exact absurd h nofun
    · split_ifs at h
      exact ⟨hname, (Except.ok.inj h).symm⟩
    · exact ⟨hname, (Except.ok.inj h).symm⟩

/-- A proper name leads one step down. -/
theorem of_walk_name {name : String} (hname : ¬(name = "" ∨ name = "." ∨ name = ".."))
    (h : fs.walk p [name] = .ok (q, e)) : q = p ++ [name] ∧ fs.find? (p ++ [name]) = some e := by
  obtain ⟨hempty, hdot, hdots⟩ : name ≠ "" ∧ name ≠ "." ∧ name ≠ ".." := by simpa using hname
  rw [walk_cons (find?_of_walk_cons h), if_neg (not_or.2 ⟨hempty, hdot⟩), if_neg hdots] at h
  split_ifs at h
  obtain ⟨rfl, hlast⟩ := walk_nil_eq_ok_iff.1 h
  exact ⟨rfl, hlast⟩

/-- The names of a path that does not end in a slash. -/
private theorem append_getLastD {names : List String} (h : names.getLastD "" ≠ "") :
    names.dropLast ++ [names.getLastD ""] = names ∧
      (names.reverse.dropWhile (· = "")).reverse = names := by
  rcases names.eq_nil_or_concat with rfl | ⟨before, last, rfl⟩
  · exact absurd rfl h
  · rw [List.concat_eq_append] at h ⊢
    have hlast : (before ++ [last]).getLastD "" = last := by simp
    rw [hlast] at h ⊢
    refine ⟨by simp, ?_⟩
    rw [List.reverse_append, List.reverse_singleton, List.singleton_append,
      List.dropWhile_cons_of_neg (by simpa using h), List.reverse_cons, List.reverse_reverse]

/-- A file is made or replaced in the directory that the names before its own lead to. -/
theorem of_target {path : String} (h : fs.target directory path = .ok q) :
    ∃ p before entry, start directory path = .ok p ∧
      fs.walk p ((namesIn path).dropLast ++ [""]) = .ok (before, entry) ∧
      fs.targetIn before ((namesIn path).getLastD "") = .ok q := by
  rw [target] at h
  cases hstart : start directory path with
  | error e => simp [hstart] at h
  | ok p =>
    simp only [hstart] at h
    split at h
    · exact absurd h nofun
    next before entry hwalk =>
    obtain ⟨hname, -⟩ := of_targetIn h
    rw [(append_getLastD fun hempty => hname (.inl hempty)).2] at hwalk
    exact ⟨p, before, entry, rfl, hwalk, h⟩

/-- No file is made or replaced at the root. -/
theorem target_ne_nil {path : String} (h : fs.target directory path = .ok q) : q ≠ [] := by
  obtain ⟨_, before, _, -, -, hname⟩ := of_target h
  rw [(of_targetIn hname).2]
  exact List.append_ne_nil_of_right_ne_nil before nofun

/-- What stands at a path is replaced where it stands. -/
theorem target_of_locate {path : String} (hplace : fs.locate directory path = .ok (p, e))
    (h : fs.target directory path = .ok q) : p = q ∧ fs.find? q = some e := by
  obtain ⟨start, before, _, hstart, hwalk, htarget⟩ := of_target h
  obtain ⟨hname, rfl⟩ := of_targetIn htarget
  -- the way ends with one step, which leads to the place that is replaced
  have hlast := walk_append hwalk [(namesIn path).getLastD ""]
  rw [(append_getLastD fun hempty => hname (.inl hempty)).1] at hlast
  rw [locate, hstart] at hplace
  exact of_walk_name hname (hlast.symm.trans hplace)

/-- A file is read at its place, if it may be read. -/
theorem read_eq_ok_iff {path : String} {content : List UInt8} :
    fs.read directory path = .ok content ↔
      ∃ place mode, fs.locate directory path = .ok (place, .file content mode) ∧
        mode.readable = true := by
  rw [read]
  cases h : fs.locate directory path with
  | error e => simp
  | ok found =>
    obtain ⟨place, entry⟩ := found
    cases entry with
    | directory => simp
    | file bytes mode =>
      dsimp only
      split
      next hmode =>
        constructor
        · rintro ⟨⟩
          exact ⟨place, mode, rfl, hmode⟩
        · rintro ⟨_, _, ⟨⟩, -⟩
          rfl
      next hmode =>
        refine ⟨nofun, ?_⟩
        rintro ⟨_, _, ⟨⟩, hreadable⟩
        exact absurd hreadable hmode

/-- A file that can be read is written where it is read. -/
theorem read_of_write {path : String} {old new : List UInt8}
    (hread : fs.read directory path = .ok old) (hwrite : fs.write directory path new = .ok fs') :
    fs'.read directory path = .ok new := by
  obtain ⟨place, mode, hplace, hreadable⟩ := read_eq_ok_iff.1 hread
  rw [write] at hwrite
  split at hwrite
  · exact absurd hwrite nofun
  next q htarget =>
  obtain rfl := Except.ok.inj hwrite
  obtain ⟨rfl, hstands⟩ := target_of_locate hplace htarget
  refine read_eq_ok_iff.2 ⟨place, mode, ?_, hreadable⟩
  rw [put, modeAt_of_find? hstands]
  rw [locate] at hplace ⊢
  split at hplace
  · exact absurd hplace nofun
  next p hstart => exact walk_set hstands nofun hplace

/-! ## Frames -/

/-- A file with the given bytes has come to a place, and all else stands as it did. -/
structure Replaced (fs fs' : FileSystem) (place : Path) (content : List UInt8) : Prop where
  /-- The bytes stand at the place, in a file with the mode of the one that stood there, or with
  that of a new one. -/
  written : fs'.find? place = some (.file content (fs.modeAt place))
  /-- Nothing has changed anywhere else. -/
  elsewhere : ∀ other, other ≠ place → fs'.find? other = fs.find? other

/-- A file that comes to a place that had a new one already is the one change. -/
theorem Replaced.trans {fs'' : FileSystem} {content content' : List UInt8}
    (h : Replaced fs fs' p content) (h' : Replaced fs' fs'' p content') :
    Replaced fs fs'' p content' where
  written := by rw [h'.written, modeAt_of_find? h.written]
  elsewhere other hother := (h'.elsewhere other hother).trans (h.elsewhere other hother)

/-- A file that is put at a place other than the root is the one change. -/
theorem replaced_put {content : List UInt8} (h : p ≠ []) :
    Replaced fs (fs.put p content) p content :=
  ⟨find?_set_self h, fun _ => find?_set_of_ne⟩

/-- A file that is written is the one change. -/
theorem replaced_of_write {path : String} {content : List UInt8}
    (h : fs.write directory path content = .ok fs') :
    ∃ place, fs.target directory path = .ok place ∧ Replaced fs fs' place content := by
  rw [write] at h
  split at h
  · exact absurd h nofun
  next place htarget =>
  obtain rfl := Except.ok.inj h
  exact ⟨place, htarget, replaced_put (target_ne_nil htarget)⟩

/-! ## New files -/

/-- Where nothing stood, no path led, so that all others lead where they did. -/
theorem walk_set_of_none (hnone : fs.find? q = none) (h : fs.walk p names = .ok (p', e)) :
    (fs.set q e').walk p names = .ok (p', e) := by
  have hother {r : Path} {entry : Entry} (hr : fs.find? r = some entry) :
      (fs.set q e').find? r = some entry := by
    rw [find?_set_of_ne, hr]
    rintro rfl
    exact absurd (hr.symm.trans hnone) nofun
  exact walk_of_walk (fun r hr => hother hr) hother h

/-- A path that must be one of a directory is. -/
theorem find?_of_walk (h : fs.walk p (names ++ [""]) = .ok (q, e)) :
    fs.find? q = some .directory := by
  have hthere := walk_append h [""]
  rw [h] at hthere
  exact find?_of_walk_cons hthere.symm

section

variable {path : String} {content : List UInt8}

private theorem byteSize_of_targetIn {name : String} (h : fs.targetIn p name = .ok q) :
    ¬name.utf8ByteSize > 255 := by
  rw [targetIn] at h
  split_ifs at h
  assumption

/-- A new file is found where it was made. -/
theorem locate_set_of_target (h : fs.target directory path = .ok q) (hnone : fs.find? q = none) :
    (fs.set q e).locate directory path = .ok (q, e) := by
  obtain ⟨start, before, _, hstart, hwalk, htarget⟩ := of_target h
  obtain ⟨hname, rfl⟩ := of_targetIn htarget
  have hsize := byteSize_of_targetIn htarget
  obtain ⟨hempty, hdot, hdots⟩ : (namesIn path).getLastD "" ≠ "" ∧
      (namesIn path).getLastD "" ≠ "." ∧ (namesIn path).getLastD "" ≠ ".." := by simpa using hname
  -- the directories on the way are still there, and the last step leads to the new file
  have hbefore : (fs.set (before ++ [(namesIn path).getLastD ""]) e).find? before =
      some .directory := by
    rw [find?_set_of_ne (by simp), find?_of_walk hwalk]
  have hway : (fs.set (before ++ [(namesIn path).getLastD ""]) e).walk start
      ((namesIn path).dropLast ++ [""]) = .ok (before, _) := walk_set_of_none hnone hwalk
  have hlast := walk_append hway [(namesIn path).getLastD ""]
  rw [(append_getLastD hempty).1] at hlast
  rw [locate, hstart]
  refine hlast.trans ?_
  simp only [walk, hbefore, hempty, hdot, hdots, or_self, hsize, if_false,
    find?_set_self (List.append_ne_nil_of_right_ne_nil before (List.cons_ne_nil _ _))]

/-- A new file can be replaced where it was made. -/
theorem target_put_of_target (h : fs.target directory path = .ok q) (hnone : fs.find? q = none) :
    (fs.put q content).target directory path = .ok q := by
  obtain ⟨start, before, _, hstart, hwalk, htarget⟩ := of_target h
  obtain ⟨hname, rfl⟩ := of_targetIn htarget
  have hsize := byteSize_of_targetIn htarget
  rw [target, hstart, put, modeAt_of_none hnone]
  dsimp only
  rw [(append_getLastD fun hempty => hname (.inl hempty)).2, walk_set_of_none hnone hwalk]
  simp only [targetIn, hname, hsize, if_false, Mode.new, if_true,
    find?_set_self (List.append_ne_nil_of_right_ne_nil before (List.cons_ne_nil _ _))]

end

end FileSystem

end ScriptDeps
