import ScriptDeps.Proofs.Import.Slices

/-!
# First components of module paths

The text of a module path keeps the gaps that stand in it. A path whose dots stand close behind what
is in front of them has an identifier as its first component, or none if it is made of dots alone;
every other path has a first component with the beginning of a gap in it, which no identifier has.
Main statements: `Source.Tree.IsPath.topLevelOf_eq` and `Source.Tree.IsPath.exists_topLevelOf`.
-/

namespace ScriptDeps

open Source

/-! ## Identifiers -/

/-- A name is one identifier: it is made like one, without blanks, line ends, backslashes, dots or
comments. -/
structure IsIdentifier (name : String) : Prop where
  /-- It is made of the letters of names. -/
  letters : IsNameText name.toList
  /-- It has no character of another kind. -/
  bare : ∀ c ∈ name.toList, Text.isBlank c = false ∧ Lexeme.isSpace c = false ∧ c ≠ '\n' ∧
    c ≠ '\\' ∧ c ≠ '.' ∧ c ≠ '#'

/-- The code points of blank characters. -/
private def blankPoints : List Nat :=
  List.range' 9 5 ++ [0x20, 0x85, 0xA0, 0x1680] ++ List.range' 0x2000 11 ++
    [0x2028, 0x2029, 0x202F, 0x205F, 0x3000]

private theorem mem_blankPoints {c : Char} (h : Text.isBlank c = true) : c.toNat ∈ blankPoints := by
  simp only [Text.isBlank, Bool.or_eq_true, Bool.and_eq_true, decide_eq_true_eq, beq_iff_eq] at h
  simp only [blankPoints, List.mem_append, List.mem_cons, List.mem_range'_1, List.not_mem_nil,
    or_false]
  omega

private theorem notMem_of_isNameRest {c : Char} (h : Text.isNameRest c = true) {others : List Char}
    (hothers : others.all (fun d => !Text.isNameRest d) = true) : c ∉ others := by
  intro hc
  simpa [h] using List.all_eq_true.1 hothers c hc

/-- A character of names is none of those that stand in gaps. -/
theorem bare_of_isNameRest {c : Char} (h : Text.isNameRest c = true) :
    Text.isBlank c = false ∧ Lexeme.isSpace c = false ∧ c ≠ '\n' ∧ c ≠ '\\' ∧ c ≠ '.' ∧
      c ≠ '#' := by
  have hblank : c ∉ blankPoints.map Char.ofNat := notMem_of_isNameRest h (by decide +kernel)
  have hspace : c ∉ " \t\n\x0b\x0c\r\ufeff\u2060\u200b".toList :=
    notMem_of_isNameRest h (by decide +kernel)
  have hmarks : c ∉ ['\n', '\\', '.', '#'] := notMem_of_isNameRest h (by decide +kernel)
  refine ⟨Bool.eq_false_iff.2 fun hc => hblank ?_,
    Bool.eq_false_iff.2 fun hc => hspace (List.contains_iff_mem.1 hc), by simpa using hmarks⟩
  exact List.mem_map.2 ⟨_, mem_blankPoints hc, Char.ofNat_toNat c⟩

/-- The text of a name is an identifier. -/
theorem IsIdentifier.of_isNameText {name : List Char} (h : IsNameText name) :
    IsIdentifier (String.ofList name) := by
  refine ⟨by rwa [String.toList_ofList], ?_⟩
  rw [String.toList_ofList]
  obtain ⟨c, s, rfl, hc, hs⟩ := h
  have hrest : Text.isNameRest c = true := by rw [Text.isNameRest, hc, Bool.true_or]
  rw [List.forall_mem_cons]
  exact ⟨bare_of_isNameRest hrest, fun d hd => bare_of_isNameRest (hs d hd)⟩

/-- A character that a gap can begin with. -/
def BeginsGap (c : Char) : Prop := Lexeme.isSpace c = true ∨ c = '\\' ∨ c = '#'

/-- No gap begins with a dot. -/
theorem BeginsGap.ne_dot {c : Char} (h : BeginsGap c) : c ≠ '.' := by
  rintro rfl
  exact absurd h (by unfold BeginsGap; decide)

/-- An identifier has no gap in it. -/
theorem not_isIdentifier {name : String} {c : Char} (hc : c ∈ name.toList) (h : BeginsGap c) :
    ¬ IsIdentifier name := by
  intro hname
  obtain ⟨-, hspace, -, hbackslash, -, hsign⟩ := hname.bare c hc
  rcases h with h | h | h
  · simp [hspace] at h
  · exact hbackslash h
  · exact hsign h

/-! ## First components of texts -/

namespace Import

/-- Dots in front of a path do not count. -/
theorem topLevelOf_dot (s : List Char) : topLevelOf ('.' :: s) = topLevelOf s := by
  simp [topLevelOf]

/-- The first component goes on up to the next dot. -/
theorem topLevelOf_cons {c : Char} (hc : c ≠ '.') (s : List Char) :
    topLevelOf (c :: s) = some (String.ofList (c :: s.takeWhile (· != '.'))) := by
  simp [topLevelOf, hc]

/-- A name at the start of a path belongs to the first component. -/
theorem topLevelOf_name {name : List Char} (h : IsNameText name) (s : List Char) :
    topLevelOf (name ++ s) = some (String.ofList (name ++ s.takeWhile (· != '.'))) := by
  have hdot : ∀ c ∈ name, (c != '.') = true := by
    intro c hc
    have hbare := (IsIdentifier.of_isNameText h).bare c (by rwa [String.toList_ofList])
    exact bne_iff_ne.2 hbare.2.2.2.2.1
  obtain ⟨c, t, rfl, -⟩ := h
  rw [List.forall_mem_cons] at hdot
  rw [List.cons_append, topLevelOf_cons (bne_iff_ne.1 hdot.1),
    List.takeWhile_append_of_pos hdot.2, List.cons_append]

/-- A path that begins with a gap has no identifier as its first component. -/
theorem exists_topLevelOf_gap {gap : List Char} (hgap : IsGap gap) (hne : gap ≠ [])
    (s : List Char) : ∃ name, topLevelOf (gap ++ s) = some name ∧ ¬ IsIdentifier name := by
  cases gap with
  | nil => exact absurd rfl hne
  | cons c gap =>
    have hc : BeginsGap c := hgap c rfl
    refine ⟨_, topLevelOf_cons hc.ne_dot _, not_isIdentifier ?_ hc⟩
    rw [String.toList_ofList]
    exact List.mem_cons_self

end Import

/-! ## Module paths -/

namespace Source.Tree

/-- The first name of a dotted name. -/
def headName? : Tree → Option (List Char)
  | .node .dottedName (.leaf _ name :: _) => some name
  | _ => none

/-- The first name of a module path, none if it is made of dots alone. -/
def firstName? : Tree → Option (List Char)
  | .node .relativePath parts => parts.findSome? headName?
  | t => t.headName?

/-- No gap stands between the first name of a dotted name and the dot behind it. -/
def endsClose : Tree → Bool
  | .node .dottedName (_ :: t :: _) => t.gap.isEmpty
  | _ => true

/-- A module path has no gap between the dots in front of its first name, and none between this name
and the dot behind it. -/
def isClose : Tree → Bool
  | .node .relativePath (dots :: rest) =>
    dots.children.tail.all (·.gap.isEmpty) && rest.all endsClose
  | t => t.endsClose

/-- A dot behind a gap. -/
def IsDot (t : Tree) : Prop := ∃ gap, t = .leaf gap ['.'] ∧ IsGap gap

/-- A dotted name is one name, or a name with a dot behind it and all else behind the dot. -/
inductive IsDotted : Tree → Prop
  | one (gap name : List Char) (hname : IsNameText name) :
    IsDotted (.node .dottedName [.leaf gap name])
  | more (gap name : List Char) (dot : Tree) (rest : List Tree) (hname : IsNameText name)
    (hdot : dot.IsDot) : IsDotted (.node .dottedName (.leaf gap name :: dot :: rest))

/-- A module path is a dotted name, or dots with or without one behind them. -/
inductive IsPath : Tree → Prop
  | dotted {t : Tree} (h : t.IsDotted) : IsPath t
  | dots (dots : List Tree) (hdots : ∀ t ∈ dots, t.IsDot) :
    IsPath (.node .relativePath [.node .dots dots])
  | relative (dots : List Tree) {t : Tree} (hdots : ∀ t ∈ dots, t.IsDot) (h : t.IsDotted) :
    IsPath (.node .relativePath [.node .dots dots, t])

variable {t : Tree} {dots : List Tree}

/-- What a dotted name and the text behind it have as their first component. -/
structure StartsWith (t : Tree) : Prop where
  /-- It has a first name. -/
  name : ∃ name, t.headName? = some name ∧ IsNameText name
  /-- If the first name ends close, it is the first component. -/
  close : t.endsClose = true → Import.topLevelOf t.text = t.headName?.map String.ofList
  /-- If not, the first component is no identifier. -/
  loose : t.endsClose = false → ∃ name, Import.topLevelOf t.text = some name ∧ ¬ IsIdentifier name

/-- A dotted name begins with a name. -/
theorem IsDotted.startsWith (h : t.IsDotted) : t.StartsWith := by
  cases h with
  | one gap name hname =>
    have htext : (node .dottedName [leaf gap name]).text = name ++ [] := text_node_leaf ..
    refine ⟨⟨name, rfl, hname⟩, fun _ => ?_, nofun⟩
    rw [htext, Import.topLevelOf_name hname]
    simp [headName?]
  | more gap name dot rest hname hdot =>
    obtain ⟨gap', rfl, hgap⟩ := hdot
    have htext : (node .dottedName (leaf gap name :: leaf gap' ['.'] :: rest)).text =
        name ++ (gap' ++ '.' :: charsOfAll rest) := by
      rw [text_node_leaf, charsOfAll, chars, List.append_assoc, List.singleton_append]
    refine ⟨⟨name, rfl, hname⟩, fun hclose => ?_, fun hloose => ?_⟩
    · have hempty : gap' = [] := List.isEmpty_iff.1 hclose
      rw [htext, Import.topLevelOf_name hname, hempty]
      simp [headName?]
    · have hne : gap' ≠ [] := List.isEmpty_eq_false_iff.1 hloose
      cases gap' with
      | nil => exact absurd rfl hne
      | cons c gap' =>
        have hc : BeginsGap c := hgap c rfl
        refine ⟨_, by rw [htext, Import.topLevelOf_name hname], not_isIdentifier ?_ hc⟩
        rw [String.toList_ofList, List.cons_append, List.takeWhile_cons,
          if_pos (bne_iff_ne.2 hc.ne_dot)]
        exact List.mem_append_right _ List.mem_cons_self

/-- Dots without gaps in front of a text do not count. -/
theorem topLevelOf_dots (hdots : ∀ t ∈ dots, t.IsDot) (s : List Char)
    (h : dots.all (·.gap.isEmpty) = true) :
    Import.topLevelOf (charsOfAll dots ++ s) = Import.topLevelOf s := by
  induction dots with
  | nil => rfl
  | cons t dots ih =>
    rw [List.forall_mem_cons] at hdots
    obtain ⟨⟨gap, rfl, -⟩, hdots⟩ := hdots
    rw [List.all_cons, Bool.and_eq_true] at h
    obtain rfl : gap = [] := List.isEmpty_iff.1 h.1
    exact (Import.topLevelOf_dot _).trans (ih hdots h.2)

/-- A gap between dots is in the first component. -/
theorem exists_topLevelOf_dots (hdots : ∀ t ∈ dots, t.IsDot) (s : List Char)
    (h : dots.all (·.gap.isEmpty) = false) :
    ∃ name, Import.topLevelOf (charsOfAll dots ++ s) = some name ∧ ¬ IsIdentifier name := by
  induction dots with
  | nil => cases h
  | cons t dots ih =>
    rw [List.forall_mem_cons] at hdots
    obtain ⟨⟨gap, rfl, hgap⟩, hdots⟩ := hdots
    by_cases hempty : gap = []
    · subst hempty
      have hrest : dots.all (·.gap.isEmpty) = false := by simpa [Tree.gap] using h
      obtain ⟨name, hname, hnot⟩ := ih hdots hrest
      exact ⟨name, (Import.topLevelOf_dot _).trans hname, hnot⟩
    · rw [charsOfAll, chars, List.append_assoc, List.append_assoc]
      exact Import.exists_topLevelOf_gap hgap hempty _

/-- The first of the dots of a path does not count, and no gap in front of it. -/
private theorem topLevelOf_text_dots (hdots : ∀ t ∈ dots, t.IsDot) (s : List Char) :
    (∀ t ∈ dots.tail, t.IsDot) ∧ Import.topLevelOf ((node .dots dots).text ++ s) =
      Import.topLevelOf (charsOfAll dots.tail ++ s) := by
  refine ⟨fun t ht => hdots t (List.mem_of_mem_tail ht), ?_⟩
  cases dots with
  | nil => rfl
  | cons t dots =>
    obtain ⟨gap, rfl, -⟩ := hdots t List.mem_cons_self
    rw [text_node_leaf]
    exact Import.topLevelOf_dot _

/-- The path of a dotted name is its text. -/
private theorem IsDotted.eqs (h : t.IsDotted) : t.modulePath.toList = t.text ∧
    t.isClose = t.endsClose ∧ t.firstName? = t.headName? := by
  cases h <;> exact ⟨toList_textOf _, rfl, rfl⟩

private theorem toList_modulePath (parts : List Tree) :
    (node .relativePath parts).modulePath.toList = parts.flatMap text := by
  simp [modulePath, String.toList_join, List.flatMap, toList_textOf, Function.comp_def]

/-- A close module path has its first name as its first component. -/
theorem IsPath.topLevelOf_eq (h : t.IsPath) (hclose : t.isClose = true) :
    Import.topLevelOf t.modulePath.toList = t.firstName?.map String.ofList ∧
      ∀ name ∈ t.firstName?, IsNameText name := by
  cases h with
  | dotted h =>
    obtain ⟨hpath, hisClose, hfirst⟩ := h.eqs
    rw [hisClose] at hclose
    rw [hpath, hfirst]
    obtain ⟨name, hname, htext⟩ := h.startsWith.name
    exact ⟨h.startsWith.close hclose, by simpa [hname] using htext⟩
  | dots dots hdots =>
    have hdotsClose : dots.tail.all (·.gap.isEmpty) = true := by
      simpa [isClose, children] using hclose
    obtain ⟨htail, htext⟩ := topLevelOf_text_dots hdots []
    refine ⟨?_, nofun⟩
    rw [toList_modulePath, List.flatMap_singleton, ← List.append_nil (text _), htext,
      topLevelOf_dots htail [] hdotsClose]
    rfl
  | @relative dots t hdots h =>
    have hboth : dots.tail.all (·.gap.isEmpty) = true ∧ t.endsClose = true := by
      simpa [isClose, children] using hclose
    have hfirst : (node .relativePath [node .dots dots, t]).firstName? = t.headName? := by
      cases h <;> rfl
    obtain ⟨name, hname, hletters⟩ := h.startsWith.name
    obtain ⟨htail, htext⟩ := topLevelOf_text_dots hdots t.text
    refine ⟨?_, by simpa [hfirst, hname] using hletters⟩
    rw [toList_modulePath, List.flatMap_cons, List.flatMap_singleton, hfirst, htext,
      topLevelOf_dots htail _ hboth.1, h.startsWith.close hboth.2]

/-- The first component of any other module path is no identifier. -/
theorem IsPath.exists_topLevelOf (h : t.IsPath) (hloose : t.isClose = false) :
    ∃ name, Import.topLevelOf t.modulePath.toList = some name ∧ ¬ IsIdentifier name := by
  cases h with
  | dotted h =>
    obtain ⟨hpath, hisClose, -⟩ := h.eqs
    rw [hisClose] at hloose
    rw [hpath]
    exact h.startsWith.loose hloose
  | dots dots hdots =>
    have hdotsLoose : dots.tail.all (·.gap.isEmpty) = false := by
      simpa only [isClose, children, List.all_nil, Bool.and_true] using hloose
    obtain ⟨htail, htext⟩ := topLevelOf_text_dots hdots []
    rw [toList_modulePath, List.flatMap_singleton, ← List.append_nil (text _), htext]
    exact exists_topLevelOf_dots htail [] hdotsLoose
  | @relative dots t hdots h =>
    obtain ⟨htail, htext⟩ := topLevelOf_text_dots hdots t.text
    rw [toList_modulePath, List.flatMap_cons, List.flatMap_singleton, htext]
    cases hdotsClose : dots.tail.all (·.gap.isEmpty) with
    | false => exact exists_topLevelOf_dots htail _ hdotsClose
    | true =>
      have hends : t.endsClose = false := by
        simpa only [isClose, children, hdotsClose, List.all_cons, List.all_nil, Bool.and_true,
          Bool.true_and] using hloose
      rw [topLevelOf_dots htail _ hdotsClose]
      exact h.startsWith.loose hends

end Source.Tree

/-! ## The module paths of a script -/

/-- What stands behind the first name of a dotted name: dots and names. -/
private def moreNames : Rule := .both (.token (.sign ".")) (.token .name)

/-- The parts of a path that has dots in front. -/
private def keepsDots : Symbol → List Symbol → Bool
  | .phrase .relativePath, parts =>
    [[.phrase .dots], [.phrase .dots, .phrase .dottedName]].contains parts
  | .phrase .dots, parts => parts == [.series (.token (.sign "."))]
  | _, _ => true

private theorem allForms_keepsDots : grammar.allForms keepsDots = true := by
  decide +kernel

/-- Dots in a row. -/
private def areDots (x : Symbol) : Bool :=
  x == .token (.sign ".") || x == .series (.token (.sign "."))

private theorem keepsRoots_areDots : grammar.allForms (keepsRoots areDots) = true := by
  decide +kernel

namespace Source

variable {tree : Tree} {xs : List Symbol} {ts parts : List Tree} {p : Position}

/-- A dot stands behind the first name of a dotted name that goes on. -/
private theorem exists_leaf_of_moreNames (h : Grows grammar (.series moreNames :: xs) ts) :
    ∃ gap us, ts = .leaf gap ['.'] :: us := by
  generalize hys : Symbol.series moreNames :: xs = ys at h
  induction h generalizing xs with
  | nil => cases hys
  | blank _ _ _ => cases hys
  | leaf _ _ _ _ => cases hys
  | @made x _ _ inner ts hx hinner _ ihinner _ =>
    obtain ⟨rfl, -⟩ := List.cons.inj hys
    have hdot : ∃ gap us, inner = Tree.leaf gap ['.'] :: us := by
      cases hx with
      | made hmakes =>
        cases hmakes with
        | one _ _ _ hparts =>
          obtain rfl := List.mem_singleton.1 hparts
          rcases hinner.of_token with ⟨hempty, -⟩ | ⟨gap, text, us, rfl, -, htext, -⟩
          · exact absurd hempty nofun
          · exact ⟨gap, us, by rw [htext]; rfl⟩
        | more _ _ _ _ => exact ihinner rfl
    obtain ⟨gap, us, rfl⟩ := hdot
    exact ⟨gap, us ++ ts, rfl⟩

/-- The dotted names of a script. -/
theorem Tree.IsScript.isDotted (htree : tree.IsScript grammar) (hspaced : tree.IsSpaced)
    (hin : (Tree.node .dottedName parts).IsIn tree) : (Tree.node .dottedName parts).IsDotted := by
  obtain ⟨ys, hmakes, hgrows⟩ := htree.exists_makes hin nofun
  have hys : ys = [.token .name] ∨ ys = [.token .name, .series moreNames] := by
    simpa [partsOf, moreNames] using mem_partsOf hmakes (by simp [partsOf])
  rcases hys with rfl | rfl
  · rcases hgrows.of_token with ⟨hempty, -⟩ | ⟨gap, name, us, rfl, -, hname, hus⟩
    · exact absurd rfl hempty.ne_nil
    · obtain rfl := hus.eq_nil
      exact .one gap name hname
  · rcases hgrows.of_token with ⟨hempty, -⟩ | ⟨gap, name, us, rfl, -, hname, hus⟩
    · exact absurd rfl hempty.ne_nil
    · obtain ⟨gap', vs, rfl⟩ := exists_leaf_of_moreNames hus
      refine .more gap name _ vs hname ⟨gap', rfl, ?_⟩
      have hdot : (Tree.leaf gap' ['.']).IsIn tree :=
        Tree.IsIn.trans (.part (List.mem_cons_of_mem _ List.mem_cons_self) (.whole _)) hin
      exact hspaced _ _ hdot (List.cons_ne_nil _ _)

/-- The dots of a script. -/
private theorem isDot_of_mem (htree : tree.IsScript grammar) (hspaced : tree.IsSpaced)
    (hin : (Tree.node .dots parts).IsIn tree) : ∀ t ∈ parts, t.IsDot := by
  intro t ht
  obtain ⟨ys, hmakes, hgrows⟩ := htree.exists_makes hin nofun
  have hys : ys = [.series (.token (.sign "."))] := by
    simpa [keepsDots] using test_of_makes allForms_keepsDots hmakes
  subst hys
  cases t with
  | node phrase inner =>
    have hset := (hgrows.of_mem keepsRoots_areDots (by simp [areDots]) ht).1
    simp [areDots] at hset
  | leaf gap text =>
    obtain ⟨token, hset, hne, htext⟩ :=
      hgrows.of_mem_leaf keepsRoots_areDots (by simp [areDots]) ht
    obtain rfl : token = .sign "." := by simpa [areDots] using hset
    obtain rfl : text = ['.'] := htext
    have hdot : (Tree.leaf gap ['.']).IsIn tree := Tree.IsIn.trans (.part ht (.whole _)) hin
    exact ⟨gap, rfl, hspaced _ _ hdot hne⟩

/-- The paths with dots in front of a script. -/
theorem Tree.IsScript.isPath (htree : tree.IsScript grammar) (hspaced : tree.IsSpaced)
    (hin : (Tree.node .relativePath parts).IsIn tree) :
    (Tree.node .relativePath parts).IsPath := by
  obtain ⟨ys, hmakes, hgrows⟩ := htree.exists_makes hin nofun
  have hys : ys = [.phrase .dots] ∨ ys = [.phrase .dots, .phrase .dottedName] := by
    simpa [keepsDots] using test_of_makes allForms_keepsDots hmakes
  have hdots : ∃ zs, ys = .phrase .dots :: zs := by
    rcases hys with rfl | rfl <;> exact ⟨_, rfl⟩
  obtain ⟨zs, rfl⟩ := hdots
  obtain ⟨-, dots, us, rfl, -, -, hus⟩ := hgrows.of_phrase rfl
  have hinside (t : Tree) (ht : t ∈ Tree.node .dots dots :: us) : t.IsIn tree :=
    Tree.IsIn.trans (.part ht (.whole t)) hin
  have hall := isDot_of_mem htree hspaced (hinside _ List.mem_cons_self)
  rcases hys with heq | heq
  · obtain ⟨-, rfl⟩ := List.cons.inj heq
    obtain rfl := hus.eq_nil
    exact .dots dots hall
  · obtain ⟨-, rfl⟩ := List.cons.inj heq
    obtain ⟨-, inner, vs, rfl, -, -, hvs⟩ := hus.of_phrase rfl
    obtain rfl := hvs.eq_nil
    exact .relative dots hall (htree.isDotted hspaced (hinside _ (by simp)))

end Source

end ScriptDeps
