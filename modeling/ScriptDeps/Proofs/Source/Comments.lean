import ScriptDeps.Proofs.Source.Expecting
import ScriptDeps.Proofs.Source.Shift
import ScriptDeps.Proofs.Source.Skipped

/-!
# Comment lines in a script

Comment lines that are put at the top of a script, or behind its first line if that starts with
`#!`, change nothing but the first gap of its tree, behind which all else stands as many lines
further down. There is one exception: a byte order mark that is no longer the first character hides
the opening of a string literal, and the script cannot be read any more. Main statements:
`parse?_behind_comments`, `parse?_behind_hashBang` and `parse?_behind_comments_eq_none`.
-/

namespace ScriptDeps.Source

open Automaton Progress Text

variable {c : Change} {gap gap' rest : List Char} {offset offset' furthest furthest' : Nat}

/-! ## The same text behind two gaps -/

private theorem oneToken_alike (hoffset : offset + c.missing = offset' + c.missing')
    (a : Automaton) (gap : List Char) (l : Lexeme) :
    (oneToken a (c.lead ++ gap) offset l).Alike c (oneToken a (c.lead' ++ gap) offset' l) := by
  have hframe : Frame.Alike c
      ⟨a.after a.start (.token (a.numbering.tokenNumber l.token)), [.leaf (c.lead ++ gap) l.text]⟩
      ⟨a.after a.start (.token (a.numbering.tokenNumber l.token)),
        [.leaf (c.lead' ++ gap) l.text]⟩ :=
    ⟨rfl, [], _, _, rfl, rfl, .leaf gap l.text⟩
  refine ⟨.cons ⟨⟨[], _, _, rfl, rfl, hframe⟩, rfl⟩ .nil, ⟨hoffset, rfl, rfl, rfl⟩, rfl⟩

/-- A text behind two gaps gives trees that differ only in the first gap. -/
private def BegunAlike (c : Change) (rest : List Char) : Prop :=
  ∀ ⦃gap : List Char⦄ ⦃offset offset' furthest furthest' : Nat⦄ ⦃t : Tree⦄, furthest ≤ offset →
    furthest' ≤ offset' → offset + c.missing = offset' + c.missing' →
      finish? furthest (begun (c.lead ++ gap) offset rest) automaton = some t →
        ∃ t', finish? furthest' (begun (c.lead' ++ gap) offset' rest) automaton = some t' ∧
          t.Alike c t'

private theorem readOn_alike {l : Lexeme}
    (hrest : l.token = .comment ∨ l.token = .joint → BegunAlike c l.rest)
    (hoffset : offset + c.missing = offset' + c.missing') {t : Tree}
    (h : readOn (c.lead ++ gap) offset l = some t) :
    ∃ t', readOn (c.lead' ++ gap) offset' l = some t' ∧ t.Alike c t' := by
  have hbehind : offset + l.gap.length + l.text.length + c.missing =
      offset' + l.gap.length + l.text.length + c.missing' := by omega
  unfold readOn at h ⊢
  simp only [List.append_assoc] at h ⊢
  split at h
  · next hcomment =>
    exact hrest (Or.inl hcomment) (Nat.le_refl _) (Nat.le_refl _) hbehind h
  · next hjoint =>
    exact hrest (Or.inr hjoint) (Nat.le_refl _) (Nat.le_refl _) hbehind h
  · obtain rfl := Option.some.inj h
    exact ⟨_, rfl, .node _ _ (.leaf _ _)⟩
  · obtain ⟨l', hl', hfinished⟩ := Option.bind_eq_some_iff.1 h
    have halike := oneToken_alike hbehind automaton (gap ++ l.gap) l'
    rw [hl', Option.bind_some]
    exact finish?_alike automaton hfinished _ _ ⟨.cons halike .nil, .none⟩ hbehind

private theorem begunAlike (c : Change) (rest : List Char) : BegunAlike c rest := by
  -- Behind a comment or a joint there is less text to read.
  induction hn : rest.length using Nat.strong_induction_on generalizing rest with
  | h n ih =>
    intro gap offset offset' furthest furthest' t hf hf' hoffset h
    rw [finish?_begun _ hf] at h
    rw [finish?_begun _ hf']
    obtain ⟨l, hl, hread⟩ := Option.bind_eq_some_iff.1 h
    have hrest (hcomment : l.token = .comment ∨ l.token = .joint) : BegunAlike c l.rest := by
      rcases of_first?_eq_some opens_expectedFirst hl with hfinish | ⟨_, hshorter⟩
      · simp [hfinish] at hcomment
      · exact ih _ (hn ▸ (hshorter hcomment).2) _ rfl
    rw [hl, Option.bind_some]
    exact readOn_alike hrest hoffset hread

/-- A script of nothing but comments and blanks is a gap in front of its end. -/
private theorem finish?_begun_nil (gap : List Char) (hf : furthest ≤ offset) :
    finish? furthest (begun gap offset []) automaton = some (.node .script [.leaf gap []]) := by
  have hopening : opening? [] = none := rfl
  -- over any set of tokens, since the set at the start is too large to be compared
  have hexpects (e : Expected) : e.finish = e.expects .finish := rfl
  have hfinish : expectedFirst.finish = true := by
    rw [hexpects, expectedFirst, automaton]
    exact expects_finish_start grammar
  have hfirst : Lexeme.first? expectedFirst .none [] = some ⟨.finish, [], [], [], .none⟩ := by
    rw [Lexeme.first?, sensitive?_none opens_expectedFirst, hopening, ite_self, Option.none_or,
      plain?_eq opens_expectedFirst]
    simp [Lexeme.behind?, hfinish]
  rw [finish?_begun gap hf, hfirst, Option.bind_some, readOn]
  dsimp only
  rw [List.append_nil]

/-- The second of two leads ends as many lines further down than the first one. -/
def Change.MovesDown (c : Change) (n : Nat) : Prop :=
  Position.start.advance c.lead' = (Position.start.advance c.lead).down n

/-- Trees that differ only in the first gap, behind which everything, if there is anything, stands
as many lines further down in the second one. -/
def Tree.MovedDown (n : Nat) (t t' : Tree) : Prop :=
  ∃ c : Change, t.Alike c t' ∧ (c.MovesDown n ∨ ∃ gap, t = .node .script [.leaf gap []])

/-- Neither of two scripts can be read, or the tree of the second one is that of the first one
further down. -/
def SameTrees (n : Nat) : Option Tree → Option Tree → Prop := Option.Rel (Tree.MovedDown n)

private theorem exists_begun_alike (hf : furthest ≤ offset) (hf' : furthest' ≤ offset')
    (gap gap' : List Char) {t : Tree}
    (h : finish? furthest (begun gap offset rest) automaton = some t) :
    ∃ t', finish? furthest' (begun gap' offset' rest) automaton = some t' ∧
      t.Alike ⟨gap, gap', offset', offset⟩ t' := by
  have halike := @begunAlike ⟨gap, gap', offset', offset⟩ rest [] offset offset' furthest furthest'
    t hf hf' (Nat.add_comm offset offset')
  simp only [List.append_nil] at halike
  exact halike h

private theorem sameTrees_begun {n : Nat} (hf : furthest ≤ offset) (hf' : furthest' ≤ offset')
    (h : Position.start.advance gap' = (Position.start.advance gap).down n ∨ rest = []) :
    SameTrees n (finish? furthest (begun gap offset rest) automaton)
      (finish? furthest' (begun gap' offset' rest) automaton) := by
  cases ht : finish? furthest (begun gap offset rest) automaton with
  | none =>
    cases ht' : finish? furthest' (begun gap' offset' rest) automaton with
    | none => exact .none
    | some t' =>
      obtain ⟨t, htree, _⟩ := exists_begun_alike hf' hf gap' gap ht'
      rw [ht] at htree
      exact absurd htree nofun
  | some t =>
    obtain ⟨t', ht', halike⟩ := exists_begun_alike hf hf' gap gap' ht
    rw [ht']
    refine .some ⟨_, halike, h.imp_right ?_⟩
    rintro rfl
    exact ⟨gap, Option.some.inj (ht.symm.trans (finish?_begun_nil gap hf))⟩

/-! ## Scripts -/

/-- A script that starts with a byte order mark, behind which a string literal opens. -/
def OpensBehindMark (s : List Char) : Prop := ∃ t, s = '\ufeff' :: t ∧ OpensSoon t

/-- A script without a byte order mark in front is read from its start. -/
theorem start_eq {s : List Char} (h : s.head? ≠ some '\ufeff') :
    Progress.start s = begun [] 0 s := by
  unfold Progress.start Version.start Place.start
  split
  · exact absurd rfl h
  · rfl

private theorem parse?_mark (t : List Char) :
    parse? ('\ufeff' :: t) = finish? 0 (begun ['\ufeff'] 1 t) automaton := rfl

private theorem parse?_eq {s : List Char} (h : s.head? ≠ some '\ufeff') :
    parse? s = finish? 0 (begun [] 0 s) automaton := by
  rw [parse?, start_eq h]

variable {lines : List (List Char)}

/-- Comment lines end as many lines further down. -/
theorem advance_commentLines (h : ∀ line ∈ lines, IsComment line) {p : Position}
    (hp : p.column = 0) : p.advance (lines.map (· ++ ['\n'])).flatten = p.down lines.length := by
  have hcomplete : ∀ l ∈ lines.map (· ++ ['\n']), Complete l := by
    intro l hl
    obtain ⟨line, hline, rfl⟩ := List.mem_map.1 hl
    obtain ⟨body, rfl, hbody⟩ := h line hline
    refine ⟨_, ?_, rfl⟩
    rintro (_ | ⟨_, hmem⟩)
    exact (hbody _ hmem).1 rfl
  rw [Position.advance_flatten hcomplete hp, List.length_map]

/-- A script that starts with comment lines is read behind them. -/
private theorem parse?_commentLines (h : ∀ line ∈ lines, IsComment line) (hne : lines ≠ [])
    (s : List Char) :
    parse? ((lines.map (· ++ ['\n'])).flatten ++ s) =
      finish? (lines.map (· ++ ['\n'])).flatten.length
        (begun (lines.map (· ++ ['\n'])).flatten (lines.map (· ++ ['\n'])).flatten.length s)
        automaton := by
  have hhead : ((lines.map (· ++ ['\n'])).flatten ++ s).head? ≠ some '\ufeff' := by
    obtain ⟨line, others, rfl⟩ := List.exists_cons_of_ne_nil hne
    obtain ⟨body, rfl, _⟩ := h line List.mem_cons_self
    simp
  have hskipped := skipped_commentLines h s [] 0 0 _ (Nat.le_refl _) (Nat.le_refl _)
  rw [Nat.zero_add, List.nil_append] at hskipped
  rw [parse?_eq hhead, hskipped]

/-- Comment lines at the top of a script change nothing but the first gap, unless a byte order mark
behind them hides the opening of a string literal. -/
theorem parse?_behind_comments (h : ∀ line ∈ lines, IsComment line) (hne : lines ≠ [])
    {s : List Char} (hs : ¬OpensBehindMark s) :
    SameTrees lines.length (parse? s) (parse? ((lines.map (· ++ ['\n'])).flatten ++ s)) := by
  have hdown : Position.start.advance (lines.map (· ++ ['\n'])).flatten =
      Position.start.down lines.length := advance_commentLines h rfl
  rw [parse?_commentLines h hne]
  generalize (lines.map (· ++ ['\n'])).flatten = comments at hdown ⊢
  by_cases hhead : s.head? = some '\ufeff'
  · obtain ⟨t, rfl⟩ : ∃ t, s = '\ufeff' :: t := by
      cases s with
      | nil => simp at hhead
      | cons c t => exact ⟨t, by rw [Option.some.inj hhead]⟩
    have hskipped := skipped_mark (fun ht => hs ⟨t, rfl, ht⟩) comments comments.length _ _
      (Nat.le_refl _) (Nat.le_refl _)
    rw [List.singleton_append] at hskipped
    rw [parse?_mark, hskipped]
    refine sameTrees_begun (Nat.zero_le _) (Nat.le_refl _) (.inl ?_)
    rw [Position.advance_append, hdown, Position.advance_down]
  · rw [parse?_eq hhead]
    exact sameTrees_begun (Nat.le_refl _) (Nat.le_refl _) (.inl hdown)

/-- A script in which a byte order mark behind comment lines hides the opening of a string literal
cannot be read. -/
theorem parse?_behind_comments_eq_none (h : ∀ line ∈ lines, IsComment line) (hne : lines ≠ [])
    {s : List Char} (hs : OpensBehindMark s) :
    parse? ((lines.map (· ++ ['\n'])).flatten ++ s) = none := by
  obtain ⟨t, rfl, ht⟩ := hs
  rw [parse?_commentLines h hne]
  exact finish?_mark_eq_none ht _ (Nat.le_refl _)

/-- A comment line, or one that a null character cuts off. -/
private theorem isComment_or_null {body : List Char} (hnew : '\n' ∉ body) :
    IsComment ('#' :: body) ∨
      ∃ before after, body = before ++ '\x00' :: after ∧
        ∀ c ∈ before, c ≠ '\n' ∧ c ≠ '\x00' := by
  by_cases hnull : '\x00' ∈ body
  · obtain ⟨before, after, rfl, hbefore⟩ := List.eq_append_cons_of_mem hnull
    refine Or.inr ⟨before, after, rfl, ?_⟩
    intro c hc
    exact ⟨fun h => hnew (h ▸ List.mem_append_left _ hc), fun h => hbefore (h ▸ hc)⟩
  · refine Or.inl ⟨body, rfl, ?_⟩
    intro c hc
    exact ⟨fun h => hnew (h ▸ hc), fun h => hnull (h ▸ hc)⟩

private theorem parse?_null {before : List Char} (h : ∀ c ∈ before, c ≠ '\n' ∧ c ≠ '\x00')
    (r : List Char) : parse? ('#' :: before ++ '\x00' :: r) = none := by
  rw [parse?_eq (by simp), finish?_comment_null h _ (Nat.le_refl _)]

/-- A script whose first line is a comment is read behind it. -/
private theorem parse?_firstLine {s : List Char} (h : IsComment (firstLine s)) :
    ∃ gap offset, parse? s = finish? offset (begun gap offset (otherLines s)) automaton ∧
      (gap = firstLine s ++ ['\n'] ∨ otherLines s = []) := by
  by_cases hnew : '\n' ∈ s
  · obtain ⟨first, others, rfl, hfirst⟩ := List.eq_append_cons_of_mem hnew
    rw [firstLine_append_newline hfirst] at h
    have hall : ∀ line ∈ [first], IsComment line := by simpa using h
    have hlines := parse?_commentLines hall (by simp) others
    rw [otherLines_append_newline hfirst, firstLine_append_newline hfirst]
    exact ⟨_, _, by simpa using hlines, .inl (by simp)⟩
  · rw [firstLine_of_not_mem hnew] at h
    obtain ⟨body, rfl, hbody⟩ := h
    have hskipped := skipped_comment (r := []) hbody (by simp) [] 0 0 _ (Nat.le_refl _)
      (Nat.le_refl _)
    rw [List.append_nil] at hskipped
    rw [otherLines_of_not_mem hnew, parse?_eq (by simp), hskipped]
    exact ⟨_, _, rfl, .inr rfl⟩

/-- Comment lines behind a first line that starts with `#!` change nothing but the first gap. -/
theorem parse?_behind_hashBang (h : ∀ line ∈ lines, IsComment line) {s : List Char}
    (hs : ['#', '!'] <+: s) :
    SameTrees lines.length (parse? s)
      (parse? (firstLine s ++ ['\n'] ++ (lines.map (· ++ ['\n'])).flatten ++ otherLines s)) := by
  obtain ⟨body, hfirst⟩ : ∃ body, firstLine s = '#' :: body := by
    obtain ⟨t, rfl⟩ := hs
    exact ⟨_, List.takeWhile_cons_of_pos (by decide)⟩
  have hnew : '\n' ∉ body := by
    have hline := newline_not_mem_firstLine s
    rw [hfirst] at hline
    exact fun hmem => hline (List.mem_cons_of_mem _ hmem)
  rcases isComment_or_null hnew with hcomment | ⟨before, after, rfl, hbefore⟩
  · rw [← hfirst] at hcomment
    have hall : ∀ line ∈ firstLine s :: lines, IsComment line := by
      intro line hline
      rcases List.mem_cons.1 hline with rfl | hline
      · exact hcomment
      · exact h line hline
    obtain ⟨gap, offset, hread, hgap⟩ := parse?_firstLine hcomment
    have hread' := parse?_commentLines hall (by simp) (otherLines s)
    rw [List.map_cons, List.flatten_cons] at hread'
    rw [hread, hread']
    refine sameTrees_begun (Nat.le_refl _) (Nat.le_refl _) (hgap.imp_left ?_)
    rintro rfl
    rw [Position.advance_append, advance_commentLines h]
    rw [Position.advance_append_newline (newline_not_mem_firstLine s)]
  · have hcut : s = '#' :: before ++ '\x00' :: (after ++ s.dropWhile (· != '\n')) := by
      have happend : firstLine s ++ s.dropWhile (· != '\n') = s := List.takeWhile_append_dropWhile
      rw [hfirst] at happend
      simpa using happend.symm
    have hnone : parse? s = none := by
      rw [hcut]
      exact parse?_null hbefore _
    have hnone' := parse?_null hbefore
      (after ++ ['\n'] ++ (lines.map (· ++ ['\n'])).flatten ++ otherLines s)
    rw [hnone, hfirst]
    simp only [List.cons_append, List.append_assoc] at hnone' ⊢
    rw [hnone']
    exact .none

/-- The tree of an empty script is a single gap. -/
theorem parse?_nil : parse? [] = some (.node .script [.leaf [] []]) := by
  rw [parse?_eq (by simp), finish?_begun_nil [] (Nat.le_refl _)]

end ScriptDeps.Source
