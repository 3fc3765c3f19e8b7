import ScriptDeps.Proofs.Source.Expecting
import ScriptDeps.Proofs.Source.Nodes
import ScriptDeps.Proofs.Source.Slices

/-!
# The characters of a tree

Whatever choices a reading makes, the characters that it has read and those that follow its place
are the script. The whole is closed only at the end of the script, so no character is left out of
the tree, and none stands in it twice. Every token in the tree stands behind a gap. Main statements:
`chars_of_parse?` and `isSpaced_of_parse?`.
-/

namespace ScriptDeps.Source

open Automaton

/-- No sign of scripts begins with the character at which a text is spent. -/
theorem spendsNothing_expected (s : State) : (automaton.expected s).SpendsNothing := by
  intro sign hsign
  have hexpects : (automaton.expected s).expects (.sign sign) = true :=
    List.contains_iff_mem.2 hsign
  have hsign : sign ∈ grammarSigns := by
    simpa [grammarTokens, layoutTokens] using
      mem_grammarTokens (expects_expected_iff.1 hexpects).2.1
  have hheads : ∀ sign ∈ grammarSigns, sign.toList.head? ≠ some '\x00' := by decide
  exact hheads sign hsign

/-- A lexeme is the beginning of the text that follows its place. -/
theorem Place.Has.standsAt {p : Place} {l : Lexeme} (h : p.Has automaton l) :
    l.StandsAt p.rest := by
  obtain ⟨s, l', hl', rfl | hname⟩ := h
  · exact Lexeme.standsAt_of_first? (spendsNothing_expected s) hl'
  · have hstands := Lexeme.standsAt_of_first? (spendsNothing_expected s) hl'
    unfold Lexeme.asName? at hname
    split at hname
    · split at hname
      · cases hname
      · cases hname
        exact ⟨hstands.slices, hstands.gap, hstands.spent, nofun, nofun⟩
    · cases hname

/-! ## Trees of a reading -/

/-- The trees of a reading, in the order of the text. -/
def Reading.trees (r : Reading) : List Tree := (Frame.treesOf r.frames).reverse

/-- The trees of frames in a row stand in a row. -/
theorem Frame.treesOf_append (fs gs : List Frame) :
    treesOf (fs ++ gs) = treesOf fs ++ treesOf gs := by
  induction fs with
  | nil => rfl
  | cons f fs ih => rw [List.cons_append, treesOf_cons, treesOf_cons, ih, List.append_assoc]

/-- Where a phrase is closed its trees are put into a node or stay as they are. -/
theorem Reading.trees_close (a : Automaton) (i : Item) (r : Reading) :
    (r.close a i).trees = r.trees ∨ ∃ before parts phrase, r.trees = before ++ parts ∧
      (r.close a i).trees = before ++ [.node phrase parts] := by
  have htrees : r.trees = (Frame.treesOf (r.frames.drop i.taken)).reverse ++
      (Frame.treesOf (r.frames.take i.taken)).reverse := by
    rw [trees, ← List.reverse_append, ← Frame.treesOf_append, List.take_append_drop]
  have hclose : (r.close a i).trees = (Frame.treesOf (r.frames.drop i.taken)).reverse ++
      (wrap a.numbering.phrases[i.left]? (Frame.treesOf (r.frames.take i.taken))).reverse := by
    simp only [trees, close, List.splitAt_eq, Frame.treesOf_cons, List.reverse_append]
  rw [hclose, htrees]
  cases a.numbering.phrases[i.left]? with
  | none => exact .inl rfl
  | some x =>
    rw [reverse_wrap]
    rcases x.wrap_eq (Frame.treesOf (r.frames.take i.taken)).reverse with ⟨-, heq⟩ | ⟨p, -, -, heq⟩
    · exact .inl (by rw [heq])
    · exact .inr ⟨_, _, p, rfl, by rw [heq]⟩

/-- A token with a text is the last tree behind it. -/
theorem Reading.trees_take (a : Automaton) (p : Place) (l : Lexeme) (r : Reading) :
    (r.take a p l).trees =
      r.trees ++ if l.text.isEmpty then [] else [.leaf (p.gap ++ l.gap) l.text] := by
  simp only [trees, take, push, Frame.treesOf_cons, List.reverse_append, Place.take]
  split <;> rfl

/-! ## Characters -/

/-- The characters that a reading has read and those that follow its place are a text, and so many
have been read. -/
structure Reading.Reads (source : List Char) (p : Place) (r : Reading) : Prop where
  /-- The trees, the gap behind them and the rest are the text. -/
  chars : Tree.charsOfAll r.trees ++ p.gap ++ p.rest = source
  /-- All characters but those of the rest have been read. -/
  offset : p.offset + p.rest.length = source.length

/-- At the start all of the text follows. -/
theorem reads_start (source : List Char) : Reading.Reads source (.start source) ⟨[], 0⟩ := by
  unfold Place.start
  split
  · exact ⟨rfl, Nat.add_comm _ _⟩
  · exact ⟨rfl, Nat.zero_add _⟩

private theorem length_of_standsAt {p : Place} {l : Lexeme} (h : l.StandsAt p.rest) :
    l.gap.length + l.text.length + l.rest.length = p.rest.length := by
  rw [← h.slices, List.length_append, List.length_append]

/-- Every step of a reading takes as many characters from the rest as it adds to the trees. -/
theorem kept_reads (source : List Char) : Kept automaton (Reading.Reads source) where
  close {p r i token} h _ _ := by
    refine ⟨?_, h.offset⟩
    rcases r.trees_close automaton i with heq | ⟨before, parts, phrase, htrees, heq⟩
    · rw [heq, h.chars]
    · have hchars := h.chars
      rw [htrees, Tree.charsOfAll_append] at hchars
      simpa [heq, Tree.charsOfAll_append, Tree.charsOfAll, Tree.chars] using hchars
  take {p r l} h hl := by
    have hslices := hl.standsAt.slices
    have hlength := length_of_standsAt hl.standsAt
    have hchars := h.chars
    have hoffset := h.offset
    rw [← hslices] at hchars
    refine ⟨?_, ?_⟩
    · rw [Reading.trees_take, Tree.charsOfAll_append, Place.take, ← hchars]
      split
      · next hempty => simp [Tree.charsOfAll, List.isEmpty_iff.1 hempty]
      · simp [Tree.charsOfAll, Tree.chars]
    · simp only [Place.take]
      split <;> simp only <;> omega
  skip {p r l} h hl _ := by
    have hslices := hl.standsAt.slices
    have hlength := length_of_standsAt hl.standsAt
    have hchars := h.chars
    have hoffset := h.offset
    rw [← hslices] at hchars
    refine ⟨?_, ?_⟩
    · simp [Place.skip, ← hchars]
    · simp only [Place.skip]
      omega
  join {p q r s} h h' hsame _ := by
    simp only [Place.same, Bool.and_eq_true, beq_iff_eq] at hsame
    obtain ⟨⟨hoffset, hgap⟩, -⟩ := hsame
    have hlength : p.rest.length = q.rest.length := by
      have hp := h.offset
      have hq := h'.offset
      omega
    -- Both rests are ends of the text, so that they are the same one.
    have hsplit := h.chars.trans h'.chars.symm
    have hrest : p.rest = q.rest := (List.append_inj' hsplit hlength).2
    exact ⟨by rw [hgap, hrest, h'.chars], h.offset⟩

/-! ## The end of the script -/

variable {g : Grammar}

/-- In all states on the way of a reading only the end of the script may follow the whole. -/
theorem Rooted.follow_whole {xs : List Symbol} {frames : List Frame} (h : Rooted g xs frames) :
    ∀ e ∈ Frame.top (ofGrammar g) frames, e.1.left = (ofGrammar g).wholeItem.left →
      e.2 = TokenSet.single ((Numbering.ofGrammar g).tokenNumber .finish) := by
  have hsize : (ofGrammar g).wholeItem.left = (Numbering.ofGrammar g).phrases.length :=
    size_productions g
  induction h with
  | nil =>
    intro e he _
    simp only [Frame.top, List.head?_nil, Option.elim_none, start, List.mem_cons,
      List.not_mem_nil, or_false] at he
    rcases he with rfl | rfl <;> rfl
  | @cons x part xs f frames hpart hstate _ _ ih =>
    intro e he hleft
    rw [Frame.top, List.head?_cons, Option.elim_some, hstate, after, List.mem_append,
      List.mem_filterMap, List.mem_filterMap] at he
    rcases he with ⟨i, hi, he⟩ | ⟨⟨i, follow⟩, hi, he⟩
    · obtain ⟨-, y, z, parts, hy, -⟩ := of_mem_behind hi
      obtain ⟨-, rfl⟩ := by simpa using he
      rw [hleft, hsize, List.getElem?_length] at hy
      cases hy
    · obtain ⟨-, rfl⟩ := by simpa using he
      exact ih (i, follow) hi hleft

/-- The whole is closed only at the end of the script. -/
theorem Reading.Grown.token_of_whole {r : Reading} {t : Token} {i : Item} (h : r.Grown g)
    (hi : i ∈ ((ofGrammar g).step (r.state (ofGrammar g))
      ((Numbering.ofGrammar g).tokenNumber t)).closes)
    (hleft : i.left = (ofGrammar g).wholeItem.left) : t = .finish := by
  obtain ⟨xs, hrooted⟩ := h
  obtain ⟨-, follow, hmem, hbit⟩ := of_mem_closes hi
  obtain rfl := hrooted.follow_whole _ hmem hleft
  rw [testBit_single, decide_eq_true_iff] at hbit
  have hfinish : Token.finish ∈ (Numbering.ofGrammar g).tokens :=
    mem_tokens_of_mem_layoutTokens g (by decide)
  exact ((List.idxOf_inj hfinish).1 hbit).symm

/-- No character of a script is left out of its tree, and none stands in it twice. -/
theorem chars_of_parse? {source : List Char} {t : Tree} (h : parse? source = some t) :
    t.chars = source := by
  have hkept := (kept_grown script_mem_phrases).and (kept_reads source)
  obtain ⟨p, r, l, ⟨hgrown, hreads⟩, hl, ⟨i, hi, hleft⟩, rfl⟩ :=
    hkept.of_finish? ⟨⟨[], .nil⟩, reads_start source⟩ h
  have htoken := hgrown.token_of_whole hi hleft
  have htext : l.text = [] := by
    have htext := hl.hasText
    rwa [htoken] at htext
  have hrest := hl.standsAt.finish htoken
  have hchars := hreads.chars
  rw [← hl.standsAt.slices, htext, hrest] at hchars
  rw [Progress.treeOf, Tree.chars, Tree.charsOfAll_append, ← hchars]
  simp [Tree.charsOfAll, Tree.chars, Reading.trees]

/-! ## Gaps -/

/-- Every token with a text in a tree stands behind a gap. -/
def Tree.IsSpaced (t : Tree) : Prop :=
  ∀ gap text, (Tree.leaf gap text).IsIn t → text ≠ [] → IsGap gap

/-- A leaf is spaced if it stands behind a gap or has no text. -/
theorem Tree.isSpaced_leaf {gap text : List Char} (h : text ≠ [] → IsGap gap) :
    (leaf gap text).IsSpaced := by
  intro gap' text' hin
  cases hin
  exact h

/-- A node is spaced if its parts are. -/
theorem Tree.isSpaced_node {phrase : Phrase} {parts : List Tree}
    (h : ∀ t ∈ parts, t.IsSpaced) : (node phrase parts).IsSpaced := by
  intro gap text hin
  cases hin with
  | part hu hin => exact h _ hu gap text hin

/-- The trees of a reading are spaced, and a gap stands behind them unless nothing with a text can
follow. -/
structure Reading.Spaced (p : Place) (r : Reading) : Prop where
  /-- Every token with a text stands behind a gap. -/
  trees : ∀ t ∈ r.trees, t.IsSpaced
  /-- What stands behind the last token is a gap, or nothing with a text can follow. -/
  gap : IsGap p.gap ∨ IsSpent p.rest

/-- A lexeme without a text leaves a gap behind a gap, or nothing with a text can follow. -/
private theorem isGap_of_standsAt {p : Place} {l : Lexeme} (h : IsGap p.gap ∨ IsSpent p.rest)
    (hl : l.StandsAt p.rest) : IsGap (p.gap ++ l.gap) ∨ l.text = [] ∧ IsSpent l.rest := by
  rcases hl.gap with hgap | hspent
  · rcases h with hp | hp
    · exact .inl (hp.append hgap)
    · have htext := hl.spent hp
      have hslices := hl.slices
      rw [htext, List.append_nil] at hslices
      rw [← hslices] at hp
      exact .inr ⟨htext, by rwa [hgap.eq_nil_of_isSpent hp] at hp⟩
  · exact .inr hspent

/-- Every step of a reading leaves its trees spaced. -/
theorem kept_spaced : Kept automaton Reading.Spaced where
  close {p r i token} h _ _ := by
    refine ⟨?_, h.gap⟩
    rcases r.trees_close automaton i with heq | ⟨before, parts, phrase, htrees, heq⟩
    · rw [heq]
      exact h.trees
    · have hall := h.trees
      rw [htrees, List.forall_mem_append] at hall
      rw [heq, List.forall_mem_append, List.forall_mem_singleton]
      exact ⟨hall.1, Tree.isSpaced_node hall.2⟩
  take {p r l} h hl := by
    have hgap := isGap_of_standsAt h.gap hl.standsAt
    rw [Place.take]
    cases hempty : l.text.isEmpty with
    | true =>
      refine ⟨?_, hgap.imp_right (·.2)⟩
      simpa [Reading.trees_take, hempty] using h.trees
    | false =>
      refine ⟨?_, .inl isGap_nil⟩
      rw [Reading.trees_take, hempty, List.forall_mem_append]
      refine ⟨h.trees, List.forall_mem_singleton.2 (Tree.isSpaced_leaf fun htext => ?_)⟩
      exact hgap.resolve_right fun hspent => htext hspent.1
  skip {p r l} h hl htoken := by
    refine ⟨h.trees, ?_⟩
    have hgap := isGap_of_standsAt h.gap hl.standsAt
    exact hgap.imp (·.append (hl.standsAt.between htoken)) (·.2)
  join {p q r s} h h' hsame _ := ⟨h'.trees, h.gap⟩

/-- Every token with a text in the tree of a script stands behind a gap. -/
theorem isSpaced_of_parse? {source : List Char} {t : Tree} (h : parse? source = some t) :
    t.IsSpaced := by
  have hstart : Reading.Spaced (.start source) ⟨[], 0⟩ := by
    refine ⟨List.forall_mem_nil _, .inl ?_⟩
    unfold Place.start
    split
    · simp [IsGap, Lexeme.isSpace]
    · exact isGap_nil
  obtain ⟨p, r, l, hspaced, -, -, rfl⟩ := kept_spaced.of_finish? hstart h
  refine Tree.isSpaced_node (List.forall_mem_append.2 ⟨hspaced.trees, ?_⟩)
  exact List.forall_mem_singleton.2 (Tree.isSpaced_leaf (absurd rfl))

end ScriptDeps.Source
