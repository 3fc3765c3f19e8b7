import ScriptDeps.Proofs.Source.Opening
import ScriptDeps.Proofs.Source.Texts

/-!
# Trees follow the grammar

Trees grow from symbols: a token gives a leaf if it has a text, and a phrase or series gives the
trees of its parts, in a node if the phrase has one. Whatever text the automaton has read, the trees
on the way of a reading grow from symbols that the items of its state have passed, so a phrase is
closed only over trees that grow from its parts. Main statement: `isScript_of_parse?`.
-/

namespace ScriptDeps.Source

open Automaton

/-- A phrase or series is made of some symbols; the script may be empty. -/
inductive Builds (g : Grammar) : Symbol → List Symbol → Prop
  | made {x : Symbol} {parts : List Symbol} (h : Makes g x parts) : Builds g x parts
  | empty : Builds g (.phrase .script) []

/-- The trees of a symbol, given those of its parts. -/
def Symbol.wrap (trees : List Tree) : Symbol → List Tree
  | .phrase p => if p.isTransparent then trees else [.node p trees]
  | _ => trees

/-- Trees in a row grow from symbols in a row. -/
inductive Grows (g : Grammar) : List Symbol → List Tree → Prop
  | nil : Grows g [] []
  | blank {t : Token} {xs : List Symbol} {ts : List Tree} (ht : t.HasText [])
      (h : Grows g xs ts) : Grows g (.token t :: xs) ts
  | leaf {t : Token} {gap text : List Char} {xs : List Symbol} {ts : List Tree} (hne : text ≠ [])
      (ht : t.HasText text) (h : Grows g xs ts) : Grows g (.token t :: xs) (.leaf gap text :: ts)
  | made {x : Symbol} {parts xs : List Symbol} {inner ts : List Tree} (hx : Builds g x parts)
      (hinner : Grows g parts inner) (h : Grows g xs ts) :
      Grows g (x :: xs) (x.wrap inner ++ ts)

/-- A tree is that of a whole script: it grows from the phrase, and the last gap stands behind. -/
def Tree.IsScript (g : Grammar) (t : Tree) : Prop :=
  ∃ ts gap, t = .node .script (ts ++ [.leaf gap []]) ∧ Grows g [.phrase .script] ts

variable {g : Grammar}

/-- What grows from two rows of symbols grows from them in a row. -/
theorem Grows.append {xs ys : List Symbol} {ts us : List Tree} (h : Grows g xs ts)
    (h' : Grows g ys us) : Grows g (xs ++ ys) (ts ++ us) := by
  induction h with
  | nil => exact h'
  | blank ht _ ih => exact .blank ht ih
  | leaf hne ht _ ih => exact .leaf hne ht ih
  | made hx hinner _ _ ih =>
    rw [List.cons_append, List.append_assoc]
    exact .made hx hinner ih

/-! ## Tokens of the grammar -/

private theorem mem_tokens_of_mem_expand {r : Rule} {parts : List Symbol} {t : Token}
    (hparts : parts ∈ r.expand) (ht : .token t ∈ parts) : t ∈ r.tokens := by
  induction r generalizing parts with
  | empty => simp_all [Rule.expand]
  | token u => simp_all [Rule.expand, Rule.tokens]
  | phrase p => simp_all [Rule.expand]
  | both r s ihr ihs =>
    simp only [Rule.expand, List.mem_flatMap, List.mem_map] at hparts
    obtain ⟨as, has, bs, hbs, rfl⟩ := hparts
    rw [Rule.tokens, List.mem_append]
    exact (List.mem_append.1 ht).imp (ihr has) (ihs hbs)
  | either r s ihr ihs =>
    rw [Rule.tokens, List.mem_append]
    exact (List.mem_append.1 hparts).imp (ihr · ht) (ihs · ht)
  | series body => simp_all [Rule.expand]

private theorem mem_tokens_of_mem_bodies {r body : Rule} {t : Token} (hbody : body ∈ r.bodies)
    (ht : t ∈ body.tokens) : t ∈ r.tokens := by
  induction r with
  | empty => simp [Rule.bodies] at hbody
  | token u => simp [Rule.bodies] at hbody
  | phrase p => simp [Rule.bodies] at hbody
  | both r s ihr ihs =>
    rw [Rule.tokens, List.mem_append]
    exact (List.mem_append.1 hbody).imp ihr ihs
  | either r s ihr ihs =>
    rw [Rule.tokens, List.mem_append]
    exact (List.mem_append.1 hbody).imp ihr ihs
  | series r ih =>
    rcases List.mem_append.1 hbody with hbody | hbody
    · exact ih hbody
    · obtain rfl := List.mem_singleton.1 hbody
      exact ht

/-- Every token that a phrase or series is made of is known. -/
theorem mem_tokens_of_builds {x : Symbol} {parts : List Symbol} {t : Token}
    (h : Builds g x parts) (ht : .token t ∈ parts) : t ∈ (Numbering.ofGrammar g).tokens := by
  cases h with
  | empty => cases ht
  | made h =>
    cases h with
    | form hp hf hparts => exact mem_tokens g hp hf (mem_tokens_of_mem_expand hparts ht)
    | one hp hf hbody hparts =>
      exact mem_tokens g hp hf
        (mem_tokens_of_mem_bodies hbody (mem_tokens_of_mem_expand hparts ht))
    | more hp hf hbody hparts =>
      rcases List.mem_cons.1 ht with ht | ht
      · cases ht
      · exact mem_tokens g hp hf
          (mem_tokens_of_mem_bodies hbody (mem_tokens_of_mem_expand hparts ht))

/-! ## Items and what has been read -/

/-- A part stands for one symbol, among those that phrases are made of. -/
def StandsFor (g : Grammar) (part : Part) (x : Symbol) : Prop :=
  ∀ y, (∀ t, y = .token t → t ∈ (Numbering.ofGrammar g).tokens) →
    (Numbering.ofGrammar g).partOf y = part → y = x

/-- The number of a token stands for the token. -/
theorem standsFor_token (t : Token) :
    StandsFor g (.token ((Numbering.ofGrammar g).tokenNumber t)) (.token t) := by
  intro y hy hpart
  cases y with
  | token u =>
    have hu : (Numbering.ofGrammar g).Knows (.token u) := hy u rfl
    exact partOf_inj hu hpart
  | phrase p => cases hpart
  | series body => cases hpart

/-- The number of a phrase stands for the phrase. -/
theorem standsFor_phrase {k : Nat} {x : Symbol}
    (hx : (Numbering.ofGrammar g).phrases[k]? = some x) : StandsFor g (.phrase k) x := by
  intro y _ hpart
  have hstands := stands_partOf (Numbering.ofGrammar g) y
  rw [hpart] at hstands
  exact hstands x hx

/-- What an item says where some symbols have been read, last first: the ones it has passed are
parts of its phrase, and its rest are the others. -/
inductive Passed (g : Grammar) (xs : List Symbol) (i : Item) : Prop
  | inside {x : Symbol} {done rest : List Symbol}
      (hx : (Numbering.ofGrammar g).phrases[i.left]? = some x)
      (hbuilds : Builds g x (done.reverse ++ rest))
      (hrest : i.rest = rest.map (Numbering.ofGrammar g).partOf) (htaken : i.taken = done.length)
      (hdone : done <+: xs)
  | whole {rest : List Symbol} (hleft : i.left = (ofGrammar g).wholeItem.left)
      (hbuilds : xs.reverse ++ rest = [.phrase .script])
      (hrest : i.rest = rest.map (Numbering.ofGrammar g).partOf)

variable {xs : List Symbol} {i : Item} {x : Symbol} {part : Part}

private theorem exists_cons_of_expects {rest : List Symbol} (hpart : StandsFor g part x)
    (hknown : ∀ t, .token t ∈ rest → t ∈ (Numbering.ofGrammar g).tokens)
    (hrest : i.rest = rest.map (Numbering.ofGrammar g).partOf) (h : i.expects part = true) :
    ∃ rest', rest = x :: rest' ∧
      i.next.rest = rest'.map (Numbering.ofGrammar g).partOf := by
  cases rest with
  | nil => simp [Item.expects, hrest] at h
  | cons y rest' =>
    have hy : (Numbering.ofGrammar g).partOf y = part := by simpa [Item.expects, hrest] using h
    obtain rfl := hpart y (fun t ht => hknown t (ht ▸ List.mem_cons_self)) hy
    exact ⟨rest', rfl, by simp [Item.next, hrest]⟩

/-- An item passes a symbol whose part it expects. -/
theorem Passed.next (h : Passed g xs i) (hpart : StandsFor g part x)
    (hexpects : i.expects part = true) : Passed g (x :: xs) i.next := by
  cases h with
  | @inside y done rest hy hbuilds hrest htaken hdone =>
    have hknown : ∀ t, .token t ∈ rest → t ∈ (Numbering.ofGrammar g).tokens := fun t ht =>
      mem_tokens_of_builds hbuilds (List.mem_append_right _ ht)
    obtain ⟨rest', rfl, hnext⟩ := exists_cons_of_expects hpart hknown hrest hexpects
    have hparts : (x :: done).reverse ++ rest' = done.reverse ++ x :: rest' := by simp
    have htaken' : i.next.taken = (x :: done).length := congrArg (· + 1) htaken
    exact .inside hy (hparts ▸ hbuilds) hnext htaken' (List.cons_prefix_cons.2 ⟨rfl, hdone⟩)
  | @whole rest hleft hbuilds hrest =>
    have hknown : ∀ t, .token t ∈ rest → t ∈ (Numbering.ofGrammar g).tokens := fun t ht => by
      have hmem : Symbol.token t ∈ xs.reverse ++ rest := List.mem_append_right _ ht
      simp [hbuilds] at hmem
    obtain ⟨rest', rfl, hnext⟩ := exists_cons_of_expects hpart hknown hrest hexpects
    have hparts : (x :: xs).reverse ++ rest' = xs.reverse ++ x :: rest' := by simp
    exact .whole hleft (hparts ▸ hbuilds) hnext

/-- Behind a symbol all items have passed it. -/
theorem passed_after {s : State} (h : ∀ e ∈ s, Passed g xs e.1) (hpart : StandsFor g part x) :
    ∀ e ∈ (ofGrammar g).after s part, Passed g (x :: xs) e.1 := by
  intro e he
  rw [after, List.mem_append, List.mem_filterMap, List.mem_filterMap] at he
  rcases he with ⟨i, hi, he⟩ | ⟨⟨i, follow⟩, hi, he⟩
  · obtain ⟨htaken, y, z, parts, hy, hmakes, hz, hrest⟩ := of_mem_behind hi
    have hbuilds : Builds g y ([z].reverse ++ parts) := .made hmakes
    obtain rfl := hpart z (fun t ht => mem_tokens_of_builds hbuilds (by simp [ht])) hz
    obtain ⟨-, rfl⟩ := by simpa using he
    exact .inside hy hbuilds hrest htaken (List.prefix_append [z] xs)
  · obtain ⟨hexpects, rfl⟩ := by simpa using he
    exact (h _ hi).next hpart hexpects

/-- Before anything has been read no item has passed a symbol. -/
theorem passed_start (hscript : .phrase .script ∈ (Numbering.ofGrammar g).phrases) :
    ∀ e ∈ (ofGrammar g).start, Passed g [] e.1 := by
  intro e he
  simp only [start, List.mem_cons, List.not_mem_nil, or_false] at he
  rcases he with rfl | rfl
  · have hbuilds : Builds g (.phrase .script) (([] : List Symbol).reverse ++ []) := .empty
    exact .inside (List.getElem?_idxOf hscript) hbuilds rfl rfl List.nil_prefix
  · have hbuilds : ([] : List Symbol).reverse ++ [.phrase .script] = [.phrase .script] := rfl
    exact .whole rfl hbuilds rfl

/-! ## Readings -/

/-- The state on top of some frames. -/
def Frame.top (a : Automaton) (frames : List Frame) : State :=
  frames.head?.elim a.start (·.state)

/-- Frames of a reading, last first, with the symbols that their trees grow from. -/
inductive Rooted (g : Grammar) : List Symbol → List Frame → Prop
  | nil : Rooted g [] []
  | cons {x : Symbol} {part : Part} {xs : List Symbol} {f : Frame} {frames : List Frame}
      (hpart : StandsFor g part x)
      (hstate : f.state = (ofGrammar g).after (Frame.top (ofGrammar g) frames) part)
      (htrees : Grows g [x] f.trees.reverse) (h : Rooted g xs frames) :
      Rooted g (x :: xs) (f :: frames)

/-- All items of the state on top have passed the symbols below. -/
theorem Rooted.passed (hscript : .phrase .script ∈ (Numbering.ofGrammar g).phrases)
    {frames : List Frame} (h : Rooted g xs frames) :
    ∀ e ∈ Frame.top (ofGrammar g) frames, Passed g xs e.1 := by
  induction h with
  | nil => exact passed_start hscript
  | @cons x part xs f frames hpart hstate _ _ ih =>
    have htop : Frame.top (ofGrammar g) (f :: frames) = f.state := rfl
    rw [htop, hstate]
    exact passed_after ih hpart

/-- The last frames are cut off with the symbols that their trees grow from. -/
theorem Rooted.split {done below : List Symbol} {frames : List Frame}
    (h : Rooted g (done ++ below) frames) :
    Rooted g below (frames.drop done.length) ∧
      Grows g done.reverse (Frame.treesOf (frames.take done.length)).reverse := by
  induction done generalizing frames with
  | nil => exact ⟨h, .nil⟩
  | cons x done ih =>
    cases h with
    | @cons _ part _ f frames hpart hstate htrees h =>
      obtain ⟨hbelow, hgrows⟩ := ih h
      refine ⟨hbelow, ?_⟩
      rw [List.length_cons, List.take_succ_cons, Frame.treesOf_cons, List.reverse_append,
        List.reverse_cons]
      exact hgrows.append htrees

/-- The trees on the way of a reading grow from symbols. -/
def Reading.Grown (g : Grammar) (r : Reading) : Prop := ∃ xs, Rooted g xs r.frames

private theorem mem_of_mem_resolve {finished takers : List Item}
    (h : i ∈ (resolve finished takers).closes) : i ∈ finished := by
  unfold resolve at h
  grind

/-- The items that are closed at a token are finished items of the state which it may follow. -/
theorem of_mem_closes {a : Automaton} {s : State} {token : Nat} {i : Item}
    (h : i ∈ (a.step s token).closes) :
    i.rest = [] ∧ ∃ follow, (i, follow) ∈ s ∧ follow.testBit token = true := by
  simp only [step, List.partition_eq_filter_filter] at h
  have hfinished := mem_of_mem_resolve h
  simp only [List.mem_map, List.mem_filter] at hfinished
  obtain ⟨⟨j, follow⟩, ⟨⟨hmem, hrest⟩, hbit⟩, rfl⟩ := hfinished
  have hnil := List.isEmpty_iff.1 hrest
  rw [tokensOf, hnil] at hbit
  exact ⟨hnil, follow, hmem, hbit⟩

/-- A symbol is put into a node, or not, in either order of its trees. -/
theorem reverse_wrap (x : Symbol) (ts : List Tree) :
    (Reading.wrap (some x) ts).reverse = x.wrap ts.reverse := by
  cases x with
  | phrase p =>
    rw [Reading.wrap, Symbol.wrap]
    split <;> rfl
  | token t => rfl
  | series body => rfl

/-- A phrase that is closed is made of the symbols that its trees grow from. -/
theorem Rooted.close (hscript : .phrase .script ∈ (Numbering.ofGrammar g).phrases) {r : Reading}
    {token : Nat} (h : Rooted g xs r.frames)
    (hi : i ∈ ((ofGrammar g).step (r.state (ofGrammar g)) token).closes)
    (hne : i.left ≠ (ofGrammar g).wholeItem.left) :
    ∃ x done below, xs = done ++ below ∧ Builds g x done.reverse ∧
      Rooted g (x :: below) (r.close (ofGrammar g) i).frames := by
  obtain ⟨hnil, follow, hmem, -⟩ := of_mem_closes hi
  cases h.passed hscript _ hmem with
  | whole hleft => exact absurd hleft hne
  | @inside x done rest hx hbuilds hrest htaken hdone =>
    obtain ⟨below, rfl⟩ := hdone
    obtain rfl : rest = [] := by simpa [hnil] using hrest
    obtain ⟨hbelow, hgrows⟩ := h.split
    rw [List.append_nil] at hbuilds
    rw [← htaken] at hbelow hgrows
    have hwrap := Grows.made hbuilds hgrows .nil
    rw [List.append_nil, ← reverse_wrap, ← hx] at hwrap
    refine ⟨x, done, below, rfl, hbuilds, ?_⟩
    simp only [Reading.close, List.splitAt_eq]
    exact .cons (standsFor_phrase hx) rfl hwrap hbelow

/-- A token gives a leaf if it has a text. -/
theorem Rooted.take {r : Reading} {p : Place} {l : Lexeme} (h : Rooted g xs r.frames)
    (hl : p.Has (ofGrammar g) l) :
    Rooted g (.token l.token :: xs) (r.take (ofGrammar g) p l).frames := by
  refine .cons (standsFor_token l.token) rfl ?_ h
  have htext := hl.hasText
  simp only [Place.take]
  split
  · next hempty =>
    rw [List.isEmpty_iff.1 hempty] at htext
    exact .blank htext .nil
  · next hne => exact .leaf (mt List.isEmpty_iff.2 hne) htext .nil

/-- The whole is closed over the script alone. -/
theorem Rooted.eq_script (hscript : .phrase .script ∈ (Numbering.ofGrammar g).phrases)
    {r : Reading} {token : Nat} (h : Rooted g xs r.frames)
    (hi : i ∈ ((ofGrammar g).step (r.state (ofGrammar g)) token).closes)
    (hleft : i.left = (ofGrammar g).wholeItem.left) : xs = [.phrase .script] := by
  obtain ⟨hnil, follow, hmem, -⟩ := of_mem_closes hi
  cases h.passed hscript _ hmem with
  | inside hx =>
    have hsize : (ofGrammar g).wholeItem.left = (Numbering.ofGrammar g).phrases.length :=
      size_productions g
    rw [hleft, hsize, List.getElem?_length] at hx
    cases hx
  | @whole rest _ hbuilds hrest =>
    obtain rfl : rest = [] := by simpa [hnil] using hrest
    rw [List.append_nil] at hbuilds
    simpa using congrArg List.reverse hbuilds

/-- Every step of a reading leaves trees that grow from the symbols that were passed. -/
theorem kept_grown (hscript : .phrase .script ∈ (Numbering.ofGrammar g).phrases) :
    Kept (ofGrammar g) fun _ r => r.Grown g where
  close h hi hne := by
    obtain ⟨xs, hrooted⟩ := h
    obtain ⟨x, _, below, -, -, hclosed⟩ := hrooted.close hscript hi hne
    exact ⟨x :: below, hclosed⟩
  take h hl := by
    obtain ⟨xs, hrooted⟩ := h
    exact ⟨_, hrooted.take hl⟩
  skip h _ _ := h
  join _ h _ _ := h

/-- Where the whole is closed the trees of a reading grow from the script. -/
theorem isScript_of_finished (hscript : .phrase .script ∈ (Numbering.ofGrammar g).phrases)
    {t : Tree} (h : Finished (ofGrammar g) (fun _ r => r.Grown g) t) : t.IsScript g := by
  obtain ⟨p, r, l, ⟨xs, hrooted⟩, -, ⟨i, hi, hleft⟩, rfl⟩ := h
  obtain rfl := hrooted.eq_script hscript hi hleft
  refine ⟨_, _, rfl, ?_⟩
  cases hframes : r.frames with
  | nil =>
    rw [hframes] at hrooted
    cases hrooted
  | cons f frames =>
    rw [hframes] at hrooted
    cases hrooted with
    | cons _ _ htrees h =>
      cases h
      exact htrees

/-- The tree of every script follows the grammar. -/
theorem isScript_of_parse? {source : List Char} {t : Tree} (h : parse? source = some t) :
    t.IsScript grammar :=
  isScript_of_finished script_mem_phrases
    ((kept_grown script_mem_phrases).of_finish? ⟨[], .nil⟩ h)

end ScriptDeps.Source
