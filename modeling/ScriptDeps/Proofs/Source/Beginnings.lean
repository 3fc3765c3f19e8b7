import Mathlib.Data.List.Basic
import ScriptDeps.Source.Automaton

/-!
# What phrases begin with

The automaton holds sets of tokens, which say what can begin a phrase and what can follow a phrase
that begins a larger one. Here both are relations over the grammar, and the sets are shown to hold
no token without such a reason. A token that no form leads to is thus never expected at the start of
a script. Main statements: `sound_firsts`, `sound_leads`, and for the two states at the start and
behind the first token `tokens_start` and `tokens_after_start`.
-/

namespace ScriptDeps.Source

open Automaton

/-- A phrase or series of a grammar is made of some symbols. -/
inductive Makes (g : Grammar) : Symbol → List Symbol → Prop
  | form {p : Phrase} {forms : List Form} {f : Form} {parts : List Symbol} (hp : (p, forms) ∈ g)
      (hf : f ∈ forms) (hparts : parts ∈ f.rule.expand) : Makes g (.phrase p) parts
  | one {p : Phrase} {forms : List Form} {f : Form} {body : Rule} {parts : List Symbol}
      (hp : (p, forms) ∈ g) (hf : f ∈ forms) (hbody : body ∈ f.rule.bodies)
      (hparts : parts ∈ body.expand) : Makes g (.series body) parts
  | more {p : Phrase} {forms : List Form} {f : Form} {body : Rule} {parts : List Symbol}
      (hp : (p, forms) ∈ g) (hf : f ∈ forms) (hbody : body ∈ f.rule.bodies)
      (hparts : parts ∈ body.expand) : Makes g (.series body) (.series body :: parts)

/-- A token can begin a symbol. -/
inductive Begins (g : Grammar) : Symbol → Token → Prop
  | token (t : Token) : Begins g (.token t) t
  | made {p x : Symbol} {parts : List Symbol} {t : Token} (h : Makes g p (x :: parts))
      (hx : Begins g x t) : Begins g p t

/-- A token can follow a symbol that stands first in a larger phrase. -/
inductive Trails (g : Grammar) : Symbol → Token → Prop
  | inside {p x y : Symbol} {parts : List Symbol} {t : Token} (h : Makes g p (x :: y :: parts))
      (hy : Begins g y t) : Trails g x t
  | outside {p x : Symbol} {t : Token} (h : Makes g p [x]) (hp : Trails g p t) : Trails g x t

namespace Automaton

/-! ## Numbers and what they stand for -/

namespace Numbering

/-- The part that stands for a symbol. -/
def partOf (n : Numbering) : Symbol → Part
  | .token t => .token (n.tokens.idxOf t)
  | p => .phrase (n.phrases.idxOf p)

/-- A part stands for a symbol. -/
def Stands (n : Numbering) : Part → Symbol → Prop
  | .token i, x => ∀ t, n.tokens[i]? = some t → x = .token t
  | .phrase k, x => ∀ y, n.phrases[k]? = some y → x = y

end Numbering

private theorem eq_of_getElem?_idxOf {α : Type} [BEq α] [LawfulBEq α] {a b : α} {l : List α}
    (h : l[l.idxOf a]? = some b) : a = b := by
  obtain ⟨hlt, hb⟩ := List.getElem?_eq_some_iff.1 h
  rw [← hb, List.getElem_idxOf]

/-- A symbol has a number of its own. -/
def Numbering.Knows (n : Numbering) : Symbol → Prop
  | .token t => t ∈ n.tokens
  | p => p ∈ n.phrases

/-- No other symbol has the part of a known one. -/
theorem partOf_inj {n : Numbering} {x y : Symbol} (hx : n.Knows x) (h : n.partOf x = n.partOf y) :
    x = y := by
  cases x <;> cases y <;> simp only [Numbering.partOf, Part.token.injEq, Part.phrase.injEq,
    reduceCtorEq] at h
  · rw [List.idxOf_inj hx] at h
    rw [h]
  all_goals exact (List.idxOf_inj hx).1 h

/-- The part of a symbol stands for it. -/
theorem stands_partOf (n : Numbering) (x : Symbol) : n.Stands (n.partOf x) x := by
  cases x with
  | token t => exact fun u hu => congrArg Symbol.token (eq_of_getElem?_idxOf hu)
  | phrase p => exact fun y hy => eq_of_getElem?_idxOf hy
  | series body => exact fun y hy => eq_of_getElem?_idxOf hy

variable (g : Grammar)

/-- Every token of a rule is known. -/
theorem mem_tokens {p : Phrase} {forms : List Form} {f : Form} {t : Token} (hp : (p, forms) ∈ g)
    (hf : f ∈ forms) (ht : t ∈ f.rule.tokens) : t ∈ (Numbering.ofGrammar g).tokens := by
  simp only [Numbering.ofGrammar, List.mem_append, List.mem_eraseDups, List.mem_flatMap,
    List.mem_map]
  exact Or.inr ⟨f.rule, ⟨(p, forms), hp, f, hf, rfl⟩, ht⟩

/-- Every layout token is known. -/
theorem mem_tokens_of_mem_layoutTokens {t : Token} (ht : t ∈ layoutTokens) :
    t ∈ (Numbering.ofGrammar g).tokens :=
  List.mem_eraseDups.2 (List.mem_append_left _ ht)

/-- Every phrase with forms is known. -/
theorem mem_phrases {p : Phrase} {forms : List Form} (hp : (p, forms) ∈ g) :
    .phrase p ∈ (Numbering.ofGrammar g).phrases := by
  simp only [Numbering.ofGrammar, List.mem_append, List.mem_map]
  exact Or.inl ⟨(p, forms), hp, rfl⟩

private theorem makes_of_mem_formsOf {x : Symbol} {parts : List Symbol} {f : Form}
    (hx : x ∈ (Numbering.ofGrammar g).phrases) (h : (parts, f) ∈ formsOf g x) :
    Makes g x parts := by
  simp only [Numbering.ofGrammar, List.mem_append, List.mem_map, List.mem_eraseDups,
    List.mem_flatMap] at hx
  rcases hx with ⟨⟨p, forms⟩, hp, rfl⟩ | ⟨body, ⟨rule, ⟨⟨p, forms⟩, hp, f', hf', rfl⟩, hbody⟩, rfl⟩
  · simp only [formsOf, List.mem_flatMap, List.mem_map, Prod.mk.injEq] at h
    obtain ⟨f', hf', parts', hparts, rfl, rfl⟩ := h
    cases hlookup : g.lookup p with
    | none => simp [hlookup] at hf'
    | some forms' =>
      rw [hlookup, Option.getD_some] at hf'
      obtain ⟨before, after, rfl, _⟩ := List.lookup_eq_some_iff.1 hlookup
      exact .form (by simp) hf' hparts
  · simp only [formsOf, List.mem_flatMap, List.mem_cons, List.not_mem_nil, or_false,
      Prod.mk.injEq] at h
    obtain ⟨parts', hparts, ⟨rfl, _⟩ | ⟨rfl, _⟩⟩ := h
    · exact .one hp hf' hbody hparts
    · exact .more hp hf' hbody hparts

/-- Every phrase and series has its productions. -/
theorem size_productions :
    (Numbering.ofGrammar g).productions.size = (Numbering.ofGrammar g).phrases.length := by
  simp [Numbering.ofGrammar]

/-- Every production stands for symbols that make its phrase. -/
theorem makes_of_mem_productions {k : Nat} {ps : List Production} {p : Production}
    (hps : (Numbering.ofGrammar g).productions[k]? = some ps) (hp : p ∈ ps) :
    p.left = k ∧ ∃ x parts, (Numbering.ofGrammar g).phrases[k]? = some x ∧ Makes g x parts ∧
      p.parts = parts.map (Numbering.ofGrammar g).partOf := by
  have hproductions : (Numbering.ofGrammar g).productions =
      ((Numbering.ofGrammar g).phrases.zipIdx.map fun e =>
        ((formsOf g e.1).map fun q =>
          (⟨e.2, q.1.map (Numbering.ofGrammar g).partOf, q.2.level, q.2.side, q.2.weight⟩ :
            Production)).eraseDups).toArray := rfl
  rw [hproductions, List.getElem?_toArray, List.getElem?_map, List.getElem?_zipIdx] at hps
  obtain ⟨⟨x, left⟩, hx, rfl⟩ := Option.map_eq_some_iff.1 hps
  obtain ⟨y, hy, heq⟩ := Option.map_eq_some_iff.1 hx
  simp only [Nat.zero_add, Prod.mk.injEq] at heq
  obtain ⟨rfl, rfl⟩ := heq
  rw [List.mem_eraseDups, List.mem_map] at hp
  obtain ⟨⟨parts, f⟩, hf, rfl⟩ := hp
  exact ⟨rfl, y, parts, hy, makes_of_mem_formsOf g (List.mem_of_getElem? hy) hf, rfl⟩

/-! ## Sets of tokens -/

/-- A union of sets holds what one of them holds. -/
theorem testBit_foldl_union {α : Type} (f : α → TokenSet) (l : List α) (set : TokenSet) (i : Nat) :
    (l.foldl (fun set a => set ||| f a) set).testBit i =
      (set.testBit i || l.any fun a => (f a).testBit i) := by
  induction l generalizing set with
  | nil => simp
  | cons a l ih => simp [ih, Bool.or_assoc]

/-- A set of one token holds this token. -/
theorem testBit_single (i j : Nat) : (TokenSet.single i).testBit j = decide (i = j) := by
  rw [TokenSet.single, Nat.one_shiftLeft, Nat.testBit_two_pow]

/-- Sets that hold for each phrase only tokens that can begin it. -/
def SoundFirsts (firsts : Array TokenSet) : Prop :=
  ∀ k i t, (firsts.getD k 0).testBit i = true → (Numbering.ofGrammar g).tokens[i]? = some t →
    ∃ x, (Numbering.ofGrammar g).phrases[k]? = some x ∧ Begins g x t

variable {g}

/-- The first tokens of a part begin the symbol that it stands for. -/
theorem begins_of_testBit_firsts {firsts : Array TokenSet} (h : SoundFirsts g firsts) {x : Symbol}
    {i : Nat} {t : Token}
    (hi : (((Numbering.ofGrammar g).partOf x).firsts firsts).testBit i = true)
    (ht : (Numbering.ofGrammar g).tokens[i]? = some t) : Begins g x t := by
  have hstands := stands_partOf (Numbering.ofGrammar g) x
  cases hpart : (Numbering.ofGrammar g).partOf x with
  | token j =>
    rw [hpart, Part.firsts, testBit_single, decide_eq_true_iff] at hi
    rw [hpart] at hstands
    subst hi
    rw [hstands t ht]
    exact .token t
  | phrase k =>
    rw [hpart, Part.firsts] at hi
    rw [hpart] at hstands
    obtain ⟨y, hy, hbegins⟩ := h k i t hi ht
    rw [hstands y hy]
    exact hbegins

private theorem soundFirsts_widen {firsts : Array TokenSet} (h : SoundFirsts g firsts) :
    SoundFirsts g ((Numbering.ofGrammar g).widen firsts) := by
  intro k i t hi ht
  have hget : ((Numbering.ofGrammar g).widen firsts)[k]? =
      ((Numbering.ofGrammar g).productions[k]?).map fun ps => ps.foldl (fun set p =>
        set ||| (p.parts.head?.elim 0 (·.firsts firsts))) 0 := by
    rw [Numbering.widen, Array.getElem?_map]
  rw [Array.getD_eq_getD_getElem?, hget] at hi
  cases hps : (Numbering.ofGrammar g).productions[k]? with
  | none => simp [hps] at hi
  | some ps =>
    rw [hps, Option.map_some, Option.getD_some, testBit_foldl_union, Nat.zero_testBit,
      Bool.false_or, List.any_eq_true] at hi
    obtain ⟨p, hp, hbit⟩ := hi
    obtain ⟨_, x, parts, hx, hmakes, hparts⟩ := makes_of_mem_productions g hps hp
    refine ⟨x, hx, ?_⟩
    rw [hparts] at hbit
    cases parts with
    | nil => simp at hbit
    | cons y parts => exact .made hmakes (begins_of_testBit_firsts h hbit ht)

private theorem soundFirsts_settleFirsts (fuel : Nat) {firsts : Array TokenSet}
    (h : SoundFirsts g firsts) :
    SoundFirsts g ((Numbering.ofGrammar g).settleFirsts fuel firsts) := by
  induction fuel generalizing firsts with
  | zero => exact h
  | succ fuel ih =>
    rw [Numbering.settleFirsts]
    split
    · exact h
    · exact ih (soundFirsts_widen h)

/-- The sets of first tokens hold only tokens that can begin the phrase. -/
theorem sound_firsts : SoundFirsts g (Numbering.ofGrammar g).firsts := by
  apply soundFirsts_settleFirsts
  intro k i t hi _
  rw [Array.getD_eq_getD_getElem?, Array.getElem?_map] at hi
  cases hk : (Numbering.ofGrammar g).productions[k]? <;> simp [hk] at hi

/-! ## Leads -/

/-- A lead of a phrase that holds only tokens that can follow it where it begins a larger one. -/
def SoundLead (g : Grammar) (phrase : Nat) (lead : Lead) : Prop :=
  ∀ i t x, lead.follow.testBit i = true → (Numbering.ofGrammar g).tokens[i]? = some t →
    (Numbering.ofGrammar g).phrases[phrase]? = some x → Trails g x t

private theorem soundLead_default (phrase : Nat) : SoundLead g phrase default := by
  intro i t x hi
  exact absurd hi (by simp [show (default : Lead).follow = 0 from rfl])

private theorem soundLead_join {phrase : Nat} {a b : Lead} (ha : SoundLead g phrase a)
    (hb : SoundLead g phrase b) : SoundLead g phrase (a.join b) := by
  intro i t x hi ht hx
  rw [Lead.join, Nat.testBit_or, Bool.or_eq_true] at hi
  rcases hi with hi | hi
  · exact ha i t x hi ht hx
  · exact hb i t x hi ht hx

private theorem soundLead_leadsInto {firsts : Array TokenSet} (hfirsts : SoundFirsts g firsts)
    {phrase : Nat} {lead : Lead} (hlead : SoundLead g phrase lead) :
    ∀ e ∈ (Numbering.ofGrammar g).leadsInto firsts phrase lead, SoundLead g e.1 e.2 := by
  rintro ⟨q, lead'⟩ he
  rw [Numbering.leadsInto, List.mem_filterMap] at he
  obtain ⟨p, hp, he⟩ := he
  rw [Array.getD_eq_getD_getElem?] at hp
  cases hps : (Numbering.ofGrammar g).productions[phrase]? with
  | none => simp [hps] at hp
  | some ps =>
    rw [hps, Option.getD_some] at hp
    obtain ⟨_, y, parts, hy, hmakes, hparts⟩ := makes_of_mem_productions g hps hp
    intro i t x hi ht hx
    match parts, hparts with
    | [], hparts => simp [hparts] at he
    | [z], hparts =>
      have hstands := stands_partOf (Numbering.ofGrammar g) z
      rw [hparts, List.map_singleton] at he
      cases hz : (Numbering.ofGrammar g).partOf z with
      | token j => simp [hz] at he
      | phrase k =>
        rw [hz] at he hstands
        obtain ⟨rfl, rfl⟩ := by simpa using he
        obtain rfl := hstands x hx
        exact .outside hmakes (hlead i t y hi ht hy)
    | z :: w :: parts, hparts =>
      have hstands := stands_partOf (Numbering.ofGrammar g) z
      rw [hparts, List.map_cons, List.map_cons] at he
      cases hz : (Numbering.ofGrammar g).partOf z with
      | token j => simp [hz] at he
      | phrase k =>
        rw [hz] at he hstands
        obtain ⟨rfl, rfl⟩ := by simpa using he
        obtain rfl := hstands x hx
        exact .inside hmakes (begins_of_testBit_firsts hfirsts hi ht)

private theorem soundLead_settleLeads {firsts : Array TokenSet} (hfirsts : SoundFirsts g firsts)
    (fuel : Nat) {pending : List (Nat × Lead)} {leads : Array Lead}
    (hpending : ∀ e ∈ pending, SoundLead g e.1 e.2)
    (hleads : ∀ q, SoundLead g q (leads.getD q default)) (q : Nat) :
    SoundLead g q
      (((Numbering.ofGrammar g).settleLeads firsts fuel pending leads).getD q default) := by
  induction fuel generalizing pending leads with
  | zero => exact hleads q
  | succ fuel ih =>
    match pending with
    | [] => exact hleads q
    | (phrase, lead) :: pending =>
      have hlead : SoundLead g phrase lead := hpending _ List.mem_cons_self
      have hrest : ∀ e ∈ pending, SoundLead g e.1 e.2 := fun e he =>
        hpending e (List.mem_cons_of_mem _ he)
      rw [Numbering.settleLeads]
      split
      · exact ih hrest hleads
      · apply ih
        · intro e he
          rcases List.mem_append.1 he with he | he
          · exact soundLead_leadsInto hfirsts hlead e he
          · exact hrest e he
        · intro r
          have hjoined := soundLead_join (hleads phrase) hlead
          rw [Array.getD_eq_getD_getElem?, Array.getElem?_setIfInBounds]
          by_cases hr : phrase = r
          · subst hr
            by_cases hlt : phrase < leads.size
            · rw [if_pos rfl, if_pos hlt, Option.getD_some]
              exact hjoined
            · rw [if_pos rfl, if_neg hlt, Option.getD_none]
              exact soundLead_default phrase
          · rw [if_neg hr, ← Array.getD_eq_getD_getElem?]
            exact hleads r

/-- The leads of a phrase hold only tokens that can follow the phrases that begin it. -/
theorem sound_leads (phrase q : Nat) :
    SoundLead g q (((Numbering.ofGrammar g).leads (Numbering.ofGrammar g).firsts phrase).getD q
      default) := by
  refine soundLead_settleLeads sound_firsts _ ?_ ?_ q
  · intro e he
    obtain rfl := List.mem_singleton.1 he
    exact soundLead_default phrase
  · intro r
    rw [Array.getD_eq_getD_getElem?, Array.getElem?_map]
    cases (Numbering.ofGrammar g).productions[r]? <;> exact soundLead_default r

/-! ## The first two states -/

private theorem mem_insert {i j : Item} {items : List Item} (h : j ∈ Item.insert i items) :
    j = i ∨ j ∈ items := by
  induction items with
  | nil => simpa [Item.insert] using h
  | cons k items ih =>
    rw [Item.insert] at h
    split at h
    · simpa using h
    · exact Or.inr h
    · rcases List.mem_cons.1 h with rfl | h
      · exact Or.inr List.mem_cons_self
      · rcases ih h with rfl | h
        · exact Or.inl rfl
        · exact Or.inr (List.mem_cons_of_mem _ h)

/-- Items that each come from a production that begins with the part of their number. -/
def SoundBeginnings (n : Numbering) (number : Part → Option Nat) (found : Array (List Item)) :
    Prop :=
  ∀ k, ∀ item ∈ found.getD k [], ∃ ps ∈ n.productions.toList, ∃ p ∈ ps,
    p.parts.head?.bind number = some k ∧ item = (Item.ofProduction p).next

/-- Each item behind a first part comes from a production that begins with this part. -/
theorem sound_beginnings (n : Numbering) (size : Nat) (number : Part → Option Nat) :
    SoundBeginnings n number (beginnings n size number) := by
  rw [beginnings, ← Array.foldl_toList]
  refine List.foldlRecOn _ _ ?_ ?_
  · intro k item h
    rw [Array.getD_eq_getD_getElem?, Array.getElem?_replicate] at h
    split at h <;> simp at h
  · intro found hfound ps hps
    refine List.foldlRecOn _ _ hfound ?_
    intro found hfound p hp k item h
    cases hnumber : p.parts.head?.bind number with
    | none =>
      rw [hnumber] at h
      exact hfound k item h
    | some i =>
      rw [hnumber] at h
      simp only [Array.getD_eq_getD_getElem?, Array.getElem?_modify] at h
      by_cases hik : i = k
      · subst hik
        cases hi : found[i]? with
        | none => simp [hi] at h
        | some items =>
          rw [if_pos rfl, hi, Option.map_some, Option.getD_some] at h
          rcases mem_insert h with rfl | h
          · exact ⟨ps, hps, p, hp, hnumber, rfl⟩
          · apply hfound i item
            rw [Array.getD_eq_getD_getElem?, hi]
            exact h
      · rw [if_neg hik, ← Array.getD_eq_getD_getElem?] at h
        exact hfound k item h

/-- The tokens of a set are those whose numbers it holds. -/
theorem mem_tokensIn {n : Numbering} {set : TokenSet} {t : Token} (h : t ∈ n.tokensIn set) :
    ∃ i, n.tokens[i]? = some t ∧ set.testBit i = true := by
  rw [Numbering.tokensIn, List.mem_filterMap] at h
  obtain ⟨⟨u, i⟩, hu, h⟩ := h
  obtain ⟨hbit, rfl⟩ := by simpa using h
  exact ⟨i, List.mem_zipIdx_iff_getElem?.1 hu, hbit⟩

private theorem eq_of_testBit_single {n : Numbering} {t u : Token} {i : Nat}
    (hi : (TokenSet.single (n.tokenNumber u)).testBit i = true) (ht : n.tokens[i]? = some t) :
    t = u := by
  rw [testBit_single, decide_eq_true_iff] at hi
  subst hi
  exact (eq_of_getElem?_idxOf ht).symm

/-- A script can begin only with what begins the phrase. -/
theorem begins_of_testBit_wholeItem {follow : TokenSet} {i : Nat} {t : Token}
    (hi : ((ofGrammar g).tokensOf (ofGrammar g).wholeItem follow).testBit i = true)
    (ht : (Numbering.ofGrammar g).tokens[i]? = some t) : Begins g (.phrase .script) t := by
  have hfirsts : (ofGrammar g).tokensOf (ofGrammar g).wholeItem follow =
    ((Numbering.ofGrammar g).partOf (.phrase .script)).firsts (Numbering.ofGrammar g).firsts := rfl
  rw [hfirsts] at hi
  exact begins_of_testBit_firsts sound_firsts hi ht

/-- At the start only the end of the script is expected, or what a script can begin with. -/
theorem tokens_start {i : Nat} {t : Token}
    (hi : ((ofGrammar g).tokens (ofGrammar g).start).testBit i = true)
    (ht : (Numbering.ofGrammar g).tokens[i]? = some t) :
    t = .finish ∨ Begins g (.phrase .script) t := by
  have htokens : (ofGrammar g).tokens (ofGrammar g).start =
      0 ||| TokenSet.single ((Numbering.ofGrammar g).tokenNumber .finish) |||
        (ofGrammar g).tokensOf (ofGrammar g).wholeItem
          (TokenSet.single ((Numbering.ofGrammar g).tokenNumber .finish)) := rfl
  rw [htokens, Nat.testBit_or, Nat.testBit_or, Nat.zero_testBit, Bool.false_or,
    Bool.or_eq_true] at hi
  rcases hi with hi | hi
  · exact Or.inl (eq_of_testBit_single hi ht)
  · exact Or.inr (begins_of_testBit_wholeItem hi ht)

private theorem of_mem_beginnings {size k : Nat} {number : Part → Option Nat} {part : Part}
    (hnumber : ∀ x, number x = some k → x = part) {item : Item}
    (h : item ∈ (beginnings (Numbering.ofGrammar g) size number).getD k []) :
    item.taken = 1 ∧ ∃ x y parts, (Numbering.ofGrammar g).phrases[item.left]? = some x ∧
      Makes g x (y :: parts) ∧ (Numbering.ofGrammar g).partOf y = part ∧
        item.rest = parts.map (Numbering.ofGrammar g).partOf := by
  obtain ⟨ps, hps, p, hp, hhead, rfl⟩ := sound_beginnings _ size number k item h
  obtain ⟨j, hj⟩ := List.mem_iff_getElem?.1 hps
  rw [Array.getElem?_toList] at hj
  obtain ⟨hleft, x, parts, hx, hmakes, hparts⟩ := makes_of_mem_productions g hj hp
  cases parts with
  | nil => simp [hparts] at hhead
  | cons y parts =>
    rw [hparts, List.map_cons, List.head?_cons, Option.bind_some] at hhead
    refine ⟨rfl, x, y, parts, ?_, hmakes, hnumber _ hhead, ?_⟩
    · rw [← hx, ← hleft]
      rfl
    · simp [Item.next, Item.ofProduction, hparts]

/-- The items behind a part come from forms that begin with it. -/
theorem of_mem_behind {part : Part} {item : Item} (h : item ∈ (ofGrammar g).behind part) :
    item.taken = 1 ∧ ∃ x y parts, (Numbering.ofGrammar g).phrases[item.left]? = some x ∧
      Makes g x (y :: parts) ∧ (Numbering.ofGrammar g).partOf y = part ∧
        item.rest = parts.map (Numbering.ofGrammar g).partOf := by
  cases part with
  | token i => exact of_mem_beginnings (fun x hx => by cases x <;> simp_all) h
  | phrase k => exact of_mem_beginnings (fun x hx => by cases x <;> simp_all) h

/-- The items behind a symbol come from forms that begin with it. -/
theorem makes_of_mem_behind {u : Symbol} (hu : (Numbering.ofGrammar g).Knows u) {item : Item}
    (h : item ∈ (ofGrammar g).behind ((Numbering.ofGrammar g).partOf u)) :
    ∃ x parts, (Numbering.ofGrammar g).phrases[item.left]? = some x ∧ Makes g x (u :: parts) ∧
      item.rest = parts.map (Numbering.ofGrammar g).partOf := by
  obtain ⟨-, x, y, parts, hx, hmakes, hy, hrest⟩ := of_mem_behind h
  obtain rfl := partOf_inj hu hy.symm
  exact ⟨x, parts, hx, hmakes, hrest⟩

private theorem soundLead_getD_leads (p q : Nat) :
    SoundLead g q (((ofGrammar g).leads.getD p #[]).getD q default) := by
  have hleads : (ofGrammar g).leads = (Array.range (Numbering.ofGrammar g).productions.size).map
      ((Numbering.ofGrammar g).leads (Numbering.ofGrammar g).firsts) := rfl
  have hp : (ofGrammar g).leads.getD p #[] = (((Array.range
      (Numbering.ofGrammar g).productions.size)[p]?).map
        ((Numbering.ofGrammar g).leads (Numbering.ofGrammar g).firsts)).getD #[] := by
    rw [hleads, Array.getD_eq_getD_getElem?, Array.getElem?_map]
  rw [hp]
  cases (Array.range (Numbering.ofGrammar g).productions.size)[p]? with
  | none => exact soundLead_default q
  | some k => exact sound_leads k q

/-- What can follow a phrase at the start of a script: the end of the script, or a token that can
follow the phrase where it begins a larger one. -/
private theorem trails_of_testBit_followOf {x : Symbol} {q i : Nat} {t : Token}
    (hi : ((ofGrammar g).followOf ((ofGrammar g).phrasesIn (ofGrammar g).start) q).testBit i = true)
    (ht : (Numbering.ofGrammar g).tokens[i]? = some t)
    (hx : (Numbering.ofGrammar g).phrases[q]? = some x) : t = .finish ∨ Trails g x t := by
  have hfollow : (ofGrammar g).followOf ((ofGrammar g).phrasesIn (ofGrammar g).start) q =
      0 ||| (((ofGrammar g).leads.getD ((Numbering.ofGrammar g).phraseNumber .script) #[]).getD q
        default).before (TokenSet.single ((Numbering.ofGrammar g).tokenNumber .finish)) := rfl
  rw [hfollow, Nat.testBit_or, Nat.zero_testBit, Bool.false_or, Lead.before] at hi
  have hlead := soundLead_getD_leads (g := g) ((Numbering.ofGrammar g).phraseNumber .script) q
  split at hi
  · rw [Nat.testBit_or, Bool.or_eq_true] at hi
    rcases hi with hi | hi
    · exact Or.inr (hlead i t x hi ht hx)
    · exact Or.inl (eq_of_testBit_single hi ht)
  · exact Or.inr (hlead i t x hi ht hx)

/-- Behind the first token of a script only the end of the script is expected, or what can follow
the token where it begins a larger phrase. -/
theorem tokens_after_start {u : Token} (hu : u ∈ (Numbering.ofGrammar g).tokens) {i : Nat}
    {t : Token}
    (hi : ((ofGrammar g).tokens ((ofGrammar g).after (ofGrammar g).start
      (.token ((Numbering.ofGrammar g).tokenNumber u)))).testBit i = true)
    (ht : (Numbering.ofGrammar g).tokens[i]? = some t) :
    t = .finish ∨ Trails g (.token u) t := by
  rw [tokens, testBit_foldl_union, Nat.zero_testBit, Bool.false_or, List.any_eq_true] at hi
  obtain ⟨⟨item, follow⟩, hmem, hi⟩ := hi
  rw [after, List.mem_append] at hmem
  rcases hmem with hmem | hmem
  · obtain ⟨begun, hbegun, hmem⟩ := List.mem_filterMap.1 hmem
    have hknows : (Numbering.ofGrammar g).Knows (.token u) := hu
    obtain ⟨x, parts, hx, hmakes, hrest⟩ := makes_of_mem_behind hknows hbegun
    obtain ⟨_, rfl, rfl⟩ := by simpa using hmem
    rw [tokensOf, hrest] at hi
    cases parts with
    | nil =>
      rcases trails_of_testBit_followOf hi ht hx with rfl | htrails
      · exact Or.inl rfl
      · exact Or.inr (.outside hmakes htrails)
    | cons y parts => exact Or.inr (.inside hmakes (begins_of_testBit_firsts sound_firsts hi ht))
  · simp [start, emptyItem, wholeItem, Item.expects] at hmem

end Automaton

end ScriptDeps.Source
