import Mathlib.Data.List.Forall2
import ScriptDeps.Proofs.Import.Steps
import ScriptDeps.Proofs.Source.Nodes

/-!
# Import statements

What the grammar allows import statements to be made of, and what is recorded of one: a record for
each name of a statement that imports modules, one record for each other statement. Main statement:
`Import.recordedAs_ofStatement`, for the trees of all import statements that follow the grammar.
-/

namespace ScriptDeps

open Source

/-! ## What is recorded -/

/-- A tree in an import statement names a path, maybe with another name for it. -/
inductive Source.Tree.Names : Tree → Tree → Option Tree → Prop
  | plain (parts : List Tree) : Names (.node .dottedName parts) (.node .dottedName parts) none
  | renamed (parts : List Tree) (gap gap' text : List Char) :
    Names (.node .renamed [.node .dottedName parts, .leaf gap "as".toList, .leaf gap' text])
      (.node .dottedName parts) (some (.leaf gap' text))

/-- The items of a record: the star alone, or the imported names in order without what they are
renamed to. -/
inductive Import.Items : List Tree → List String → Prop
  | star (parts : List Tree) : Items [.node .star parts] ["*"]
  | names {names : List Tree} {items : List String}
    (h : List.Forall₂ (fun t item => ∃ path rename, t.Names path rename ∧ item = textOf path)
      names items) : Items names items

/-- The record of one name at its place in a statement that imports modules. -/
def Import.OfName (statement : Tree) : Position × Tree → Import → Prop
  | (q, t), i => ∃ path rename, t.Names path rename ∧
      i = ⟨textOf path, [], .module, q.line, q.column, textOf statement, .unknown,
        rename.map textOf⟩

/-- A tree is a phrase and not a token. -/
def Source.Tree.isPhrase : Tree → Bool
  | .leaf _ _ => false
  | .node _ _ => true

/-- The records of an import statement whose gap begins at a point: one for each name if modules are
imported, else exactly one. -/
inductive Import.RecordedAs : Position × Tree → List Import → Prop
  | modules {p : Position} {parts : List Tree} {imports : List Import}
    (h : List.Forall₂ (OfName (.node .importStatement parts))
      ((Tree.located p parts).filter (·.2.isPhrase)) imports) :
    RecordedAs (p, .node .importStatement parts) imports
  | names {p : Position} {parts names : List Tree} {target : Tree} {items : List String}
    (hparts : phrases parts = target :: names)
    (htarget : target.isOf .relativePath ∨ target.isOf .dottedName) (hitems : Items names items) :
    RecordedAs (p, .node .fromStatement parts)
      [⟨target.modulePath, items, .names, (p.ofTree (.node .fromStatement parts)).line,
        (p.ofTree (.node .fromStatement parts)).column, textOf (.node .fromStatement parts),
        .unknown, none⟩]
  | future {p : Position} {parts : List Tree} {items : List String}
    (hitems : Items (phrases parts) items) :
    RecordedAs (p, .node .futureStatement parts)
      [⟨"__future__", items, .future, (p.ofTree (.node .futureStatement parts)).line,
        (p.ofTree (.node .futureStatement parts)).column, textOf (.node .futureStatement parts),
        .unknown, none⟩]

/-! ## What import statements are made of -/

/-- The parts of the phrases of imports. -/
def partsOf : Phrase → List (List Symbol)
  | .importStatement => [[.token (.word "import"), .phrase .importList]]
  | .fromStatement =>
    [Phrase.relativePath, .dottedName].flatMap fun path =>
      [[.phrase .star], [.phrase .importList],
        [.token (.sign "("), .phrase .importList, .token (.sign ")")]].map
        ([.token (.word "from"), .phrase path, .token (.word "import")] ++ ·)
  | .futureStatement =>
    [[.phrase .importList], [.token (.sign "("), .phrase .importList, .token (.sign ")")]].map
      ([.token (.word "from"), .token (.word "__future__"), .token (.word "import")] ++ ·)
  | .renamed => [[.phrase .dottedName, .token (.word "as"), .token .name]]
  | .dottedName =>
    [[.token .name], [.token .name, .series (.both (.token (.sign ".")) (.token .name))]]
  | _ => []

/-- A phrase of imports has one of its parts. -/
def keepsParts : Symbol → List Symbol → Bool
  | .phrase p, parts => (partsOf p).isEmpty || (partsOf p).contains parts
  | _, _ => true

private theorem allForms_keepsParts : grammar.allForms keepsParts = true := by
  decide +kernel

/-- A phrase that has only a few forms has one of them. -/
theorem mem_partsOf {p : Phrase} {parts : List Symbol} (h : Makes grammar (.phrase p) parts)
    (hp : partsOf p ≠ []) : parts ∈ partsOf p := by
  simpa [keepsParts, hp] using test_of_makes allForms_keepsParts h

/-- Tokens, some phrases, and series of them. -/
def madeOf (allowed : List Phrase) : Symbol → Bool
  | .token _ => true
  | .phrase p => allowed.contains p
  | .series body => body.expand.all fun parts => parts.all fun
    | .token _ => true
    | .phrase p => allowed.contains p
    | .series _ => false

private theorem keepsRoots_importList :
    grammar.allForms (keepsRoots (madeOf [.importList, .dottedName, .renamed])) = true := by
  decide +kernel

/-- The phrases within import statements. -/
def importPhrases : List Phrase :=
  [.importList, .dottedName, .renamed, .star, .dots, .relativePath]

private theorem keepsAll_importPhrases :
    grammar.allForms (keepsAll (madeOf importPhrases)) = true := by
  decide +kernel

private theorem madeOf_importing :
    importing.all (fun p => !(partsOf p).isEmpty &&
      (partsOf p).all fun parts => parts.all (madeOf importPhrases)) = true := by
  decide

/-! ## Names -/

variable {p : Position} {t : Tree} {ts parts : List Tree} {xs ys : List Symbol}

/-- The phrases in a row are the trees in it that are no leaves. -/
theorem mem_phrases_iff : t ∈ phrases ts ↔ t ∈ ts ∧ t.isPhrase = true :=
  List.mem_filter

/-- The phrases of two rows stand in a row. -/
theorem phrases_append (ts us : List Tree) : phrases (ts ++ us) = phrases ts ++ phrases us :=
  List.filter_append ..

/-- A token is no phrase. -/
theorem exists_phrases_eq {token : Token} (h : Grows grammar (.token token :: xs) ts) :
    ∃ us, phrases ts = phrases us ∧ Grows grammar xs us := by
  rcases h.of_token with ⟨-, h⟩ | ⟨gap, text, us, rfl, -, -, h⟩
  · exact ⟨ts, rfl, h⟩
  · exact ⟨us, rfl, h⟩

private theorem text_leaf_ne_nil {gap text : List Char} (h : text ≠ []) :
    (Tree.leaf gap text).text ≠ [] := by
  rwa [Tree.text_leaf]

/-- A dotted name has a text. -/
theorem text_dottedName_ne_nil (hmakes : Makes grammar (.phrase .dottedName) ys)
    (h : Grows grammar ys parts) : (Source.Tree.node .dottedName parts).text ≠ [] := by
  have hys : ys = [.token .name] ∨
      ys = [.token .name, .series (.both (.token (.sign ".")) (.token .name))] := by
    simpa [partsOf] using mem_partsOf hmakes (by simp [partsOf])
  have hname : ∃ zs, ys = .token .name :: zs := by
    rcases hys with rfl | rfl <;> exact ⟨_, rfl⟩
  obtain ⟨zs, rfl⟩ := hname
  rcases h.of_token with ⟨hempty, -⟩ | ⟨gap, text, us, rfl, hne, -, -⟩
  · exact absurd rfl hempty.ne_nil
  · exact Tree.text_node_ne_nil (text_leaf_ne_nil hne)

/-- A renamed name is a dotted name, a word and a name. -/
theorem names_renamed (hmakes : Makes grammar (.phrase .renamed) ys) (h : Grows grammar ys parts) :
    (∃ path rename, (Source.Tree.node .renamed parts).Names path rename) ∧
      (Source.Tree.node .renamed parts).text ≠ [] := by
  have hys : ys = [.phrase .dottedName, .token (.word "as"), .token .name] := by
    simpa [partsOf] using mem_partsOf hmakes (by simp [partsOf])
  subst hys
  obtain ⟨zs, inner, us, rfl, hdotted, hinner, hus⟩ := h.of_phrase rfl
  refine ⟨?_, Tree.text_node_ne_nil (text_dottedName_ne_nil hdotted hinner)⟩
  rcases hus.of_token with ⟨hempty, -⟩ | ⟨gap, text, vs, rfl, -, htext, hvs⟩
  · exact absurd rfl hempty.2.ne_nil
  rcases hvs.of_token with ⟨hempty, -⟩ | ⟨gap', text', ws, rfl, -, -, hws⟩
  · exact absurd rfl hempty.ne_nil
  obtain rfl := hws.eq_nil
  obtain rfl := htext.1
  exact ⟨_, _, .renamed inner gap gap' text'⟩

/-- Each phrase of a list of names is a name and has a text. -/
theorem names_of_importList (h : Grows grammar [.phrase .importList] ts) :
    ∀ t ∈ phrases ts, (∃ path rename, t.Names path rename) ∧ t.text ≠ [] := by
  intro t ht
  obtain ⟨ht, hphrase⟩ := mem_phrases_iff.1 ht
  cases t with
  | leaf gap text => cases hphrase
  | node phrase parts =>
    obtain ⟨hallowed, htransparent, ys, hbuilds, hgrows⟩ :=
      h.of_mem keepsRoots_importList (by simp [madeOf]) ht
    have hcases : phrase = .importList ∨ phrase = .dottedName ∨ phrase = .renamed := by
      simpa [madeOf] using hallowed
    rcases hcases with rfl | rfl | rfl
    · cases htransparent
    · cases hbuilds with
      | made hmakes => exact ⟨⟨_, _, .plain parts⟩, text_dottedName_ne_nil hmakes hgrows⟩
    · cases hbuilds with
      | made hmakes => exact names_renamed hmakes hgrows

/-- What a name in an import statement says. -/
theorem Source.Tree.Names.importedName_eq {path : Tree} {rename : Option Tree}
    (h : t.Names path rename) : t.importedName = (textOf path, rename.map textOf) := by
  cases h <;> rfl

/-- The items of names are the names themselves. -/
theorem Import.items_importedNames {names : List Tree}
    (h : ∀ t ∈ names, ∃ path rename, t.Names path rename) :
    Items names (Source.Tree.importedNames names) := by
  have hstar : names.any (Tree.isOf .star) = false := by
    rw [List.any_eq_false]
    intro t ht
    obtain ⟨path, rename, hnames⟩ := h t ht
    cases hnames <;> exact Bool.false_ne_true
  rw [Source.Tree.importedNames, hstar, if_neg Bool.false_ne_true]
  refine .names (List.forall₂_map_right_iff.2 (List.forall₂_same.2 fun t ht => ?_))
  obtain ⟨path, rename, hnames⟩ := h t ht
  exact ⟨path, rename, hnames, congrArg Prod.fst hnames.importedName_eq⟩

/-! ## Records in order -/

/-- The point where an import stands. -/
def Import.position (i : Import) : Position := ⟨i.line, i.column⟩

/-- Records whose points ascend, none in front of a point or at or behind another. -/
structure Import.Between (p q : Position) (imports : List Import) : Prop where
  /-- The points ascend. -/
  ascending : imports.Pairwise fun i j => i.position < j.position
  /-- The points are between the two. -/
  bounds : ∀ i ∈ imports, p ≤ i.position ∧ i.position < q

namespace Import.Between

variable {q r : Position} {is js : List Import}

/-- Where there is no import, none stands outside. -/
theorem nil (p q : Position) : Between p q [] := ⟨.nil, nofun⟩

/-- A single import, from the first position on and in front of the second one. -/
theorem single {i : Import} (hp : p ≤ i.position) (hq : i.position < q) : Between p q [i] :=
  ⟨List.pairwise_singleton _ i, by simpa using ⟨hp, hq⟩⟩

/-- Imports between three positions in order are in order themselves. -/
theorem append (his : Between p q is) (hjs : Between q r js) (hpq : p ≤ q) (hqr : q ≤ r) :
    Between p r (is ++ js) where
  ascending := List.pairwise_append.2 ⟨his.ascending, hjs.ascending, fun i hi j hj =>
    (his.bounds i hi).2.trans_le (hjs.bounds j hj).1⟩
  bounds := List.forall_mem_append.2
    ⟨fun i hi => ⟨(his.bounds i hi).1, (his.bounds i hi).2.trans_le hqr⟩,
      fun j hj => ⟨hpq.trans (hjs.bounds j hj).1, (hjs.bounds j hj).2⟩⟩

end Import.Between

/-! ## Statements -/

private theorem forall₂_ofPart? (statement : Tree) {xs : List (Position × Tree)}
    (h : ∀ x ∈ xs, x.2.isPhrase = true → ∃ path rename, x.2.Names path rename) :
    List.Forall₂ (Import.OfName statement) (xs.filter (·.2.isPhrase))
      (xs.filterMap (Import.ofPart? (textOf statement))) := by
  induction xs with
  | nil => exact .nil
  | cons x xs ih =>
    rw [List.forall_mem_cons] at h
    obtain ⟨q, t⟩ := x
    cases t with
    | leaf gap text => exact ih h.2
    | node phrase parts =>
      obtain ⟨path, rename, hnames⟩ := h.1 rfl
      refine .cons ⟨path, rename, hnames, ?_⟩ (ih h.2)
      rw [hnames.importedName_eq]

private theorem mem_of_mem_located {x : Position × Tree} (h : x ∈ Tree.located p ts) :
    x.2 ∈ ts := by
  induction ts generalizing p with
  | nil => cases h
  | cons t ts ih =>
    rcases List.mem_cons.1 h with rfl | h
    · exact List.mem_cons_self
    · exact List.mem_cons_of_mem _ (ih h)

private theorem between_ofPart? (statement : Tree) (p : Position)
    (h : ∀ t ∈ phrases ts, t.text ≠ []) :
    Import.Between p (p.pastAll ts)
      ((Tree.located p ts).filterMap (Import.ofPart? (textOf statement))) := by
  induction ts generalizing p with
  | nil => exact .nil p p
  | cons t ts ih =>
    have hrest := ih (p.past t) fun u hu => h u (by
      cases t with
      | leaf gap text => exact hu
      | node phrase parts => exact List.mem_cons_of_mem _ hu)
    cases t with
    | leaf gap text =>
      have hnone := Import.Between.nil p (p.past (.leaf gap text))
      exact hnone.append hrest (p.le_past _) (Position.le_pastAll _ ts)
    | node phrase parts =>
      have htext := h (.node phrase parts) List.mem_cons_self
      have hone : Import.Between p (p.past (.node phrase parts))
          [⟨(Source.Tree.node phrase parts).importedName.1, [], .module,
            (p.ofTree (.node phrase parts)).line, (p.ofTree (.node phrase parts)).column,
            textOf statement, .unknown, (Source.Tree.node phrase parts).importedName.2⟩] :=
        .single (Position.le_advance _ _) (Tree.ofTree_lt_past p htext)
      exact hone.append hrest (p.le_past _) (Position.le_pastAll _ ts)

/-- The names of a statement with a list of names that may stand in parentheses. -/
private theorem names_of_list (hys : ys = [.phrase .importList] ∨
    ys = [.token (.sign "("), .phrase .importList, .token (.sign ")")])
    (h : Grows grammar ys ts) : ∀ t ∈ phrases ts, ∃ path rename, t.Names path rename := by
  rcases hys with rfl | rfl
  · exact fun t ht => (names_of_importList h t ht).1
  · obtain ⟨us, heq, hus⟩ := exists_phrases_eq h
    have hsplit : Grows grammar ([.phrase .importList] ++ [.token (.sign ")")]) us := hus
    obtain ⟨vs, ws, rfl, hvs, hws⟩ := hsplit.of_append
    obtain ⟨rest, hclose, hrest⟩ := exists_phrases_eq hws
    obtain rfl := hrest.eq_nil
    have hphrases : phrases ts = phrases vs := by
      rw [heq, phrases_append, hclose]
      exact List.append_nil _
    rw [hphrases]
    exact fun t ht => (names_of_importList hvs t ht).1

/-- The items of a statement: a star, or a list of names. -/
private theorem items_of_grows (hys : ys = [.phrase .star] ∨ ys = [.phrase .importList] ∨
    ys = [.token (.sign "("), .phrase .importList, .token (.sign ")")])
    (h : Grows grammar ys ts) : Import.Items (phrases ts) (Tree.importedNames (phrases ts)) := by
  rcases hys with rfl | hys
  · obtain ⟨zs, inner, us, rfl, -, -, hus⟩ := h.of_phrase rfl
    obtain rfl := hus.eq_nil
    exact .star inner
  · exact Import.items_importedNames (names_of_list hys h)

/-- A phrase that begins with a word has a text. -/
private theorem text_of_word {phrase : Phrase} {w : String}
    (h : Grows grammar (.token (.word w) :: xs) parts) :
    (Source.Tree.node phrase parts).text ≠ [] := by
  rcases h.of_token with ⟨hempty, -⟩ | ⟨gap, text, us, rfl, hne, -, -⟩
  · exact absurd rfl hempty.2.ne_nil
  · exact Tree.text_node_ne_nil (text_leaf_ne_nil hne)

/-- A record stands where its statement begins, which is not behind the statement. -/
private theorem between_statement {i : Import} (htext : t.text ≠ [])
    (hi : i.position = p.ofTree t) : Import.Between p (p.past t) [i] :=
  .single (hi ▸ Position.le_advance p t.gap) (hi ▸ Tree.ofTree_lt_past p htext)

namespace Import

private theorem recordedAs_modules (hmakes : Makes grammar (.phrase .importStatement) ys)
    (h : Grows grammar ys parts) (p : Position) :
    RecordedAs (p, .node .importStatement parts) (ofStatement (p, .node .importStatement parts)) ∧
      Between p (p.past (.node .importStatement parts))
        (ofStatement (p, .node .importStatement parts)) := by
  have hys : ys = [.token (.word "import"), .phrase .importList] := by
    simpa [partsOf] using mem_partsOf hmakes (by simp [partsOf])
  subst hys
  obtain ⟨us, heq, hus⟩ := exists_phrases_eq h
  have hnames := names_of_importList hus
  rw [← heq] at hnames
  rw [ofStatement, ofModules_eq]
  refine ⟨.modules (forall₂_ofPart? _ fun x hx hphrase => ?_), between_ofPart? _ p ?_⟩
  · exact (hnames x.2 (mem_phrases_iff.2 ⟨mem_of_mem_located hx, hphrase⟩)).1
  · exact fun t ht => (hnames t ht).2

private theorem recordedAs_names (hmakes : Makes grammar (.phrase .fromStatement) ys)
    (h : Grows grammar ys parts) (p : Position) :
    RecordedAs (p, .node .fromStatement parts) (ofStatement (p, .node .fromStatement parts)) ∧
      Between p (p.past (.node .fromStatement parts))
        (ofStatement (p, .node .fromStatement parts)) := by
  obtain ⟨path, hpath, zs, hzs, rfl⟩ : ∃ path, (path = Phrase.relativePath ∨ path = .dottedName) ∧
      ∃ zs, (zs = [.phrase .star] ∨ zs = [.phrase .importList] ∨
        zs = [.token (.sign "("), .phrase .importList, .token (.sign ")")]) ∧
        ys = [.token (.word "from"), .phrase path, .token (.word "import")] ++ zs := by
    have hmem := mem_partsOf hmakes (by simp [partsOf])
    simp only [partsOf, List.mem_flatMap, List.mem_map, List.mem_cons, List.not_mem_nil,
      or_false] at hmem
    obtain ⟨path, hpath, zs, hzs, rfl⟩ := hmem
    exact ⟨path, hpath, zs, hzs, rfl⟩
  have htransparent : path.isTransparent = false := by
    rcases hpath with rfl | rfl <;> rfl
  obtain ⟨us, hfrom, hus⟩ := exists_phrases_eq h
  obtain ⟨_, inner, vs, rfl, -, -, hvs⟩ := hus.of_phrase htransparent
  obtain ⟨ws, himport, hws⟩ := exists_phrases_eq hvs
  have hparts : phrases parts = .node path inner :: phrases ws := by
    rw [hfrom, ← himport]
    rfl
  have hrecords : ofStatement (p, .node .fromStatement parts) =
      [⟨(Source.Tree.node path inner).modulePath, Tree.importedNames (phrases ws), .names,
        (p.ofTree (.node .fromStatement parts)).line,
        (p.ofTree (.node .fromStatement parts)).column, textOf (.node .fromStatement parts),
        .unknown, none⟩] := by
    rw [ofStatement, ofNames, Tree.children, hparts]
  rw [hrecords]
  refine ⟨.names hparts ?_ (items_of_grows hzs hws), between_statement (text_of_word h) rfl⟩
  rcases hpath with rfl | rfl
  · exact .inl rfl
  · exact .inr rfl

private theorem recordedAs_future (hmakes : Makes grammar (.phrase .futureStatement) ys)
    (h : Grows grammar ys parts) (p : Position) :
    RecordedAs (p, .node .futureStatement parts) (ofStatement (p, .node .futureStatement parts)) ∧
      Between p (p.past (.node .futureStatement parts))
        (ofStatement (p, .node .futureStatement parts)) := by
  obtain ⟨zs, hzs, rfl⟩ : ∃ zs, (zs = [.phrase .importList] ∨
      zs = [.token (.sign "("), .phrase .importList, .token (.sign ")")]) ∧
      ys = [.token (.word "from"), .token (.word "__future__"), .token (.word "import")] ++ zs := by
    have hmem := mem_partsOf hmakes (by simp [partsOf])
    simp only [partsOf, List.mem_map, List.mem_cons, List.not_mem_nil, or_false] at hmem
    obtain ⟨zs, hzs, rfl⟩ := hmem
    exact ⟨zs, hzs, rfl⟩
  obtain ⟨us, hfrom, hus⟩ := exists_phrases_eq h
  obtain ⟨vs, hfuture, hvs⟩ := exists_phrases_eq hus
  obtain ⟨ws, himport, hws⟩ := exists_phrases_eq hvs
  have hparts : phrases parts = phrases ws := by rw [hfrom, hfuture, himport]
  refine ⟨.future ?_, between_statement (text_of_word h) rfl⟩
  rw [Tree.children, hparts]
  exact items_of_grows (.inr hzs) hws

/-- An import statement that follows the grammar has its records, in order. -/
theorem recordedAs_ofStatement {phrase : Phrase} (hphrase : phrase ∈ importing)
    (hbuilds : Builds grammar (.phrase phrase) ys) (h : Grows grammar ys parts) (p : Position) :
    RecordedAs (p, .node phrase parts) (ofStatement (p, .node phrase parts)) ∧
      Between p (p.past (.node phrase parts)) (ofStatement (p, .node phrase parts)) := by
  obtain hcases : phrase = .importStatement ∨ phrase = .fromStatement ∨
      phrase = .futureStatement := by simpa [importing] using hphrase
  rcases hcases with rfl | rfl | rfl <;> cases hbuilds with | made hmakes => ?_
  · exact recordedAs_modules hmakes h p
  · exact recordedAs_names hmakes h p
  · exact recordedAs_future hmakes h p

/-- No import statement stands in another one. -/
theorem not_isImporting_of_mem {phrase : Phrase} (hphrase : phrase ∈ importing)
    (hbuilds : Builds grammar (.phrase phrase) ys) (h : Grows grammar ys parts)
    {x : Position × Tree} (hx : x ∈ Tree.withinAll p parts) : x.2.isImporting = false := by
  have hmade := List.all_eq_true.1 madeOf_importing phrase hphrase
  rw [Bool.and_eq_true, Bool.not_eq_true', List.isEmpty_eq_false_iff] at hmade
  have hys : ∀ y ∈ ys, madeOf importPhrases y = true := by
    cases hbuilds with
    | empty => exact nofun
    | made hmakes =>
      exact List.all_eq_true.1 (List.all_eq_true.1 hmade.2 ys (mem_partsOf hmakes hmade.1))
  obtain ⟨q, t⟩ := x
  cases t with
  | leaf gap text => rfl
  | node inner ts =>
    have hinner := (h.of_mem_withinAll keepsAll_importPhrases hys hx).1
    have hapart : ∀ p ∈ importPhrases, (Source.Tree.node p ts).isImporting = false := by
      simp [importPhrases, Tree.isImporting, importing, Tree.isOf]
    exact hapart inner (List.contains_iff_mem.1 hinner)

end Import

end ScriptDeps
