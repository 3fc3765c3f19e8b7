import ScriptDeps.Proofs.Source.Related
import ScriptDeps.Source.Progress

/-!
# Readings that differ in their first gap

Nothing that is done while a script is read looks at gaps, and offsets are only compared with each
other. Two readings that differ in what stands in front of the first token, and by a constant in all
offsets, thus go on to differ in nothing else. Main statement: `finish?_alike`.
-/

namespace ScriptDeps.Source

/-- How two readings of a script differ: in what stands at the start of the gap before the first
token, and in how much is counted as read on top of the offset. -/
structure Change where
  /-- The start of the first gap in the first reading. -/
  lead : List Char
  /-- The start of the first gap in the second reading. -/
  lead' : List Char
  /-- What the offsets of the first reading lack. -/
  missing : Nat
  /-- What the offsets of the second reading lack. -/
  missing' : Nat

variable {c : Change}

/-- Trees that differ only in the first gap. -/
inductive Tree.Alike (c : Change) : Tree → Tree → Prop
  | leaf (gap text : List Char) : Alike c (.leaf (c.lead ++ gap) text) (.leaf (c.lead' ++ gap) text)
  | node (p : Phrase) {t t' : Tree} (ts : List Tree) (h : Alike c t t') :
    Alike c (.node p (t :: ts)) (.node p (t' :: ts))

/-- Frames of one state that differ only in the first gap of their trees. -/
def Frame.Alike (c : Change) (f f' : Frame) : Prop :=
  f.state = f'.state ∧ LastRel (Tree.Alike c) f.trees f'.trees

/-- Readings that differ only in the first gap. -/
structure Reading.Alike (c : Change) (r r' : Reading) : Prop where
  /-- Only the first frames differ. -/
  frames : LastRel (Frame.Alike c) r.frames r'.frames
  /-- The weights are the same. -/
  weight : r.weight = r'.weight

/-- Places that differ only in their offsets. -/
structure Place.Alike (c : Change) (p p' : Place) : Prop where
  /-- The offsets differ by a constant. -/
  offset : p.offset + c.missing = p'.offset + c.missing'
  /-- The gaps are the same. -/
  gap : p.gap = p'.gap
  /-- The same is open. -/
  nesting : p.nesting = p'.nesting
  /-- The same text follows. -/
  rest : p.rest = p'.rest

/-- Versions that differ only in first gaps and offsets. -/
structure Version.Alike (c : Change) (v v' : Version) : Prop where
  /-- The readings differ only in the first gap. -/
  readings : List.Forall₂ (Reading.Alike c) v.readings v'.readings
  /-- The places differ only in their offsets. -/
  place : v.place.Alike c v'.place
  /-- The status is the same. -/
  status : v.status = v'.status

/-- Whole readings that differ only in the first gap. -/
def FinishedAlike (c : Change) : Option (Int × Tree) → Option (Int × Tree) → Prop :=
  Option.Rel fun a b => a.1 = b.1 ∧ a.2.Alike c b.2

/-- Progress that differs only in first gaps and offsets. -/
structure Progress.Alike (c : Change) (p p' : Progress) : Prop where
  /-- The versions differ only in first gaps and offsets. -/
  versions : List.Forall₂ (Version.Alike c) p.versions p'.versions
  /-- The whole readings differ only in the first gap. -/
  finished : FinishedAlike c p.finished p'.finished

/-! ## Readings -/

/-- The trees of some frames and a last one. -/
theorem treesOf_append (u : List Frame) (f : Frame) :
    Frame.treesOf (u ++ [f]) = (u.map (·.trees)).flatten ++ f.trees := by
  induction u with
  | nil => simp [Frame.treesOf]
  | cons g u ih =>
    cases u with
    | nil => simp [Frame.treesOf]
    | cons h u =>
      rw [List.cons_append, List.cons_append, Frame.treesOf, ← List.cons_append, ih]
      simp

/-- The trees of frames of which only the last differ. -/
theorem treesOf_alike {fs fs' : List Frame} (h : LastRel (Frame.Alike c) fs fs') :
    LastRel (Tree.Alike c) (Frame.treesOf fs) (Frame.treesOf fs') := by
  obtain ⟨u, f, f', rfl, rfl, _, htrees⟩ := h
  rw [treesOf_append, treesOf_append]
  exact htrees.append_left _

/-- A phrase over trees of which only the first differ. -/
theorem node_alike (p : Phrase) {ts ts' : List Tree} (h : LastRel (Tree.Alike c) ts ts')
    (rest : List Tree) :
    (Tree.node p (ts.reverse ++ rest)).Alike c (.node p (ts'.reverse ++ rest)) := by
  obtain ⟨u, t, t', rfl, rfl, ht⟩ := h
  simp only [List.reverse_append, List.reverse_singleton, List.cons_append]
  exact .node p _ ht

/-- What is made of trees of which only the first differ. -/
theorem wrap_alike (symbol : Option Symbol) {ts ts' : List Tree}
    (h : LastRel (Tree.Alike c) ts ts') :
    LastRel (Tree.Alike c) (Reading.wrap symbol ts) (Reading.wrap symbol ts') := by
  have hnode : ∀ p, LastRel (Tree.Alike c) [Tree.node p ts.reverse] [Tree.node p ts'.reverse] := by
    intro p
    have hp := node_alike p h []
    rw [List.append_nil, List.append_nil] at hp
    exact ⟨[], _, _, rfl, rfl, hp⟩
  unfold Reading.wrap
  split
  · split
    · exact h
    · exact hnode _
  · exact h

namespace Reading.Alike

variable {r r' s s' : Reading}

/-- Readings that are alike have gone through the same states. -/
theorem states_eq (h : r.Alike c r') : r.frames.map (·.state) = r'.frames.map (·.state) :=
  h.frames.map_eq fun hf => hf.1

/-- Readings that are alike stand in the same state. -/
theorem state_eq (h : r.Alike c r') (a : Automaton) : r.state a = r'.state a := by
  have hhead := congrArg List.head? h.states_eq
  rw [List.head?_map, List.head?_map] at hhead
  unfold Reading.state
  cases hr : r.frames.head? <;> cases hr' : r'.frames.head? <;> simp_all

/-- Whether two readings went the same way does not depend on the first gap. -/
theorem sameWay_eq (hr : r.Alike c r') (hs : s.Alike c s') : r.sameWay s = r'.sameWay s' := by
  rw [sameWay, sameWay, hr.states_eq, hs.states_eq]

/-- A phrase is closed in the same way. -/
theorem close (h : r.Alike c r') (a : Automaton) (i : Automaton.Item) :
    (r.close a i).Alike c (r'.close a i) := by
  have hweight : r.weight + i.weight = r'.weight + i.weight := by rw [h.weight]
  rcases h.frames.cut i.taken with ⟨htake, hdrop⟩ | ⟨htake, hdrop, hdrop'⟩
  · have hbefore : Reading.Alike c ⟨r.frames.drop i.taken, r.weight + i.weight⟩
        ⟨r'.frames.drop i.taken, r'.weight + i.weight⟩ := ⟨hdrop, hweight⟩
    have hstate := hbefore.state_eq a
    refine ⟨?_, hweight⟩
    simp only [Reading.close, List.splitAt_eq, htake, hstate]
    exact hdrop.cons _
  · refine ⟨?_, hweight⟩
    simp only [Reading.close, List.splitAt_eq, hdrop, hdrop']
    exact ⟨[], _, _, rfl, rfl, by simp [Reading.state], wrap_alike _ (treesOf_alike htake)⟩

/-- A frame is put in front in the same way. -/
theorem push (h : r.Alike c r') (f : Frame) :
    Reading.Alike c { r with frames := f :: r.frames } { r' with frames := f :: r'.frames } :=
  ⟨h.frames.cons f, h.weight⟩

/-- A reading is put to others in the same way. -/
theorem addTo (h : r.Alike c r') {rs rs' : List Reading}
    (hrs : List.Forall₂ (Reading.Alike c) rs rs') :
    List.Forall₂ (Reading.Alike c) (r.addTo rs) (r'.addTo rs') := by
  induction hrs with
  | nil => exact .cons h .nil
  | @cons s s' rs rs' hs hrs ih =>
    rw [Reading.addTo, Reading.addTo, h.sameWay_eq hs, hs.weight, h.weight]
    split
    · split
      · exact .cons h hrs
      · exact .cons hs hrs
    · exact .cons hs ih

end Reading.Alike

/-! ## Versions -/

namespace Place.Alike

variable {p p' q q' : Place}

/-- Whether two places are the same does not depend on the constant in their offsets. -/
theorem same_eq (hp : p.Alike c p') (hq : q.Alike c q') : p.same q = p'.same q' := by
  have hoffset : (p.offset == q.offset) = (p'.offset == q'.offset) := by
    have h₁ := hp.offset
    have h₂ := hq.offset
    rw [Bool.eq_iff_iff, beq_iff_eq, beq_iff_eq]
    omega
  rw [Place.same, Place.same, hoffset, hp.gap, hq.gap, hp.nesting, hq.nesting]

/-- The same is read at places that are alike. -/
theorem lexeme?_eq (h : p.Alike c p') (e : Expected) : p.lexeme? e = p'.lexeme? e := by
  rw [Place.lexeme?, Place.lexeme?, h.nesting, h.rest]

/-- Places that are alike are so behind what stands between two tokens. -/
theorem skip (h : p.Alike c p') (l : Lexeme) : (p.skip l).Alike c (p'.skip l) := by
  have hoffset := h.offset
  refine ⟨?_, ?_, rfl, rfl⟩
  · simp only [Place.skip]
    omega
  · simp only [Place.skip, h.gap]

/-- Places that are alike are so behind a token, whose tree is the same. -/
theorem take (h : p.Alike c p') (l : Lexeme) :
    (p.take l).1.Alike c (p'.take l).1 ∧ (p.take l).2 = (p'.take l).2 := by
  have hoffset : p.offset + l.gap.length + l.text.length + c.missing =
      p'.offset + l.gap.length + l.text.length + c.missing' := by
    have h₁ := h.offset
    omega
  unfold Place.take
  rw [h.gap]
  split
  · exact ⟨⟨hoffset, rfl, rfl, rfl⟩, rfl⟩
  · exact ⟨⟨hoffset, rfl, rfl, rfl⟩, rfl⟩

end Place.Alike

/-- Weights of readings that differ only in the first gap. -/
private theorem map_weight_eq {rs rs' : List Reading}
    (h : List.Forall₂ (Reading.Alike c) rs rs') : rs.map (·.weight) = rs'.map (·.weight) := by
  induction h with
  | nil => rfl
  | cons hr _ ih => rw [List.map_cons, List.map_cons, hr.weight, ih]

namespace Version.Alike

variable {v v' w w' : Version}

/-- Versions that are alike stand in the same state. -/
theorem state_eq (h : v.Alike c v') (a : Automaton) : v.state a = v'.state a := by
  have hreadings := h.readings
  unfold Version.state
  cases hv : v.readings with
  | nil =>
    rw [hv, List.forall₂_nil_left_iff] at hreadings
    rw [hreadings]
  | cons r rs =>
    rw [hv, List.forall₂_cons_left_iff] at hreadings
    obtain ⟨r', rs', hr, _, hv'⟩ := hreadings
    rw [hv']
    exact hr.state_eq a

/-- Versions that are alike have the same weight. -/
theorem weight_eq (h : v.Alike c v') : v.weight = v'.weight := by
  have hweights := map_weight_eq h.readings
  have hfold : ∀ (rs : List Reading) (top : Int),
      rs.foldl (fun top r => max top r.weight) top = (rs.map (·.weight)).foldl max top :=
    fun rs top => by rw [List.foldl_map]
  rw [Version.weight, Version.weight, hfold, hfold, hweights]

/-- Versions that are alike meet the same versions. -/
theorem meets_eq (hv : v.Alike c v') (hw : w.Alike c w') (a : Automaton) :
    v.meets a w = v'.meets a w' := by
  rw [Version.meets, Version.meets, hv.status, hw.status, hv.place.same_eq hw.place, hv.state_eq,
    hw.state_eq]

/-- Versions that are alike stay so when they are joined with versions that are alike. -/
theorem join (hv : v.Alike c v') (hw : w.Alike c w') : (v.join w).Alike c (v'.join w') := by
  refine ⟨?_, hv.place, hv.status⟩
  exact List.rel_foldl (fun _ _ hrs _ _ hr => hr.addTo hrs) hv.readings hw.readings

/-- Versions that are alike stay so when they go on in the same way. -/
theorem setStatus (h : v.Alike c v') (status : Status) :
    Version.Alike c { v with status } { v' with status } :=
  ⟨h.readings, h.place, rfl⟩

/-- Versions that are alike stay so behind a token. -/
theorem take (h : v.Alike c v') (a : Automaton) (l : Lexeme) :
    (v.take a l).Alike c (v'.take a l) := by
  obtain ⟨hplace, htrees⟩ := h.place.take l
  refine ⟨?_, hplace, h.status⟩
  simp only [Version.take, h.state_eq, htrees]
  exact List.rel_map (fun _ _ hr => hr.push _) h.readings

/-- A version finds its place in the same way. -/
theorem rank (hv : v.Alike c v') (a : Automaton) {ws ws' : List Version}
    (h : List.Forall₂ (Version.Alike c) ws ws') :
    List.Forall₂ (Version.Alike c) (v.rank a ws) (v'.rank a ws') := by
  induction h generalizing v v' with
  | nil => exact .cons hv .nil
  | @cons w w' ws ws' hw hws ih =>
    rw [Version.rank, Version.rank, hw.status, hv.status, hw.weight_eq, hv.weight_eq,
      hw.meets_eq hv]
    split
    · exact .cons hw hws
    split
    · exact ih hv
    split
    · exact .cons hw (ih hv)
    split
    · split
      · exact .cons (hw.join hv) hws
      · exact .cons hw (ih hv)
    split
    · split
      · exact .cons hw hws
      · exact .cons hw (ih hv)
    split
    · exact ih hv
    · exact .cons hv (ih hw)

end Version.Alike

/-! ## Progress -/

namespace Progress.Alike

variable {p p' : Progress} {a : Automaton} {i : Nat}

/-- There is no version at a place, or there are versions that differ only in first gaps. -/
theorem getElem?_cases (h : p.Alike c p') (i : Nat) :
    (p.versions[i]? = none ∧ p'.versions[i]? = none) ∨
      ∃ v v', p.versions[i]? = some v ∧ p'.versions[i]? = some v' ∧ v.Alike c v' := by
  have hi := getElem?_forall₂ h.versions i
  cases hv : p.versions[i]? <;> cases hv' : p'.versions[i]? <;> rw [hv, hv'] at hi <;> cases hi
  · exact Or.inl ⟨rfl, rfl⟩
  · next v v' hvv' => exact Or.inr ⟨v, v', rfl, rfl, hvv'⟩

/-- The same change of the version of the same number. -/
theorem modify (h : p.Alike c p') {f f' : Version → Version}
    (hf : ∀ v v', v.Alike c v' → (f v).Alike c (f' v')) (i : Nat) :
    (p.modify i f).Alike c (p'.modify i f') :=
  ⟨modify_forall₂ h.versions hf i, h.finished⟩

/-- The same mark on the version of the same number. -/
theorem mark (h : p.Alike c p') (i : Nat) (status : Status) :
    (p.mark i status).Alike c (p'.mark i status) :=
  h.modify (fun _ _ hv => hv.setStatus status) i

/-- Versions that are alike are added, or joined, at the same number. -/
theorem add (h : p.Alike c p') {v v' : Version} (hv : v.Alike c v') :
    (p.add a i v).Alike c (p'.add a i v') := by
  have hfind := find?_zipIdx_forall₂ h.versions
    (q := fun x => decide (x.2 ≠ i ∧ x.1.meets a v = true))
    (r := fun x => decide (x.2 ≠ i ∧ x.1.meets a v' = true))
    (fun w w' j hw => by simp only [hw.meets_eq hv]) 0
  unfold Progress.add
  split
  · next w j hw =>
    rw [hw, Option.map_some, eq_comm, Option.map_eq_some_iff] at hfind
    obtain ⟨⟨w', j'⟩, hw', rfl⟩ := hfind
    rw [hw']
    exact h.modify (fun _ _ hu => hu.join hv) _
  · next hw =>
    rw [hw, Option.map_none, eq_comm, Option.map_eq_none_iff] at hfind
    rw [hfind, h.versions.length_eq]
    split
    · exact h
    · exact ⟨List.rel_append h.versions (.cons hv .nil), h.finished⟩

private theorem grow (h : p.Alike c p') {v v' : Version} (hv : v.Alike c v')
    (item : Automaton.Item) :
    (v.readings.foldl (fun p r => p.add a i { v with readings := [r.close a item] }) p).Alike c
      (v'.readings.foldl (fun p r => p.add a i { v' with readings := [r.close a item] }) p') := by
  refine List.rel_foldl (P := Progress.Alike c) ?_ h hv.readings
  intro q q' hq r r' hr
  exact hq.add ⟨.cons (hr.close a item) .nil, hv.place, hv.status⟩

/-- Phrases are closed in the same way. -/
theorem close (h : p.Alike c p') {v v' : Version} (hv : v.Alike c v')
    (items : List Automaton.Item) :
    (p.close a i v items).1.Alike c (p'.close a i v' items).1 ∧
      (p.close a i v items).2 = (p'.close a i v' items).2 := by
  unfold Progress.close
  generalize (none : Option Nat) = last
  induction items generalizing p p' last with
  | nil => exact ⟨h, rfl⟩
  | cons item items ih =>
    have hgrown := h.grow (a := a) (i := i) hv item
    simp only [List.foldl_cons, h.versions.length_eq, hgrown.versions.length_eq]
    exact ih hgrown _

/-- The same version takes the place of the same other one. -/
theorem replace (h : p.Alike c p') (i j : Nat) : (p.replace i j).Alike c (p'.replace i j) := by
  unfold Progress.replace
  rcases h.getElem?_cases j with ⟨hv, hv'⟩ | ⟨v, v', hv, hv', hvv'⟩
  · rw [hv, hv']
    exact h
  · rw [hv, hv']
    exact ⟨eraseIdx_forall₂ (set_forall₂ h.versions hvv' i) j, h.finished⟩

/-- Versions that are alike are complete together and give trees that are alike. -/
theorem complete (h : p.Alike c p') {v v' : Version} (hv : v.Alike c v') (l : Lexeme) :
    (p.complete v l).Alike c (p'.complete v' l) := by
  refine ⟨h.versions, ?_⟩
  refine List.rel_foldl (P := FinishedAlike c) ?_ h.finished hv.readings
  intro best best' hbest r r' hr
  have htree : (Progress.treeOf (v.place.gap ++ l.gap) r).Alike c
      (Progress.treeOf (v'.place.gap ++ l.gap) r') := by
    rw [hv.place.gap]
    exact node_alike .script (treesOf_alike hr.frames) _
  have hsome : FinishedAlike c
      (some (r.weight, Progress.treeOf (v.place.gap ++ l.gap) r))
      (some (r'.weight, Progress.treeOf (v'.place.gap ++ l.gap) r')) := .some ⟨hr.weight, htree⟩
  cases hbest with
  | none => exact hsome
  | @some b b' hb =>
    simp only [Option.all_some, hb.1, hr.weight] at hsome ⊢
    split
    · exact hsome
    · exact .some hb

/-- A version settles at a lexeme in the same way. -/
theorem settle (h : p.Alike c p') (fuel : Nat) (l : Lexeme) :
    (p.settle a i fuel l).Alike c (p'.settle a i fuel l) := by
  induction fuel generalizing p p' l with
  | zero => exact h.mark i .stuck
  | succ fuel ih =>
    unfold Progress.settle
    rcases h.getElem?_cases i with ⟨hv, hv'⟩ | ⟨v, v', hv, hv', hvv'⟩
    · rw [hv, hv']
      exact h
    · simp only [hv, hv', hvv'.state_eq]
      generalize a.step (v'.state a) (a.numbering.tokenNumber l.token) = step
      obtain ⟨hclosed, hlast⟩ := h.close (a := a) (i := i) hvv' step.closes
      generalize p.close a i v step.closes = closed at hclosed hlast
      generalize p'.close a i v' step.closes = closed' at hclosed hlast
      obtain ⟨q, last⟩ := closed
      obtain ⟨q', last'⟩ := closed'
      obtain rfl : last = last' := hlast
      simp only at hclosed ⊢
      split
      · exact (h.complete hvv' l).mark i .done
      split
      · exact hclosed.modify (fun _ _ hw => hw.take a l) i
      · cases last with
        | some j => exact ih (hclosed.replace i j) l
        | none =>
          cases l.asName? with
          | none => exact hclosed.mark i _
          | some l =>
            simp only
            split
            · exact hclosed.mark i .done
            split
            · exact ih hclosed l
            · exact hclosed.mark i .stuck

/-- A lexeme is read in the same way. -/
theorem advance (h : p.Alike c p') : (p.advance a i).Alike c (p'.advance a i) := by
  unfold Progress.advance
  rcases h.getElem?_cases i with ⟨hv, hv'⟩ | ⟨v, v', hv, hv', hvv'⟩
  · rw [hv, hv']
    exact h
  · have hlimit : Progress.roundLimit v = Progress.roundLimit v' := by
      have hlengths : v.readings.foldl (fun most r => max most r.frames.length) 0 =
          v'.readings.foldl (fun most r => max most r.frames.length) 0 := by
        refine List.rel_foldl (P := Eq) ?_ rfl hvv'.readings
        rintro most _ rfl r r' hr
        simp only [hr.frames.length_eq]
      rw [Progress.roundLimit, Progress.roundLimit, hlengths]
    simp only [hv, hv', hvv'.state_eq, hvv'.place.lexeme?_eq, hlimit]
    have hskip : ∀ l, (p.modify i fun v => { v with place := v.place.skip l }).Alike c
        (p'.modify i fun v => { v with place := v.place.skip l }) := by
      intro l
      refine h.modify ?_ i
      intro w w' hw
      exact ⟨hw.readings, hw.place.skip l, hw.status⟩
    cases v'.place.lexeme? (a.expected (v'.state a)) with
    | none => exact h.mark i .stuck
    | some l =>
      simp only
      split
      · exact hskip l
      · exact hskip l
      · exact h.settle _ l

/-- The best versions are kept in the same way. -/
theorem prune (h : p.Alike c p') : (p.prune a).Alike c (p'.prune a) := by
  refine ⟨?_, h.finished⟩
  have hfilter : List.Forall₂ (Version.Alike c) (p.versions.filter (·.status ≠ .done))
      (p'.versions.filter (·.status ≠ .done)) := by
    refine List.rel_filter ?_ h.versions
    intro v v' hv
    simp [hv.status]
  exact List.forall₂_take _ (List.rel_foldl (fun _ _ hws _ _ hv => hv.rank a hws) .nil hfilter)

end Progress.Alike

/-! ## Runs -/

/-- What one sweep over the versions gives. -/
def SweepAlike (c : Change) (a : Automaton) (i furthest : Nat) (p : Progress)
    (r : Progress × Nat) : Prop :=
  ∀ furthest' p', p.Alike c p' → furthest + c.missing = furthest' + c.missing' →
    ∃ r', Progress.sweep i furthest' p' a = some r' ∧ r.1.Alike c r'.1 ∧
      r.2 + c.missing = r'.2 + c.missing'

/-- A sweep over alike versions leaves alike versions. -/
theorem sweep_alike (a : Automaton) {i furthest : Nat} {p : Progress} {r : Progress × Nat}
    (h : Progress.sweep i furthest p a = some r) : SweepAlike c a i furthest p r := by
  refine Progress.sweep.partial_correctness a (motive := SweepAlike c a) ?_ i furthest p r h
  intro sweep ih i furthest p r hr furthest' p' hp hf
  rw [Progress.sweep]
  rcases hp.getElem?_cases i with ⟨hv, hv'⟩ | ⟨v, v', hv, hv', hvv'⟩
  · rw [hv] at hr
    obtain rfl := Option.some.inj hr
    rw [hv']
    exact ⟨(p', furthest'), rfl, hp, hf⟩
  · have hadvanced := hp.advance (a := a) (i := i)
    simp only [hv] at hr
    simp only [hv', ← hvv'.status]
    split at hr
    · next hactive =>
      rw [if_pos hactive]
      rcases hadvanced.getElem?_cases i with ⟨hw, hw'⟩ | ⟨w, w', hw, hw', hww'⟩
      · rw [hw] at hr
        obtain rfl := Option.some.inj hr
        rw [hw']
        exact ⟨(Progress.advance a i p', furthest'), rfl, hadvanced, hf⟩
      · simp only [hw] at hr
        simp only [hw']
        have hoffset := hww'.place.offset
        have hpassed : (furthest' < w'.place.offset ∨ i ≠ 0 ∧ w'.place.offset = furthest') ↔
            (furthest < w.place.offset ∨ i ≠ 0 ∧ w.place.offset = furthest) := by
          omega
        simp only [hpassed]
        split at hr
        · next hpast =>
          rw [if_pos hpast]
          exact ih _ _ _ _ hr _ _ hadvanced hoffset
        · next hpast =>
          rw [if_neg hpast]
          exact ih _ _ _ _ hr _ _ hadvanced hf
    · next hactive =>
      rw [if_neg hactive]
      exact ih _ _ _ _ hr _ _ hp hf

/-- What reading to the end gives. -/
def FinishAlike (c : Change) (a : Automaton) (furthest : Nat) (p : Progress) (t : Tree) : Prop :=
  ∀ furthest' p', p.Alike c p' → furthest + c.missing = furthest' + c.missing' →
    ∃ t', Progress.finish? furthest' p' a = some t' ∧ t.Alike c t'

/-- Readings that differ only in the first gap give trees that differ only in the first gap. -/
theorem finish?_alike (a : Automaton) {furthest : Nat} {p : Progress} {t : Tree}
    (h : Progress.finish? furthest p a = some t) : FinishAlike c a furthest p t := by
  refine Progress.finish?.partial_correctness a (motive := FinishAlike c a) ?_ furthest p t h
  intro finish? ih furthest p t ht furthest' p' hp hf
  obtain ⟨⟨q, o⟩, hq, ht⟩ := Option.bind_eq_some_iff.1 ht
  obtain ⟨⟨q', o'⟩, hq', hqq', hoffset⟩ := sweep_alike a hq furthest' p' hp hf
  have hpruned := hqq'.prune (a := a)
  have hstuck := all_forall₂ hpruned.versions (q := fun v => decide (v.status = .stuck))
    (r := fun v => decide (v.status = .stuck)) fun v v' hv => by rw [hv.status]
  rw [Progress.finish?, hq']
  simp only [Option.bind_eq_bind, Option.bind_some, ← hstuck]
  simp only at ht
  split at ht
  · next hall =>
    rw [if_pos hall]
    have hfinished := hpruned.finished
    obtain ⟨best, hbest, rfl⟩ := Option.map_eq_some_iff.1 ht
    rw [hbest] at hfinished
    cases hbest' : (Progress.prune a q').finished <;> rw [hbest'] at hfinished <;> cases hfinished
    next best' htree => exact ⟨best'.2, rfl, htree.2⟩
  · next hall =>
    rw [if_neg hall]
    exact ih _ _ _ ht _ _ hpruned hoffset

end ScriptDeps.Source
