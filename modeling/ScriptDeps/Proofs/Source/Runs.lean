import Mathlib.Data.List.Basic
import ScriptDeps.Source.Progress

/-!
# What all readings of a script keep

However many versions of a script go on side by side, and however they are joined, replaced and
ranked, each reading comes about in three ways only: from the start, by closing a phrase, by taking
a token. What these keep is thus true of every reading, also of the one whose tree is given in the
end. `Kept` lists what has to be shown of a property of readings and of the places where they stand.
Main statement: `Kept.of_finish?`.
-/

namespace ScriptDeps.Source

open Automaton

variable {a : Automaton} {P : Place → Reading → Prop}

/-- A lexeme is read at a place in some state, maybe as a name. -/
def Place.Has (a : Automaton) (p : Place) (l : Lexeme) : Prop :=
  ∃ s l', p.lexeme? (a.expected s) = some l' ∧ (l = l' ∨ l'.asName? = some l)

/-- A lexeme that is expected in a state can be read. -/
theorem Place.Has.of_lexeme? {p : Place} {s : State} {l : Lexeme}
    (h : p.lexeme? (a.expected s) = some l) : p.Has a l :=
  ⟨s, l, h, .inl rfl⟩

/-- A lexeme that has been read as a name is not read as one again. -/
theorem Lexeme.asName?_asName? {l l' : Lexeme} (h : l.asName? = some l') : l'.asName? = none := by
  unfold asName? at h
  split at h
  · split at h
    · cases h
    · cases h
      rfl
  · cases h

/-- A keyword that can be read and may be a name can be read as the name. -/
theorem Place.Has.asName {p : Place} {l l' : Lexeme} (h : p.Has a l)
    (hname : l.asName? = some l') : p.Has a l' := by
  obtain ⟨s, l₀, hl₀, rfl | hl⟩ := h
  · exact ⟨s, l, hl₀, .inr hname⟩
  · rw [Lexeme.asName?_asName? hl] at hname
    cases hname

/-- The reading with one more state on its way. -/
def Reading.push (r : Reading) (f : Frame) : Reading := { r with frames := f :: r.frames }

/-- The reading behind a token at a place. -/
def Reading.take (a : Automaton) (p : Place) (l : Lexeme) (r : Reading) : Reading :=
  r.push ⟨a.after (r.state a) (.token (a.numbering.tokenNumber l.token)), (p.take l).2⟩

/-- A property of places and readings that each step of a reading keeps. -/
structure Kept (a : Automaton) (P : Place → Reading → Prop) : Prop where
  /-- A phrase other than the whole is closed at some token. -/
  close : ∀ {p r i token}, P p r → i ∈ (a.step (r.state a) token).closes →
    i.left ≠ a.wholeItem.left → P p (r.close a i)
  /-- A token is taken. -/
  take : ∀ {p r l}, P p r → p.Has a l → P (p.take l).1 (r.take a p l)
  /-- What stands between two tokens is skipped. -/
  skip : ∀ {p r l}, P p r → p.Has a l → l.token = .comment ∨ l.token = .joint → P (p.skip l) r
  /-- Two readings that meet go on at the place of the first one. -/
  join : ∀ {p q r s}, P p r → P q s → p.same q = true → r.state a = s.state a → P p s

/-- Two properties that are kept are kept together. -/
theorem Kept.and {Q : Place → Reading → Prop} (hP : Kept a P) (hQ : Kept a Q) :
    Kept a fun p r => P p r ∧ Q p r where
  close h hi hne := ⟨hP.close h.1 hi hne, hQ.close h.2 hi hne⟩
  take h hl := ⟨hP.take h.1 hl, hQ.take h.2 hl⟩
  skip h hl htoken := ⟨hP.skip h.1 hl htoken, hQ.skip h.2 hl htoken⟩
  join h h' hsame hstate := ⟨hP.join h.1 h'.1 hsame hstate, hQ.join h.2 h'.2 hsame hstate⟩

/-- The tree of a reading that has a property where the whole is closed. -/
def Finished (a : Automaton) (P : Place → Reading → Prop) (t : Tree) : Prop :=
  ∃ p r l, P p r ∧ p.Has a l ∧
    (∃ i ∈ (a.step (r.state a) (a.numbering.tokenNumber l.token)).closes,
      i.left = a.wholeItem.left) ∧
    t = Progress.treeOf (p.gap ++ l.gap) r

/-! ## Versions -/

/-- All readings of a version have a property and stand in one state. -/
structure Version.Holds (a : Automaton) (P : Place → Reading → Prop) (v : Version) : Prop where
  /-- There is a reading. -/
  nonempty : v.readings ≠ []
  /-- The readings have the property. -/
  readings : ∀ r ∈ v.readings, P v.place r
  /-- The readings stand in the state of the version. -/
  state : ∀ r ∈ v.readings, r.state a = v.state a

namespace Version

variable {v w : Version}

/-- The state of a version is the one in which all its readings stand. -/
theorem state_eq {s : State} (hne : v.readings ≠ []) (h : ∀ r ∈ v.readings, r.state a = s) :
    v.state a = s := by
  obtain ⟨r, rs, hv⟩ := List.exists_cons_of_ne_nil hne
  have hstate : v.state a = r.state a := by
    rw [state, hv]
    rfl
  rw [hstate]
  exact h r (hv ▸ List.mem_cons_self)

/-- Readings that stand in one state, whichever it is, stand in the state of their version. -/
theorem Holds.of_state {s : State} (hne : v.readings ≠ [])
    (hreadings : ∀ r ∈ v.readings, P v.place r) (h : ∀ r ∈ v.readings, r.state a = s) :
    v.Holds a P :=
  ⟨hne, hreadings, fun r hr => (h r hr).trans (state_eq hne h).symm⟩

/-- A version of one reading. -/
theorem Holds.single {p : Place} {r : Reading} {status : Status} (h : P p r) :
    Version.Holds a P ⟨[r], p, status⟩ := by
  refine .of_state (List.cons_ne_nil _ _) (s := r.state a) ?_ ?_
  · simpa using h
  · simp

/-- How a version goes on does not matter for its readings. -/
theorem Holds.setStatus (h : v.Holds a P) (status : Status) :
    Version.Holds a P { v with status } :=
  ⟨h.nonempty, h.readings, h.state⟩

/-- A version keeps a property when it skips what stands between two tokens. -/
theorem Holds.skip (hP : Kept a P) (h : v.Holds a P) {l : Lexeme} (hl : v.place.Has a l)
    (htoken : l.token = .comment ∨ l.token = .joint) :
    Version.Holds a P { v with place := v.place.skip l } :=
  ⟨h.nonempty, fun r hr => hP.skip (h.readings r hr) hl htoken, h.state⟩

/-- A version keeps a property when all its readings take a token. -/
theorem Holds.take (hP : Kept a P) (h : v.Holds a P) {l : Lexeme} (hl : v.place.Has a l) :
    (v.take a l).Holds a P := by
  have hmem : ∀ r ∈ (v.take a l).readings, ∃ s ∈ v.readings, r = s.take a v.place l := by
    intro r hr
    obtain ⟨s, hs, rfl⟩ := List.mem_map.1 hr
    refine ⟨s, hs, ?_⟩
    rw [Reading.take, h.state s hs]
    rfl
  refine .of_state (s := a.after (v.state a) (.token (a.numbering.tokenNumber l.token))) ?_ ?_ ?_
  · simpa [Version.take] using h.nonempty
  · intro r hr
    obtain ⟨s, hs, rfl⟩ := hmem r hr
    exact hP.take (h.readings s hs) hl
  · intro r hr
    obtain ⟨s, hs, rfl⟩ := hmem r hr
    rw [← h.state s hs]
    rfl

end Version

/-- A reading that is added is among the readings or drops out, and no other comes in. -/
theorem Reading.mem_addTo {r s : Reading} {readings : List Reading} (h : s ∈ r.addTo readings) :
    s = r ∨ s ∈ readings := by
  induction readings with
  | nil => exact .inl (List.mem_singleton.1 h)
  | cons t readings ih =>
    rw [addTo] at h
    split at h
    · rcases List.mem_cons.1 h with rfl | h
      · split
        · exact .inl rfl
        · exact .inr List.mem_cons_self
      · exact .inr (List.mem_cons_of_mem _ h)
    · rcases List.mem_cons.1 h with rfl | h
      · exact .inr List.mem_cons_self
      · exact (ih h).imp_right (List.mem_cons_of_mem _)

/-- There is a reading behind one that is added. -/
theorem Reading.addTo_ne_nil (r : Reading) (readings : List Reading) : r.addTo readings ≠ [] := by
  cases readings with
  | nil => exact List.cons_ne_nil _ _
  | cons s readings =>
    rw [addTo]
    split <;> exact List.cons_ne_nil _ _

namespace Version

variable {v w : Version}

/-- The readings of two versions that are joined are readings of one of the two. -/
theorem mem_join {r : Reading} (h : r ∈ (v.join w).readings) :
    r ∈ v.readings ∨ r ∈ w.readings := by
  refine List.foldlRecOn (motive := fun readings => r ∈ readings → r ∈ v.readings ∨ r ∈ w.readings)
    w.readings _ .inl ?_ h
  intro readings ih s hs hr
  rcases Reading.mem_addTo hr with rfl | hr
  · exact .inr hs
  · exact ih hr

/-- Joined versions have a reading. -/
theorem join_ne_nil (hv : v.readings ≠ []) : (v.join w).readings ≠ [] :=
  List.foldlRecOn (motive := (· ≠ [])) w.readings _ hv fun _ _ _ _ => Reading.addTo_ne_nil _ _

/-- Two versions that meet can be made one. -/
theorem Holds.join (hP : Kept a P) (hv : v.Holds a P) (hw : w.Holds a P)
    (h : v.meets a w = true) : (v.join w).Holds a P := by
  simp only [meets, Bool.and_eq_true, beq_iff_eq] at h
  obtain ⟨⟨-, hplace⟩, hstate⟩ := h
  obtain ⟨r₀, hr₀⟩ := List.exists_mem_of_ne_nil _ hv.nonempty
  refine .of_state (s := v.state a) (join_ne_nil hv.nonempty) ?_ ?_
  · intro r hr
    rcases mem_join hr with hr | hr
    · exact hv.readings r hr
    · have heq : r₀.state a = r.state a := by rw [hv.state r₀ hr₀, hw.state r hr, hstate]
      exact hP.join (hv.readings r₀ hr₀) (hw.readings r hr) hplace heq
  · intro r hr
    rcases mem_join hr with hr | hr
    · exact hv.state r hr
    · rw [hw.state r hr, hstate]

/-- A version finds its place behind others. -/
theorem Holds.rank (hP : Kept a P) (hv : v.Holds a P) {ws : List Version}
    (h : ∀ w ∈ ws, w.Holds a P) : ∀ w ∈ v.rank a ws, w.Holds a P := by
  induction ws generalizing v with
  | nil => simpa [Version.rank] using hv
  | cons w ws ih =>
    have hall := h
    rw [List.forall_mem_cons] at h
    obtain ⟨hw, hws⟩ := h
    rw [Version.rank]
    split
    · exact hall
    split
    · exact ih hv hws
    split
    · exact List.forall_mem_cons.2 ⟨hw, ih hv hws⟩
    split
    · split
      · next hmeets => exact List.forall_mem_cons.2 ⟨hw.join hP hv hmeets, hws⟩
      · exact List.forall_mem_cons.2 ⟨hw, ih hv hws⟩
    split
    · split
      · exact hall
      · exact List.forall_mem_cons.2 ⟨hw, ih hv hws⟩
    split
    · exact ih hv hws
    · exact List.forall_mem_cons.2 ⟨hv, ih hw hws⟩

end Version

/-! ## Progress -/

/-- All readings have a property, and the tree that has been found comes from one that had it. -/
structure Progress.Holds (a : Automaton) (P : Place → Reading → Prop) (p : Progress) : Prop where
  /-- The readings have the property. -/
  versions : ∀ v ∈ p.versions, v.Holds a P
  /-- The tree comes from a reading that had it. -/
  finished : ∀ best, p.finished = some best → Finished a P best.2

namespace Progress

variable {p : Progress} {i j : Nat} {v : Version}

/-- A change of one version keeps a property of all if it keeps it of that one. -/
theorem Holds.modify (h : p.Holds a P) {change : Version → Version}
    (hchange : ∀ v, p.versions[i]? = some v → (change v).Holds a P) :
    (p.modify i change).Holds a P := by
  refine ⟨fun w hw => ?_, h.finished⟩
  obtain ⟨k, hk⟩ := List.mem_iff_getElem?.1 hw
  rw [Progress.modify, List.getElem?_modify] at hk
  obtain ⟨v, hv, rfl⟩ := Option.map_eq_some_iff.1 hk
  split
  · next hik => exact hchange v (hik ▸ hv)
  · exact h.versions v (List.mem_of_getElem? hv)

/-- Marking a version keeps every property. -/
theorem Holds.mark (h : p.Holds a P) (i : Nat) (status : Status) : (p.mark i status).Holds a P :=
  h.modify fun v hv => (h.versions v (List.mem_of_getElem? hv)).setStatus status

/-- A version is added to those before, or joined with one that it meets. -/
theorem Holds.add (hP : Kept a P) (h : p.Holds a P) (hv : v.Holds a P) :
    (p.add a i v).Holds a P := by
  unfold Progress.add
  split
  · next w j hfind =>
    refine h.modify fun u hu => ?_
    have hw := List.mem_zipIdx_iff_getElem?.1 (List.mem_of_find?_eq_some hfind)
    obtain rfl : w = u := Option.some.inj (hw.symm.trans hu)
    have hmeets : j ≠ i ∧ w.meets a v = true := by simpa using List.find?_some hfind
    exact (h.versions w (List.mem_of_getElem? hu)).join hP hv hmeets.2
  · split
    · exact h
    · exact ⟨List.forall_mem_append.2 ⟨h.versions, List.forall_mem_singleton.2 hv⟩, h.finished⟩

/-- Closing phrases makes new versions, which have the property if the closed readings have it. -/
theorem Holds.close (hP : Kept a P) (h : p.Holds a P) {items : List Item}
    (hitems : ∀ r ∈ v.readings, ∀ item ∈ items, P v.place (r.close a item)) :
    (p.close a i v items).1.Holds a P := by
  refine List.foldlRecOn (motive := fun q : Progress × Option Nat => q.1.Holds a P) items _ h ?_
  intro q hq item hitem
  refine List.foldlRecOn (motive := Progress.Holds a P) v.readings _ hq ?_
  intro q hq r hr
  exact hq.add hP (.single (hitems r hr item hitem))

/-- A version that takes the place of another one keeps every property. -/
theorem Holds.replace (h : p.Holds a P) (i j : Nat) : (p.replace i j).Holds a P := by
  unfold Progress.replace
  split
  · next v hv =>
    refine ⟨fun w hw => ?_, h.finished⟩
    rcases List.mem_or_eq_of_mem_set (List.mem_of_mem_eraseIdx hw) with hw | rfl
    · exact h.versions w hw
    · exact h.versions w (List.mem_of_getElem? hv)
  · exact h

/-- A version that is complete becomes the answer, if it is better than the one so far. -/
theorem Holds.complete (h : p.Holds a P) (hv : v.Holds a P) {l : Lexeme} (hl : v.place.Has a l)
    (hwhole : ∃ i ∈ (a.step (v.state a) (a.numbering.tokenNumber l.token)).closes,
      i.left = a.wholeItem.left) : (p.complete v l).Holds a P := by
  refine ⟨h.versions, ?_⟩
  refine List.foldlRecOn
    (motive := fun finished : Option (Int × Tree) =>
      ∀ best, finished = some best → Finished a P best.2) v.readings _ h.finished ?_
  intro finished hfinished r hr best hbest
  split at hbest
  · cases hbest
    exact ⟨v.place, r, l, hv.readings r hr, hl, by rwa [hv.state r hr], rfl⟩
  · exact hfinished best hbest

/-- Pruning joins versions and lets some of them drop out, which keeps every kept property. -/
theorem Holds.prune (hP : Kept a P) (h : p.Holds a P) : (p.prune a).Holds a P := by
  refine ⟨fun w hw => ?_, h.finished⟩
  rw [Progress.prune] at hw
  refine List.foldlRecOn (motive := fun ws => ∀ w ∈ ws, Version.Holds a P w)
    (p.versions.filter (·.status ≠ .done)) _ (List.forall_mem_nil _) ?_ w (List.mem_of_mem_take hw)
  intro ws hws v hv
  exact (h.versions v (List.mem_of_mem_filter hv)).rank hP hws

/-! ## Places of versions

A lexeme belongs to the place where it was read. While phrases are closed in front of it the version
that reads it is replaced, but only by versions at the same place. -/

/-- The places of all versions. -/
def places (p : Progress) : List Place := p.versions.map (·.place)

/-- The place of a version is found under the number of the version. -/
theorem getElem?_places (p : Progress) (i : Nat) :
    p.places[i]? = p.versions[i]?.map (·.place) := List.getElem?_map

/-- A change that leaves the place of a version leaves all places. -/
theorem places_modify {change : Version → Version} (h : ∀ v, (change v).place = v.place) :
    (p.modify i change).places = p.places := by
  refine List.ext_getElem? fun k => ?_
  rw [getElem?_places, getElem?_places, Progress.modify, List.getElem?_modify]
  cases p.versions[k]? with
  | none => rfl
  | some v => by_cases hik : i = k <;> simp [hik, h]

/-- A version that is added stands at the place of another one or behind all of them. -/
theorem places_add (p : Progress) (i : Nat) (v : Version) :
    ∃ n, (p.add a i v).places = p.places ++ List.replicate n v.place := by
  unfold Progress.add
  split
  · next w j _ =>
    have hplaces : (p.modify j (·.join v)).places = p.places := places_modify fun _ => rfl
    exact ⟨0, by rw [hplaces, List.replicate_zero, List.append_nil]⟩
  · split
    · exact ⟨0, (List.append_nil _).symm⟩
    · exact ⟨1, by simp [places]⟩

/-- What is closed in a version goes on at its place. -/
theorem places_close (p : Progress) (i : Nat) (v : Version) (items : List Item) :
    (∃ n, (p.close a i v items).1.places = p.places ++ List.replicate n v.place) ∧
      ∀ j, (p.close a i v items).2 = some j →
        p.versions.length ≤ j ∧ j < (p.close a i v items).1.versions.length := by
  have hgrow (q : Progress) (item : Item) : ∃ n,
      (v.readings.foldl (fun q r => q.add a i { v with readings := [r.close a item] }) q).places =
        q.places ++ List.replicate n v.place := by
    refine List.foldlRecOn
      (motive := fun q' : Progress => ∃ n, q'.places = q.places ++ List.replicate n v.place)
      v.readings _ ⟨0, (List.append_nil _).symm⟩ ?_
    rintro q' ⟨n, hq'⟩ r -
    obtain ⟨m, hm⟩ := places_add (a := a) q' i { v with readings := [r.close a item] }
    exact ⟨n + m, by rw [hm, hq', List.append_assoc, List.replicate_append_replicate]⟩
  refine List.foldlRecOn (motive := fun q : Progress × Option Nat =>
    (∃ n, q.1.places = p.places ++ List.replicate n v.place) ∧
      ∀ j, q.2 = some j → p.versions.length ≤ j ∧ j < q.1.versions.length) items _ ?_ ?_
  · exact ⟨⟨0, (List.append_nil _).symm⟩, fun j hj => by cases hj⟩
  · rintro ⟨q, last⟩ ⟨⟨n, hq⟩, hlast⟩ item -
    obtain ⟨m, hm⟩ := hgrow q item
    have hlength := congrArg List.length hq
    have hgrown := congrArg List.length hm
    simp only [places, List.length_append, List.length_map, List.length_replicate] at hlength hgrown
    refine ⟨⟨n + m, by rw [hm, hq, List.append_assoc, List.replicate_append_replicate]⟩, ?_⟩
    intro j hj
    simp only at hj ⊢
    split at hj
    · cases hj
      omega
    · obtain ⟨hle, hlt⟩ : p.versions.length ≤ j ∧ j < q.versions.length := hlast j hj
      omega

/-- Where a version goes on in the place of another one, it stands where what is closed goes on. -/
theorem place_replace_close {items : List Item} {w : Version} (hi : i < p.versions.length)
    (hj : (p.close a i v items).2 = some j)
    (hw : ((p.close a i v items).1.replace i j).versions[i]? = some w) : w.place = v.place := by
  obtain ⟨⟨n, hplaces⟩, hlast⟩ := places_close (a := a) p i v items
  obtain ⟨hle, hlt⟩ := hlast j hj
  generalize (p.close a i v items).1 = q at hplaces hlt hw
  obtain ⟨u, hu⟩ : ∃ u, q.versions[j]? = some u := ⟨_, List.getElem?_eq_getElem hlt⟩
  have hplace : u.place = v.place := by
    have hj := getElem?_places q j
    rw [hplaces, hu, List.getElem?_append_right (by simpa [places] using hle), Option.map_some,
      List.getElem?_replicate] at hj
    split at hj
    · exact (Option.some.inj hj).symm
    · cases hj
  rw [Progress.replace, hu] at hw
  simp only at hw
  rw [List.getElem?_eraseIdx_of_lt (by omega), List.getElem?_set_self (by omega)] at hw
  rw [← Option.some.inj hw, hplace]

/-- What is closed does not move the version itself. -/
theorem place_close {items : List Item} {w : Version} (hv : p.versions[i]? = some v)
    (hw : (p.close a i v items).1.versions[i]? = some w) : w.place = v.place := by
  obtain ⟨⟨n, hplaces⟩, -⟩ := places_close (a := a) p i v items
  have hi := getElem?_places (p.close a i v items).1 i
  obtain ⟨hlt, -⟩ := List.getElem?_eq_some_iff.1 hv
  rw [hplaces, hw, List.getElem?_append_left (by simpa [places] using hlt), getElem?_places, hv]
    at hi
  exact (Option.some.inj hi).symm

/-! ## Steps -/

/-- A version settles at a lexeme of its place. -/
theorem Holds.settle (hP : Kept a P) (fuel : Nat) {l : Lexeme} (h : p.Holds a P)
    (hl : ∀ v, p.versions[i]? = some v → v.place.Has a l) : (p.settle a i fuel l).Holds a P := by
  induction fuel generalizing p l with
  | zero => exact h.mark i .stuck
  | succ fuel ih =>
    unfold Progress.settle
    cases hv : p.versions[i]? with
    | none => exact h
    | some v =>
      have hvi := h.versions v (List.mem_of_getElem? hv)
      have hlv := hl v hv
      simp only
      generalize hstep : a.step (v.state a) (a.numbering.tokenNumber l.token) = step
      split
      · next hwhole =>
        refine (h.complete hvi hlv ?_).mark i .done
        rw [hstep]
        simpa using hwhole
      · next hwhole =>
        have hclosed : (p.close a i v step.closes).1.Holds a P := by
          refine h.close hP fun r hr item hitem => ?_
          refine hP.close (hvi.readings r hr) (by rwa [hvi.state r hr, hstep]) fun heq => hwhole ?_
          exact List.any_eq_true.2 ⟨item, hitem, decide_eq_true heq⟩
        have hplace : ∀ w, (p.close a i v step.closes).1.versions[i]? = some w →
            w.place = v.place := fun _ => place_close hv
        have hreplace : ∀ j w, (p.close a i v step.closes).2 = some j →
            ((p.close a i v step.closes).1.replace i j).versions[i]? = some w →
            w.place = v.place := fun _ _ => place_replace_close (List.getElem?_eq_some_iff.1 hv).1
        generalize p.close a i v step.closes = closed at hclosed hplace hreplace
        obtain ⟨q, last⟩ := closed
        have hlq : ∀ w, q.versions[i]? = some w → w.place.Has a l := fun w hw =>
          (hplace w hw).symm ▸ hlv
        simp only
        split
        · exact hclosed.modify fun w hw =>
            (hclosed.versions w (List.mem_of_getElem? hw)).take hP (hlq w hw)
        cases last with
        | some j => exact ih (hclosed.replace i j) fun w hw => (hreplace j w rfl hw).symm ▸ hlv
        | none =>
          cases hname : l.asName? with
          | none => exact hclosed.mark i _
          | some l' =>
            simp only
            split
            · exact hclosed.mark i .done
            split
            · exact ih hclosed fun w hw => (hlq w hw).asName hname
            · exact hclosed.mark i .stuck

/-- A lexeme is read. -/
theorem Holds.advance (hP : Kept a P) (h : p.Holds a P) : (p.advance a i).Holds a P := by
  unfold Progress.advance
  cases hv : p.versions[i]? with
  | none => exact h
  | some v =>
    simp only
    cases hl : v.place.lexeme? (a.expected (v.state a)) with
    | none => exact h.mark i .stuck
    | some l =>
      have hlv : ∀ w, p.versions[i]? = some w → w.place.Has a l := fun w hw =>
        Option.some.inj (hv.symm.trans hw) ▸ .of_lexeme? hl
      have hskip (htoken : l.token = .comment ∨ l.token = .joint) :
          (p.modify i fun v => { v with place := v.place.skip l }).Holds a P :=
        h.modify fun w hw => (h.versions w (List.mem_of_getElem? hw)).skip hP (hlv w hw) htoken
      simp only
      split
      · next htoken => exact hskip (.inl htoken)
      · next htoken => exact hskip (.inr htoken)
      · exact h.settle hP _ hlv

end Progress

/-! ## Runs -/

/-- A sweep over the versions keeps a property. -/
theorem Progress.Holds.sweep (hP : Kept a P) {i furthest : Nat} {p : Progress}
    {r : Progress × Nat} (h : Progress.sweep i furthest p a = some r) :
    p.Holds a P → r.1.Holds a P := by
  refine Progress.sweep.partial_correctness a
    (motive := fun _ _ p r => p.Holds a P → r.1.Holds a P) ?_ i furthest p r h
  intro sweep ih i furthest p r hr hp
  split at hr
  · cases hr
    exact hp
  · split at hr
    · have hadvanced := hp.advance (i := i) hP
      simp only at hr
      split at hr
      · cases hr
        exact hadvanced
      · split at hr
        · exact ih _ _ _ _ hr hadvanced
        · exact ih _ _ _ _ hr hadvanced
    · exact ih _ _ _ _ hr hp

/-- A tree that is given in the end comes from a reading that has the property. -/
theorem Progress.Holds.finish? (hP : Kept a P) {furthest : Nat} {p : Progress} {t : Tree}
    (h : Progress.finish? furthest p a = some t) : p.Holds a P → Finished a P t := by
  refine Progress.finish?.partial_correctness a
    (motive := fun _ p t => p.Holds a P → Finished a P t) ?_ furthest p t h
  intro finish? ih furthest p t ht hp
  obtain ⟨⟨q, o⟩, hq, ht⟩ := Option.bind_eq_some_iff.1 ht
  have hpruned := (Progress.Holds.sweep hP hq hp).prune hP
  simp only at ht
  split at ht
  · obtain ⟨best, hbest, rfl⟩ := Option.map_eq_some_iff.1 ht
    exact hpruned.finished best hbest
  · exact ih _ _ _ ht hpruned

/-- What holds at the start of a script and is kept by each step holds of the reading whose tree is
given. -/
theorem Kept.of_finish? (hP : Kept a P) {source : List Char} {furthest : Nat} {t : Tree}
    (hstart : P (.start source) ⟨[], 0⟩)
    (h : (Progress.start source).finish? furthest a = some t) : Finished a P t := by
  refine Progress.Holds.finish? hP h ⟨?_, nofun⟩
  intro v hv
  obtain rfl := List.mem_singleton.1 hv
  exact .single hstart

end ScriptDeps.Source
