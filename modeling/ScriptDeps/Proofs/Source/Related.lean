import Mathlib.Data.List.Forall2

/-!
# Related lists

Lists whose elements are related one by one, and lists that agree but for their last elements, with
what the operations on them keep.
-/

namespace ScriptDeps

/-- Lists that agree but for their last elements, which are related. -/
def LastRel {α : Type} (R : α → α → Prop) (l l' : List α) : Prop :=
  ∃ u a b, l = u ++ [a] ∧ l' = u ++ [b] ∧ R a b

namespace LastRel

variable {α β : Type} {R : α → α → Prop} {l l' : List α}

/-- The same elements in front. -/
theorem append_left (h : LastRel R l l') (v : List α) : LastRel R (v ++ l) (v ++ l') := by
  obtain ⟨u, a, b, rfl, rfl, hab⟩ := h
  exact ⟨v ++ u, a, b, by simp, by simp, hab⟩

/-- The same element in front. -/
theorem cons (h : LastRel R l l') (c : α) : LastRel R (c :: l) (c :: l') := h.append_left [c]

/-- What is the same for related elements is the same all over. -/
theorem map_eq (h : LastRel R l l') {f : α → β} (hf : ∀ {a b}, R a b → f a = f b) :
    l.map f = l'.map f := by
  obtain ⟨u, a, b, rfl, rfl, hab⟩ := h
  simp [hf hab]

/-- The lists are equally long. -/
theorem length_eq (h : LastRel R l l') : l.length = l'.length := by
  obtain ⟨u, a, b, rfl, rfl, _⟩ := h
  simp

/-- A cut leaves the related elements behind it, or in front of it with nothing behind. -/
theorem cut (h : LastRel R l l') (n : Nat) :
    (l.take n = l'.take n ∧ LastRel R (l.drop n) (l'.drop n)) ∨
      (LastRel R (l.take n) (l'.take n) ∧ l.drop n = [] ∧ l'.drop n = []) := by
  obtain ⟨u, a, b, rfl, rfl, hab⟩ := h
  by_cases hn : n ≤ u.length
  · left
    rw [List.take_append_of_le_length hn, List.take_append_of_le_length hn,
      List.drop_append_of_le_length hn, List.drop_append_of_le_length hn]
    exact ⟨rfl, u.drop n, a, b, rfl, rfl, hab⟩
  · right
    have ha : (u ++ [a]).length ≤ n := by
      rw [List.length_append, List.length_singleton]
      omega
    have hb : (u ++ [b]).length ≤ n := by
      rw [List.length_append, List.length_singleton]
      omega
    rw [List.take_of_length_le ha, List.take_of_length_le hb]
    exact ⟨⟨u, a, b, rfl, rfl, hab⟩, List.drop_eq_nil_of_le ha, List.drop_eq_nil_of_le hb⟩

end LastRel

section Forall₂

variable {α β : Type} {R : α → β → Prop} {l : List α} {l' : List β}

/-- Related lists have related elements at the same places. -/
theorem getElem?_forall₂ (h : List.Forall₂ R l l') (i : Nat) : Option.Rel R l[i]? l'[i]? := by
  induction h generalizing i with
  | nil => exact Option.Rel.none
  | cons hab _ ih =>
    cases i with
    | zero => simpa using Option.Rel.some hab
    | succ i => simpa using ih i

/-- Each element of the second list is related to one of the first. -/
theorem exists_of_mem_forall₂ (h : List.Forall₂ R l l') {b : β} (hb : b ∈ l') :
    ∃ a ∈ l, R a b := by
  induction h with
  | nil => cases hb
  | cons hab _ ih =>
    rcases List.mem_cons.1 hb with rfl | hb
    · exact ⟨_, List.mem_cons_self, hab⟩
    · obtain ⟨a, ha, h⟩ := ih hb
      exact ⟨a, List.mem_cons_of_mem _ ha, h⟩

/-- Elements at one place are changed, and stay related. -/
theorem modify_forall₂ (h : List.Forall₂ R l l') {f : α → α} {f' : β → β}
    (hf : ∀ a b, R a b → R (f a) (f' b)) (i : Nat) :
    List.Forall₂ R (l.modify i f) (l'.modify i f') := by
  induction h generalizing i with
  | nil => simp
  | cons hab hl ih =>
    cases i with
    | zero => simpa using ⟨hf _ _ hab, hl⟩
    | succ i => simpa using ⟨hab, ih i⟩

/-- Elements at one place are replaced by related ones. -/
theorem set_forall₂ (h : List.Forall₂ R l l') {a : α} {b : β} (hab : R a b) (i : Nat) :
    List.Forall₂ R (l.set i a) (l'.set i b) := by
  induction h generalizing i with
  | nil => simp
  | cons hcd hl ih =>
    cases i with
    | zero => simpa using ⟨hab, hl⟩
    | succ i => simpa using ⟨hcd, ih i⟩

/-- Elements at one place are taken away. -/
theorem eraseIdx_forall₂ (h : List.Forall₂ R l l') (i : Nat) :
    List.Forall₂ R (l.eraseIdx i) (l'.eraseIdx i) := by
  induction h generalizing i with
  | nil => simp
  | cons hab hl ih =>
    cases i with
    | zero => simpa using hl
    | succ i => simpa using ⟨hab, ih i⟩

/-- Related elements pass the same test. -/
theorem all_forall₂ (h : List.Forall₂ R l l') {q : α → Bool} {r : β → Bool}
    (hq : ∀ a b, R a b → q a = r b) : l.all q = l'.all r := by
  induction h with
  | nil => rfl
  | cons hab _ ih => rw [List.all_cons, List.all_cons, hq _ _ hab, ih]

/-- Of related lists elements at the same place are found. -/
theorem find?_zipIdx_forall₂ (h : List.Forall₂ R l l') {q : α × Nat → Bool} {r : β × Nat → Bool}
    (hq : ∀ a b j, R a b → q (a, j) = r (b, j)) (k : Nat) :
    ((l.zipIdx k).find? q).map (·.2) = ((l'.zipIdx k).find? r).map (·.2) := by
  induction h generalizing k with
  | nil => rfl
  | cons hab _ ih =>
    rw [List.zipIdx_cons, List.zipIdx_cons, List.find?_cons, List.find?_cons, hq _ _ k hab]
    split
    · rfl
    · exact ih (k + 1)

end Forall₂

end ScriptDeps
