import Mathlib.Data.List.Perm.Basic

/-!
This module contains lists whose elements are referred to by their positions: replacing one element,
and following all references.
-/

namespace List

theorem exists_mem_flatMap_set {α : Type u} {β : Type v} {l : List α} {i : Nat} {a : α}
    (h : l[i]? = some a) (f : α → List β)
    : ∃ others : List β, (∀ x, x ∈ l.flatMap f ↔ x ∈ f a ∨ x ∈ others)
        ∧ ∀ b x, x ∈ (l.set i b).flatMap f ↔ x ∈ f b ∨ x ∈ others := by
  rw [getElem?_eq_some_iff] at h
  rcases h with ⟨hi, ha⟩
  have hsplit : l = l.take i ++ a :: l.drop (i + 1) := by
    rw [← ha, getElem_cons_drop, take_append_drop]
  refine ⟨(l.take i ++ l.drop (i + 1)).flatMap f, ?_, ?_⟩
  . intro x
    conv => lhs; rw [hsplit]
    simp only [flatMap_append, flatMap_cons, mem_append]
    exact or_left_comm
  . intro b x
    rw [set_eq_take_append_cons_drop, if_pos hi]
    simp only [flatMap_append, flatMap_cons, mem_append]
    exact or_left_comm

theorem cons_eraseIdx_perm {α : Type u} {l : List α} {i : Nat} {a : α} (h : l[i]? = some a)
    : (a :: l.eraseIdx i).Perm l := by
  rw [getElem?_eq_some_iff] at h
  rcases h with ⟨hi, ha⟩
  rw [← ha]
  exact getElem_cons_eraseIdx_perm hi

theorem set_perm_cons_eraseIdx_of_getElem? {α : Type u} {l : List α} {i : Nat} {a : α}
    (h : l[i]? = some a) (b : α) : (l.set i b).Perm (b :: l.eraseIdx i) := by
  rw [getElem?_eq_some_iff] at h
  exact set_perm_cons_eraseIdx h.choose b

theorem exists_perm_flatMap_set {α : Type u} {β : Type v} {l : List α} {i : Nat} {a : α}
    (h : l[i]? = some a) (f : α → List β)
    : ∃ others : List β, (l.flatMap f).Perm (f a ++ others)
        ∧ ∀ b, ((l.set i b).flatMap f).Perm (f b ++ others) := by
  refine ⟨(l.eraseIdx i).flatMap f, ?_, ?_⟩
  . have hperm := (cons_eraseIdx_perm h).symm.flatMap_right f
    rw [flatMap_cons] at hperm
    exact hperm
  . intro b
    have hperm := (set_perm_cons_eraseIdx_of_getElem? h b).flatMap_right f
    rw [flatMap_cons] at hperm
    exact hperm

theorem length_flatMap_set_add {α : Type u} {β : Type v} {l : List α} {i : Nat} {a : α}
    (h : l[i]? = some a) (f : α → List β) (b : α)
    : ((l.set i b).flatMap f).length + (f a).length = (l.flatMap f).length + (f b).length := by
  rcases exists_perm_flatMap_set h f with ⟨others, hold, hnew⟩
  rw [hold.length_eq, (hnew b).length_eq, length_append, length_append]
  omega

theorem eq_or_mem_set_of_mem {α : Type u} {l : List α} {i : Nat} {a b x : α} (h : l[i]? = some a)
    (hx : x ∈ l) : x = a ∨ x ∈ l.set i b := by
  rw [mem_iff_getElem?] at hx
  rcases hx with ⟨j, hj⟩
  by_cases hij : i = j
  . rw [hij, hj] at h
    injection h with h
    exact Or.inl h
  . right
    rw [mem_iff_getElem?]
    exact ⟨j, by rw [getElem?_set_ne hij, hj]⟩

theorem eq_or_getElem?_of_getElem?_set {α : Type u} {l : List α} {i j : Nat} {a b : α}
    (h : (l.set i a)[j]? = some b) : (j = i ∧ b = a) ∨ (j ≠ i ∧ l[j]? = some b) := by
  by_cases hij : i = j
  . rw [← hij, getElem?_set_self', Option.map_eq_map, Option.map_eq_some_iff] at h
    rcases h with ⟨_, _, h⟩
    exact Or.inl ⟨hij.symm, h.symm⟩
  . rw [getElem?_set_ne hij] at h
    exact Or.inr ⟨Ne.symm hij, h⟩

theorem countP_le_one_of_forall_eq {α : Type u} {p : α → Bool} {l : List α} {i : Nat}
    (h : ∀ (j : Nat) (a : α), l[j]? = some a → p a = true → j = i) : l.countP p ≤ 1 := by
  induction l generalizing i with
  | nil => exact Nat.zero_le 1
  | cons a l ih =>
    cases i with
    | zero =>
      have hzero : l.countP p = 0 := by
        rw [countP_eq_zero]
        intro b hb hp
        rw [mem_iff_getElem?] at hb
        rcases hb with ⟨j, hj⟩
        exact absurd (h (j + 1) b hj hp) (Nat.succ_ne_zero j)
      rw [countP_cons, hzero]
      split
      . exact Nat.le_refl 1
      . exact Nat.zero_le 1
    | succ i =>
      have hhead : ¬ p a = true := by
        intro hp
        exact absurd (h 0 a rfl hp) (Nat.succ_ne_zero i).symm
      rw [countP_cons_of_neg hhead]
      apply ih
      intro j b hb hp
      exact Nat.succ.inj (h (j + 1) b hb hp)

theorem eraseIdx_concat_length {α : Type u} (l : List α) (a : α)
    : (l ++ [a]).eraseIdx l.length = l := by
  rw [eraseIdx_append_of_length_le (Nat.le_refl _), Nat.sub_self]
  exact append_nil l

theorem countP_eraseIdx_add {α : Type u} (p : α → Bool) {l : List α} {i : Nat} {a : α}
    (h : l[i]? = some a) : (l.eraseIdx i).countP p + (if p a then 1 else 0) = l.countP p := by
  rw [getElem?_eq_some_iff] at h
  rcases h with ⟨hi, ha⟩
  have hperm := (getElem_cons_eraseIdx_perm hi).countP_eq p
  rw [ha, countP_cons] at hperm
  exact hperm

theorem countP_set_add {α : Type u} (p : α → Bool) {l : List α} {i : Nat} {a b : α}
    (h : l[i]? = some a)
    : (l.set i b).countP p + (if p a then 1 else 0) = l.countP p + (if p b then 1 else 0) := by
  have herase := countP_eraseIdx_add p h
  rw [getElem?_eq_some_iff] at h
  rcases h with ⟨hi, _⟩
  rw [(set_perm_cons_eraseIdx hi b).countP_eq p, countP_cons]
  omega

theorem countP_set_of_eq {α : Type u} {p : α → Bool} {l : List α} {i : Nat} {a b : α}
    (h : l[i]? = some a) (hp : p b = p a) : (l.set i b).countP p = l.countP p := by
  have hset := countP_set_add p h (b := b)
  rw [hp] at hset
  omega

-- One element stops to be counted, `f` tells it apart from the others.
theorem countP_eq_succ_of_nodup_map {α : Type u} {β : Type v} {f : α → β} {p q : α → Bool}
    {l : List α} {a : α} (hnodup : (l.map f).Nodup) (ha : a ∈ l) (hp : p a = true)
    (hq : q a = false) (hother : ∀ b ∈ l, f b ≠ f a → q b = p b)
    : l.countP p = l.countP q + 1 := by
  induction l with
  | nil => contradiction
  | cons b l ih =>
    rw [map_cons, nodup_cons] at hnodup
    rw [forall_mem_cons] at hother
    rw [mem_cons] at ha
    cases ha with
    | inl ha =>
      rw [← ha] at hnodup
      have hrest : l.countP q = l.countP p := by
        apply countP_congr
        intro c hc
        rw [hother.right c hc]
        intro hcontra
        rw [← hcontra] at hnodup
        exact hnodup.left (mem_map_of_mem hc)
      rw [countP_cons, countP_cons, ← ha, hp, hq, hrest]
      rfl
    | inr ha =>
      have hne : f b ≠ f a := by
        intro hcontra
        rw [hcontra] at hnodup
        exact hnodup.left (mem_map_of_mem ha)
      rw [countP_cons, countP_cons, hother.left hne, ih hnodup.right ha hother.right]
      omega

theorem map_set_of_eq {α : Type u} {β : Type v} {f : α → β} {l : List α} {i : Nat} {a b : α}
    (h : l[i]? = some a) (hf : f b = f a) : (l.set i b).map f = l.map f := by
  rw [map_set, hf]
  apply ext_getElem?
  intro j
  by_cases hij : i = j
  . rw [← hij, getElem?_set_self', getElem?_map, h]
    rfl
  . rw [getElem?_set_ne hij]

theorem map_modify_of_eq {α : Type u} {β : Type v} {f : α → β} {g : α → α} (h : ∀ a, f (g a) = f a)
    (l : List α) (i : Nat) : (l.modify i g).map f = l.map f := by
  apply ext_getElem?
  intro j
  rw [getElem?_map, getElem?_map, getElem?_modify]
  cases l[j]? with
  | none => rfl
  | some a =>
    by_cases hij : i = j
    . simp [hij, h]
    . simp [hij]

section FilterMap

variable {α : Type u} {β : Type v} {f : α → Option β} {l : List α} {i : Nat} {a : α}

theorem filterMap_split (h : l[i]? = some a)
    : l.filterMap f
        =
      (l.take i).filterMap f ++ (f a).toList ++ (l.drop (i + 1)).filterMap f := by
  rw [getElem?_eq_some_iff] at h
  rcases h with ⟨hi, ha⟩
  conv => lhs; rw [← take_append_drop i l, ← getElem_cons_drop hi, ha]
  rw [filterMap_append, append_assoc]
  congr 1
  cases hf : f a with
  | none => rw [filterMap_cons_none hf, Option.toList_none, nil_append]
  | some b => rw [filterMap_cons_some hf, Option.toList_some, singleton_append]

theorem filterMap_eraseIdx
    : (l.eraseIdx i).filterMap f = (l.take i).filterMap f ++ (l.drop (i + 1)).filterMap f := by
  rw [eraseIdx_eq_take_drop_succ, filterMap_append]

-- Elements that `f` leaves out do not matter.
theorem filterMap_eraseIdx_of_eq_none (h : l[i]? = some a) (ha : f a = none)
    : (l.eraseIdx i).filterMap f = l.filterMap f := by
  rw [filterMap_eraseIdx, filterMap_split h, ha, Option.toList_none, append_nil]

-- The others are where the number of those before them says.
theorem getElem?_filterMap_take (h : l[i]? = some a) {b : β} (ha : f a = some b)
    : (l.filterMap f)[((l.take i).filterMap f).length]? = some b := by
  rw [filterMap_split h, ha, append_assoc, getElem?_append_right (Nat.le_refl _), Nat.sub_self]
  rfl

theorem filterMap_eraseIdx_of_eq_some (h : l[i]? = some a) {b : β} (ha : f a = some b)
    : (l.eraseIdx i).filterMap f
        =
      (l.filterMap f).eraseIdx ((l.take i).filterMap f).length := by
  rw [filterMap_eraseIdx, filterMap_split h, ha, append_assoc,
    eraseIdx_append_of_length_le (Nat.le_refl _), Nat.sub_self]
  rfl

theorem filterMap_set_of_eq (h : l[i]? = some a) {b : α} (hf : f b = f a)
    : (l.set i b).filterMap f = l.filterMap f := by
  have hset : (l.set i b)[i]? = some b := by
    rw [getElem?_set_self', h]
    rfl
  rw [filterMap_split hset, filterMap_split h, hf, take_set_of_le (Nat.le_refl i),
    drop_set_of_lt (Nat.lt_succ_self i)]

end FilterMap

theorem range_append_range' (m n : Nat) : range m ++ range' m n = range (m + n) := by
  have happend := range'_append_1 (s := 0) (m := m) (n := n)
  rw [Nat.zero_add] at happend
  rw [range_eq_range', range_eq_range', happend]

-- No value that `f` has on the list is the one of two positions.
def DistinctValues {α : Type u} {β : Type v} (f : α → Option β) (l : List α) : Prop :=
  ∀ (i j : Nat) (a b : α) (x : β), l[i]? = some a → l[j]? = some b → f a = some x → f b = some x →
    i = j

section DistinctValues

variable {α : Type u} {β : Type v} {f : α → Option β} {l l' : List α}

theorem distinctValues_of_forall_eq_none (h : ∀ a ∈ l, f a = none) : l.DistinctValues f := by
  intro i j a b x ha _ hx _
  rw [h a (mem_of_getElem? ha)] at hx
  contradiction

theorem DistinctValues.set (h : l.DistinctValues f) {i : Nat} {a : α}
    (ha : ∀ x, f a = some x → ∀ (j : Nat) (b : α), l[j]? = some b → f b = some x → j = i)
    : (l.set i a).DistinctValues f := by
  intro j k b c x hb hc hbx hcx
  rcases eq_or_getElem?_of_getElem?_set hb with ⟨hj, heq⟩ | ⟨_, hb⟩
  . rw [heq] at hbx
    rcases eq_or_getElem?_of_getElem?_set hc with ⟨hk, _⟩ | ⟨_, hc⟩
    . rw [hj, hk]
    . rw [hj, ha x hbx k c hc hcx]
  . rcases eq_or_getElem?_of_getElem?_set hc with ⟨hk, heq⟩ | ⟨_, hc⟩
    . rw [heq] at hcx
      rw [hk, ha x hcx j b hb hbx]
    . exact h j k b c x hb hc hbx hcx

theorem getElem?_of_getElem?_concat {a b : α} {i : Nat} {x : β} (ha : f a = none)
    (hb : (l ++ [a])[i]? = some b) (hx : f b = some x) : l[i]? = some b := by
  rw [getElem?_append] at hb
  split at hb
  . exact hb
  . rw [getElem?_singleton] at hb
    split at hb
    . injection hb with hb
      rw [← hb, ha] at hx
      contradiction
    . contradiction

theorem DistinctValues.concat (h : l.DistinctValues f) {a : α} (ha : f a = none)
    : (l ++ [a]).DistinctValues f := by
  intro i j b c x hb hc hbx hcx
  exact h i j b c x (getElem?_of_getElem?_concat ha hb hbx) (getElem?_of_getElem?_concat ha hc hcx)
    hbx hcx

theorem DistinctValues.of_getElem? (h : l.DistinctValues f)
    (hl' : ∀ (i : Nat) (a : α), l'[i]? = some a → ∃ b, l[i]? = some b ∧ f a = f b)
    : l'.DistinctValues f := by
  intro i j a b x ha hb hax hbx
  rcases hl' i a ha with ⟨a', ha', hfa⟩
  rcases hl' j b hb with ⟨b', hb', hfb⟩
  rw [hfa] at hax
  rw [hfb] at hbx
  exact h i j a' b' x ha' hb' hax hbx

end DistinctValues

theorem filterMap_range_getElem? {α : Type u} {β : Type v} (l : List α) (f : α → β)
    : (range l.length).filterMap (fun i => (l[i]?).map f) = l.map f := by
  induction l with
  | nil => rfl
  | cons a l ih =>
    rw [length_cons, range_succ_eq_map, filterMap_cons, filterMap_map,
      map_cons, ← ih]
    rfl

end List
