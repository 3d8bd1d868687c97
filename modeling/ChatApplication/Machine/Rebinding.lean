import ChatApplication.Machine.Basic

/-!
This module contains views that are bound to one value after the other. A binding sets the face of
the view and may start a fetch. The reply puts what was fetched into the view, whatever the view is
bound to by then.
-/

structure ViewClass (Value : Type u) (Face : Type v) (Content : Type w) where
  new : Face
  bind : Value → Face → Face
  -- what a fetch for the value delivers, `none` if no fetch is made for it
  content : Value → Option Content
  -- A fetch that cannot be started has failed.
  canFetch : Value → Bool

-- Bindings are referred to by their position in `bindings`.
structure BoundView (Value : Type u) (Face : Type v) (Content : Type w) where
  face : Face
  content : Option Content
  bindings : List Value
  -- the fetches without a reply
  fetches : List Nat
  -- in the order of arrival
  arrived : List Nat
  failed : List Nat
  deriving DecidableEq, Repr

namespace BoundView

variable {Value : Type u} {Face : Type v} {Content : Type w}

inductive Event (Value : Type u) where
  | bind (value : Value)
  | arrives (binding : Nat)
  | fails (binding : Nat)
  deriving DecidableEq, Repr

def new (c : ViewClass Value Face Content) : BoundView Value Face Content :=
  {
    face := c.new
    content := none
    bindings := []
    fetches := []
    arrived := []
    failed := []
  }

def bind (c : ViewClass Value Face Content) (s : BoundView Value Face Content) (value : Value)
    : BoundView Value Face Content :=
  let binding := s.bindings.length
  let hasContent := (c.content value).isSome
  {
    s with
    face := c.bind value s.face
    bindings := s.bindings ++ [value]
    fetches := if hasContent ∧ c.canFetch value then s.fetches ++ [binding] else s.fetches
    failed := if hasContent ∧ ¬ c.canFetch value then s.failed ++ [binding] else s.failed
  }

def contentOf (c : ViewClass Value Face Content) (s : BoundView Value Face Content) (binding : Nat)
    : Option Content :=
  s.bindings[binding]?.bind c.content

def step (c : ViewClass Value Face Content) (s : BoundView Value Face Content)
    : Event Value → Option (BoundView Value Face Content)
  | .bind value => some (s.bind c value)
  | .arrives binding =>
    if binding ∈ s.fetches then
      some {
        s with
        content := s.contentOf c binding
        fetches := s.fetches.erase binding
        arrived := s.arrived ++ [binding]
      }
    else
      none
  | .fails binding =>
    if binding ∈ s.fetches then
      some {
        s with
        fetches := s.fetches.erase binding
        failed := s.failed ++ [binding]
      }
    else
      none

end BoundView

def boundView {Value : Type u} {Face : Type v} {Content : Type w} (c : ViewClass Value Face Content)
    : Machine (BoundView Value Face Content) (BoundView.Event Value) :=
  ⟨BoundView.step c⟩

namespace BoundView

variable {Value : Type u} {Face : Type v} {Content : Type w} {c : ViewClass Value Face Content}
  {s s' : BoundView Value Face Content}

def run (c : ViewClass Value Face Content) (es : List (Event Value))
    : Option (BoundView Value Face Content) :=
  (boundView c).exec (new c) es

def IsBoundTo (s : BoundView Value Face Content) (value : Value) : Prop :=
  s.bindings.getLast? = some value

-- the content of the value, unless its fetch has failed: then at least no other content
structure ShowsContent (c : ViewClass Value Face Content) (s : BoundView Value Face Content)
    (value : Value) : Prop where
  fetched : s.bindings.length - 1 ∉ s.failed → s.content = c.content value
  failed : s.bindings.length - 1 ∈ s.failed → s.content = none ∨ s.content = c.content value

-- The fetch which arrived last was for the content of the value.
def ArrivedLast (c : ViewClass Value Face Content) (s : BoundView Value Face Content)
    (value : Value) : Prop :=
  ∀ binding ∈ s.arrived.getLast?, s.contentOf c binding = c.content value

def ShowsBound (c : ViewClass Value Face Content) (Shows : Value → Face → Prop)
    (s : BoundView Value Face Content) : Prop :=
  ∀ value, s.IsBoundTo value → Shows value s.face ∧ s.ShowsContent c value

def Event.bound? : Event Value → Option Value
  | .bind value => some value
  | _ => none

def Event.arrived? : Event Value → Option Nat
  | .arrives binding => some binding
  | _ => none

-- The last fetch to arrive, if any arrives, is for the content of the value that is bound last.
def OwnArrivesLast (c : ViewClass Value Face Content) (es : List (Event Value)) : Prop :=
  ∀ value ∈ (es.filterMap Event.bound?).getLast?,
    ∀ binding ∈ (es.filterMap Event.arrived?).getLast?,
      (es.filterMap Event.bound?)[binding]?.bind c.content = c.content value

-- Every binding is accounted for, and the view has what arrived last.
structure Inv (c : ViewClass Value Face Content) (s : BoundView Value Face Content) : Prop where
  face : s.face = s.bindings.foldl (fun face value => c.bind value face) c.new
  content : s.content = s.arrived.getLast?.bind (s.contentOf c)
  started : ∀ binding, binding ∈ s.fetches ∨ binding ∈ s.arrived → (s.contentOf c binding).isSome
  accounted : ∀ binding, (s.contentOf c binding).isSome →
    binding ∈ s.fetches ∨ binding ∈ s.arrived ∨ binding ∈ s.failed

theorem inv_new (c : ViewClass Value Face Content) : (new c).Inv c := by
  constructor
  . rfl
  . rfl
  . intro binding hbinding
    simp [new] at hbinding
  . intro binding hbinding
    simp [new, contentOf] at hbinding

theorem contentOf_bind (value : Value) (binding : Nat)
    : (s.bind c value).contentOf c binding
        =
      if binding = s.bindings.length then c.content value else s.contentOf c binding := by
  unfold contentOf bind
  dsimp only
  split
  . next h => rw [h, List.getElem?_concat_length, Option.bind_some]
  . next h =>
    rw [List.getElem?_append]
    split
    . rfl
    . next hlen =>
      rw [List.getElem?_eq_none (by simp; omega), List.getElem?_eq_none (by omega)]

theorem lt_length_of_contentOf {binding : Nat} (h : (s.contentOf c binding).isSome)
    : binding < s.bindings.length := by
  by_contra hlen
  unfold contentOf at h
  rw [List.getElem?_eq_none (by omega)] at h
  contradiction

theorem contentOf_bind_of_isSome {binding : Nat} (h : (s.contentOf c binding).isSome)
    (value : Value) : (s.bind c value).contentOf c binding = s.contentOf c binding := by
  have hlt := lt_length_of_contentOf h
  rw [contentOf_bind, if_neg (by omega)]

theorem mem_fetches_bind {value : Value} {binding : Nat}
    : binding ∈ (s.bind c value).fetches
        ↔
      binding ∈ s.fetches
        ∨ (binding = s.bindings.length ∧ (c.content value).isSome ∧ c.canFetch value) := by
  unfold bind
  dsimp only
  split
  . next h => simp [h]
  . next h => simp [h]

theorem mem_failed_bind {value : Value} {binding : Nat}
    : binding ∈ (s.bind c value).failed
        ↔
      binding ∈ s.failed
        ∨ (binding = s.bindings.length ∧ (c.content value).isSome ∧ ¬ c.canFetch value) := by
  unfold bind
  dsimp only
  split
  . next h => simp [h]
  . next h =>
    constructor
    . exact Or.inl
    . rintro (hfailed | ⟨_, hnot⟩)
      . exact hfailed
      . exact absurd hnot h

theorem Inv.bind (hs : s.Inv c) (value : Value) : (s.bind c value).Inv c := by
  constructor
  case face =>
    change c.bind value s.face = _
    rw [hs.face]
    unfold BoundView.bind
    rw [List.foldl_append]
    rfl
  case content =>
    change s.content = s.arrived.getLast?.bind _
    rw [hs.content]
    cases hlast : s.arrived.getLast? with
    | none => rfl
    | some binding =>
      have hmem := List.mem_of_getLast? hlast
      exact (contentOf_bind_of_isSome (hs.started binding (Or.inr hmem)) value).symm
  case started =>
    intro binding hbinding
    rw [mem_fetches_bind] at hbinding
    rcases hbinding with (hfetches | ⟨hlast, hcontent, _⟩) | harrived
    . have hstarted := hs.started binding (Or.inl hfetches)
      rw [contentOf_bind_of_isSome hstarted]
      exact hstarted
    . rw [contentOf_bind, if_pos hlast]
      exact hcontent
    . have hstarted := hs.started binding (Or.inr harrived)
      rw [contentOf_bind_of_isSome hstarted]
      exact hstarted
  case accounted =>
    intro binding hcontent
    rw [mem_fetches_bind, mem_failed_bind]
    rw [contentOf_bind] at hcontent
    split at hcontent
    . next hlast =>
      cases hfetch : c.canFetch value with
      | true => exact Or.inl (Or.inr ⟨hlast, hcontent, rfl⟩)
      | false => exact Or.inr (Or.inr (Or.inr ⟨hlast, hcontent, Bool.false_ne_true⟩))
    . rcases hs.accounted binding hcontent with hfetches | harrived | hfailed
      . exact Or.inl (Or.inl hfetches)
      . exact Or.inr (Or.inl harrived)
      . exact Or.inr (Or.inr (Or.inl hfailed))

theorem step_arrives {binding : Nat} (h : (boundView c).step s (.arrives binding) = some s')
    : binding ∈ s.fetches
        ∧ s' = {
            s with
            content := s.contentOf c binding
            fetches := s.fetches.erase binding
            arrived := s.arrived ++ [binding]
          } := by
  simp only [boundView, step] at h
  split at h
  . next hfetches =>
    injection h with h
    exact ⟨hfetches, h.symm⟩
  . contradiction

theorem step_fails {binding : Nat} (h : (boundView c).step s (.fails binding) = some s')
    : binding ∈ s.fetches
        ∧ s' = {
            s with
            fetches := s.fetches.erase binding
            failed := s.failed ++ [binding]
          } := by
  simp only [boundView, step] at h
  split at h
  . next hfetches =>
    injection h with h
    exact ⟨hfetches, h.symm⟩
  . contradiction

theorem mem_erase_or_eq {binding other : Nat} (h : other ∈ s.fetches)
    : other ∈ s.fetches.erase binding ∨ other = binding := by
  by_cases heq : other = binding
  . exact Or.inr heq
  . exact Or.inl ((List.mem_erase_of_ne heq).mpr h)

theorem inv_step {e : Event Value} (hs : s.Inv c) (hstep : (boundView c).step s e = some s')
    : s'.Inv c := by
  cases e with
  | bind value =>
    simp only [boundView, step, Option.some.injEq] at hstep
    rw [← hstep]
    exact hs.bind value
  | arrives binding =>
    rcases step_arrives hstep with ⟨hfetches, hs'⟩
    rw [hs']
    constructor
    case face => exact hs.face
    case content =>
      dsimp only
      rw [List.getLast?_concat]
      rfl
    case started =>
      rintro other (hother | hother)
      . exact hs.started other (Or.inl (List.mem_of_mem_erase hother))
      . rw [List.mem_append, List.mem_singleton] at hother
        cases hother with
        | inl hother => exact hs.started other (Or.inr hother)
        | inr hother =>
          rw [hother]
          exact hs.started binding (Or.inl hfetches)
    case accounted =>
      intro other hother
      rcases hs.accounted other hother with hother | hother | hother
      . cases mem_erase_or_eq hother with
        | inl hrest => exact Or.inl hrest
        | inr heq => exact Or.inr (Or.inl (by simp [heq]))
      . exact Or.inr (Or.inl (List.mem_append_left _ hother))
      . exact Or.inr (Or.inr hother)
  | fails binding =>
    rcases step_fails hstep with ⟨hfetches, hs'⟩
    rw [hs']
    constructor
    case face => exact hs.face
    case content => exact hs.content
    case started =>
      rintro other (hother | hother)
      . exact hs.started other (Or.inl (List.mem_of_mem_erase hother))
      . exact hs.started other (Or.inr hother)
    case accounted =>
      intro other hother
      rcases hs.accounted other hother with hother | hother | hother
      . cases mem_erase_or_eq hother with
        | inl hrest => exact Or.inl hrest
        | inr heq => exact Or.inr (Or.inr (by simp [heq]))
      . exact Or.inr (Or.inl hother)
      . exact Or.inr (Or.inr (List.mem_append_left _ hother))

theorem exec_inv {es : List (Event Value)} (hrun : run c es = some s)
    : s.Inv c := by
  have hpreserves : (boundView c).Preserves (fun s => s.Inv c) :=
    fun _ _ _ hs hstep => inv_step hs hstep
  exact Machine.exec_preserves hpreserves (inv_new c) hrun

theorem exec_history {es : List (Event Value)} (hrun : run c es = some s)
    : s.bindings = es.filterMap Event.bound? ∧ s.arrived = es.filterMap Event.arrived? := by
  have hstep : ∀ (es : List (Event Value)) (s : BoundView Value Face Content) (e : Event Value)
      (s' : BoundView Value Face Content),
      s.bindings = es.filterMap Event.bound? ∧ s.arrived = es.filterMap Event.arrived? →
      (boundView c).step s e = some s' →
      s'.bindings = (es ++ [e]).filterMap Event.bound?
        ∧ s'.arrived = (es ++ [e]).filterMap Event.arrived? := by
    rintro es s e s' ⟨hbindings, harrived⟩ hstep
    rw [List.filterMap_append, List.filterMap_append, ← hbindings, ← harrived]
    cases e with
    | bind value =>
      simp only [boundView, step, Option.some.injEq] at hstep
      rw [← hstep]
      exact ⟨rfl, (List.append_nil _).symm⟩
    | arrives binding =>
      rcases step_arrives hstep with ⟨_, hs'⟩
      rw [hs']
      exact ⟨(List.append_nil _).symm, rfl⟩
    | fails binding =>
      rcases step_fails hstep with ⟨_, hs'⟩
      rw [hs']
      exact ⟨(List.append_nil _).symm, (List.append_nil _).symm⟩
  exact Machine.exec_preserves_history hstep ⟨rfl, rfl⟩ hrun

theorem contentOf_of_isBoundTo {value : Value} (h : s.IsBoundTo value)
    : s.contentOf c (s.bindings.length - 1) = c.content value := by
  unfold IsBoundTo at h
  rw [List.getLast?_eq_getElem?] at h
  unfold contentOf
  rw [h, Option.bind_some]

/--
With all replies in, a view shows the content that it is bound to if and only if no other content
arrived last.
-/
theorem Inv.showsContent_iff_arrivedLast (hs : s.Inv c) (hrest : s.fetches = []) {value : Value}
    (hvalue : s.IsBoundTo value) : s.ShowsContent c value ↔ s.ArrivedLast c value := by
  have hown := contentOf_of_isBoundTo (c := c) hvalue
  have hcontent := hs.content
  unfold ArrivedLast
  cases hlast : s.arrived.getLast? with
  | none =>
    rw [hlast, Option.bind_none] at hcontent
    have harrived := List.getLast?_eq_none_iff.mp hlast
    refine iff_of_true ⟨?_, fun _ => Or.inl hcontent⟩ (by simp)
    intro hfetched
    rw [hcontent, eq_comm, ← Option.not_isSome_iff_eq_none]
    intro hsome
    rw [← hown] at hsome
    rcases hs.accounted _ hsome with h | h | h
    . rw [hrest] at h
      contradiction
    . rw [harrived] at h
      contradiction
    . exact hfetched h
  | some binding =>
    rw [hlast, Option.bind_some] at hcontent
    have hstarted := hs.started binding (Or.inr (List.mem_of_getLast? hlast))
    simp only [Option.mem_some_iff, forall_eq']
    rw [← hcontent] at hstarted ⊢
    constructor
    . intro hshows
      by_cases hfailed : s.bindings.length - 1 ∈ s.failed
      . cases hshows.failed hfailed with
        | inl hnone =>
          rw [hnone] at hstarted
          contradiction
        | inr heq => exact heq
      . exact hshows.fetched hfailed
    . intro heq
      exact ⟨fun _ => heq, fun _ => Or.inr heq⟩

theorem exec_showsBound_iff {Shows : Value → Face → Prop} {es : List (Event Value)}
    (hrun : run c es = some s) (hrest : s.fetches = [])
    (hface : ∀ value, s.IsBoundTo value →
      Shows value (s.bindings.foldl (fun face value => c.bind value face) c.new))
    : s.ShowsBound c Shows ↔ OwnArrivesLast c es := by
  have hs := exec_inv hrun
  rcases exec_history hrun with ⟨hbindings, harrived⟩
  unfold OwnArrivesLast
  rw [← hbindings, ← harrived]
  constructor
  . intro hshows value hvalue
    exact (hs.showsContent_iff_arrivedLast hrest hvalue).mp (hshows value hvalue).right
  . intro hlast value hvalue
    have hshows := hface value hvalue
    rw [← hs.face] at hshows
    exact ⟨hshows, (hs.showsContent_iff_arrivedLast hrest hvalue).mpr (hlast value hvalue)⟩

-- A class without fetches shows its value at once.
theorem exec_showsBound_of_no_content {Shows : Value → Face → Prop} {es : List (Event Value)}
    (hcontent : ∀ value, c.content value = none) (hrun : run c es = some s)
    (hface : ∀ value, s.IsBoundTo value →
      Shows value (s.bindings.foldl (fun face value => c.bind value face) c.new))
    : s.ShowsBound c Shows := by
  have hs := exec_inv hrun
  have hnone : ∀ binding, ¬ (s.contentOf c binding).isSome := by
    intro binding
    unfold contentOf
    cases s.bindings[binding]? with
    | none => simp
    | some value => simp [hcontent value]
  have hfetches : s.fetches = [] := by
    rw [List.eq_nil_iff_forall_not_mem]
    intro binding hbinding
    exact hnone binding (hs.started binding (Or.inl hbinding))
  have harrived : es.filterMap Event.arrived? = [] := by
    rw [← (exec_history hrun).right, List.eq_nil_iff_forall_not_mem]
    intro binding hbinding
    exact hnone binding (hs.started binding (Or.inr hbinding))
  rw [exec_showsBound_iff hrun hfetches hface]
  intro value _ binding hbinding
  rw [harrived] at hbinding
  contradiction

end BoundView
