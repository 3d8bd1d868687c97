import Mathlib.Data.List.Induction
import Mathlib.Order.Basic

/-!
This module contains deterministic machines that take one event at a time. Nondeterminism of a
system, such as the order in which replies arrive, lives in the event list that a run is given, so
a statement about every interleaving is a statement about every event list.
-/

/--
A machine over states `σ` and events `ε`. `step s e` is `none` if the event `e` cannot happen in
the state `s`.
-/
structure Machine (σ : Type u) (ε : Type v) where
  step : σ → ε → Option σ

namespace Machine

variable {σ : Type u} {ε : Type v} (m : Machine σ ε)

def exec (s : σ) : List ε → Option σ
  | [] => some s
  | e :: es =>
    match m.step s e with
    | none => none
    | some s' => exec s' es

@[simp]
theorem exec_nil (s : σ) : m.exec s [] = some s := by
  rfl

theorem exec_cons (s : σ) (e : ε) (es : List ε)
    : m.exec s (e :: es) = (m.step s e).bind (fun s' => m.exec s' es) := by
  cases hstep : m.step s e with
  | none => simp [exec, hstep]
  | some s' => simp [exec, hstep]

theorem exec_cons_eq_some {s t : σ} {e : ε} {es : List ε}
    : m.exec s (e :: es) = some t ↔ ∃ s', m.step s e = some s' ∧ m.exec s' es = some t := by
  rw [exec_cons]
  exact Option.bind_eq_some_iff

theorem exec_append (s : σ) (es fs : List ε)
    : m.exec s (es ++ fs) = (m.exec s es).bind (fun s' => m.exec s' fs) := by
  induction es generalizing s with
  | nil => rfl
  | cons e es ih =>
    rw [List.cons_append, exec_cons, exec_cons, Option.bind_assoc]
    congr 1
    funext s'
    exact ih s'

theorem exec_append_eq_some {s t : σ} {es fs : List ε}
    : m.exec s (es ++ fs) = some t ↔ ∃ s', m.exec s es = some s' ∧ m.exec s' fs = some t := by
  rw [exec_append]
  exact Option.bind_eq_some_iff

theorem exec_concat_eq_some {s t : σ} {es : List ε} {e : ε}
    : m.exec s (es ++ [e]) = some t ↔ ∃ s', m.exec s es = some s' ∧ m.step s' e = some t := by
  rw [exec_append_eq_some]
  constructor
  . rintro ⟨s', hrun, hlast⟩
    rw [exec_cons_eq_some] at hlast
    rcases hlast with ⟨t', hstep, hnil⟩
    rw [exec_nil] at hnil
    injection hnil with hnil
    rw [hnil] at hstep
    exact ⟨s', hrun, hstep⟩
  . rintro ⟨s', hrun, hstep⟩
    refine ⟨s', hrun, ?_⟩
    rw [exec_cons_eq_some]
    exact ⟨t, hstep, rfl⟩

def Meets (C : σ → ε → σ → Prop) (s : σ) : List ε → Prop
  | [] => True
  -- a run that reaches an event which cannot happen stops there and has no further steps
  | e :: es => ∀ s', m.step s e = some s' → C s e s' ∧ Meets C s' es

instance decidableMeets (C : σ → ε → σ → Prop) [∀ s e s', Decidable (C s e s')] (s : σ)
    : (es : List ε) → Decidable (m.Meets C s es)
  | [] => isTrue trivial
  | e :: es =>
    match hstep : m.step s e with
    | none => isTrue (fun s' h => by rw [hstep] at h; contradiction)
    | some s' =>
      have := decidableMeets C s' es
      decidable_of_iff (C s e s' ∧ m.Meets C s' es) (by
        constructor
        . intro h t ht
          rw [hstep] at ht
          injection ht with ht
          rw [← ht]
          exact h
        . intro h
          exact h s' hstep)

variable {m} {C D : σ → ε → σ → Prop} {Inv : σ → Prop}

@[simp]
theorem meets_nil (s : σ) : m.Meets C s [] := by
  trivial

theorem Meets.mid {s s₁ s₂ : σ} {pre post : List ε} {e : ε} (h : m.Meets C s (pre ++ e :: post))
    (hpre : m.exec s pre = some s₁) (hstep : m.step s₁ e = some s₂) : C s₁ e s₂ := by
  induction pre generalizing s with
  | nil =>
    rw [exec_nil] at hpre
    injection hpre with hpre
    rw [← hpre] at hstep
    rw [← hpre]
    exact (h s₂ hstep).left
  | cons d pre ih =>
    rw [exec_cons_eq_some] at hpre
    rcases hpre with ⟨s', hd, hpre⟩
    exact ih (h s' hd).right hpre

theorem Meets.append_left {s : σ} {es fs : List ε} (h : m.Meets C s (es ++ fs))
    : m.Meets C s es := by
  induction es generalizing s with
  | nil => trivial
  | cons e es ih =>
    intro s' hstep
    have hnext := h s' hstep
    exact ⟨hnext.left, ih hnext.right⟩

theorem Meets.append_right {s s' : σ} {es fs : List ε} (h : m.Meets C s (es ++ fs))
    (hrun : m.exec s es = some s') : m.Meets C s' fs := by
  induction es generalizing s with
  | nil =>
    rw [exec_nil] at hrun
    injection hrun with hrun
    rw [← hrun]
    exact h
  | cons e es ih =>
    rw [exec_cons_eq_some] at hrun
    rcases hrun with ⟨t, hstep, hrun⟩
    exact ih (h t hstep).right hrun

theorem Meets.imp {s : σ} {es : List ε} (hCD : ∀ s e s', C s e s' → D s e s')
    (h : m.Meets C s es) : m.Meets D s es := by
  induction es generalizing s with
  | nil => trivial
  | cons e es ih =>
    intro s' hstep
    have hnext := h s' hstep
    exact ⟨hCD s e s' hnext.left, ih hnext.right⟩

theorem Meets.and {s : σ} {es : List ε} (hC : m.Meets C s es) (hD : m.Meets D s es)
    : m.Meets (fun s e s' => C s e s' ∧ D s e s') s es := by
  induction es generalizing s with
  | nil => trivial
  | cons e es ih =>
    intro s' hstep
    have hnextC := hC s' hstep
    have hnextD := hD s' hstep
    exact ⟨⟨hnextC.left, hnextD.left⟩, ih hnextC.right hnextD.right⟩

def Preserves (m : Machine σ ε) (Inv : σ → Prop) : Prop :=
  ∀ s e s', Inv s → m.step s e = some s' → Inv s'

theorem exec_preserves (hInv : m.Preserves Inv) {s t : σ} {es : List ε} (hs : Inv s)
    (hrun : m.exec s es = some t) : Inv t := by
  induction es generalizing s with
  | nil =>
    rw [exec_nil] at hrun
    injection hrun with hrun
    rw [← hrun]
    exact hs
  | cons e es ih =>
    rw [exec_cons_eq_some] at hrun
    rcases hrun with ⟨s', hstep, hrun⟩
    exact ih (hInv s e s' hs hstep) hrun

-- The invariant may speak about the events so far, so the induction takes the last event off.
theorem exec_preserves_history_of_meets {Inv : List ε → σ → Prop}
    (hInv : ∀ es s e s', Inv es s → m.step s e = some s' → C s e s' → Inv (es ++ [e]) s')
    {s t : σ} {es : List ε} (hs : Inv [] s) (hrun : m.exec s es = some t) (hC : m.Meets C s es)
    : Inv es t := by
  induction es using List.reverseRecOn generalizing t with
  | nil =>
    rw [exec_nil] at hrun
    injection hrun with hrun
    rw [← hrun]
    exact hs
  | append_singleton es e ih =>
    rw [exec_concat_eq_some] at hrun
    rcases hrun with ⟨s', hrun, hstep⟩
    have hlast := hC.mid hrun hstep
    exact hInv es s' e t (ih hrun hC.append_left) hstep hlast

theorem exec_preserves_of_meets (hInv : ∀ s e s', Inv s → m.step s e = some s' → C s e s' → Inv s')
    {s t : σ} {es : List ε} (hs : Inv s) (hrun : m.exec s es = some t) (hC : m.Meets C s es)
    : Inv t := by
  have hhistory : ∀ (_ : List ε) s e s', Inv s → m.step s e = some s' → C s e s' → Inv s' :=
    fun _ => hInv
  exact exec_preserves_history_of_meets hhistory hs hrun hC

-- Under an assumption `A` about the run, two conditions on its steps say the same if they do so in
-- every state of an invariant. It need only survive steps that meet `C`, so it may depend on `C`.
theorem meets_congr_of_meets {A : σ → ε → σ → Prop}
    (hInv : ∀ s e s', Inv s → m.step s e = some s' → A s e s' → C s e s' → Inv s')
    (hCD : ∀ s e s', Inv s → m.step s e = some s' → A s e s' → (C s e s' ↔ D s e s'))
    {s : σ} {es : List ε} (hs : Inv s) (hA : m.Meets A s es)
    : m.Meets C s es ↔ m.Meets D s es := by
  induction es generalizing s with
  | nil => simp
  | cons e es ih =>
    constructor
    . intro h s' hstep
      have hnext := h s' hstep
      have hassumed := hA s' hstep
      have hs' := hInv s e s' hs hstep hassumed.left hnext.left
      refine ⟨(hCD s e s' hs hstep hassumed.left).mp hnext.left, ?_⟩
      exact (ih hs' hassumed.right).mp hnext.right
    . intro h s' hstep
      have hnext := h s' hstep
      have hassumed := hA s' hstep
      have hC := (hCD s e s' hs hstep hassumed.left).mpr hnext.left
      have hs' := hInv s e s' hs hstep hassumed.left hC
      exact ⟨hC, (ih hs' hassumed.right).mpr hnext.right⟩

theorem meets_of_forall_mem {P : ε → Prop} (s : σ) {es : List ε} (h : ∀ e ∈ es, P e)
    : m.Meets (fun _ e _ => P e) s es := by
  induction es generalizing s with
  | nil => trivial
  | cons e es ih =>
    rw [List.forall_mem_cons] at h
    intro s' hstep
    exact ⟨h.left, ih s' h.right⟩

theorem meets_of_preserves (hInv : m.Preserves Inv)
    (hC : ∀ s e s', Inv s → m.step s e = some s' → C s e s') {s : σ} (hs : Inv s) (es : List ε)
    : m.Meets C s es := by
  induction es generalizing s with
  | nil => trivial
  | cons e es ih =>
    intro s' hstep
    exact ⟨hC s e s' hs hstep, ih (hInv s e s' hs hstep)⟩

theorem exec_preserves_history {Inv : List ε → σ → Prop}
    (hInv : ∀ es s e s', Inv es s → m.step s e = some s' → Inv (es ++ [e]) s')
    {s t : σ} {es : List ε} (hs : Inv [] s) (hrun : m.exec s es = some t) : Inv es t := by
  have htrue : m.Meets (fun _ _ _ => True) s es := meets_of_forall_mem s (fun _ _ => trivial)
  refine exec_preserves_history_of_meets ?_ hs hrun htrue
  intro es s e s' hs hstep _
  exact hInv es s e s' hs hstep

theorem meets_congr (hInv : ∀ s e s', Inv s → m.step s e = some s' → C s e s' → Inv s')
    (hCD : ∀ s e s', Inv s → m.step s e = some s' → (C s e s' ↔ D s e s'))
    {s : σ} {es : List ε} (hs : Inv s) : m.Meets C s es ↔ m.Meets D s es := by
  have htrue : m.Meets (fun _ _ _ => True) s es := meets_of_forall_mem s (fun _ _ => trivial)
  apply meets_congr_of_meets _ _ hs htrue
  . intro s e s' hs hstep _ hC
    exact hInv s e s' hs hstep hC
  . intro s e s' hs hstep _
    exact hCD s e s' hs hstep

-- What never decreases stays the same over a run if and only if every step leaves it as it is.
theorem le_and_meets_iff_of_exec {α : Type w} [PartialOrder α] {f : σ → α}
    (hInv : m.Preserves Inv) (hle : ∀ s e s', Inv s → m.step s e = some s' → f s ≤ f s')
    (hC : ∀ s e s', Inv s → m.step s e = some s' → (C s e s' ↔ f s' = f s))
    {s t : σ} {es : List ε} (hs : Inv s) (hrun : m.exec s es = some t)
    : f s ≤ f t ∧ (m.Meets C s es ↔ f t = f s) := by
  induction es generalizing s with
  | nil =>
    rw [exec_nil] at hrun
    injection hrun with hrun
    rw [hrun]
    simp
  | cons e es ih =>
    rw [exec_cons_eq_some] at hrun
    rcases hrun with ⟨s', hstep, hrun⟩
    have hfirst := hle s e s' hs hstep
    rcases ih (hInv s e s' hs hstep) hrun with ⟨hrest, hmeets⟩
    refine ⟨hfirst.trans hrest, ?_⟩
    constructor
    . intro h
      have hnext := h s' hstep
      rw [hmeets.mp hnext.right]
      exact (hC s e s' hs hstep).mp hnext.left
    . intro h s'' hstep'
      rw [hstep] at hstep'
      injection hstep' with hstep'
      rw [← hstep']
      rw [← h] at hfirst
      have heq := le_antisymm hrest hfirst
      refine ⟨?_, ?_⟩
      . rw [hC s e s' hs hstep, heq, h]
      . rw [hmeets, heq]

end Machine
