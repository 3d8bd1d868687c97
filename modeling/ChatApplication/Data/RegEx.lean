import Mathlib.Data.List.Basic

/-!
This module contains regular expressions over sets of characters, with counted repetition and
lookahead. They are matched by collecting what every match of a prefix leaves over, so a lookahead
is an expression like any other.
-/

inductive RegEx where
  | set (p : Char → Bool)
  -- `p{n,}`
  | atLeast (n : Nat) (p : Char → Bool)
  | seq (lhs rhs : RegEx)
  -- `(?=expr)`
  | lookahead (expr : RegEx)

namespace RegEx

def restsAtLeast (p : Char → Bool) : Nat → List Char → List (List Char)
  | 0, [] => [[]]
  | _ + 1, [] => []
  | 0, c :: cs => if p c then (c :: cs) :: restsAtLeast p 0 cs else [c :: cs]
  | n + 1, c :: cs => if p c then restsAtLeast p n cs else []

def rests : RegEx → List Char → List (List Char)
  | .set _, [] => []
  | .set p, c :: cs => if p c then [cs] else []
  | .atLeast n p, cs => restsAtLeast p n cs
  | .seq lhs rhs, cs => (lhs.rests cs).flatMap rhs.rests
  | .lookahead expr, cs => if expr.rests cs = [] then [] else [cs]

-- the whole list is matched
def fullMatch (expr : RegEx) (cs : List Char) : Bool :=
  [] ∈ expr.rests cs

-- how a match of `p{n,}` goes on from a character to the next ones
theorem exists_cons_split_iff {p : Char → Bool} {n : Nat} {c : Char} {cs rest : List Char}
    : (∃ before, c :: cs = before ++ rest ∧ n ≤ before.length ∧ ∀ d ∈ before, p d)
        ↔
      (n = 0 ∧ rest = c :: cs)
        ∨
      (p c ∧ ∃ before, cs = before ++ rest ∧ n ≤ before.length + 1 ∧ ∀ d ∈ before, p d) := by
  constructor
  . rintro ⟨before, hsplit, hlength, hbefore⟩
    cases before with
    | nil => exact Or.inl ⟨Nat.le_zero.mp hlength, hsplit.symm⟩
    | cons d before =>
      rw [List.cons_append, List.cons.injEq] at hsplit
      rw [List.forall_mem_cons] at hbefore
      rw [hsplit.left]
      exact Or.inr ⟨hbefore.left, before, hsplit.right, hlength, hbefore.right⟩
  . rintro (⟨hn, hrest⟩ | ⟨hc, before, hsplit, hlength, hbefore⟩)
    . rw [hn, hrest]
      exact ⟨[], rfl, Nat.zero_le 0, by simp⟩
    . rw [hsplit]
      refine ⟨c :: before, rfl, hlength, ?_⟩
      rw [List.forall_mem_cons]
      exact ⟨hc, hbefore⟩

theorem mem_restsAtLeast {p : Char → Bool} {n : Nat} {cs rest : List Char}
    : rest ∈ restsAtLeast p n cs
        ↔
      ∃ before, cs = before ++ rest ∧ n ≤ before.length ∧ ∀ c ∈ before, p c := by
  induction cs generalizing n with
  | nil =>
    cases n with
    | zero =>
      rw [restsAtLeast, List.mem_singleton]
      constructor
      . intro h
        rw [h]
        exact ⟨[], rfl, Nat.zero_le 0, by simp⟩
      . rintro ⟨before, hsplit, _⟩
        exact (List.append_eq_nil_iff.mp hsplit.symm).right
    | succ n =>
      simp only [restsAtLeast, List.not_mem_nil, false_iff]
      rintro ⟨before, hsplit, hlength, _⟩
      rw [(List.append_eq_nil_iff.mp hsplit.symm).left] at hlength
      contradiction
  | cons c cs ih =>
    rw [exists_cons_split_iff]
    cases n with
    | zero =>
      unfold restsAtLeast
      split
      . next hc => simp [ih, hc]
      . next hc => simp [hc]
    | succ n =>
      unfold restsAtLeast
      split
      . next hc => simp [ih, hc]
      . next hc => simp [hc]

theorem fullMatch_atLeast {p : Char → Bool} {n : Nat} {cs : List Char}
    : (atLeast n p).fullMatch cs ↔ n ≤ cs.length ∧ ∀ c ∈ cs, p c := by
  simp [fullMatch, rests, mem_restsAtLeast]

theorem mem_rests_seq {lhs rhs : RegEx} {cs rest : List Char}
    : rest ∈ (seq lhs rhs).rests cs ↔ ∃ between ∈ lhs.rests cs, rest ∈ rhs.rests between := by
  simp [rests]

theorem mem_rests_lookahead {expr : RegEx} {cs rest : List Char}
    : rest ∈ (lookahead expr).rests cs ↔ (∃ behind, behind ∈ expr.rests cs) ∧ rest = cs := by
  rw [rests]
  split
  . next h => simp [h]
  . next h => simp [List.exists_mem_of_ne_nil _ h]

theorem mem_rests_set {p : Char → Bool} {cs rest : List Char}
    : rest ∈ (set p).rests cs ↔ ∃ c, p c ∧ cs = c :: rest := by
  cases cs with
  | nil => simp [rests]
  | cons c cs =>
    rw [rests]
    split
    . next hc =>
      rw [List.mem_singleton]
      constructor
      . intro h
        rw [h]
        exact ⟨c, hc, rfl⟩
      . rintro ⟨d, _, hcons⟩
        injection hcons with _ hcons
        exact hcons.symm
    . next hc =>
      simp only [List.not_mem_nil, false_iff]
      rintro ⟨d, hd, hcons⟩
      injection hcons with hcons
      rw [hcons] at hc
      contradiction

theorem fullMatch_seq_set {p : Char → Bool} {expr : RegEx} {cs : List Char}
    : (seq (set p) expr).fullMatch cs ↔ ∃ c rest, cs = c :: rest ∧ p c ∧ expr.fullMatch rest := by
  unfold fullMatch
  simp only [decide_eq_true_eq, mem_rests_seq, mem_rests_set]
  constructor
  . rintro ⟨rest, ⟨c, hc, hcs⟩, hrest⟩
    exact ⟨c, rest, hcs, hc, hrest⟩
  . rintro ⟨c, rest, hcs, hc, hrest⟩
    exact ⟨rest, ⟨c, hc, hcs⟩, hrest⟩

theorem fullMatch_seq_atLeast {p : Char → Bool} {n : Nat} {expr : RegEx} {cs : List Char}
    : (seq (atLeast n p) expr).fullMatch cs
        ↔
      ∃ before rest, cs = before ++ rest ∧ n ≤ before.length ∧ (∀ c ∈ before, p c)
        ∧ expr.fullMatch rest := by
  unfold fullMatch
  simp only [decide_eq_true_eq, mem_rests_seq]
  constructor
  . rintro ⟨rest, hsplit, hrest⟩
    rw [rests, mem_restsAtLeast] at hsplit
    rcases hsplit with ⟨before, hcs, hlength, hbefore⟩
    exact ⟨before, rest, hcs, hlength, hbefore, hrest⟩
  . rintro ⟨before, rest, hcs, hlength, hbefore, hrest⟩
    refine ⟨rest, ?_, hrest⟩
    rw [rests, mem_restsAtLeast]
    exact ⟨before, hcs, hlength, hbefore⟩

theorem fullMatch_of_seq_lookahead {lhs rhs : RegEx} {cs : List Char}
    (h : (seq (lookahead lhs) rhs).fullMatch cs) : rhs.fullMatch cs := by
  unfold fullMatch at h ⊢
  rw [decide_eq_true_eq, mem_rests_seq] at h
  rcases h with ⟨between, hbetween, hrest⟩
  rw [mem_rests_lookahead] at hbetween
  rw [hbetween.right] at hrest
  exact decide_eq_true hrest

-- a lookahead for a character behind others, such as `(?=.*[0-9])`
theorem fullMatch_seq_lookahead {p q : Char → Bool} {expr : RegEx} {cs : List Char}
    (h : ∀ c ∈ cs, p c)
    : (seq (lookahead (seq (atLeast 0 p) (set q))) expr).fullMatch cs
        ↔
      (∃ c ∈ cs, q c) ∧ expr.fullMatch cs := by
  have hahead : (∃ behind, behind ∈ (seq (atLeast 0 p) (set q)).rests cs) ↔ ∃ c ∈ cs, q c := by
    constructor
    . rintro ⟨behind, hbehind⟩
      rw [mem_rests_seq] at hbehind
      rcases hbehind with ⟨between, hbetween, hset⟩
      rw [rests, mem_restsAtLeast] at hbetween
      rw [mem_rests_set] at hset
      rcases hbetween with ⟨before, hsplit, _⟩
      rcases hset with ⟨c, hc, hcons⟩
      refine ⟨c, ?_, hc⟩
      rw [hsplit, hcons]
      simp
    . rintro ⟨c, hmem, hc⟩
      rcases List.append_of_mem hmem with ⟨before, behind, hsplit⟩
      refine ⟨behind, ?_⟩
      rw [mem_rests_seq]
      refine ⟨c :: behind, ?_, ?_⟩
      . rw [rests, mem_restsAtLeast]
        refine ⟨before, hsplit, Nat.zero_le _, ?_⟩
        intro d hd
        apply h
        rw [hsplit]
        exact List.mem_append_left _ hd
      . rw [mem_rests_set]
        exact ⟨c, hc, rfl⟩
  unfold fullMatch
  rw [decide_eq_true_eq, decide_eq_true_eq, mem_rests_seq, ← hahead]
  constructor
  . rintro ⟨between, hbetween, hrest⟩
    rw [mem_rests_lookahead] at hbetween
    rw [hbetween.right] at hrest
    exact ⟨hbetween.left, hrest⟩
  . rintro ⟨hbehind, hrest⟩
    refine ⟨cs, ?_, hrest⟩
    rw [mem_rests_lookahead]
    exact ⟨hbehind, rfl⟩

-- The expression does not tell characters apart that have the same image.
def Respects (f : Char → Char) : RegEx → Prop
  | .set p => ∀ c, p (f c) = p c
  | .atLeast _ p => ∀ c, p (f c) = p c
  | .seq lhs rhs => lhs.Respects f ∧ rhs.Respects f
  | .lookahead expr => expr.Respects f

theorem restsAtLeast_map {f : Char → Char} {p : Char → Bool} (h : ∀ c, p (f c) = p c) (n : Nat)
    (cs : List Char)
    : restsAtLeast p n (cs.map f) = (restsAtLeast p n cs).map (List.map f) := by
  induction cs generalizing n with
  | nil =>
    cases n with
    | zero => rfl
    | succ n => rfl
  | cons c cs ih =>
    cases n with
    | zero =>
      simp only [List.map_cons, restsAtLeast, h, ih]
      split
      . rfl
      . rfl
    | succ n =>
      simp only [List.map_cons, restsAtLeast, h, ih]
      split
      . rfl
      . rfl

theorem rests_map {f : Char → Char} {expr : RegEx} (h : expr.Respects f) (cs : List Char)
    : expr.rests (cs.map f) = (expr.rests cs).map (List.map f) := by
  induction expr generalizing cs with
  | set p =>
    cases cs with
    | nil => rfl
    | cons c cs =>
      simp only [List.map_cons, rests, h c]
      split
      . rfl
      . rfl
  | atLeast n p => exact restsAtLeast_map h n cs
  | seq lhs rhs ihl ihr =>
    simp only [rests, ihl h.left, List.flatMap_map, List.map_flatMap, ihr h.right]
  | lookahead expr ih =>
    simp only [rests, ih h, List.map_eq_nil_iff]
    split
    . rfl
    . rfl

theorem fullMatch_map {f : Char → Char} {expr : RegEx} (h : expr.Respects f) (cs : List Char)
    : expr.fullMatch (cs.map f) = expr.fullMatch cs := by
  unfold fullMatch
  rw [rests_map h]
  simp

end RegEx
