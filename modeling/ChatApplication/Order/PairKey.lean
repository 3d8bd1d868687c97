import Mathlib.Data.Sym.Sym2.Order

/-!
This module contains keys for unordered pairs: the encodings of both elements one after another, the
one of the larger element first.
-/

variable {α : Type u} {β : Type v} [LinearOrder α]

namespace List

def pairKey (encode : α → List β) (a b : α) : List β :=
  if b < a then encode a ++ encode b else encode b ++ encode a

variable {encode : α → List β} {n : Nat}

theorem pairKey_comm (a b : α) : pairKey encode a b = pairKey encode b a := by
  unfold pairKey
  rcases lt_trichotomy a b with h | h | h
  . rw [if_neg (not_lt_of_gt h), if_pos h]
  . rw [h]
  . rw [if_pos h, if_neg (not_lt_of_gt h)]

theorem length_pairKey (hlen : ∀ a, (encode a).length = n) (a b : α)
    : (pairKey encode a b).length = n + n := by
  unfold pairKey
  split
  . rw [length_append, hlen, hlen]
  . rw [length_append, hlen, hlen]

theorem pairKey_eq_max_append_min (a b : α)
    : pairKey encode a b = encode (max a b) ++ encode (min a b) := by
  unfold pairKey
  split
  . next h =>
    rw [max_eq_left_of_lt h, min_eq_right_of_lt h]
  . next h =>
    rw [max_eq_right (not_lt.mp h), min_eq_left (not_lt.mp h)]

-- Encodings of one common length need no separator between them.
theorem pairKey_eq_pairKey_iff (hlen : ∀ a, (encode a).length = n)
    (hinj : Function.Injective encode) (a b c d : α)
    : pairKey encode a b = pairKey encode c d ↔ s(a, b) = s(c, d) := by
  constructor
  . intro h
    rw [pairKey_eq_max_append_min, pairKey_eq_max_append_min] at h
    have hsplit := append_inj h (by rw [hlen, hlen])
    have hmax := hinj hsplit.left
    have hmin := hinj hsplit.right
    rw [← Sym2.inf_eq_inf_and_sup_eq_sup]
    exact ⟨hmin, hmax⟩
  . intro h
    rw [Sym2.eq_iff] at h
    cases h with
    | inl h => rw [h.left, h.right]
    | inr h => rw [h.left, h.right, pairKey_comm]

end List
