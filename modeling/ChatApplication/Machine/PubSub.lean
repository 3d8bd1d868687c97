import Mathlib.Data.List.Perm.Basic
import Mathlib.Data.List.Nodup
import ChatApplication.Machine.Basic

/-!
This module contains publishing and subscribing by topic. Items are published once, a subscriber is
handed those of its topic at any later time, in portions of any size and in any order.
-/

structure PubSub (κ : Type u) (α : Type v) where
  -- what has been published, under which topic
  log : List (κ × α)
  -- the topic of a subscriber, and what it has been handed so far
  subscribers : List (κ × List α)
  deriving DecidableEq, Repr

namespace PubSub

inductive Event (κ : Type u) (α : Type v) where
  | publish (topic : κ) (item : α)
  | subscribe (topic : κ)
  | deliver (subscriber : Nat) (items : List α)
  deriving DecidableEq, Repr

variable {κ : Type u} {α : Type v}

def init : PubSub κ α :=
  ⟨[], []⟩

def items (s : PubSub κ α) : List α :=
  s.log.map Prod.snd

variable [DecidableEq κ]

-- the items of a topic, in the order in which they were published
def topic (s : PubSub κ α) (topic : κ) : List α :=
  (s.log.filter (fun entry => entry.1 = topic)).map Prod.snd

def step [DecidableEq α] (s : PubSub κ α) : Event κ α → Option (PubSub κ α)
  | .publish topic item =>
    if item ∈ s.items then none else some { s with log := s.log ++ [(topic, item)] }
  | .subscribe topic => some { s with subscribers := s.subscribers ++ [(topic, [])] }
  | .deliver subscriber items =>
    match s.subscribers[subscriber]? with
    | some (topic, delivered) =>
      if items.Nodup ∧ ∀ item ∈ items, item ∈ s.topic topic ∧ item ∉ delivered then
        some { s with subscribers := s.subscribers.set subscriber (topic, delivered ++ items) }
      else
        none
    | none => none

end PubSub

def pubSub (κ : Type u) (α : Type v) [DecidableEq κ] [DecidableEq α]
    : Machine (PubSub κ α) (PubSub.Event κ α) :=
  ⟨PubSub.step⟩

namespace PubSub

variable {κ : Type u} {α : Type v} [DecidableEq κ]

-- No item is published twice, and none is handed to a subscriber twice or from another topic.
structure Inv (s : PubSub κ α) : Prop where
  nodup : s.items.Nodup
  delivered : ∀ subscriber ∈ s.subscribers, subscriber.2.Nodup
    ∧ ∀ item ∈ subscriber.2, item ∈ s.topic subscriber.1

-- The subscriber has been handed all there is of its topic.
def UpToDate (s : PubSub κ α) (subscriber : κ × List α) : Prop :=
  ∀ item ∈ s.topic subscriber.1, item ∈ subscriber.2

instance [DecidableEq α] (s : PubSub κ α) (subscriber : κ × List α)
    : Decidable (s.UpToDate subscriber) :=
  inferInstanceAs (Decidable (∀ item ∈ s.topic subscriber.1, item ∈ subscriber.2))

theorem mem_topic {s : PubSub κ α} {topic : κ} {item : α}
    : item ∈ s.topic topic ↔ (topic, item) ∈ s.log := by
  simp [PubSub.topic]

theorem Inv.nodup_topic {s : PubSub κ α} (hs : s.Inv) (topic : κ) : (s.topic topic).Nodup := by
  apply List.Nodup.sublist _ hs.nodup
  exact List.filter_sublist.map Prod.snd

theorem inv_init : (init : PubSub κ α).Inv := by
  constructor
  . exact List.nodup_nil
  . intro subscriber hsubscriber
    contradiction

section Steps

variable [DecidableEq α]

theorem step_publish {s s' : PubSub κ α} {topic : κ} {item : α}
    (h : (pubSub κ α).step s (.publish topic item) = some s')
    : item ∉ s.items ∧ s' = { s with log := s.log ++ [(topic, item)] } := by
  simp only [pubSub, step] at h
  split at h
  . contradiction
  . next hnew =>
    injection h with h
    exact ⟨hnew, h.symm⟩

theorem step_deliver {s s' : PubSub κ α} {subscriber : Nat} {items : List α}
    (h : (pubSub κ α).step s (.deliver subscriber items) = some s')
    : ∃ topic delivered, s.subscribers[subscriber]? = some (topic, delivered)
        ∧ items.Nodup ∧ (∀ item ∈ items, item ∈ s.topic topic ∧ item ∉ delivered)
        ∧ s' = {
            s with
            subscribers := s.subscribers.set subscriber (topic, delivered ++ items)
          } := by
  simp only [pubSub, step] at h
  split at h
  . next topic delivered hsubscriber =>
    split at h
    . next hguard =>
      injection h with h
      exact ⟨topic, delivered, hsubscriber, hguard.left, hguard.right, h.symm⟩
    . contradiction
  . contradiction

theorem inv_step (s : PubSub κ α) (e : Event κ α) (s' : PubSub κ α) (hs : s.Inv)
    (hstep : (pubSub κ α).step s e = some s') : s'.Inv := by
  cases e with
  | publish topic item =>
    rcases step_publish hstep with ⟨hnew, hs'⟩
    rw [hs']
    constructor
    . unfold items
      rw [List.map_append, List.nodup_append]
      refine ⟨hs.nodup, List.nodup_singleton _, ?_⟩
      intro old hold new hmem heq
      rw [List.map_singleton, List.mem_singleton] at hmem
      rw [heq, hmem] at hold
      exact hnew hold
    . intro subscriber hsubscriber
      rcases hs.delivered subscriber hsubscriber with ⟨hnodup, htopic⟩
      refine ⟨hnodup, ?_⟩
      intro item' hitem'
      have hold := htopic item' hitem'
      rw [mem_topic] at hold ⊢
      exact List.mem_append_left _ hold
  | subscribe topic =>
    simp only [pubSub, step, Option.some.injEq] at hstep
    rw [← hstep]
    constructor
    . exact hs.nodup
    . rw [List.forall_mem_append, List.forall_mem_singleton]
      refine ⟨hs.delivered, List.nodup_nil, ?_⟩
      intro item hitem
      contradiction
  | deliver subscriber items =>
    rcases step_deliver hstep with ⟨topic, delivered, hsubscriber, hitems, hguard, hs'⟩
    rcases hs.delivered _ (List.mem_of_getElem? hsubscriber) with ⟨hdelivered, htopic⟩
    rw [hs']
    constructor
    . exact hs.nodup
    . intro other hother
      cases List.mem_or_eq_of_mem_set hother with
      | inl hother => exact hs.delivered other hother
      | inr heq =>
        rw [heq]
        refine ⟨?_, ?_⟩
        . rw [List.nodup_append]
          refine ⟨hdelivered, hitems, ?_⟩
          intro old hold new hnew hsame
          rw [hsame] at hold
          exact (hguard new hnew).right hold
        . intro item hitem
          rw [List.mem_append] at hitem
          cases hitem with
          | inl hold => exact htopic item hold
          | inr hnew => exact (hguard item hnew).left

end Steps

/-- Whoever is up to date has been handed the topic, each item once. -/
theorem Inv.perm_topic {s : PubSub κ α} (hs : s.Inv) {subscriber : κ × List α}
    (hsubscriber : subscriber ∈ s.subscribers) (h : s.UpToDate subscriber)
    : subscriber.2.Perm (s.topic subscriber.1) := by
  rcases hs.delivered subscriber hsubscriber with ⟨hnodup, htopic⟩
  rw [List.perm_ext_iff_of_nodup hnodup (hs.nodup_topic _)]
  intro item
  exact ⟨htopic item, h item⟩

end PubSub
