import Mathlib.Data.List.Nodup
import ChatApplication.Data.Positions
import ChatApplication.Machine.Basic

/-!
This module contains a store for contents of any kind. A content is uploaded under a new name, after
that a link to it is handed out. What is behind a link never changes.
-/

structure Uploading (ρ : Type u) (α : Type v) (κ : Type w) where
  name : ρ
  content : α
  -- what goes on when the link is there
  completion : κ
  stored : Bool
  deriving DecidableEq, Repr

structure LinkStore (ρ : Type u) (α : Type v) (κ : Type w) (υ : Type x) where
  -- the names made up so far
  names : List ρ
  contents : List (ρ × α)
  links : List (υ × ρ)
  uploads : List (Uploading ρ α κ)
  deriving DecidableEq, Repr

namespace LinkStore

inductive Event (ρ : Type u) (α : Type v) (κ : Type w) (υ : Type x) where
  | start (name : ρ) (content : α) (completion : κ)
  -- the content of an upload arrives
  | store (i : Nat)
  | finish (i : Nat) (link : υ)
  | fail (i : Nat)
  deriving DecidableEq, Repr

variable {ρ : Type u} {α : Type v} {κ : Type w} {υ : Type x} [DecidableEq ρ] [DecidableEq υ]

def init : LinkStore ρ α κ υ :=
  {
    names := []
    contents := []
    links := []
    uploads := []
  }

-- what is behind a link
def content? (s : LinkStore ρ α κ υ) (link : υ) : Option α :=
  (s.links.lookup link).bind (fun name => s.contents.lookup name)

def step (s : LinkStore ρ α κ υ) : Event ρ α κ υ → Option (LinkStore ρ α κ υ)
  | .start name content completion =>
    if name ∈ s.names then
      none
    else
      some {
        s with
        names := name :: s.names
        uploads := s.uploads ++ [⟨name, content, completion, false⟩]
      }
  | .store i =>
    match s.uploads[i]? with
    | some ⟨name, content, completion, false⟩ =>
      some {
        s with
        contents := (name, content) :: s.contents
        uploads := s.uploads.set i ⟨name, content, completion, true⟩
      }
    | _ => none
  | .finish i link =>
    match s.uploads[i]? with
    | some ⟨name, _, _, true⟩ =>
      if ∀ entry ∈ s.links, entry.1 ≠ link then
        some { s with links := (link, name) :: s.links, uploads := s.uploads.eraseIdx i }
      else
        none
    | _ => none
  | .fail i =>
    if i < s.uploads.length then some { s with uploads := s.uploads.eraseIdx i } else none

end LinkStore

def linkStore (ρ : Type u) (α : Type v) (κ : Type w) (υ : Type x) [DecidableEq ρ] [DecidableEq υ]
    : Machine (LinkStore ρ α κ υ) (LinkStore.Event ρ α κ υ) :=
  ⟨LinkStore.step⟩

namespace LinkStore

variable {ρ : Type u} {α : Type v} {κ : Type w} {υ : Type x} [DecidableEq ρ]

structure Inv (s : LinkStore ρ α κ υ) : Prop where
  names : ∀ upload ∈ s.uploads, upload.name ∈ s.names
  nodup : (s.uploads.map Uploading.name).Nodup
  stored : ∀ upload ∈ s.uploads, upload.stored = true →
    s.contents.lookup upload.name = some upload.content
  -- a name with a link is not uploaded any more
  linked : ∀ entry ∈ s.links, entry.2 ∈ s.names ∧ ∀ upload ∈ s.uploads, upload.name ≠ entry.2

theorem inv_init : (init : LinkStore ρ α κ υ).Inv := by
  constructor
  case nodup => exact List.nodup_nil
  all_goals
    intros
    contradiction

theorem Inv.eraseIdx {s : LinkStore ρ α κ υ} (hs : s.Inv) (i : Nat)
    : Inv { s with uploads := s.uploads.eraseIdx i } := by
  constructor
  . intro upload hupload
    exact hs.names upload (List.mem_of_mem_eraseIdx hupload)
  . exact ((List.eraseIdx_sublist s.uploads i).map Uploading.name).nodup hs.nodup
  . intro upload hupload
    exact hs.stored upload (List.mem_of_mem_eraseIdx hupload)
  . intro entry hentry
    rcases hs.linked entry hentry with ⟨hname, huploads⟩
    refine ⟨hname, ?_⟩
    intro upload hupload
    exact huploads upload (List.mem_of_mem_eraseIdx hupload)

theorem Inv.ne_of_mem_eraseIdx {s : LinkStore ρ α κ υ} (hs : s.Inv) {i : Nat}
    {upload other : Uploading ρ α κ} (hupload : s.uploads[i]? = some upload)
    (hother : other ∈ s.uploads.eraseIdx i) : other.name ≠ upload.name := by
  have hnodup := hs.nodup
  have hperm := (List.cons_eraseIdx_perm hupload).map Uploading.name
  rw [← hperm.nodup_iff, List.map_cons, List.nodup_cons] at hnodup
  intro heq
  apply hnodup.left
  rw [← heq]
  exact List.mem_map_of_mem hother

variable [DecidableEq υ]

theorem step_start {s s' : LinkStore ρ α κ υ} {name : ρ} {content : α} {completion : κ}
    (h : (linkStore ρ α κ υ).step s (.start name content completion) = some s')
    : name ∉ s.names
        ∧ s' = {
            s with
            names := name :: s.names
            uploads := s.uploads ++ [⟨name, content, completion, false⟩]
          } := by
  simp only [linkStore, step] at h
  split at h
  . contradiction
  . next hname =>
    injection h with h
    exact ⟨hname, h.symm⟩

theorem step_store {s s' : LinkStore ρ α κ υ} {i : Nat}
    (h : (linkStore ρ α κ υ).step s (.store i) = some s')
    : ∃ name content completion, s.uploads[i]? = some ⟨name, content, completion, false⟩
        ∧ s' = {
            s with
            contents := (name, content) :: s.contents
            uploads := s.uploads.set i ⟨name, content, completion, true⟩
          } := by
  simp only [linkStore, step] at h
  split at h
  . next name content completion hupload =>
    injection h with h
    exact ⟨name, content, completion, hupload, h.symm⟩
  . contradiction

theorem step_finish {s s' : LinkStore ρ α κ υ} {i : Nat} {link : υ}
    (h : (linkStore ρ α κ υ).step s (.finish i link) = some s')
    : ∃ name content completion, s.uploads[i]? = some ⟨name, content, completion, true⟩
        ∧ (∀ entry ∈ s.links, entry.1 ≠ link)
        ∧ s' = { s with links := (link, name) :: s.links, uploads := s.uploads.eraseIdx i } := by
  simp only [linkStore, step] at h
  split at h
  . next name content completion hupload =>
    split at h
    . next hlink =>
      injection h with h
      exact ⟨name, content, completion, hupload, hlink, h.symm⟩
    . contradiction
  . contradiction

theorem step_fail {s s' : LinkStore ρ α κ υ} {i : Nat}
    (h : (linkStore ρ α κ υ).step s (.fail i) = some s')
    : i < s.uploads.length ∧ s' = { s with uploads := s.uploads.eraseIdx i } := by
  simp only [linkStore, step] at h
  split at h
  . next hi =>
    injection h with h
    exact ⟨hi, h.symm⟩
  . contradiction

theorem inv_step {s s' : LinkStore ρ α κ υ} {e : Event ρ α κ υ} (hs : s.Inv)
    (hstep : (linkStore ρ α κ υ).step s e = some s') : s'.Inv := by
  cases e with
  | start name content completion =>
    rcases step_start hstep with ⟨hname, hs'⟩
    rw [hs']
    constructor
    . intro upload hupload
      rw [List.mem_append, List.mem_singleton] at hupload
      cases hupload with
      | inl hold => exact List.mem_cons_of_mem _ (hs.names upload hold)
      | inr hnew =>
        rw [hnew]
        exact List.mem_cons_self
    . rw [List.map_append, List.nodup_append]
      refine ⟨hs.nodup, List.nodup_singleton _, ?_⟩
      intro old hold new hnew heq
      rw [List.mem_map] at hold
      rcases hold with ⟨upload, hupload, hupload'⟩
      rw [List.map_singleton, List.mem_singleton] at hnew
      change new = name at hnew
      apply hname
      rw [hnew] at heq
      rw [← heq, ← hupload']
      exact hs.names upload hupload
    . intro upload hupload hstored
      rw [List.mem_append, List.mem_singleton] at hupload
      cases hupload with
      | inl hold => exact hs.stored upload hold hstored
      | inr hnew =>
        rw [hnew] at hstored
        contradiction
    . intro entry hentry
      rcases hs.linked entry hentry with ⟨hlinked, huploads⟩
      refine ⟨List.mem_cons_of_mem _ hlinked, ?_⟩
      intro upload hupload
      rw [List.mem_append, List.mem_singleton] at hupload
      cases hupload with
      | inl hold => exact huploads upload hold
      | inr hnew =>
        rw [hnew]
        intro heq
        apply hname
        rw [← heq] at hlinked
        exact hlinked
  | store i =>
    rcases step_store hstep with ⟨name, content, completion, hupload, hs'⟩
    have hset : ∀ other ∈ s.uploads.set i ⟨name, content, completion, true⟩,
        (other ∈ s.uploads.eraseIdx i) ∨ other = ⟨name, content, completion, true⟩ := by
      intro other hother
      rw [(List.set_perm_cons_eraseIdx_of_getElem? hupload _).mem_iff, List.mem_cons] at hother
      exact hother.symm
    have hmem : (⟨name, content, completion, false⟩ : Uploading ρ α κ) ∈ s.uploads := by
      exact List.mem_of_getElem? hupload
    rw [hs']
    constructor
    . intro other hother
      cases hset other hother with
      | inl hold => exact hs.names other (List.mem_of_mem_eraseIdx hold)
      | inr hnew =>
        rw [hnew]
        exact hs.names ⟨name, content, completion, false⟩ hmem
    . have hnames : (s.uploads.set i ⟨name, content, completion, true⟩).map Uploading.name
          = s.uploads.map Uploading.name := by
        exact List.map_set_of_eq hupload rfl
      rw [hnames]
      exact hs.nodup
    . intro other hother hstored
      rw [List.lookup_cons]
      cases hset other hother with
      | inl hold =>
        have hne := hs.ne_of_mem_eraseIdx hupload hold
        rw [beq_eq_false_iff_ne.mpr hne]
        exact hs.stored other (List.mem_of_mem_eraseIdx hold) hstored
      | inr hnew =>
        rw [hnew, beq_self_eq_true]
    . intro entry hentry
      rcases hs.linked entry hentry with ⟨hlinked, huploads⟩
      refine ⟨hlinked, ?_⟩
      intro other hother
      cases hset other hother with
      | inl hold => exact huploads other (List.mem_of_mem_eraseIdx hold)
      | inr hnew =>
        rw [hnew]
        exact huploads ⟨name, content, completion, false⟩ hmem
  | finish i link =>
    rcases step_finish hstep with ⟨name, content, completion, hupload, _, hs'⟩
    have hrest := hs.eraseIdx i
    rw [hs']
    refine ⟨hrest.names, hrest.nodup, hrest.stored, ?_⟩
    rw [List.forall_mem_cons]
    refine ⟨⟨hs.names _ (List.mem_of_getElem? hupload), ?_⟩, hrest.linked⟩
    intro other hother
    exact hs.ne_of_mem_eraseIdx hupload hother
  | fail i =>
    rw [(step_fail hstep).right]
    exact hs.eraseIdx i

omit [DecidableEq ρ] in
theorem mem_links_of_lookup {s : LinkStore ρ α κ υ} {link : υ} {name : ρ}
    (h : s.links.lookup link = some name) : (link, name) ∈ s.links := by
  rw [List.lookup_eq_some_iff] at h
  rcases h with ⟨before, after, heq, _⟩
  rw [heq]
  exact List.mem_append_right _ List.mem_cons_self

/-- What is behind a link stays there. -/
theorem Inv.content?_step {s s' : LinkStore ρ α κ υ} {e : Event ρ α κ υ} (hs : s.Inv)
    (hstep : (linkStore ρ α κ υ).step s e = some s') {link : υ} {content : α}
    (hcontent : s.content? link = some content) : s'.content? link = some content := by
  cases e with
  | start name content' completion =>
    rw [(step_start hstep).right]
    exact hcontent
  | store i =>
    rcases step_store hstep with ⟨name, content', completion, hupload, hs'⟩
    unfold content? at *
    rw [Option.bind_eq_some_iff] at hcontent
    rcases hcontent with ⟨linked, hlink, hlookup⟩
    have hentry : (link, linked) ∈ s.links := mem_links_of_lookup hlink
    have hne := (hs.linked _ hentry).right _ (List.mem_of_getElem? hupload)
    rw [hs']
    dsimp only
    rw [hlink, Option.bind_some, List.lookup_cons, beq_eq_false_iff_ne.mpr (Ne.symm hne)]
    exact hlookup
  | finish i link' =>
    rcases step_finish hstep with ⟨name, content', completion, _, hnew, hs'⟩
    unfold content? at *
    rw [Option.bind_eq_some_iff] at hcontent
    rcases hcontent with ⟨linked, hlink, hlookup⟩
    have hentry : (link, linked) ∈ s.links := mem_links_of_lookup hlink
    rw [hs']
    dsimp only
    rw [List.lookup_cons, beq_eq_false_iff_ne.mpr (hnew _ hentry), hlink, Option.bind_some]
    exact hlookup
  | fail i =>
    rw [(step_fail hstep).right]
    exact hcontent

/-- The link of an upload leads to what was uploaded. -/
theorem Inv.content?_finish {s s' : LinkStore ρ α κ υ} (hs : s.Inv) {i : Nat} {link : υ}
    (hstep : (linkStore ρ α κ υ).step s (.finish i link) = some s') {upload : Uploading ρ α κ}
    (hupload : s.uploads[i]? = some upload) : s'.content? link = some upload.content := by
  rcases step_finish hstep with ⟨name, content, completion, hupload', _, hs'⟩
  rw [hupload] at hupload'
  injection hupload' with heq
  have hstored := hs.stored upload (List.mem_of_getElem? hupload) (by rw [heq])
  rw [heq] at hstored ⊢
  rw [hs', content?, List.lookup_cons, beq_self_eq_true]
  exact hstored

end LinkStore
