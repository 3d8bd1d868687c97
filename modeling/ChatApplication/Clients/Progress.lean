import Mathlib.Data.Prod.Lex
import ChatApplication.Clients.Lists
import ChatApplication.Machine.Progress

/-!
This module contains that the store never gets stuck: in whatever order the requests are served that
the screens have made, they all come to an end.
-/

namespace ChatApplication

namespace Operation

def isRequest (operation : Operation) : Bool :=
  match operation.awaiting with
  | some (.request _) => true
  | some (.reply _) | none => false

def isReply (operation : Operation) : Bool :=
  match operation.awaiting with
  | some (.reply _) => true
  | some (.request _) | none => false

end Operation

namespace Backend

variable {s s' : Backend}

-- the reads that are not at Firestore yet, those on their way back, and the writes
def remaining (s : Backend) : Nat ×ₗ Nat ×ₗ Nat :=
  toLex (s.operations.countP Operation.isRequest,
    toLex (s.operations.countP Operation.isReply, s.pending.length))

theorem remaining_perform {i : Nat} {now : Date} (hstep : backend.step s (.perform i now) = some s')
    : s'.remaining < s.remaining := by
  unfold remaining
  rw [Prod.Lex.toLex_lt_toLex, Prod.Lex.toLex_lt_toLex]
  rcases step_perform hstep with ⟨write, issued, awaiting, hoperation, hs'⟩
    | ⟨read, reply, hoperation, _, hs'⟩ | ⟨reply, issued, hoperation, _, hs'⟩
  . right
    rw [hs']
    refine ⟨List.countP_set_of_eq hoperation rfl, Or.inr ⟨List.countP_set_of_eq hoperation rfl, ?_⟩⟩
    have hlength := List.length_flatMap_set_add hoperation Operation.issued ⟨issued, awaiting⟩
    dsimp only [List.length_cons] at hlength
    change ((s.operations.set i ⟨issued, awaiting⟩).flatMap Operation.issued).length
      < (s.operations.flatMap Operation.issued).length
    omega
  . left
    rw [hs']
    have hcount := List.countP_set_add Operation.isRequest hoperation
      (b := ⟨[], some (.reply reply)⟩)
    change _ + 1 = _ + 0 at hcount
    change (s.operations.set i ⟨[], some (.reply reply)⟩).countP Operation.isRequest < _
    omega
  . right
    rw [hs']
    refine ⟨List.countP_set_of_eq hoperation rfl, Or.inl ?_⟩
    have hcount := List.countP_set_add Operation.isReply hoperation (b := ⟨issued, none⟩)
    change _ + 1 = _ + 0 at hcount
    change (s.operations.set i ⟨issued, none⟩).countP Operation.isReply < _
    omega

theorem exists_fetch {read : Read} (hsound : s.Sound (.request read))
    (hcreators : ∀ group ∈ s.groups,
      (s.db.getDocument (DatabaseManager.userPath group.creator)).isSome)
    : ∃ reply, s.fetch read = some reply := by
  cases read with
  | groupMembers otherUser =>
    rcases hsound with ⟨uid, hidentity⟩
    rcases exists_of_identity hidentity with ⟨group, hgroup, _⟩
    rw [fetch, hgroup]
    exact ⟨_, rfl⟩
  | creator uid object selectedUsers =>
    rcases hsound with ⟨group, hgroup, hcreator, _⟩
    have hprofile := hcreators group hgroup
    rw [hcreator, Option.isSome_iff_exists] at hprofile
    rcases hprofile with ⟨data, hdata⟩
    rw [fetch, DatabaseManager.fetchUser, hdata]
    exact ⟨_, rfl⟩

theorem exists_answer {reply : Reply} (hsound : s.Sound (.reply reply)) (now : Date)
    : ∃ issued, s.answer now reply = some issued := by
  cases reply with
  | groupMembers otherUser seen documents =>
    rcases hsound with ⟨uid, hidentity, hdocuments⟩
    rcases exists_of_identity hidentity with ⟨group, hgroup, _⟩
    have hdecodes : (DatabaseManager.decodeUsers now documents).isSome := by
      apply DatabaseManager.decodeUsers_isSome
      intro document hdocument
      rcases hdocuments document hdocument with ⟨user, _, _, hdata⟩
      rw [hdata, User.init_dictionary]
      rfl
    rw [Option.isSome_iff_exists] at hdecodes
    rcases hdecodes with ⟨users, husers⟩
    rw [answer, hgroup, husers]
    exact ⟨_, rfl⟩
  | creator object selectedUsers data =>
    rcases hsound with ⟨group, _, hcreates, user, _, _, hdata⟩
    rcases exists_of_identity hcreates.left with ⟨group', hgroup', _⟩
    rw [answer, hdata, User.init_dictionary, hgroup']
    exact ⟨_, rfl⟩

-- A write is never refused.
theorem exists_perform_write (h : s.pending ≠ [])
    : ∃ i s', backend.step s (.perform i 0) = some s' := by
  rw [pending, ne_eq, List.flatMap_eq_nil_iff] at h
  simp only [not_forall] at h
  rcases h with ⟨operation, hoperation, hissued⟩
  rcases List.mem_iff_getElem?.mp hoperation with ⟨i, hi⟩
  rcases operation with ⟨issued, awaiting⟩
  cases issued with
  | nil => exact absurd rfl hissued
  | cons write issued =>
    refine ⟨i, s.performWrite i write issued awaiting, ?_⟩
    simp only [backend, step, hi]

-- A write that is not outstanding any more has been stored.
theorem Touches.stored {path : Path} (h : s.Touches path) (hpending : s.pending = [])
    : (s.db.getDocument path).isSome := by
  rcases h with ⟨data, hdata | ⟨write, hwrite, _⟩⟩
  . rw [hdata]
    rfl
  . rw [hpending] at hwrite
    contradiction

-- Neither are the reads, once there are no more writes.
theorem MembershipInv.exists_perform (hs : s.MembershipInv)
    (hcreators : ∀ group ∈ s.groups, s.Touches (DatabaseManager.userPath group.creator))
    (h : ¬ s.Quiescent) : ∃ i s', backend.step s (.perform i 0) = some s' := by
  by_cases hpending : s.pending = []
  . rw [Quiescent] at h
    simp only [not_forall] at h
    rcases h with ⟨operation, hoperation, hfinished⟩
    rcases List.mem_iff_getElem?.mp hoperation with ⟨i, hi⟩
    refine ⟨i, ?_⟩
    have hissued : operation.issued = [] := by
      rw [pending, List.flatMap_eq_nil_iff] at hpending
      exact hpending operation hoperation
    rcases operation with ⟨issued, awaiting⟩
    dsimp only at hissued
    rw [hissued] at hi hoperation hfinished
    cases awaiting with
    | none => exact absurd ⟨rfl, rfl⟩ hfinished
    | some awaiting =>
      have hsound := hs.awaiting _ hoperation awaiting rfl
      cases awaiting with
      | request read =>
        have hstored : ∀ group ∈ s.groups,
            (s.db.getDocument (DatabaseManager.userPath group.creator)).isSome := by
          intro group hgroup
          exact (hcreators group hgroup).stored hpending
        rcases exists_fetch hsound hstored with ⟨reply, hreply⟩
        refine ⟨s.receive i reply, ?_⟩
        simp only [backend, step, hi, hreply]
      | reply reply =>
        rcases exists_answer hsound 0 with ⟨issued, hissued⟩
        refine ⟨s.issue i issued, ?_⟩
        simp only [backend, step, hi, hissued]
  . exact exists_perform_write hpending

end Backend

namespace Clients

variable {Image : Type u} {Data : Type v} {pngData : Image → Option Data}

def IsPerform : Event Image → Prop
  | .perform _ _ => True
  | _ => False

-- The accounts that have created groups have signed up, their profiles are stored or will be.
def CreatorsSignedUp (s : Clients Data) : Prop :=
  ∀ id ∈ s.groups, s.server.Touches (DatabaseManager.userPath id.creator.value)

theorem SourcesInv.creators_touched {Opens : AuthUid → Source → Prop} {s : Clients Data}
    (hs : s.SourcesInv Opens) (hcreators : s.CreatorsSignedUp) {group : Group}
    (hgroup : group ∈ s.server.groups)
    : s.server.Touches (DatabaseManager.userPath group.creator) := by
  rcases hs.exists_id hgroup with ⟨id, hid, _, hcreator⟩
  rw [← hcreator]
  exact hcreators id hid

theorem step_of_perform {s : Clients Data} {i : Nat} {now : Date} {server' : Backend}
    (h : backend.step s.server (.perform i now) = some server')
    : (clients pngData).step s (.perform i now) = some { s with server := server' } := by
  have hserver : s.server.step (.perform i now) = some server' := h
  simp only [clients, step, hserver]

/--
However the requests that are outstanding are served, the store comes to rest.
-/
theorem comes_to_rest (pngData : Image → Option Data) (es : List (Event Image)) {s : Clients Data}
    (hrun : (clients pngData).exec init es = some s) (hown : (clients pngData).Meets OwnRows init es)
    (hcreators : s.CreatorsSignedUp)
    : (clients pngData).Settles (fun _ e => IsPerform e) (fun t => t.server.Quiescent) s := by
  have hlt : ∀ (s : Clients Data) (e : Event Image) (s' : Clients Data),
      s.OwnInv ∧ s.CreatorsSignedUp → IsPerform e → (clients pngData).step s e = some s' →
        (s'.OwnInv ∧ s'.CreatorsSignedUp) ∧ s'.server.remaining < s.server.remaining := by
    rintro s e s' ⟨hs, hcreators⟩ he hstep
    cases e with
    | perform i now =>
      have hs' := ownInv_step hs hstep trivial
      rcases step_perform hstep with ⟨server', hserver, heq⟩
      rw [heq] at hs' ⊢
      refine ⟨⟨hs', ?_⟩, Backend.remaining_perform hserver⟩
      intro id hid
      exact Backend.touches_step hserver (hcreators id hid)
    | _ => contradiction
  have hprogress : ∀ s : Clients Data, s.OwnInv ∧ s.CreatorsSignedUp → ¬ s.server.Quiescent →
      ∃ (e : Event Image) (s' : Clients Data),
        IsPerform e ∧ (clients pngData).step s e = some s' := by
    rintro s ⟨hs, hcreators⟩ hrest
    rcases hs.membership.exists_perform
      (fun group hgroup => hs.sources.creators_touched hcreators hgroup) hrest
      with ⟨i, server', hserver⟩
    exact ⟨.perform i 0, { s with server := server' }, trivial, step_of_perform hserver⟩
  exact Machine.settles_of_lt (fun t => t.server.remaining) hlt hprogress
    ⟨ownInv_of_run hrun hown, hcreators⟩

-- The new group is about to be put among the recent users of its members.
theorem comes_to_rest_teamRun
    : ∃ s, (clients (fun image => some image)).exec init (teamRun.take 9) = some s
        ∧ ¬ s.server.Quiescent
        ∧ (clients (fun image => some image)).Settles (fun _ e => IsPerform e)
            (fun t => t.server.Quiescent) s := by
  refine ⟨_, rfl, by decide, ?_⟩
  refine comes_to_rest (fun image => some image) (teamRun.take 9) rfl (by decide) ?_
  intro id hid
  have heq : id = team := List.mem_singleton.mp hid
  rw [heq]
  exact ⟨_, Or.inl rfl⟩

end Clients

end ChatApplication
