import ChatApplication.API.Membership.Invariant

/-!
This module contains what the relation between users is when no operation is half done.
-/

namespace ChatApplication

namespace Backend

/-
A group is complete from the completion of the `fetchUser` of its creator on. If that user has no
document then the completion is never called, and the operation never finishes.
-/

-- The completion that is waited for adds the members to `group`.
def Adds (s : Backend) (group : Group) : Awaiting → Prop
  | .request (.creator _ object selectedUsers) => s.Creates group object selectedUsers
  | .reply (.creator object selectedUsers _) => s.Creates group object selectedUsers
  | .request (.groupMembers _) | .reply (.groupMembers _ _ _) => False

theorem Extends.adds {s s' : Backend} (h : Extends s s') {group : Group} {awaiting : Awaiting}
    (hadds : s.Adds group awaiting) : s'.Adds group awaiting := by
  match awaiting with
  | .request (.creator uid object selectedUsers) => exact h.creates hadds
  | .reply (.creator object selectedUsers data) => exact h.creates hadds

theorem adds_of_fetch {s : Backend} {group : Group} {read : Read} {reply : Reply}
    (hadds : s.Adds group (.request read)) (h : s.fetch read = some reply)
    : s.Adds group (.reply reply) := by
  cases read with
  | groupMembers otherUser => contradiction
  | creator uid object selectedUsers =>
    rcases fetch_creator h with ⟨data, _, hreply⟩
    rw [hreply]
    exact hadds

def CompleteGroup (s : Backend) (group : Group) : Prop :=
  s.Awaits (s.Adds group)
    ∨
  ∀ uid ∈ group.members, s.Touches (DatabaseManager.recentUserPath group.uid uid)

def Complete (s : Backend) : Prop :=
  ∀ group ∈ s.groups, s.CompleteGroup group

theorem Complete.extend {s s' : Backend} (hs : s.Complete) (h : Extends s s')
    (hoperations : ∀ operation ∈ s.operations, operation ∈ s'.operations)
    (htouches : ∀ path, s.Touches path → s'.Touches path) {group : Group}
    (hgroup : group ∈ s.groups)
    : s'.CompleteGroup group := by
  cases hs group hgroup with
  | inl hawaiting =>
    left
    exact hawaiting.imp hoperations (fun _ hadds => h.adds hadds)
  | inr hmembers =>
    right
    intro uid huid
    exact htouches _ (hmembers uid huid)

theorem touches_start {s : Backend} {operation : Operation} {path : Path} (h : s.Touches path)
    : (s.start operation).Touches path := by
  rcases h with ⟨data, hdata⟩
  exact ⟨data, touched_start.mpr (Or.inl hdata)⟩

theorem touches_receive {s : Backend} {i : Nat} {awaiting : Option Awaiting} {reply : Reply}
    (h : s.operations[i]? = some ⟨[], awaiting⟩) {path : Path} (htouches : s.Touches path)
    : (s.receive i reply).Touches path := by
  rcases htouches with ⟨data, hdata⟩
  exact ⟨data, (touched_receive h).mpr hdata⟩

theorem touches_issue {s : Backend} {i : Nat} {awaiting : Option Awaiting} {issued : List Write}
    (h : s.operations[i]? = some ⟨[], awaiting⟩) {path : Path} (htouches : s.Touches path)
    : (s.issue i issued).Touches path := by
  rcases htouches with ⟨data, hdata⟩
  exact ⟨data, (touched_issue h).mpr (Or.inl hdata)⟩

theorem touches_issue_of_mem {s : Backend} {i : Nat} {awaiting : Option Awaiting}
    {issued : List Write} (h : s.operations[i]? = some ⟨[], awaiting⟩) {write : Write} (hwrite : write ∈ issued)
    : (s.issue i issued).Touches write.path := by
  exact ⟨write.data, (touched_issue h).mpr (Or.inr ⟨write, hwrite, rfl, rfl⟩)⟩

theorem MembershipInv.exists_write_of_answer_creator {s : Backend} (hs : s.MembershipInv)
    {now : Date} {group : Group} {object : Nat} {selectedUsers : List Nat} {data : Dictionary}
    {issued : List Write} (hgroup : group ∈ s.groups)
    (hsound : s.Sound (.reply (.creator object selectedUsers data)))
    (hcreates : s.Creates group object selectedUsers)
    (h : s.answer now (.creator object selectedUsers data) = some issued)
    {uid : DocumentID} (huid : uid ∈ group.members)
    : ∃ write ∈ issued, write.path = DatabaseManager.recentUserPath group.uid uid := by
  rcases answer_creator h with ⟨currentUser, user, hcurrentUser, huser, hissued⟩
  have hcurrentUid : currentUser.uid = group.creator := by
    rcases hsound with ⟨group', hgroup', hcreates', creator, _, hcreator, hdata⟩
    have hsame := hcreates'.left
    rw [hcreates.left, Option.some.injEq, Prod.mk.injEq] at hsame
    rw [hdata, User.init_dictionary] at hcurrentUser
    injection hcurrentUser with hcurrentUser
    rw [← hcurrentUser, hcreator, hs.distinct group hgroup group' hgroup' hsame.left]
  have hidentity := identity_of_getElem? huser
  rw [hcreates.left, Option.some.injEq, Prod.mk.injEq] at hidentity
  have hwrite : ∀ member
      ∈ selectedUsers.filterMap (fun object => s.objects[object]?) ++ [currentUser],
      ∃ write ∈ issued, write.path = DatabaseManager.recentUserPath group.uid member.uid := by
    intro member hmember
    refine ⟨⟨_, member.dictionary, .fresh⟩, ?_, rfl⟩
    rw [hissued, DatabaseManager.mem_addGroupUsers]
    refine ⟨member, hmember, ?_⟩
    rw [DatabaseManager.mem_membershipWrites, hidentity.left]
    exact Or.inr rfl
  rw [Group.members, List.mem_append, List.mem_singleton] at huid
  cases huid with
  | inl hselected =>
    have hmap : some (uid, false) ∈ selectedUsers.map s.identity := by
      rw [hcreates.right]
      exact List.mem_map_of_mem hselected
    rw [List.mem_map] at hmap
    rcases hmap with ⟨selected, hmem, hselected⟩
    unfold identity at hselected
    rw [Option.map_eq_some_iff] at hselected
    rcases hselected with ⟨member, hmember, heq⟩
    rw [Prod.mk.injEq] at heq
    rw [← heq.left]
    apply hwrite
    apply List.mem_append_left
    rw [List.mem_filterMap]
    exact ⟨selected, hmem, hmember⟩
  | inr hcreator =>
    rw [hcreator, ← hcurrentUid]
    apply hwrite
    apply List.mem_append_right
    rw [List.mem_singleton]

theorem MembershipInv.exists_write_of_answer {s : Backend} (hs : s.MembershipInv) {now : Date}
    {group : Group} {reply : Reply} {issued : List Write} (hgroup : group ∈ s.groups)
    (hsound : s.Sound (.reply reply)) (hadds : s.Adds group (.reply reply))
    (h : s.answer now reply = some issued) {uid : DocumentID} (huid : uid ∈ group.members)
    : ∃ write ∈ issued, write.path = DatabaseManager.recentUserPath group.uid uid := by
  cases reply with
  | groupMembers otherUser seen documents => contradiction
  | creator object selectedUsers data =>
    exact hs.exists_write_of_answer_creator hgroup hsound hadds h huid

theorem Complete.createGroup {s s' : Backend} (hs : s.Complete) {uid : DocumentID}
    {uuid usersId groupName url : String} {selectedUsers : List Nat} {date now : Date}
    (hstep : backend.step s (.createGroup uid uuid usersId groupName url selectedUsers date now)
      = some s') : s'.Complete := by
  have hextends := extends_step hstep
  rcases step_createGroup hstep with ⟨_, hselected, user, _, hisGroup, hs'⟩
  have hgroups : s'.groups = s.groups ++ [⟨user.uid, uid, s.selectedUids selectedUsers⟩] := by
    rw [hs']
    rfl
  intro group hgroup
  rw [hgroups, List.mem_append, List.mem_singleton] at hgroup
  cases hgroup with
  | inl hold =>
    rw [hs'] at hextends ⊢
    apply hs.extend hextends _ _ hold
    . intro operation hoperation
      exact List.mem_append_left _ hoperation
    . intro path hpath
      exact touches_start hpath
  | inr hnew =>
    left
    rw [hnew, hs']
    apply awaits_start rfl
    exact creates_createGroup hisGroup uid hselected

theorem Complete.performWrite {s : Backend} (hs : s.Complete) {i : Nat} {write : Write}
    {issued : List Write} {awaiting : Option Awaiting}
    (hoperation : s.operations[i]? = some ⟨write :: issued, awaiting⟩)
    : (s.performWrite i write issued awaiting).Complete := by
  have hextends : Extends s (s.performWrite i write issued awaiting) := extends_of_eq rfl rfl rfl
  intro group hgroup
  cases hs group hgroup with
  | inl hawaiting =>
    left
    exact (hawaiting.performWrite hoperation).imp (fun _ h => h) (fun _ hadds => hextends.adds hadds)
  | inr hmembers =>
    right
    intro uid huid
    exact touches_performWrite hoperation (hmembers uid huid)

theorem Complete.receive {s : Backend} (hs : s.Complete) {i : Nat} {read : Read} {reply : Reply}
    (hoperation : s.operations[i]? = some ⟨[], some (.request read)⟩)
    (hfetch : s.fetch read = some reply) : (s.receive i reply).Complete := by
  have hextends : Extends s (s.receive i reply) := extends_of_eq rfl rfl rfl
  intro group hgroup
  cases hs group hgroup with
  | inl hawaiting =>
    left
    have hreply := hawaiting.receive hoperation (fun hadds => adds_of_fetch hadds hfetch)
    exact hreply.imp (fun _ h => h) (fun _ hadds => hextends.adds hadds)
  | inr hmembers =>
    right
    intro uid huid
    exact touches_receive hoperation (hmembers uid huid)

theorem Complete.issue {s : Backend} (hs : s.Complete) (hinv : s.MembershipInv) {i : Nat}
    {now : Date} {reply : Reply} {issued : List Write}
    (hoperation : s.operations[i]? = some ⟨[], some (.reply reply)⟩)
    (hanswer : s.answer now reply = some issued) : (s.issue i issued).Complete := by
  have hextends : Extends s (s.issue i issued) := extends_of_eq rfl rfl rfl
  have hsound := hinv.awaiting _ (List.mem_of_getElem? hoperation) _ rfl
  intro group hgroup
  cases hs group hgroup with
  | inl hawaiting =>
    cases hawaiting.issue hoperation issued with
    | inl hadds =>
      right
      intro uid huid
      rcases hinv.exists_write_of_answer hgroup hsound hadds hanswer huid
        with ⟨write, hwrite, hpath⟩
      rw [← hpath]
      exact touches_issue_of_mem hoperation hwrite
    | inr hlater =>
      left
      exact hlater.imp (fun _ h => h) (fun _ hadds => hextends.adds hadds)
  | inr hmembers =>
    right
    intro uid huid
    exact touches_issue hoperation (hmembers uid huid)

theorem complete_step {s : Backend} {e : Event} {s' : Backend} (hs : s.Complete)
    (hinv : s.MembershipInv) (hstep : backend.step s e = some s') : s'.Complete := by
  have hextends := extends_step hstep
  cases e with
  | createAccount uid =>
    rw [step_createAccount hstep] at hextends ⊢
    intro group hgroup
    exact hs.extend hextends (fun _ h => h) (fun _ h => h) hgroup
  | signup uid firstName lastName email url date now =>
    rcases step_signup hstep with ⟨_, user, _, _, hs'⟩
    rw [hs'] at hextends ⊢
    intro group hgroup
    refine hs.extend hextends ?_ (fun _ h => touches_start h) hgroup
    intro operation hoperation
    exact List.mem_append_left _ hoperation
  | load path now =>
    rcases step_load hstep with ⟨_, data, user, _, _, hs'⟩
    rw [hs'] at hextends ⊢
    intro group hgroup
    exact hs.extend hextends (fun _ h => h) (fun _ h => h) hgroup
  | createGroup uid uuid usersId groupName url selectedUsers date now => exact hs.createGroup hstep
  | addMessage message currentUser otherUser date date' documentID =>
    rcases step_addMessage hstep with ⟨objects, user, user', hobjects, _, _, hs'⟩
    rw [hs'] at hextends ⊢
    intro group hgroup
    refine hs.extend hextends ?_ ?_ hgroup
    . intro operation hoperation
      exact List.mem_append_left _ hoperation
    . intro path hpath
      exact touches_start (s := { s with objects := objects }) hpath
  | perform i now =>
    rcases step_perform hstep with hwrite | hrequest | hreply
    . rcases hwrite with ⟨write, issued, awaiting, hoperation, hs'⟩
      rw [hs']
      exact hs.performWrite hoperation
    . rcases hrequest with ⟨read, reply, hoperation, hfetch, hs'⟩
      rw [hs']
      exact hs.receive hoperation hfetch
    . rcases hreply with ⟨reply, issued, hoperation, hanswer, hs'⟩
      rw [hs']
      exact hs.issue hinv hoperation hanswer

theorem exec_membershipInv {es : List Event} {s : Backend} (h : backend.exec init es = some s)
    (hadmissible : backend.Meets Admissible init es) : s.MembershipInv ∧ s.Complete := by
  have hinit : init.MembershipInv ∧ init.Complete := by
    refine ⟨membershipInv_init, ?_⟩
    intro group hgroup
    contradiction
  have hpreserves : ∀ (s : Backend) e s', s.MembershipInv ∧ s.Complete →
      backend.step s e = some s' → Admissible s e s' → s'.MembershipInv ∧ s'.Complete := by
    intro s e s' hs hstep hadmissible
    exact ⟨membershipInv_step hs.left hstep hadmissible, complete_step hs.right hs.left hstep⟩
  exact Machine.exec_preserves_of_meets hpreserves hinit h hadmissible

theorem Complete.recent {s : Backend} (hs : s.Complete) (hquiescent : s.Quiescent) {group : Group}
    (hgroup : group ∈ s.groups) {uid : DocumentID} (huid : uid ∈ group.members)
    : s.Recent group.uid uid := by
  apply recent_of_touches hquiescent
  cases hs group hgroup with
  | inl hawaiting => exact absurd hawaiting (not_awaits_of_quiescent hquiescent _)
  | inr htouches => exact htouches uid huid

theorem recent_symmetric_and_closed (es : List Event) (s : Backend)
    (h : backend.exec init es = some s) (hadmissible : backend.Meets Admissible init es)
    : (∀ group ∈ s.groups, ∀ uid, s.Recent uid group.uid ∨ s.Recent group.uid uid →
        uid = group.creator ∨ uid ∈ group.selectedUsers)
        ∧
      (s.Quiescent →
        (∀ uid otherUid, s.Recent otherUid uid ↔ s.Recent uid otherUid)
          ∧ ∀ group ∈ s.groups, ∀ uid, s.Recent group.uid uid ↔
            uid = group.creator ∨ uid ∈ group.selectedUsers) := by
  rcases exec_membershipInv h hadmissible with ⟨hinv, hcomplete⟩
  have hmembers : ∀ {group : Group} {uid : DocumentID},
      uid ∈ group.members ↔ uid = group.creator ∨ uid ∈ group.selectedUsers := by
    intro group uid
    rw [Group.members, List.mem_append, List.mem_singleton]
    exact or_comm
  have hclosed : ∀ group ∈ s.groups, ∀ uid, s.Recent uid group.uid ∨ s.Recent group.uid uid →
      uid = group.creator ∨ uid ∈ group.selectedUsers := by
    intro group hgroup uid hrecent
    rw [← hmembers]
    cases hrecent with
    | inl hrecent => exact (hinv.allowed _ _ (touches_of_recent hrecent) group hgroup).right rfl
    | inr hrecent => exact (hinv.allowed _ _ (touches_of_recent hrecent) group hgroup).left rfl
  refine ⟨hclosed, ?_⟩
  intro hquiescent
  have hsymm : ∀ uid otherUid, s.Recent otherUid uid → s.Recent uid otherUid := by
    intro uid otherUid hrecent
    apply recent_of_touches hquiescent
    exact hinv.symmetric _ _ (touches_of_recent hrecent)
  constructor
  . intro uid otherUid
    exact ⟨hsymm uid otherUid, hsymm otherUid uid⟩
  . intro group hgroup uid
    constructor
    . intro hrecent
      exact hclosed group hgroup uid (Or.inr hrecent)
    . intro huid
      rw [← hmembers] at huid
      exact hcomplete.recent hquiescent hgroup huid

theorem recent_after_groupRun
    : ∃ s, backend.exec init groupRun = some s
        ∧ s.groups = [⟨"Uab", "a", ["b"]⟩] ∧ s.Quiescent
        ∧ ∀ group ∈ s.groups, ∀ uid, s.Recent group.uid uid ↔
            uid = group.creator ∨ uid ∈ group.selectedUsers := by
  have hresult := recent_symmetric_and_closed groupRun _ rfl (by decide)
  exact ⟨_, rfl, rfl, by decide, (hresult.right (by decide)).right⟩

end Backend

end ChatApplication
