import ChatApplication.API.Membership

/-!
This module contains which events add a pair of users to the relation: two persons are related by a
message from one to the other, and by nothing else.
-/

namespace ChatApplication

namespace Backend

theorem touches_step {s s' : Backend} {e : Event} (hstep : backend.step s e = some s') {path : Path}
    (h : s.Touches path) : s'.Touches path := by
  cases e with
  | createAccount uid =>
    rw [step_createAccount hstep]
    exact h
  | signup uid firstName lastName email url date now =>
    rcases step_signup hstep with ⟨_, user, _, _, hs'⟩
    rw [hs']
    exact touches_start h
  | load path now =>
    rcases step_load hstep with ⟨_, data, user, _, _, hs'⟩
    rw [hs']
    exact h
  | createGroup uid uuid usersId groupName url selectedUsers date now =>
    rcases step_createGroup hstep with ⟨_, _, group, _, _, hs'⟩
    rw [hs']
    exact touches_start h
  | addMessage message currentUser otherUser date date' documentID =>
    rcases step_addMessage hstep with ⟨objects, user, user', _, _, _, hs'⟩
    have hstamped : Touches { s with objects := objects } path := h
    rw [hs']
    exact touches_start hstamped
  | perform i now =>
    rcases step_perform hstep with hwrite | hrequest | hreply
    . rcases hwrite with ⟨write, issued, awaiting, hoperation, hs'⟩
      rw [hs']
      exact touches_performWrite hoperation h
    . rcases hrequest with ⟨read, reply, hoperation, _, hs'⟩
      rw [hs']
      exact touches_receive hoperation h
    . rcases hreply with ⟨reply, issued, hoperation, _, hs'⟩
      rw [hs']
      exact touches_issue hoperation h

theorem getElem?_addMessage {s : Backend} {objects : List User} {currentUser otherUser : Nat}
    {date date' : Date}
    (hobjects : objects = setTimestamp (setTimestamp s.objects currentUser date) otherUser date')
    {object : Nat} {user : User} (huser : objects[object]? = some user)
    : s.identity object = some (user.uid, user.isGroup) := by
  have hidentity := identity_setTimestamp_setTimestamp s currentUser otherUser date date'
  rw [← hobjects] at hidentity
  have hnow : identity { s with objects := objects } object = some (user.uid, user.isGroup) := by
    exact identity_of_getElem? huser
  rw [hidentity] at hnow
  exact hnow

-- Both users of a message are related to each other as soon as it is on its way.
theorem touches_addMessage {s s' : Backend} {message : Message} {currentUser otherUser : Nat}
    {date date' : Date} {documentID : DocumentID}
    (hstep : backend.step s (.addMessage message currentUser otherUser date date' documentID)
      = some s')
    {known known' : DocumentID × Bool} (hknown : s.identity currentUser = some known)
    (hknown' : s.identity otherUser = some known')
    : s'.Touches (DatabaseManager.recentUserPath known.1 known'.1)
        ∧ s'.Touches (DatabaseManager.recentUserPath known'.1 known.1) := by
  rcases step_addMessage hstep with ⟨objects, user, user', hobjects, huser, huser', hs'⟩
  rw [getElem?_addMessage hobjects huser] at hknown
  rw [getElem?_addMessage hobjects huser'] at hknown'
  injection hknown with hknown
  injection hknown' with hknown'
  rw [hs', ← hknown, ← hknown']
  constructor
  . refine ⟨user'.dictionary, touched_start.mpr (Or.inr ⟨⟨_, _, .fresh⟩, ?_, rfl, rfl⟩)⟩
    exact List.mem_cons_of_mem _ List.mem_cons_self
  . refine ⟨user.dictionary, touched_start.mpr (Or.inr ⟨⟨_, _, .fresh⟩, ?_, rfl, rfl⟩)⟩
    exact List.mem_cons_of_mem _ (List.mem_cons_of_mem _ List.mem_cons_self)

-- The writes of a completion are about a group and its members.
theorem MembershipInv.group_of_answer {s : Backend} (hs : s.MembershipInv) {now : Date}
    {reply : Reply} {issued : List Write} (hsound : s.Sound (.reply reply))
    (h : s.answer now reply = some issued) {write : Write} (hwrite : write ∈ issued)
    : ∃ group ∈ s.groups, ∃ uid,
        write.path = DatabaseManager.recentUserPath uid group.uid
          ∨ write.path = DatabaseManager.recentUserPath group.uid uid := by
  cases reply with
  | groupMembers otherUser seen documents =>
    rcases answer_groupMembers h with ⟨group, users, hgroup, _, hissued⟩
    rcases hsound with ⟨uid, hidentity, _⟩
    have hknown := hs.objects otherUser _ _ hidentity
    rw [identity_of_getElem? hgroup, Option.some.injEq, Prod.mk.injEq] at hidentity
    rcases hknown with ⟨group', hgroup', hgroupUid⟩
    rw [hissued, DatabaseManager.mem_updateGroupMembers] at hwrite
    rcases hwrite with ⟨user, _, hwrite⟩
    refine ⟨group', hgroup', user.uid, ?_⟩
    rw [hgroupUid, ← hidentity.left]
    rw [DatabaseManager.mem_membershipWrites] at hwrite
    exact hwrite.imp (congrArg Write.path) (congrArg Write.path)
  | creator object selectedUsers data =>
    rcases answer_creator h with ⟨currentUser, user, _, huser, hissued⟩
    rcases hsound with ⟨group, hgroup, hcreates, _⟩
    have hidentity := hcreates.left
    rw [identity_of_getElem? huser, Option.some.injEq, Prod.mk.injEq] at hidentity
    rw [hissued, DatabaseManager.mem_addGroupUsers] at hwrite
    rcases hwrite with ⟨member, _, hwrite⟩
    refine ⟨group, hgroup, member.uid, ?_⟩
    rw [← hidentity.left]
    rw [DatabaseManager.mem_membershipWrites] at hwrite
    exact hwrite.imp (congrArg Write.path) (congrArg Write.path)

-- where a pair of users comes from that the step adds
def Relates (s : Backend) (e : Event) (uid otherUid : DocumentID) : Prop :=
  (∃ group ∈ s.groups, group.uid = uid ∨ group.uid = otherUid)
    ∨
  ∃ message currentUser otherUser date date' documentID known known',
    e = .addMessage message currentUser otherUser date date' documentID
      ∧ s.identity currentUser = some known ∧ s.identity otherUser = some known'
      ∧ ((uid = known.1 ∧ otherUid = known'.1) ∨ (uid = known'.1 ∧ otherUid = known.1))

theorem touches_of_issued {s : Backend} {writes : List Write} {path : Path}
    (h : ∃ data, s.Touched path data ∨ ∃ write ∈ writes, write.path = path ∧ write.data = data)
    : s.Touches path ∨ ∃ write ∈ writes, write.path = path := by
  rcases h with ⟨data, htouched | ⟨write, hwrite, hpath, _⟩⟩
  . exact Or.inl ⟨data, htouched⟩
  . exact Or.inr ⟨write, hwrite, hpath⟩

theorem relates_addMessage {s s' : Backend} {message : Message} {currentUser otherUser : Nat}
    {date date' : Date} {documentID : DocumentID}
    (hstep : backend.step s (.addMessage message currentUser otherUser date date' documentID)
      = some s')
    {uid otherUid : DocumentID} (h : s'.Touches (DatabaseManager.recentUserPath uid otherUid))
    : s.Touches (DatabaseManager.recentUserPath uid otherUid)
        ∨
      s.Relates (.addMessage message currentUser otherUser date date' documentID) uid otherUid := by
  rcases step_addMessage hstep with ⟨objects, user, user', hobjects, huser, huser', hs'⟩
  have hknown := getElem?_addMessage hobjects huser
  have hknown' := getElem?_addMessage hobjects huser'
  rw [hs'] at h
  simp only [Touches, touched_start] at h
  cases touches_of_issued h with
  | inl hold => exact Or.inl hold
  | inr hnew =>
    right
    right
    refine ⟨message, currentUser, otherUser, date, date', documentID, _, _, rfl, hknown, hknown', ?_⟩
    rcases hnew with ⟨write, hwrite, hpath⟩
    simp only [DatabaseManager.addMessage, List.mem_cons, List.not_mem_nil, or_false] at hwrite
    rcases hwrite with hwrite | hwrite | hwrite
    . rw [hwrite] at hpath
      injection hpath
      contradiction
    . rw [hwrite, DatabaseManager.recentUserPath, DatabaseManager.recentUserPath, Path.mk.injEq,
        CollectionPath.recentUsers.injEq] at hpath
      exact Or.inl ⟨hpath.left.symm, hpath.right.symm⟩
    . rw [hwrite, DatabaseManager.recentUserPath, DatabaseManager.recentUserPath, Path.mk.injEq,
        CollectionPath.recentUsers.injEq] at hpath
      exact Or.inr ⟨hpath.left.symm, hpath.right.symm⟩

theorem touches_start_addUser {s : Backend} {user : User} {awaiting : Option Awaiting}
    {uid otherUid : DocumentID}
    (h : (s.start ⟨DatabaseManager.addUser user, awaiting⟩).Touches
      (DatabaseManager.recentUserPath uid otherUid))
    : s.Touches (DatabaseManager.recentUserPath uid otherUid) := by
  simp only [Touches, touched_start] at h
  cases touches_of_issued h with
  | inl hold => exact hold
  | inr hnew =>
    rcases hnew with ⟨write, hwrite, hpath⟩
    rw [DatabaseManager.addUser, List.mem_singleton] at hwrite
    rw [hwrite] at hpath
    injection hpath
    contradiction

theorem MembershipInv.relates_step {s s' : Backend} (hs : s.MembershipInv) {e : Event}
    (hstep : backend.step s e = some s') {uid otherUid : DocumentID}
    (h : s'.Touches (DatabaseManager.recentUserPath uid otherUid))
    : s.Touches (DatabaseManager.recentUserPath uid otherUid) ∨ s.Relates e uid otherUid := by
  cases e with
  | createAccount uid =>
    rw [step_createAccount hstep] at h
    exact Or.inl h
  | signup uid firstName lastName email url date now =>
    rcases step_signup hstep with ⟨_, user, _, _, hs'⟩
    rw [hs'] at h
    exact Or.inl (touches_start_addUser h)
  | load path now =>
    rcases step_load hstep with ⟨_, data, user, _, _, hs'⟩
    rw [hs'] at h
    exact Or.inl h
  | createGroup uid uuid usersId groupName url selectedUsers date now =>
    rcases step_createGroup hstep with ⟨_, _, group, _, _, hs'⟩
    rw [hs'] at h
    exact Or.inl (touches_start_addUser h)
  | addMessage message currentUser otherUser date date' documentID => exact relates_addMessage hstep h
  | perform i now =>
    rcases step_perform hstep with hwrite | hrequest | hreply
    . rcases hwrite with ⟨write, issued, awaiting, hoperation, hs'⟩
      rw [hs'] at h
      rcases h with ⟨data, hdata⟩
      exact Or.inl ⟨data, touched_of_touched_performWrite hoperation hdata⟩
    . rcases hrequest with ⟨read, reply, hoperation, _, hs'⟩
      rw [hs'] at h
      simp only [Touches, touched_receive hoperation] at h
      exact Or.inl h
    . rcases hreply with ⟨reply, issued, hoperation, hanswer, hs'⟩
      have hsound := hs.awaiting _ (List.mem_of_getElem? hoperation) _ rfl
      rw [hs'] at h
      simp only [Touches, touched_issue hoperation] at h
      cases touches_of_issued h with
      | inl hold => exact Or.inl hold
      | inr hnew =>
        right
        left
        rcases hnew with ⟨write, hwrite, hpath⟩
        rcases hs.group_of_answer hsound hanswer hwrite with ⟨group, hgroup, member, hmember⟩
        refine ⟨group, hgroup, ?_⟩
        rw [hpath] at hmember
        simp only [DatabaseManager.recentUserPath, Path.mk.injEq, CollectionPath.recentUsers.injEq]
          at hmember
        cases hmember with
        | inl hmember => exact Or.inr hmember.right.symm
        | inr hmember => exact Or.inl hmember.left.symm

end Backend

end ChatApplication
