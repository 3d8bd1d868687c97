import ChatApplication.API.Backend

/-!
This module contains the relation between users that the subcollections `recent-users` store. The
writes that are issued but not performed yet are part of the invariant: a single write moves a
document from the issued ones to the stored ones, so the union of both is what operations keep.
-/

namespace ChatApplication

namespace Backend

-- `otherUid` is in `recent(uid)`
def Recent (s : Backend) (uid otherUid : DocumentID) : Prop :=
  (s.db.getDocument (DatabaseManager.recentUserPath uid otherUid)).isSome

-- what is stored at `path` now or may be stored there by an issued write
def Touched (s : Backend) (path : Path) (data : Dictionary) : Prop :=
  s.db.getDocument path = some data ∨ ∃ write ∈ s.pending, write.path = path ∧ write.data = data

def Touches (s : Backend) (path : Path) : Prop :=
  ∃ data, s.Touched path data

theorem touches_of_recent {s : Backend} {uid otherUid : DocumentID} (h : s.Recent uid otherUid)
    : s.Touches (DatabaseManager.recentUserPath uid otherUid) := by
  rw [Recent, Option.isSome_iff_exists] at h
  rcases h with ⟨data, hdata⟩
  exact ⟨data, Or.inl hdata⟩

theorem recent_of_touches {s : Backend} {uid otherUid : DocumentID} (hs : s.Quiescent)
    (h : s.Touches (DatabaseManager.recentUserPath uid otherUid)) : s.Recent uid otherUid := by
  rcases h with ⟨data, hdata | ⟨write, hwrite, _⟩⟩
  . rw [Recent, hdata]
    rfl
  . rw [pending_eq_nil_of_quiescent hs] at hwrite
    contradiction

theorem touched_start {s : Backend} {operation : Operation} {path : Path} {data : Dictionary}
    : (s.start operation).Touched path data
        ↔
      s.Touched path data ∨ ∃ write ∈ operation.issued, write.path = path ∧ write.data = data := by
  unfold Touched
  simp only [mem_pending_start, or_and_right, exists_or]
  exact or_assoc.symm

theorem touched_receive {s : Backend} {i : Nat} {awaiting : Option Awaiting} {reply : Reply}
    (h : s.operations[i]? = some ⟨[], awaiting⟩) {path : Path} {data : Dictionary}
    : (s.receive i reply).Touched path data ↔ s.Touched path data := by
  unfold Touched
  simp only [mem_pending_receive h]
  rfl

theorem touched_issue {s : Backend} {i : Nat} {awaiting : Option Awaiting} {issued : List Write}
    (h : s.operations[i]? = some ⟨[], awaiting⟩) {path : Path} {data : Dictionary}
    : (s.issue i issued).Touched path data
        ↔
      s.Touched path data ∨ ∃ write ∈ issued, write.path = path ∧ write.data = data := by
  unfold Touched
  simp only [mem_pending_issue h, or_and_right, exists_or]
  exact or_assoc.symm

theorem touched_of_touched_performWrite {s : Backend} {i : Nat} {write : Write}
    {issued : List Write} {awaiting : Option Awaiting}
    (h : s.operations[i]? = some ⟨write :: issued, awaiting⟩) {path : Path} {data : Dictionary}
    (htouched : (s.performWrite i write issued awaiting).Touched path data)
    : s.Touched path data := by
  cases htouched with
  | inl hdata =>
    dsimp [performWrite] at hdata
    rw [Firestore.getDocument_setData] at hdata
    split at hdata
    . next hpath =>
      injection hdata with hdata
      refine Or.inr ⟨write, ?_, hpath.symm, hdata⟩
      rw [mem_pending_performWrite h]
      exact Or.inl rfl
    . exact Or.inl hdata
  | inr hwrite =>
    rcases hwrite with ⟨w, hw, hpath⟩
    refine Or.inr ⟨w, ?_, hpath⟩
    rw [mem_pending_performWrite h]
    exact Or.inr hw

theorem touches_performWrite {s : Backend} {i : Nat} {write : Write} {issued : List Write}
    {awaiting : Option Awaiting} (h : s.operations[i]? = some ⟨write :: issued, awaiting⟩)
    {path : Path} (htouches : s.Touches path) : (s.performWrite i write issued awaiting).Touches path := by
  have hdb : (s.performWrite i write issued awaiting).db.getDocument path
      =
      if path = write.path then some write.data else s.db.getDocument path := by
    exact Firestore.getDocument_setData s.db write.path path write.data
  rcases htouches with ⟨data, hdata | ⟨w, hw, hpath, hdata⟩⟩
  . split at hdb
    . exact ⟨write.data, Or.inl hdb⟩
    . exact ⟨data, Or.inl (hdb.trans hdata)⟩
  . rw [mem_pending_performWrite h] at hw
    cases hw with
    | inl hw =>
      rw [← hpath, hw, if_pos rfl] at hdb
      rw [← hpath, hw]
      exact ⟨write.data, Or.inl hdb⟩
    | inr hw => exact ⟨data, Or.inr ⟨w, hw, hpath, hdata⟩⟩

-- The part of a `User` object that is never assigned to.
def identity (s : Backend) (object : Nat) : Option (DocumentID × Bool) :=
  (s.objects[object]?).map (fun user => (user.uid, user.isGroup))

def Known (s : Backend) (uid : DocumentID) (isGroup : Bool) : Prop :=
  match isGroup with
  | true => ∃ group ∈ s.groups, group.uid = uid
  | false => uid ∈ s.accounts

-- Only the members of a group may share a `recent-users` document with it.
def Allowed (s : Backend) (uid otherUid : DocumentID) : Prop :=
  ∀ group ∈ s.groups, (group.uid = uid → otherUid ∈ group.members)
    ∧ (group.uid = otherUid → uid ∈ group.members)

theorem Allowed.symm {s : Backend} {uid otherUid : DocumentID} (h : s.Allowed uid otherUid)
    : s.Allowed otherUid uid := by
  intro group hgroup
  exact (h group hgroup).symm

-- The call `createGroup` with these arguments makes `group`.
def Creates (s : Backend) (group : Group) (object : Nat) (selectedUsers : List Nat) : Prop :=
  s.identity object = some (group.uid, true)
    ∧ selectedUsers.map s.identity = group.selectedUsers.map (fun uid => some (uid, false))

-- Members that were read are known whenever the completion is called, and so is the creator.
def Sound (s : Backend) : Awaiting → Prop
  | .request (.groupMembers otherUser) => ∃ uid, s.identity otherUser = some (uid, true)
  | .request (.creator uid object selectedUsers) =>
    ∃ group ∈ s.groups, group.creator = uid ∧ s.Creates group object selectedUsers
  | .reply (.groupMembers otherUser _ documents) =>
    ∃ uid, s.identity otherUser = some (uid, true) ∧ ∀ document ∈ documents, ∃ user : User,
      s.Known user.uid user.isGroup ∧ s.Allowed user.uid uid ∧ document.data = user.dictionary
  | .reply (.creator object selectedUsers data) =>
    ∃ group ∈ s.groups, s.Creates group object selectedUsers ∧ ∃ user : User,
      s.Known user.uid user.isGroup ∧ user.uid = group.creator ∧ data = user.dictionary

structure AdmittedWrites (s : Backend) (writes : List Write) : Prop where
  documents : ∀ write ∈ writes, write.path.collection ≠ .messages →
    ∃ user : User, s.Known user.uid user.isGroup ∧ user.uid = write.path.documentID
      ∧ write.data = user.dictionary
  allowed : ∀ write ∈ writes, ∀ uid otherUid,
    write.path = DatabaseManager.recentUserPath uid otherUid → s.Allowed uid otherUid
  symmetric : ∀ write ∈ writes, ∀ uid otherUid,
    write.path = DatabaseManager.recentUserPath uid otherUid →
      ∃ write' ∈ writes, write'.path = DatabaseManager.recentUserPath otherUid uid

theorem admittedWrites_nil (s : Backend) : s.AdmittedWrites [] := by
  constructor
  all_goals
    intro write hwrite
    contradiction

theorem admittedWrites_addUser {s : Backend} {user : User} (h : s.Known user.uid user.isGroup)
    : s.AdmittedWrites (DatabaseManager.addUser user) := by
  constructor
  . intro write hwrite _
    rw [DatabaseManager.addUser, List.mem_singleton] at hwrite
    rw [hwrite]
    exact ⟨user, h, rfl, rfl⟩
  all_goals
    intro write hwrite uid otherUid hpath
    rw [DatabaseManager.addUser, List.mem_singleton] at hwrite
    rw [hwrite] at hpath
    injection hpath
    contradiction

theorem admittedWrites_pair {s : Backend} {user user' : User} (origin origin' : Origin)
    (h : s.Known user.uid user.isGroup) (h' : s.Known user'.uid user'.isGroup)
    (hallowed : s.Allowed user.uid user'.uid)
    : s.AdmittedWrites [
        ⟨DatabaseManager.recentUserPath user.uid user'.uid, user'.dictionary, origin⟩,
        ⟨DatabaseManager.recentUserPath user'.uid user.uid, user.dictionary, origin'⟩
      ] := by
  constructor
  . simp only [List.forall_mem_cons]
    refine ⟨?_, ?_, by simp⟩
    . intro _
      exact ⟨user', h', rfl, rfl⟩
    . intro _
      exact ⟨user, h, rfl, rfl⟩
  . simp only [List.forall_mem_cons, DatabaseManager.recentUserPath, Path.mk.injEq,
      CollectionPath.recentUsers.injEq]
    refine ⟨?_, ?_, by simp⟩
    . rintro _ _ ⟨rfl, rfl⟩
      exact hallowed
    . rintro _ _ ⟨rfl, rfl⟩
      exact hallowed.symm
  . simp only [List.forall_mem_cons, DatabaseManager.recentUserPath, Path.mk.injEq,
      CollectionPath.recentUsers.injEq]
    refine ⟨?_, ?_, by simp⟩
    . rintro _ _ ⟨rfl, rfl⟩
      simp
    . rintro _ _ ⟨rfl, rfl⟩
      simp

theorem AdmittedWrites.flatMap {s : Backend} {users : List User} {writes : User → List Write}
    (h : ∀ user ∈ users, s.AdmittedWrites (writes user))
    : s.AdmittedWrites (users.flatMap writes) := by
  constructor
  . intro write hwrite
    rw [List.mem_flatMap] at hwrite
    rcases hwrite with ⟨user, huser, hwrite⟩
    exact (h user huser).documents write hwrite
  . intro write hwrite
    rw [List.mem_flatMap] at hwrite
    rcases hwrite with ⟨user, huser, hwrite⟩
    exact (h user huser).allowed write hwrite
  . intro write hwrite uid otherUid hpath
    rw [List.mem_flatMap] at hwrite
    rcases hwrite with ⟨user, huser, hwrite⟩
    rcases (h user huser).symmetric write hwrite uid otherUid hpath with ⟨write', hwrite', hpath'⟩
    refine ⟨write', ?_, hpath'⟩
    rw [List.mem_flatMap]
    exact ⟨user, huser, hwrite'⟩

theorem admittedWrites_membershipWrites {s : Backend} {group user : User} {origin : Origin}
    (hgroup : s.Known group.uid group.isGroup) (huser : s.Known user.uid user.isGroup)
    (hallowed : s.Allowed user.uid group.uid)
    : s.AdmittedWrites (DatabaseManager.membershipWrites origin group user) := by
  exact admittedWrites_pair .fresh origin huser hgroup hallowed

theorem AdmittedWrites.cons_message {s : Backend} {writes : List Write} {documentID : DocumentID}
    {data : Dictionary} {origin : Origin} (h : s.AdmittedWrites writes)
    : s.AdmittedWrites (⟨⟨.messages, documentID⟩, data, origin⟩ :: writes) := by
  constructor
  . rw [List.forall_mem_cons]
    refine ⟨?_, h.documents⟩
    intro hmessages
    contradiction
  . rw [List.forall_mem_cons]
    refine ⟨?_, h.allowed⟩
    intro uid otherUid hpath
    injection hpath
    contradiction
  . rw [List.forall_mem_cons]
    constructor
    . intro uid otherUid hpath
      injection hpath
      contradiction
    . intro write hwrite uid otherUid hpath
      rcases h.symmetric write hwrite uid otherUid hpath with ⟨write', hwrite', hpath'⟩
      exact ⟨write', List.mem_cons_of_mem _ hwrite', hpath'⟩

theorem admittedWrites_addMessage {s : Backend} {documentID : DocumentID} {message : Message}
    {currentUser otherUser : User} (h : s.Known currentUser.uid currentUser.isGroup)
    (h' : s.Known otherUser.uid otherUser.isGroup)
    (hallowed : s.Allowed currentUser.uid otherUser.uid)
    : s.AdmittedWrites
        (DatabaseManager.addMessage documentID message currentUser otherUser) := by
  apply AdmittedWrites.cons_message
  exact admittedWrites_pair .fresh .fresh h h' hallowed

end Backend

end ChatApplication
