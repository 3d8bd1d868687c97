import ChatApplication.API.Firestore
import ChatApplication.Model.User
import ChatApplication.Model.Message

/-!
This module contains the single requests that the operations of `DatabaseManager` send to
Firestore. A `Write` remembers whether its document was decoded from the store before, this is not
known to Firestore and only used to speak about runs.
-/

namespace ChatApplication

inductive Origin where
  | fresh
  -- decoded from the store when `seen` writes had been performed
  | copy (seen : Nat)
  deriving DecidableEq, Repr

structure Write where
  path : Path
  data : Dictionary
  origin : Origin
  deriving DecidableEq, Repr

namespace DatabaseManager

-- `db.collection("users").document(uid)`
def userPath (uid : DocumentID) : Path :=
  ⟨.users, uid⟩

-- `db.collection("users").document(uid).collection("recent-users").document(otherUid)`
def recentUserPath (uid otherUid : DocumentID) : Path :=
  ⟨.recentUsers uid, otherUid⟩

def addUser (user : User) : List Write :=
  [⟨userPath user.uid, user.dictionary, .fresh⟩]

-- the three writes of `addMessage`, `documentID` is what `addDocument` comes up with
def addMessage (documentID : DocumentID) (message : Message) (currentUser otherUser : User)
    : List Write :=
  [
    ⟨⟨.messages, documentID⟩, message.dictionary, .fresh⟩,
    ⟨recentUserPath currentUser.uid otherUser.uid, otherUser.dictionary, .fresh⟩,
    ⟨recentUserPath otherUser.uid currentUser.uid, currentUser.dictionary, .fresh⟩
  ]

-- the loop body that `addGroupUsers` and the group branch of `addMessage` share
def membershipWrites (origin : Origin) (group user : User) : List Write :=
  [
    ⟨recentUserPath user.uid group.uid, group.dictionary, .fresh⟩,
    ⟨recentUserPath group.uid user.uid, user.dictionary, origin⟩
  ]

def addGroupUsers (group : User) (users : List User) : List Write :=
  users.flatMap (membershipWrites .fresh group)

-- the loop over `users` in the group branch of `addMessage`
def updateGroupMembers (seen : Nat) (otherUser : User) (users : List User) : List Write :=
  users.flatMap (membershipWrites (.copy seen) otherUser)

-- The loop over `snapshot.documents` of every query for users. `none` is where a forced cast of
-- `User.init` traps.
def decodeUsers (now : Date) : List DocumentSnapshot → Option (List User)
  | [] => some []
  | document :: documents =>
    match User.init now document.data, decodeUsers now documents with
    | some user, some users => some (user :: users)
    | _, _ => none

-- the query of `getGroupMembers`, its completion gets what `decodeUsers` makes of the documents
def getGroupMembers (db : Firestore) (groupId : DocumentID) : List DocumentSnapshot :=
  DocumentSnapshot.orderByTimestampDescending (db.getDocuments (.recentUsers groupId))

-- The query of `getAllUsers` up to the order, which nothing relies on. `isNotEqualTo` leaves out the
-- documents without a value.
def getAllUsers (db : Firestore) (uid : DocumentID) : List DocumentSnapshot :=
  (DocumentSnapshot.whereField "isGroup" (.bool false) (db.getDocuments .users)).filter
    (fun document => document.data.lookup "uid" ∉ [none, some .null, some (.string uid)])

-- without such a document `fetchUser` never calls its completion
def fetchUser (db : Firestore) (uid : DocumentID) : Option Dictionary :=
  db.getDocument (userPath uid)

theorem mem_membershipWrites {origin : Origin} {group user : User} {write : Write}
    : write ∈ membershipWrites origin group user
        ↔
      write = ⟨recentUserPath user.uid group.uid, group.dictionary, .fresh⟩
        ∨
      write = ⟨recentUserPath group.uid user.uid, user.dictionary, origin⟩ := by
  simp [membershipWrites]

theorem mem_addGroupUsers {group : User} {users : List User} {write : Write}
    : write ∈ addGroupUsers group users
        ↔
      ∃ user ∈ users, write ∈ membershipWrites .fresh group user := by
  simp [addGroupUsers]

theorem mem_updateGroupMembers {seen : Nat} {otherUser : User} {users : List User} {write : Write}
    : write ∈ updateGroupMembers seen otherUser users
        ↔
      ∃ user ∈ users, write ∈ membershipWrites (.copy seen) otherUser user := by
  simp [updateGroupMembers]

theorem mem_decodeUsers {now : Date} {documents : List DocumentSnapshot} {users : List User}
    (h : decodeUsers now documents = some users) {user : User}
    : user ∈ users ↔ ∃ document ∈ documents, User.init now document.data = some user := by
  induction documents generalizing users with
  | nil =>
    simp only [decodeUsers, Option.some.injEq] at h
    simp [← h]
  | cons document documents ih =>
    unfold decodeUsers at h
    split at h
    . next first rest hfirst hrest =>
      injection h with h
      rw [← h, List.mem_cons, ih hrest]
      simp [hfirst, eq_comm]
    . contradiction

theorem decodeUsers_isSome {now : Date} {documents : List DocumentSnapshot}
    (h : ∀ document ∈ documents, (User.init now document.data).isSome)
    : (decodeUsers now documents).isSome := by
  induction documents with
  | nil => rfl
  | cons document documents ih =>
    rw [List.forall_mem_cons] at h
    rcases Option.isSome_iff_exists.mp h.left with ⟨user, huser⟩
    rcases Option.isSome_iff_exists.mp (ih h.right) with ⟨users, husers⟩
    unfold decodeUsers
    rw [huser, husers]
    rfl

theorem getDocument_of_mem_getGroupMembers {db : Firestore} {groupId : DocumentID}
    {document : DocumentSnapshot} (h : document ∈ getGroupMembers db groupId)
    : db.getDocument (recentUserPath groupId document.documentID) = some document.data := by
  unfold getGroupMembers at h
  rw [DocumentSnapshot.mem_orderByTimestampDescending, Firestore.mem_getDocuments] at h
  exact h.left

theorem getAllUsers_sublist (db : Firestore) (uid : DocumentID)
    : (getAllUsers db uid).Sublist (db.getDocuments .users) := by
  exact List.filter_sublist.trans List.filter_sublist

theorem getDocument_of_mem_getAllUsers {db : Firestore} {uid : DocumentID}
    {document : DocumentSnapshot} (h : document ∈ getAllUsers db uid)
    : db.getDocument (userPath document.documentID) = some document.data := by
  have hmem := (getAllUsers_sublist db uid).subset h
  rw [Firestore.mem_getDocuments] at hmem
  exact hmem

theorem mem_getGroupMembers_of_getDocument {db : Firestore} {groupId uid : DocumentID} {user : User}
    (h : db.getDocument (recentUserPath groupId uid) = some user.dictionary)
    : ⟨uid, user.dictionary⟩ ∈ getGroupMembers db groupId := by
  unfold getGroupMembers
  rw [DocumentSnapshot.mem_orderByTimestampDescending, Firestore.mem_getDocuments]
  exact ⟨h, rfl⟩

end DatabaseManager

end ChatApplication
