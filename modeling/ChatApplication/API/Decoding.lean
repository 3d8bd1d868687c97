import ChatApplication.API.Backend

/-!
This module contains the agreement between the writers and the decoders of the store: whatever the
operations write is the dictionary of an object, and sits under the document id that the object has.
-/

namespace ChatApplication

-- `data` is the dictionary of an object which belongs at `path`.
def WellFormed (path : Path) (data : Dictionary) : Prop :=
  match path.collection with
  | .users | .recentUsers _ => ∃ user : User, user.uid = path.documentID ∧ data = user.dictionary
  | .messages => ∃ message : Message, data = message.dictionary

theorem wellFormed_userPath (user : User)
    : WellFormed (DatabaseManager.userPath user.uid) user.dictionary := by
  exact ⟨user, rfl, rfl⟩

theorem wellFormed_recentUserPath (uid : DocumentID) (user : User)
    : WellFormed (DatabaseManager.recentUserPath uid user.uid) user.dictionary := by
  exact ⟨user, rfl, rfl⟩

theorem wellFormed_messages (documentID : DocumentID) (message : Message)
    : WellFormed ⟨.messages, documentID⟩ message.dictionary := by
  exact ⟨message, rfl⟩

theorem WellFormed.init_user {path : Path} {data : Dictionary} (h : WellFormed path data)
    (hpath : path.collection ≠ .messages) (now : Date)
    : ∃ user, User.init now data = some user ∧ user.uid = path.documentID
        ∧ user.dictionary = data := by
  unfold WellFormed at h
  split at h
  case h_3 hmessages => contradiction
  all_goals
    rcases h with ⟨user, huid, hdata⟩
    rw [hdata]
    exact ⟨user, User.init_dictionary now user, huid, rfl⟩

theorem WellFormed.init_message {documentID : DocumentID} {data : Dictionary}
    (h : WellFormed ⟨.messages, documentID⟩ data) (now : Date)
    : ∃ message, Message.init now data = some message ∧ message.dictionary = data := by
  rcases h with ⟨message, hdata⟩
  rw [hdata]
  exact ⟨message, Message.init_dictionary now message, rfl⟩

def WellFormedWrites (writes : List Write) : Prop :=
  ∀ write ∈ writes, WellFormed write.path write.data

theorem WellFormedWrites.append {writes writes' : List Write} (h : WellFormedWrites writes)
    (h' : WellFormedWrites writes') : WellFormedWrites (writes ++ writes') := by
  intro write hwrite
  rw [List.mem_append] at hwrite
  cases hwrite with
  | inl hwrite => exact h write hwrite
  | inr hwrite => exact h' write hwrite

namespace DatabaseManager

theorem wellFormedWrites_addUser (user : User) : WellFormedWrites (addUser user) := by
  intro write hwrite
  rw [addUser, List.mem_singleton] at hwrite
  rw [hwrite]
  apply wellFormed_userPath

theorem wellFormedWrites_addMessage (documentID : DocumentID) (message : Message)
    (currentUser otherUser : User)
    : WellFormedWrites (addMessage documentID message currentUser otherUser) := by
  intro write hwrite
  simp only [addMessage, List.mem_cons, List.not_mem_nil, or_false] at hwrite
  rcases hwrite with hwrite | hwrite | hwrite
  . rw [hwrite]
    apply wellFormed_messages
  . rw [hwrite]
    apply wellFormed_recentUserPath
  . rw [hwrite]
    apply wellFormed_recentUserPath

theorem wellFormedWrites_membershipWrites (origin : Origin) (group user : User)
    : WellFormedWrites (membershipWrites origin group user) := by
  intro write hwrite
  rw [mem_membershipWrites] at hwrite
  cases hwrite with
  | inl hwrite =>
    rw [hwrite]
    apply wellFormed_recentUserPath
  | inr hwrite =>
    rw [hwrite]
    apply wellFormed_recentUserPath

theorem wellFormedWrites_addGroupUsers (group : User) (users : List User)
    : WellFormedWrites (addGroupUsers group users) := by
  intro write hwrite
  rw [mem_addGroupUsers] at hwrite
  rcases hwrite with ⟨user, _, hwrite⟩
  exact wellFormedWrites_membershipWrites .fresh group user write hwrite

theorem wellFormedWrites_updateGroupMembers (seen : Nat) (otherUser : User) (users : List User)
    : WellFormedWrites (updateGroupMembers seen otherUser users) := by
  intro write hwrite
  rw [mem_updateGroupMembers] at hwrite
  rcases hwrite with ⟨user, _, hwrite⟩
  exact wellFormedWrites_membershipWrites (.copy seen) otherUser user write hwrite

end DatabaseManager

namespace Backend

structure WellFormedStore (s : Backend) : Prop where
  documents : ∀ path data, s.db.getDocument path = some data → WellFormed path data
  pending : WellFormedWrites s.pending

theorem wellFormedStore_init : WellFormedStore init := by
  constructor
  . intro path data h
    rw [init, Firestore.getDocument_empty] at h
    contradiction
  . intro write hwrite
    contradiction

theorem WellFormedStore.start {s : Backend} (hs : WellFormedStore s) {operation : Operation}
    (hoperation : WellFormedWrites operation.issued) : WellFormedStore (s.start operation) := by
  constructor
  . exact hs.documents
  . intro write hwrite
    rw [mem_pending_start] at hwrite
    cases hwrite with
    | inl hwrite => exact hs.pending write hwrite
    | inr hwrite => exact hoperation write hwrite

theorem WellFormedStore.performWrite {s : Backend} (hs : WellFormedStore s) {i : Nat}
    {write : Write} {issued : List Write} {awaiting : Option Awaiting}
    (h : s.operations[i]? = some ⟨write :: issued, awaiting⟩)
    : WellFormedStore (s.performWrite i write issued awaiting) := by
  constructor
  . intro path data hdata
    dsimp [Backend.performWrite] at hdata
    rw [Firestore.getDocument_setData] at hdata
    split at hdata
    . next hpath =>
      injection hdata with hdata
      rw [hpath, ← hdata]
      apply hs.pending
      rw [mem_pending_performWrite h]
      exact Or.inl rfl
    . exact hs.documents path data hdata
  . intro w hw
    apply hs.pending
    rw [mem_pending_performWrite h]
    exact Or.inr hw

theorem WellFormedStore.receive {s : Backend} (hs : WellFormedStore s) {i : Nat}
    {awaiting : Option Awaiting} (h : s.operations[i]? = some ⟨[], awaiting⟩) (reply : Reply)
    : WellFormedStore (s.receive i reply) := by
  constructor
  . exact hs.documents
  . intro write hwrite
    rw [mem_pending_receive h] at hwrite
    exact hs.pending write hwrite

theorem WellFormedStore.issue {s : Backend} (hs : WellFormedStore s) {i : Nat}
    {awaiting : Option Awaiting} {issued : List Write}
    (h : s.operations[i]? = some ⟨[], awaiting⟩) (hissued : WellFormedWrites issued)
    : WellFormedStore (s.issue i issued) := by
  constructor
  . exact hs.documents
  . intro write hwrite
    rw [mem_pending_issue h] at hwrite
    cases hwrite with
    | inl hwrite => exact hs.pending write hwrite
    | inr hwrite => exact hissued write hwrite

theorem wellFormedWrites_answer {s : Backend} {now : Date} {reply : Reply} {issued : List Write}
    (h : s.answer now reply = some issued) : WellFormedWrites issued := by
  cases reply with
  | groupMembers otherUser seen documents =>
    rcases answer_groupMembers h with ⟨group, users, _, _, hissued⟩
    rw [hissued]
    apply DatabaseManager.wellFormedWrites_updateGroupMembers
  | creator group selectedUsers data =>
    rcases answer_creator h with ⟨currentUser, group', _, _, hissued⟩
    rw [hissued]
    apply DatabaseManager.wellFormedWrites_addGroupUsers

theorem preserves_wellFormedStore : backend.Preserves WellFormedStore := by
  intro s e s' hs hstep
  cases e with
  | createAccount uid =>
    rw [step_createAccount hstep]
    exact ⟨hs.documents, hs.pending⟩
  | signup uid firstName lastName email url date now =>
    rcases step_signup hstep with ⟨_, user, _, _, hs'⟩
    rw [hs']
    exact hs.start (DatabaseManager.wellFormedWrites_addUser user)
  | load path now =>
    rcases step_load hstep with ⟨_, data, user, _, _, hs'⟩
    rw [hs']
    exact ⟨hs.documents, hs.pending⟩
  | createGroup uid uuid usersId groupName url selectedUsers date now =>
    rcases step_createGroup hstep with ⟨_, _, group, _, _, hs'⟩
    rw [hs']
    refine WellFormedStore.start ?_ (DatabaseManager.wellFormedWrites_addUser group)
    exact ⟨hs.documents, hs.pending⟩
  | addMessage message currentUser otherUser date date' documentID =>
    rcases step_addMessage hstep with ⟨objects, user, user', _, _, _, hs'⟩
    rw [hs']
    refine WellFormedStore.start ?_ (DatabaseManager.wellFormedWrites_addMessage _ _ _ _)
    exact ⟨hs.documents, hs.pending⟩
  | perform i now =>
    rcases step_perform hstep with hwrite | hrequest | hreply
    . rcases hwrite with ⟨write, issued, awaiting, hoperation, hs'⟩
      rw [hs']
      exact hs.performWrite hoperation
    . rcases hrequest with ⟨read, reply, hoperation, _, hs'⟩
      rw [hs']
      exact hs.receive hoperation reply
    . rcases hreply with ⟨reply, issued, hoperation, hanswer, hs'⟩
      rw [hs']
      exact hs.issue hoperation (wellFormedWrites_answer hanswer)

theorem exec_wellFormedStore {es : List Event} {s : Backend} (h : backend.exec init es = some s)
    : WellFormedStore s := by
  exact Machine.exec_preserves preserves_wellFormedStore wellFormedStore_init h

theorem store_decodes_and_encodes_back (es : List Event) (s : Backend)
    (h : backend.exec init es = some s) (path : Path) (data : Dictionary) (now : Date)
    (hdata : s.db.getDocument path = some data)
    : match path.collection with
      | .users | .recentUsers _ =>
        ∃ user, User.init now data = some user ∧ user.uid = path.documentID
          ∧ user.dictionary = data
      | .messages => ∃ message, Message.init now data = some message ∧ message.dictionary = data := by
  have hwellFormed := (exec_wellFormedStore h).documents path data hdata
  rcases path with ⟨collection, documentID⟩
  cases collection with
  | users => exact hwellFormed.init_user (by simp) now
  | recentUsers uid => exact hwellFormed.init_user (by simp) now
  | messages => exact hwellFormed.init_message now

theorem store_decodes_after_groupRun
    : ∃ s data message, backend.exec init groupRun = some s
        ∧ s.db.getDocument ⟨.messages, "m"⟩ = some data
        ∧ Message.init 6 data = some message ∧ message.dictionary = data := by
  rcases store_decodes_and_encodes_back groupRun _ rfl ⟨.messages, "m"⟩ _ 6 rfl
    with ⟨message, hinit, hdictionary⟩
  exact ⟨_, _, message, rfl, rfl, hinit, hdictionary⟩

theorem WellFormedStore.map_uid_decodeUsers {s : Backend} (hs : s.WellFormedStore) {now : Date}
    {documents : List DocumentSnapshot}
    (hdocuments : ∀ document ∈ documents,
      s.db.getDocument (DatabaseManager.userPath document.documentID) = some document.data)
    {users : List User} (h : DatabaseManager.decodeUsers now documents = some users)
    : users.map User.uid = documents.map DocumentSnapshot.documentID := by
  induction documents generalizing users with
  | nil =>
    injection h with h
    rw [← h]
    rfl
  | cons document documents ih =>
    rw [List.forall_mem_cons] at hdocuments
    unfold DatabaseManager.decodeUsers at h
    split at h
    . next user rest huser hrest =>
      have hwellFormed := hs.documents _ _ hdocuments.left
      rcases hwellFormed.init_user (by simp [DatabaseManager.userPath]) now with
        ⟨user', huser', huid, _⟩
      rw [huser] at huser'
      injection huser' with huser'
      injection h with h
      rw [← h, List.map_cons, List.map_cons, ih hdocuments.right hrest, huser', huid]
      rfl
    . contradiction

-- What `getAllUsers` delivers has no uid twice.
theorem nodup_uid_getAllUsers {es : List Event} {s : Backend} (h : backend.exec init es = some s)
    {now : Date} {uid : DocumentID} {users : List User}
    (husers : DatabaseManager.decodeUsers now (DatabaseManager.getAllUsers s.db uid) = some users)
    : (users.map User.uid).Nodup := by
  have hmap := (exec_wellFormedStore h).map_uid_decodeUsers
    (fun _ hdocument => DatabaseManager.getDocument_of_mem_getAllUsers hdocument) husers
  have hsublist := (DatabaseManager.getAllUsers_sublist s.db uid).map DocumentSnapshot.documentID
  rw [hmap]
  exact hsublist.nodup (Firestore.nodup_documentID_getDocuments s.db .users)

end Backend

end ChatApplication
