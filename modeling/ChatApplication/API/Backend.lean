import ChatApplication.API.DatabaseManager
import ChatApplication.Data.Positions
import ChatApplication.Machine.Basic

/-!
This module contains the machine that runs the operations `signup`, `createGroup` and `addMessage`
of any number of clients against one Firestore. Each operation sends its requests in order, the
requests of different operations are interleaved as the events say.
-/

namespace ChatApplication

-- The reads after which an operation goes on. `User` objects are referred to by their position in
-- `Backend.objects`: `timestamp` is assigned to, so objects are shared and not copied.
inductive Read where
  -- `getGroupMembers` in `addMessage`
  | groupMembers (otherUser : Nat)
  -- `fetchUser` in `createGroup`
  | creator (uid : DocumentID) (group : Nat) (selectedUsers : List Nat)
  deriving DecidableEq, Repr

-- what Firestore has answered, `seen` writes had been performed then
inductive Reply where
  | groupMembers (otherUser : Nat) (seen : Nat) (documents : List DocumentSnapshot)
  | creator (group : Nat) (selectedUsers : List Nat) (data : Dictionary)
  deriving DecidableEq, Repr

inductive Awaiting where
  -- not at Firestore yet
  | request (read : Read)
  -- on its way back to the client, whose completion is not called yet
  | reply (reply : Reply)
  deriving DecidableEq, Repr

structure Operation where
  issued : List Write
  awaiting : Option Awaiting
  deriving DecidableEq, Repr

def Operation.Finished (operation : Operation) : Prop :=
  operation.issued = [] ∧ operation.awaiting = none

instance (operation : Operation) : Decidable operation.Finished :=
  inferInstanceAs (Decidable (_ ∧ _))

-- what is known about a group outside of the store: who created it and whom they selected
structure Group where
  uid : DocumentID
  creator : DocumentID
  selectedUsers : List DocumentID
  deriving DecidableEq, Repr

def Group.members (group : Group) : List DocumentID :=
  group.selectedUsers ++ [group.creator]

structure Backend where
  db : Firestore
  -- the `User` objects of all clients
  objects : List User
  -- the operations started so far, the finished ones included
  operations : List Operation
  -- the uids of Firebase Auth
  accounts : List DocumentID
  groups : List Group
  -- the writes performed so far, the last one at the end
  history : List Write

namespace Backend

inductive Event where
  | createAccount (uid : DocumentID)
  | signup (uid firstName lastName email url : String) (date now : Date)
  -- a client decodes a user document that it has read
  | load (path : Path) (now : Date)
  | createGroup (uid uuid usersId groupName url : String) (selectedUsers : List Nat) (date now : Date)
  | addMessage (message : Message) (currentUser otherUser : Nat) (date date' : Date)
      (documentID : DocumentID)
  -- the next request of an operation reaches Firestore, or the completion of its read is called
  | perform (operation : Nat) (now : Date)
  deriving Repr

def init : Backend :=
  {
    db := ∅
    objects := []
    operations := []
    accounts := []
    groups := []
    history := []
  }

def setTimestamp (objects : List User) (object : Nat) (timestamp : Timestamp) : List User :=
  objects.modify object (fun user => { user with timestamp := timestamp })

-- What comes back is fixed when the request is at Firestore.
def fetch (s : Backend) : Read → Option Reply
  | .groupMembers otherUser =>
    match s.objects[otherUser]? with
    | some group =>
      let documents := DatabaseManager.getGroupMembers s.db group.uid
      some (.groupMembers otherUser s.history.length documents)
    | none => none
  | .creator uid group selectedUsers =>
    match DatabaseManager.fetchUser s.db uid with
    | some data => some (.creator group selectedUsers data)
    | none => none

-- The writes of a completion. `dictionary` is evaluated here, not when the operation was started.
def answer (s : Backend) (now : Date) : Reply → Option (List Write)
  | .groupMembers otherUser seen documents =>
    match s.objects[otherUser]?, DatabaseManager.decodeUsers now documents with
    | some otherUser, some users => some (DatabaseManager.updateGroupMembers seen otherUser users)
    | _, _ => none
  | .creator group selectedUsers data =>
    match User.init now data, s.objects[group]? with
    | some currentUser, some group =>
      let groupUsers := selectedUsers.filterMap (fun object => s.objects[object]?) ++ [currentUser]
      some (DatabaseManager.addGroupUsers group groupUsers)
    | _, _ => none

def isPerson (s : Backend) (object : Nat) : Bool :=
  match s.objects[object]? with
  | some user => !user.isGroup
  | none => false

def start (s : Backend) (operation : Operation) : Backend :=
  { s with operations := s.operations ++ [operation] }

def performWrite (s : Backend) (i : Nat) (write : Write) (issued : List Write)
    (awaiting : Option Awaiting) : Backend :=
  {
    s with
    db := s.db.setData write.path write.data
    operations := s.operations.set i ⟨issued, awaiting⟩
    history := s.history ++ [write]
  }

def receive (s : Backend) (i : Nat) (reply : Reply) : Backend :=
  { s with operations := s.operations.set i ⟨[], some (.reply reply)⟩ }

def issue (s : Backend) (i : Nat) (issued : List Write) : Backend :=
  { s with operations := s.operations.set i ⟨issued, none⟩ }

def step (s : Backend) : Event → Option Backend
  | .createAccount uid => some { s with accounts := s.accounts ++ [uid] }
  | .signup uid firstName lastName email url date now =>
    if uid ∈ s.accounts then
      match User.init now (User.values uid firstName lastName email url date false) with
      | some user => some (s.start ⟨DatabaseManager.addUser user, none⟩)
      | none => none
    else
      none
  | .load path now =>
    if path.collection = .messages then
      none
    else
      match (s.db.getDocument path).bind (User.init now) with
      | some user => some { s with objects := s.objects ++ [user] }
      | none => none
  | .createGroup uid uuid usersId groupName url selectedUsers date now =>
    -- the selected users come from `getAllUsers`, which asks for `isGroup == false`
    if uid ∈ s.accounts ∧ selectedUsers.all s.isPerson then
      match User.init now (User.values (uuid ++ uid ++ usersId) groupName "" "" url date true) with
      | some user =>
        let selectedUids := (selectedUsers.filterMap (fun object => s.objects[object]?)).map User.uid
        let s : Backend := {
          s with
          objects := s.objects ++ [user]
          groups := s.groups ++ [⟨user.uid, uid, selectedUids⟩]
        }
        let group := s.objects.length - 1
        let awaiting := some (.request (.creator uid group selectedUsers))
        some (s.start ⟨DatabaseManager.addUser user, awaiting⟩)
      | none => none
    else
      none
  | .addMessage message currentUser otherUser date date' documentID =>
    let objects := setTimestamp (setTimestamp s.objects currentUser date) otherUser date'
    match objects[currentUser]?, objects[otherUser]? with
    | some user, some user' =>
      let issued := DatabaseManager.addMessage documentID message user user'
      let awaiting :=
        if message.isGroupMessage then some (.request (.groupMembers otherUser)) else none
      some (start { s with objects := objects } ⟨issued, awaiting⟩)
    | _, _ => none
  | .perform i now =>
    match s.operations[i]? with
    | some ⟨write :: issued, awaiting⟩ => some (s.performWrite i write issued awaiting)
    | some ⟨[], some (.request read)⟩ =>
      match s.fetch read with
      | some reply => some (s.receive i reply)
      | none => none
    | some ⟨[], some (.reply reply)⟩ =>
      match s.answer now reply with
      | some issued => some (s.issue i issued)
      | none => none
    | some ⟨[], none⟩ => none
    | none => none

def pending (s : Backend) : List Write :=
  s.operations.flatMap Operation.issued

-- an operation waits for something with the property
def Awaits (s : Backend) (P : Awaiting → Prop) : Prop :=
  ∃ operation ∈ s.operations, ∃ awaiting, operation.awaiting = some awaiting ∧ P awaiting

def Quiescent (s : Backend) : Prop :=
  ∀ operation ∈ s.operations, operation.Finished

instance (s : Backend) : Decidable s.Quiescent :=
  inferInstanceAs (Decidable (∀ operation ∈ s.operations, operation.Finished))

theorem pending_eq_nil_of_quiescent {s : Backend} (h : s.Quiescent) : s.pending = [] := by
  unfold pending
  rw [List.flatMap_eq_nil_iff]
  intro operation hoperation
  exact (h operation hoperation).left

theorem mem_pending_start {s : Backend} {operation : Operation} {write : Write}
    : write ∈ (s.start operation).pending ↔ write ∈ s.pending ∨ write ∈ operation.issued := by
  simp [pending, start]

theorem mem_pending_performWrite {s : Backend} {i : Nat} {write : Write} {issued : List Write}
    {awaiting : Option Awaiting} (h : s.operations[i]? = some ⟨write :: issued, awaiting⟩)
    {w : Write}
    : w ∈ s.pending ↔ w = write ∨ w ∈ (s.performWrite i write issued awaiting).pending := by
  rcases List.exists_mem_flatMap_set h Operation.issued with ⟨others, hbefore, hafter⟩
  unfold pending performWrite
  rw [hbefore, hafter]
  simp only [List.mem_cons]
  exact or_assoc

theorem mem_pending_receive {s : Backend} {i : Nat} {awaiting : Option Awaiting} {reply : Reply}
    (h : s.operations[i]? = some ⟨[], awaiting⟩) {w : Write}
    : w ∈ (s.receive i reply).pending ↔ w ∈ s.pending := by
  rcases List.exists_mem_flatMap_set h Operation.issued with ⟨others, hbefore, hafter⟩
  unfold pending receive
  rw [hbefore, hafter]

theorem mem_pending_issue {s : Backend} {i : Nat} {awaiting : Option Awaiting} {issued : List Write}
    (h : s.operations[i]? = some ⟨[], awaiting⟩) {w : Write}
    : w ∈ (s.issue i issued).pending ↔ w ∈ s.pending ∨ w ∈ issued := by
  rcases List.exists_mem_flatMap_set h Operation.issued with ⟨others, hbefore, hafter⟩
  unfold pending issue
  rw [hbefore, hafter]
  simp [or_comm]

theorem not_awaits_of_quiescent {s : Backend} (hs : s.Quiescent) (P : Awaiting → Prop)
    : ¬ s.Awaits P := by
  rintro ⟨operation, hoperation, awaiting, hawaiting, _⟩
  rw [(hs operation hoperation).right] at hawaiting
  contradiction

theorem Awaits.imp {s s' : Backend} {P Q : Awaiting → Prop} (h : s.Awaits P)
    (hoperations : ∀ operation ∈ s.operations, operation ∈ s'.operations)
    (himp : ∀ awaiting, P awaiting → Q awaiting) : s'.Awaits Q := by
  rcases h with ⟨operation, hoperation, awaiting, hawaiting, hp⟩
  exact ⟨operation, hoperations operation hoperation, awaiting, hawaiting, himp awaiting hp⟩

theorem awaits_start {s : Backend} {operation : Operation} {awaiting : Awaiting}
    (hawaiting : operation.awaiting = some awaiting) {P : Awaiting → Prop} (hp : P awaiting)
    : (s.start operation).Awaits P := by
  refine ⟨operation, ?_, awaiting, hawaiting, hp⟩
  simp [start]

theorem Awaits.performWrite {s : Backend} {P : Awaiting → Prop} (h : s.Awaits P) {i : Nat}
    {write : Write} {issued : List Write} {awaiting : Option Awaiting}
    (hoperation : s.operations[i]? = some ⟨write :: issued, awaiting⟩)
    : (s.performWrite i write issued awaiting).Awaits P := by
  rcases h with ⟨operation, hmem, awaiting', hawaiting, hp⟩
  cases List.eq_or_mem_set_of_mem (b := ⟨issued, awaiting⟩) hoperation hmem with
  | inl heq =>
    rw [heq] at hawaiting
    rw [List.getElem?_eq_some_iff] at hoperation
    exact ⟨_, List.mem_set hoperation.choose _, awaiting', hawaiting, hp⟩
  | inr hset => exact ⟨operation, hset, awaiting', hawaiting, hp⟩

theorem Awaits.receive {s : Backend} {P : Awaiting → Prop} (h : s.Awaits P) {i : Nat}
    {read : Read} {reply : Reply} (hoperation : s.operations[i]? = some ⟨[], some (.request read)⟩)
    (hreply : P (.request read) → P (.reply reply)) : (s.receive i reply).Awaits P := by
  rcases h with ⟨operation, hmem, awaiting, hawaiting, hp⟩
  cases List.eq_or_mem_set_of_mem (b := ⟨[], some (.reply reply)⟩) hoperation hmem with
  | inl heq =>
    rw [heq] at hawaiting
    injection hawaiting with hawaiting
    rw [← hawaiting] at hp
    rw [List.getElem?_eq_some_iff] at hoperation
    exact ⟨_, List.mem_set hoperation.choose _, _, rfl, hreply hp⟩
  | inr hset => exact ⟨operation, hset, awaiting, hawaiting, hp⟩

theorem Awaits.issue {s : Backend} {P : Awaiting → Prop} (h : s.Awaits P) {i : Nat}
    {awaiting : Awaiting} (hoperation : s.operations[i]? = some ⟨[], some awaiting⟩)
    (issued : List Write) : P awaiting ∨ (s.issue i issued).Awaits P := by
  rcases h with ⟨operation, hmem, awaiting', hawaiting, hp⟩
  cases List.eq_or_mem_set_of_mem (b := ⟨issued, none⟩) hoperation hmem with
  | inl heq =>
    rw [heq] at hawaiting
    injection hawaiting with hawaiting
    rw [hawaiting]
    exact Or.inl hp
  | inr hset => exact Or.inr ⟨operation, hset, awaiting', hawaiting, hp⟩

/-
The inversion lemmas below say all that a step can do, one lemma for each event. Proofs about runs
use them and do not unfold `step`.
-/

theorem step_createAccount {s s' : Backend} {uid : DocumentID}
    (h : s.step (.createAccount uid) = some s')
    : s' = { s with accounts := s.accounts ++ [uid] } := by
  simp only [step, Option.some.injEq] at h
  exact h.symm

theorem step_signup {s s' : Backend} {uid firstName lastName email url : String} {date now : Date}
    (h : s.step (.signup uid firstName lastName email url date now) = some s')
    : uid ∈ s.accounts
        ∧ ∃ user : User, user.uid = uid ∧ user.isGroup = false
          ∧ s' = s.start ⟨DatabaseManager.addUser user, none⟩ := by
  simp only [step, User.init_values] at h
  split at h
  . next huid =>
    injection h with h
    exact ⟨huid, _, rfl, rfl, h.symm⟩
  . contradiction

theorem step_load {s s' : Backend} {path : Path} {now : Date}
    (h : s.step (.load path now) = some s')
    : path.collection ≠ .messages
        ∧ ∃ data user, s.db.getDocument path = some data ∧ User.init now data = some user
          ∧ s' = { s with objects := s.objects ++ [user] } := by
  simp only [step] at h
  split at h
  . contradiction
  . next hpath =>
    split at h
    . next user huser =>
      rw [Option.bind_eq_some_iff] at huser
      rcases huser with ⟨data, hdata, huser⟩
      injection h with h
      exact ⟨hpath, data, user, hdata, huser, h.symm⟩
    . contradiction

def selectedUids (s : Backend) (selectedUsers : List Nat) : List DocumentID :=
  (selectedUsers.filterMap (fun object => s.objects[object]?)).map User.uid

theorem step_createGroup {s s' : Backend} {uid uuid usersId groupName url : String}
    {selectedUsers : List Nat} {date now : Date}
    (h : s.step (.createGroup uid uuid usersId groupName url selectedUsers date now) = some s')
    : uid ∈ s.accounts ∧ (∀ object ∈ selectedUsers, s.isPerson object)
        ∧ ∃ group : User, group.uid = uuid ++ uid ++ usersId ∧ group.isGroup = true
          ∧ s' = start
              {
                s with
                objects := s.objects ++ [group]
                groups := s.groups ++ [⟨group.uid, uid, s.selectedUids selectedUsers⟩]
              }
              ⟨
                DatabaseManager.addUser group,
                some (.request (.creator uid s.objects.length selectedUsers))
              ⟩ := by
  simp only [step, User.init_values, List.all_eq_true] at h
  split at h
  . next hguard =>
    injection h with h
    let group : User := ⟨uuid ++ uid ++ usersId, groupName, "", "", url, now, true⟩
    refine ⟨hguard.left, hguard.right, group, rfl, rfl, ?_⟩
    rw [← h]
    simp [start, selectedUids, group]
  . contradiction

theorem step_addMessage {s s' : Backend} {message : Message} {currentUser otherUser : Nat}
    {date date' : Date} {documentID : DocumentID}
    (h : s.step (.addMessage message currentUser otherUser date date' documentID) = some s')
    : ∃ objects user user',
        objects = setTimestamp (setTimestamp s.objects currentUser date) otherUser date'
          ∧ objects[currentUser]? = some user ∧ objects[otherUser]? = some user'
          ∧ s' = start { s with objects := objects }
              ⟨
                DatabaseManager.addMessage documentID message user user',
                if message.isGroupMessage then some (.request (.groupMembers otherUser)) else none
              ⟩ := by
  simp only [step] at h
  split at h
  . next user user' huser huser' =>
    injection h with h
    exact ⟨_, user, user', rfl, huser, huser', h.symm⟩
  . contradiction

theorem step_perform {s s' : Backend} {i : Nat} {now : Date}
    (h : s.step (.perform i now) = some s')
    : (∃ write issued awaiting, s.operations[i]? = some ⟨write :: issued, awaiting⟩
          ∧ s' = s.performWrite i write issued awaiting)
        ∨
      (∃ read reply, s.operations[i]? = some ⟨[], some (.request read)⟩
          ∧ s.fetch read = some reply ∧ s' = s.receive i reply)
        ∨
      (∃ reply issued, s.operations[i]? = some ⟨[], some (.reply reply)⟩
          ∧ s.answer now reply = some issued ∧ s' = s.issue i issued) := by
  simp only [step] at h
  split at h
  . next write issued awaiting hoperation =>
    injection h with h
    exact Or.inl ⟨write, issued, awaiting, hoperation, h.symm⟩
  . next read hoperation =>
    split at h
    . next reply hreply =>
      injection h with h
      exact Or.inr (Or.inl ⟨read, reply, hoperation, hreply, h.symm⟩)
    . contradiction
  . next reply hoperation =>
    split at h
    . next issued hissued =>
      injection h with h
      exact Or.inr (Or.inr ⟨reply, issued, hoperation, hissued, h.symm⟩)
    . contradiction
  . contradiction
  . contradiction

theorem fetch_groupMembers {s : Backend} {otherUser : Nat} {reply : Reply}
    (h : s.fetch (.groupMembers otherUser) = some reply)
    : ∃ group, s.objects[otherUser]? = some group
        ∧ reply = .groupMembers otherUser s.history.length
            (DatabaseManager.getGroupMembers s.db group.uid) := by
  simp only [fetch] at h
  split at h
  . next group hgroup =>
    injection h with h
    exact ⟨group, hgroup, h.symm⟩
  . contradiction

theorem fetch_creator {s : Backend} {uid : DocumentID} {group : Nat} {selectedUsers : List Nat}
    {reply : Reply} (h : s.fetch (.creator uid group selectedUsers) = some reply)
    : ∃ data, DatabaseManager.fetchUser s.db uid = some data
        ∧ reply = .creator group selectedUsers data := by
  simp only [fetch] at h
  split at h
  . next data hdata =>
    injection h with h
    exact ⟨data, hdata, h.symm⟩
  . contradiction

theorem answer_groupMembers {s : Backend} {now : Date} {otherUser seen : Nat}
    {documents : List DocumentSnapshot} {issued : List Write}
    (h : s.answer now (.groupMembers otherUser seen documents) = some issued)
    : ∃ group users, s.objects[otherUser]? = some group
        ∧ DatabaseManager.decodeUsers now documents = some users
        ∧ issued = DatabaseManager.updateGroupMembers seen group users := by
  simp only [answer] at h
  split at h
  . next group users hgroup husers =>
    injection h with h
    exact ⟨group, users, hgroup, husers, h.symm⟩
  . contradiction

theorem answer_creator {s : Backend} {now : Date} {group : Nat} {selectedUsers : List Nat}
    {data : Dictionary} {issued : List Write}
    (h : s.answer now (.creator group selectedUsers data) = some issued)
    : ∃ currentUser group', User.init now data = some currentUser ∧ s.objects[group]? = some group'
        ∧ issued = DatabaseManager.addGroupUsers group'
            (selectedUsers.filterMap (fun object => s.objects[object]?) ++ [currentUser]) := by
  simp only [answer] at h
  split at h
  . next currentUser group' hcurrentUser hgroup =>
    injection h with h
    exact ⟨currentUser, group', hcurrentUser, hgroup, h.symm⟩
  . contradiction

theorem getElem?_setTimestamp (objects : List User) (object : Nat) (timestamp : Timestamp) (i : Nat)
    : (setTimestamp objects object timestamp)[i]?
        =
      (objects[i]?).map
        (fun user => if object = i then { user with timestamp := timestamp } else user) := by
  unfold setTimestamp
  rw [List.getElem?_modify]
  cases objects[i]? with
  | none => rfl
  | some user => rfl

end Backend

def backend : Machine Backend Backend.Event :=
  ⟨Backend.step⟩

-- Two users sign up, one of them creates a group with the other and sends a photo to it.
def Backend.groupRun : List Backend.Event :=
  [
    .createAccount "a", .signup "a" "Ann" "A" "ann@mail.org" "pa" 1 1, .perform 0 1,
    .createAccount "b", .signup "b" "Bob" "B" "bob@mail.org" "pb" 2 2, .perform 1 2,
    .load (DatabaseManager.userPath "a") 3, .load (DatabaseManager.userPath "b") 3,
    .createGroup "a" "U" "b" "Group" "pg" [1] 4 4,
    .perform 2 4, .perform 2 4, .perform 2 4, .perform 2 4, .perform 2 4, .perform 2 4,
    .perform 2 4,
    .addMessage ⟨"Uab", "a", "Uab", "", 5, some "photo", true⟩ 0 2 5 5 "m",
    .perform 3 5, .perform 3 5, .perform 3 5, .perform 3 5, .perform 3 5,
    .perform 3 5, .perform 3 5, .perform 3 5, .perform 3 5
  ]

end ChatApplication
