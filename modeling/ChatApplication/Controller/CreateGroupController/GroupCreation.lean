import ChatApplication.API.AddMessage
import ChatApplication.API.Decoding
import ChatApplication.API.MessageID
import ChatApplication.Controller.CreateGroupController

/-!
This module contains what one call of `createGroup` leads to: the upload of the picture, the write
of the group, the read of the creator and the writes of the memberships. A request that fails ends
it where it is.
-/

namespace ChatApplication

-- `UUID().uuidString` has hexadecimal digits and hyphens only.
structure UUID extends UUIDString where
  ascii : ∀ c ∈ value.toList, c.toNat < 128

namespace Firestore

-- No document has the id or is of a user with the id.
def IsNew (db : Firestore) (uid : DocumentID) : Prop :=
  ∀ path ∈ db.keys, path.documentID ≠ uid ∧ path.collection ≠ .recentUsers uid

instance (db : Firestore) (uid : DocumentID) : Decidable (db.IsNew uid) :=
  inferInstanceAs (Decidable (∀ path ∈ db.keys, _ ∧ _))

end Firestore

namespace DatabaseManager

-- Firestore performs the writes whose paths it accepts.
def performAccepted (accepts : Path → Bool) (db : Firestore) (writes : List Write) : Firestore :=
  perform db (writes.filter (fun write => accepts write.path))

end DatabaseManager

-- the requests that are not answered yet, or how they have ended
inductive GroupCreation.Stage (Data : Type u) where
  | uploadingImage (upload : GroupUpload Data)
  | obtainingURL (upload : GroupUpload Data)
  | fetchingUser (upload : GroupUpload Data) (group : User)
  -- There was no upload, or its completion is never called.
  | abandoned
  -- The completion of `fetchUser` is never called.
  | fetchFailed (group : User)
  | finished (group : User)
  deriving DecidableEq, Repr

structure GroupCreation (Data : Type u) where
  db : Firestore
  stage : GroupCreation.Stage Data
  -- the writes on their way
  issued : List Write
  viewControllers : List ViewController

namespace GroupCreation

namespace Stage

variable {Data : Type u}

def group? : Stage Data → Option User
  | .fetchingUser _ group | .fetchFailed group | .finished group => some group
  | _ => none

def isFinal : Stage Data → Bool
  | .abandoned | .fetchFailed _ | .finished _ => true
  | _ => false

end Stage

inductive Event where
  | imageUploaded
  -- `putData` or `downloadURL`
  | uploadFailed
  | urlObtained (uuid : UUID) (url : String) (date now : Date)
  | performWrite
  | userFetched (now : Date)
  -- an error, or a creator without a document
  | fetchFailed

variable {Data : Type u}

-- `createGroup` has returned, with the screen of Done in front.
def start (db : Firestore) (controller : Nat) (uploads : List (GroupUpload Data))
    : GroupCreation Data :=
  {
    db := db
    stage :=
      match uploads with
      | upload :: _ => .uploadingImage upload
      | [] => .abandoned
    issued := []
    viewControllers := [.conversation, .createGroup controller, .selectUsers (some controller)]
  }

def step (accepts : Path → Bool) (s : GroupCreation Data) : Event → Option (GroupCreation Data)
  | .imageUploaded =>
    match s.stage with
    | .uploadingImage upload => some { s with stage := .obtainingURL upload }
    | _ => none
  | .uploadFailed =>
    match s.stage with
    | .uploadingImage _ | .obtainingURL _ => some { s with stage := .abandoned }
    | _ => none
  | .urlObtained uuid url date now =>
    match s.stage with
    | .obtainingURL upload =>
      match User.init now (User.values (uuid.value ++ upload.uid ++ upload.usersId) upload.groupName
        "" "" url date true) with
      | some group =>
        match NavigationController.showGroup s.viewControllers upload.controller group with
        | some viewControllers =>
          if s.db.IsNew group.uid then
            some {
              s with
              stage := .fetchingUser upload group
              issued := s.issued ++ DatabaseManager.addUser group
              viewControllers := viewControllers
            }
          else
            none
        | none => none
      | none => none
    | _ => none
  | .performWrite =>
    match s.issued with
    | write :: issued =>
      some { s with db := DatabaseManager.performAccepted accepts s.db [write], issued := issued }
    | [] => none
  | .userFetched now =>
    match s.stage with
    | .fetchingUser upload group =>
      match (DatabaseManager.fetchUser s.db upload.uid).bind (User.init now) with
      | some currentUser =>
        let groupUsers := upload.selectedUsers ++ [currentUser]
        some {
          s with
          stage := .finished group
          issued := s.issued ++ DatabaseManager.addGroupUsers group groupUsers
        }
      | none => none
    | _ => none
  | .fetchFailed =>
    match s.stage with
    | .fetchingUser _ group => some { s with stage := .fetchFailed group }
    | _ => none

end GroupCreation

def groupCreation {Data : Type u} (accepts : Path → Bool)
    : Machine (GroupCreation Data) GroupCreation.Event :=
  ⟨GroupCreation.step accepts⟩

namespace Firestore

-- The group is stored, and so are its members on both sides.
structure HasMembers (db : Firestore) (group : User) (members : List DocumentID) : Prop where
  document : (db.getDocument (DatabaseManager.userPath group.uid)).isSome
  listed : ∀ uid ∈ members, (db.getDocument (DatabaseManager.recentUserPath group.uid uid)).isSome
  recent : ∀ uid ∈ members, (db.getDocument (DatabaseManager.recentUserPath uid group.uid)).isSome

structure Unmentioned (db : Firestore) (uid : DocumentID) : Prop where
  document : db.getDocument (DatabaseManager.userPath uid) = none
  recent : ∀ otherUid, db.getDocument (DatabaseManager.recentUserPath otherUid uid) = none
  recentUsers : ∀ otherUid, db.getDocument (DatabaseManager.recentUserPath uid otherUid) = none

theorem getDocument_eq_none {db : Firestore} {path : Path}
    : db.getDocument path = none ↔ path ∉ db.keys := by
  unfold getDocument
  rw [AList.lookup_eq_none, AList.mem_keys]

theorem IsNew.unmentioned {db : Firestore} {uid : DocumentID} (h : db.IsNew uid)
    : db.Unmentioned uid := by
  constructor
  case document =>
    rw [getDocument_eq_none]
    intro hmem
    exact (h _ hmem).left rfl
  case recent =>
    intro otherUid
    rw [getDocument_eq_none]
    intro hmem
    exact (h _ hmem).left rfl
  case recentUsers =>
    intro otherUid
    rw [getDocument_eq_none]
    intro hmem
    exact (h _ hmem).right rfl

end Firestore

namespace DatabaseManager

theorem performAccepted_nil (accepts : Path → Bool) (db : Firestore)
    : performAccepted accepts db [] = db := by
  rfl

theorem performAccepted_append (accepts : Path → Bool) (db : Firestore) (writes writes' : List Write)
    : performAccepted accepts db (writes ++ writes')
        =
      performAccepted accepts (performAccepted accepts db writes) writes' := by
  unfold performAccepted
  rw [List.filter_append, perform_append]

theorem getDocument_performAccepted_singleton {accepts : Path → Bool} {db : Firestore} {write : Write}
    {path : Path} {data : Dictionary}
    (h : (performAccepted accepts db [write]).getDocument path = some data)
    : db.getDocument path = some data ∨ (write.path = path ∧ write.data = data) := by
  unfold performAccepted at h
  rw [List.filter_singleton] at h
  cases haccepts : accepts write.path with
  | false =>
    rw [haccepts] at h
    exact Or.inl h
  | true =>
    rw [haccepts, cond_true, perform, List.foldl_cons, List.foldl_nil,
      Firestore.getDocument_setData] at h
    split at h
    . next hpath =>
      injection h with h
      exact Or.inr ⟨hpath.symm, h⟩
    . exact Or.inl h

-- Every membership of a group touches both sides.
theorem path_of_mem_addGroupUsers {group : User} {users : List User} {path : Path}
    : (∃ write ∈ addGroupUsers group users, write.path = path)
        ↔
      ∃ user ∈ users, path = recentUserPath user.uid group.uid
        ∨ path = recentUserPath group.uid user.uid := by
  simp only [mem_addGroupUsers, mem_membershipWrites]
  constructor
  . rintro ⟨write, ⟨user, huser, hwrite | hwrite⟩, hpath⟩
    . rw [hwrite] at hpath
      exact ⟨user, huser, Or.inl hpath.symm⟩
    . rw [hwrite] at hpath
      exact ⟨user, huser, Or.inr hpath.symm⟩
  . rintro ⟨user, huser, hpath | hpath⟩
    . exact ⟨_, ⟨user, huser, Or.inl rfl⟩, hpath.symm⟩
    . exact ⟨_, ⟨user, huser, Or.inr rfl⟩, hpath.symm⟩

end DatabaseManager

namespace GroupCreation

open NavigationController (usersId)

variable {Data : Type u} {accepts : Path → Bool}

def AtRest (s : GroupCreation Data) : Prop :=
  s.stage.isFinal ∧ s.issued = []

-- Either the group is complete, or there is no trace of it.
def AllOrNothing (db : Firestore) (members : List DocumentID) (s : GroupCreation Data) : Prop :=
  (∃ group ∈ s.stage.group?, s.db.HasMembers group members
      ∧ ∀ uid, (s.db.getDocument (DatabaseManager.recentUserPath group.uid uid)).isSome →
          uid ∈ members)
    ∨
  ((∀ uid, db.Unmentioned uid → s.db.Unmentioned uid)
    ∧ ∀ group, .chat group ∉ s.viewControllers)

theorem step_imageUploaded {s s' : GroupCreation Data}
    (h : (groupCreation accepts).step s .imageUploaded = some s')
    : ∃ upload, s.stage = .uploadingImage upload
        ∧ s' = { s with stage := .obtainingURL upload } := by
  simp only [groupCreation, step] at h
  split at h
  . next upload hstage =>
    injection h with h
    exact ⟨upload, hstage, h.symm⟩
  . contradiction

theorem step_uploadFailed {s s' : GroupCreation Data}
    (h : (groupCreation accepts).step s .uploadFailed = some s')
    : (∃ upload, s.stage = .uploadingImage upload ∨ s.stage = .obtainingURL upload)
        ∧ s' = { s with stage := .abandoned } := by
  simp only [groupCreation, step] at h
  split at h
  . next upload hstage =>
    injection h with h
    exact ⟨⟨upload, Or.inl hstage⟩, h.symm⟩
  . next upload hstage =>
    injection h with h
    exact ⟨⟨upload, Or.inr hstage⟩, h.symm⟩
  . contradiction

theorem chat_mem_of_showGroup {viewControllers vcArray : List ViewController} {controller : Nat}
    {group : User}
    (h : NavigationController.showGroup viewControllers controller group = some vcArray)
    : .chat group ∈ vcArray := by
  unfold NavigationController.showGroup at h
  rw [Option.map_eq_some_iff] at h
  rcases h with ⟨rest, _, h⟩
  rw [← h]
  simp

theorem step_urlObtained {s s' : GroupCreation Data} {uuid : UUID} {url : String} {date now : Date}
    (h : (groupCreation accepts).step s (.urlObtained uuid url date now) = some s')
    : ∃ upload group viewControllers, s.stage = .obtainingURL upload
        ∧ group.uid = uuid.value ++ upload.uid ++ upload.usersId ∧ s.db.IsNew group.uid
        ∧ .chat group ∈ viewControllers
        ∧ s' = {
            s with
            stage := .fetchingUser upload group
            issued := s.issued ++ DatabaseManager.addUser group
            viewControllers := viewControllers
          } := by
  simp only [groupCreation, step, User.init_values] at h
  split at h
  . next upload hstage =>
    split at h
    . next viewControllers hshow =>
      split at h
      . next hnew =>
        injection h with h
        exact ⟨upload, _, viewControllers, hstage, rfl, hnew, chat_mem_of_showGroup hshow, h.symm⟩
      . contradiction
    . contradiction
  . contradiction

theorem step_performWrite {s s' : GroupCreation Data}
    (h : (groupCreation accepts).step s .performWrite = some s')
    : ∃ write issued, s.issued = write :: issued
        ∧ s' = {
            s with
            db := DatabaseManager.performAccepted accepts s.db [write]
            issued := issued
          } := by
  simp only [groupCreation, step] at h
  split at h
  . next write issued hissued =>
    injection h with h
    exact ⟨write, issued, hissued, h.symm⟩
  . contradiction

theorem step_userFetched {s s' : GroupCreation Data} {now : Date}
    (h : (groupCreation accepts).step s (.userFetched now) = some s')
    : ∃ upload group data currentUser, s.stage = .fetchingUser upload group
        ∧ s.db.getDocument (DatabaseManager.userPath upload.uid) = some data
        ∧ User.init now data = some currentUser
        ∧ s' = {
            s with
            stage := .finished group
            issued := s.issued
              ++ DatabaseManager.addGroupUsers group (upload.selectedUsers ++ [currentUser])
          } := by
  simp only [groupCreation, step] at h
  split at h
  . next upload group hstage =>
    split at h
    . next currentUser hcurrentUser =>
      rw [Option.bind_eq_some_iff] at hcurrentUser
      rcases hcurrentUser with ⟨data, hdata, hinit⟩
      injection h with h
      exact ⟨upload, group, data, currentUser, hstage, hdata, hinit, h.symm⟩
    . contradiction
  . contradiction

theorem step_fetchFailed {s s' : GroupCreation Data}
    (h : (groupCreation accepts).step s .fetchFailed = some s')
    : ∃ upload group, s.stage = .fetchingUser upload group
        ∧ s' = { s with stage := .fetchFailed group } := by
  simp only [groupCreation, step] at h
  split at h
  . next upload group hstage =>
    injection h with h
    exact ⟨upload, group, hstage, h.symm⟩
  . contradiction

-- the arguments of the call, in the variables that its completion handlers capture
structure Captures (auth : Option DocumentID) (selectedUsers : List User) (upload : GroupUpload Data)
    : Prop where
  uid : auth = some upload.uid
  usersId : upload.usersId = usersId selectedUsers
  selectedUsers : upload.selectedUsers = selectedUsers

-- a group that came about in the call, on a store `db`
structure Creates (db : Firestore) (auth : Option DocumentID) (selectedUsers : List User)
    (group : User) : Prop where
  unmentioned : db.Unmentioned group.uid
  uid : ∃ (uuid : UUID) (creator : DocumentID), auth = some creator
    ∧ group.uid = uuid.value ++ creator ++ usersId selectedUsers

def Untouched (db : Firestore) (s : GroupCreation Data) : Prop :=
  s.db = db ∧ s.issued = [] ∧ ∀ group, .chat group ∉ s.viewControllers

-- All writes issued so far are `writes`, and the chat with the group is open.
def Issued (accepts : Path → Bool) (db : Firestore) (group : User) (writes : List Write)
    (s : GroupCreation Data) : Prop :=
  .chat group ∈ s.viewControllers
    ∧ DatabaseManager.performAccepted accepts s.db s.issued
        = DatabaseManager.performAccepted accepts db writes

def StageInv (accepts : Path → Bool) (db : Firestore) (auth : Option DocumentID)
    (selectedUsers : List User) (s : GroupCreation Data) : Prop :=
  match s.stage with
  | .uploadingImage upload | .obtainingURL upload =>
    Captures auth selectedUsers upload ∧ s.Untouched db
  | .abandoned => s.Untouched db
  | .fetchingUser upload group =>
    Captures auth selectedUsers upload ∧ Creates db auth selectedUsers group
      ∧ s.Issued accepts db group (DatabaseManager.addUser group)
  | .fetchFailed group =>
    Creates db auth selectedUsers group
      ∧ s.Issued accepts db group (DatabaseManager.addUser group)
  | .finished group =>
    Creates db auth selectedUsers group
      ∧ ∃ currentUser : User, auth = some currentUser.uid
        ∧ s.Issued accepts db group (DatabaseManager.addUser group
            ++ DatabaseManager.addGroupUsers group (selectedUsers ++ [currentUser]))

structure CreationInv (accepts : Path → Bool) (db : Firestore) (auth : Option DocumentID)
    (selectedUsers : List User) (s : GroupCreation Data) : Prop where
  documents : ∀ path data, s.db.getDocument path = some data → WellFormed path data
  issued : WellFormedWrites s.issued
  stage : s.StageInv accepts db auth selectedUsers

variable {db : Firestore} {auth : Option DocumentID} {selectedUsers : List User}

theorem captures_of_mem_createGroup {Image : Type v} {pngData : Image → Option Data}
    {c : CreateGroupController Image} {controller : Nat} {upload : GroupUpload Data}
    (h : upload ∈ c.createGroup pngData auth controller (usersId selectedUsers) selectedUsers)
    : Captures auth selectedUsers upload := by
  unfold CreateGroupController.createGroup at h
  split at h
  . next uid imageData =>
    split at h
    . contradiction
    . rw [List.mem_singleton] at h
      rw [h]
      exact ⟨rfl, rfl, rfl⟩
  . contradiction

theorem creationInv_start {uploads : List (GroupUpload Data)} {controller : Nat}
    (hdocuments : ∀ path data, db.getDocument path = some data → WellFormed path data)
    (huploads : ∀ upload ∈ uploads, Captures auth selectedUsers upload)
    : (start db controller uploads).CreationInv accepts db auth selectedUsers := by
  have huntouched : (start db controller uploads).Untouched db := by
    refine ⟨rfl, rfl, ?_⟩
    intro group
    simp [start]
  constructor
  case documents => exact hdocuments
  case issued =>
    intro write hwrite
    contradiction
  case stage =>
    cases uploads with
    | nil => exact huntouched
    | cons upload rest => exact ⟨huploads upload List.mem_cons_self, huntouched⟩

theorem Issued.performWrite {s : GroupCreation Data} {group : User} {writes issued : List Write}
    {write : Write} (h : s.Issued accepts db group writes) (hissued : s.issued = write :: issued)
    : Issued accepts db group writes {
        s with
        db := DatabaseManager.performAccepted accepts s.db [write]
        issued := issued
      } := by
  refine ⟨h.left, ?_⟩
  rw [← h.right, hissued, ← DatabaseManager.performAccepted_append, List.singleton_append]

theorem StageInv.performWrite {s : GroupCreation Data}
    (hs : s.StageInv accepts db auth selectedUsers) {write : Write} {issued : List Write}
    (hissued : s.issued = write :: issued)
    : StageInv accepts db auth selectedUsers {
        s with
        db := DatabaseManager.performAccepted accepts s.db [write]
        issued := issued
      } := by
  have hnot : ¬ s.Untouched db := by
    intro huntouched
    have hnil := huntouched.right.left
    rw [hissued] at hnil
    contradiction
  unfold StageInv at hs ⊢
  dsimp only
  split at hs
  . exact absurd hs.right hnot
  . exact absurd hs.right hnot
  . exact absurd hs hnot
  . exact ⟨hs.left, hs.right.left, hs.right.right.performWrite hissued⟩
  . exact ⟨hs.left, hs.right.performWrite hissued⟩
  . rcases hs with ⟨hcreates, currentUser, hcreator, hs⟩
    exact ⟨hcreates, currentUser, hcreator, hs.performWrite hissued⟩

theorem creationInv_step {s s' : GroupCreation Data} {e : Event}
    (hs : s.CreationInv accepts db auth selectedUsers)
    (hstep : (groupCreation accepts).step s e = some s')
    : s'.CreationInv accepts db auth selectedUsers := by
  have hstage := hs.stage
  unfold StageInv at hstage
  cases e with
  | imageUploaded =>
    rcases step_imageUploaded hstep with ⟨upload, huploading, hs'⟩
    rw [huploading] at hstage
    rw [hs']
    exact ⟨hs.documents, hs.issued, hstage⟩
  | uploadFailed =>
    rcases step_uploadFailed hstep with ⟨⟨upload, huploading | hobtaining⟩, hs'⟩
    . rw [huploading] at hstage
      rw [hs']
      exact ⟨hs.documents, hs.issued, hstage.right⟩
    . rw [hobtaining] at hstage
      rw [hs']
      exact ⟨hs.documents, hs.issued, hstage.right⟩
  | urlObtained uuid url date now =>
    rcases step_urlObtained hstep with
      ⟨upload, group, viewControllers, hobtaining, huid, hnew, hchat, hs'⟩
    rw [hobtaining] at hstage
    rcases hstage with ⟨hcaptures, hdb, hissued, _⟩
    rw [hs']
    constructor
    case documents => exact hs.documents
    case issued => exact hs.issued.append (DatabaseManager.wellFormedWrites_addUser group)
    case stage =>
      refine ⟨hcaptures, ⟨?_, uuid, upload.uid, hcaptures.uid, ?_⟩, hchat, ?_⟩
      . rw [← hdb]
        exact hnew.unmentioned
      . rw [huid, hcaptures.usersId]
      . dsimp only
        rw [hdb, hissued, List.nil_append]
  | performWrite =>
    rcases step_performWrite hstep with ⟨write, issued, hissued, hs'⟩
    have hwrites := hs.issued
    rw [hissued] at hwrites
    rw [hs']
    constructor
    case documents =>
      intro path data hdata
      cases DatabaseManager.getDocument_performAccepted_singleton hdata with
      | inl hold => exact hs.documents path data hold
      | inr hwrite =>
        rw [← hwrite.left, ← hwrite.right]
        exact hwrites write List.mem_cons_self
    case issued =>
      intro later hlater
      exact hwrites later (List.mem_cons_of_mem write hlater)
    case stage => exact hs.stage.performWrite hissued
  | userFetched now =>
    rcases step_userFetched hstep with
      ⟨upload, group, data, currentUser, hfetching, hdata, hinit, hs'⟩
    rw [hfetching] at hstage
    rcases hstage with ⟨hcaptures, hcreates, hchat, hissued⟩
    rcases (hs.documents _ data hdata).init_user (by simp [DatabaseManager.userPath]) now with
      ⟨user, huser, huid, _⟩
    rw [hinit] at huser
    injection huser with huser
    rw [hs']
    constructor
    case documents => exact hs.documents
    case issued => exact hs.issued.append (DatabaseManager.wellFormedWrites_addGroupUsers group _)
    case stage =>
      refine ⟨hcreates, currentUser, ?_, hchat, ?_⟩
      . rw [huser, huid]
        exact hcaptures.uid
      . rw [DatabaseManager.performAccepted_append, hissued,
          ← DatabaseManager.performAccepted_append, hcaptures.selectedUsers]
  | fetchFailed =>
    rcases step_fetchFailed hstep with ⟨upload, group, hfetching, hs'⟩
    rw [hfetching] at hstage
    rw [hs']
    exact ⟨hs.documents, hs.issued, hstage.right⟩

theorem exec_creationInv {s : GroupCreation Data} {es : List Event}
    {uploads : List (GroupUpload Data)} {controller : Nat}
    (hdocuments : ∀ path data, db.getDocument path = some data → WellFormed path data)
    (huploads : ∀ upload ∈ uploads, Captures auth selectedUsers upload)
    (hrun : (groupCreation accepts).exec (start db controller uploads) es = some s)
    : s.CreationInv accepts db auth selectedUsers := by
  have hpreserves : (groupCreation accepts).Preserves
      (fun s : GroupCreation Data => s.CreationInv accepts db auth selectedUsers) :=
    fun _ _ _ hs hstep => creationInv_step hs hstep
  exact Machine.exec_preserves hpreserves (creationInv_start hdocuments huploads) hrun

-- the failures that a run shows in its stage
structure Outcome (uploads : List (GroupUpload Data)) (es : List Event) (s : GroupCreation Data)
    : Prop where
  abandoned : s.stage = .abandoned ↔ uploads = [] ∨ .uploadFailed ∈ es
  fetchFailed : (∃ group, s.stage = .fetchFailed group) ↔ .fetchFailed ∈ es

theorem outcome_start (uploads : List (GroupUpload Data)) (controller : Nat)
    : (start db controller uploads).Outcome uploads [] := by
  cases uploads with
  | nil => constructor <;> simp [start]
  | cons upload uploads => constructor <;> simp [start]

theorem outcome_step {uploads : List (GroupUpload Data)} {es : List Event}
    {s s' : GroupCreation Data} {e : Event} (hs : s.Outcome uploads es)
    (hstep : (groupCreation accepts).step s e = some s') : s'.Outcome uploads (es ++ [e]) := by
  rcases hs with ⟨habandoned, hfetchFailed⟩
  cases e with
  | imageUploaded =>
    rcases step_imageUploaded hstep with ⟨upload, hstage, hs'⟩
    rw [hs']
    constructor <;> simp_all
  | uploadFailed =>
    rcases step_uploadFailed hstep with ⟨⟨upload, hstage⟩, hs'⟩
    rw [hs']
    constructor <;> rcases hstage with hstage | hstage <;> simp_all
  | urlObtained uuid url date now =>
    rcases step_urlObtained hstep with ⟨upload, group, viewControllers, hstage, _, _, _, hs'⟩
    rw [hs']
    constructor <;> simp_all
  | performWrite =>
    rcases step_performWrite hstep with ⟨write, issued, hissued, hs'⟩
    rw [hs']
    constructor <;> simp_all
  | userFetched now =>
    rcases step_userFetched hstep with ⟨upload, group, data, currentUser, hstage, _, _, hs'⟩
    rw [hs']
    constructor <;> simp_all
  | fetchFailed =>
    rcases step_fetchFailed hstep with ⟨upload, group, hstage, hs'⟩
    rw [hs']
    constructor <;> simp_all

theorem exec_outcome {uploads : List (GroupUpload Data)} {controller : Nat} {es : List Event}
    {s : GroupCreation Data}
    (hrun : (groupCreation accepts).exec (start db controller uploads) es = some s)
    : s.Outcome uploads es := by
  exact Machine.exec_preserves_history (fun _ _ _ _ hs hstep => outcome_step hs hstep)
    (outcome_start uploads controller) hrun

-- What an operation at rest has done depends on where it has ended.
theorem CreationInv.atRest {s : GroupCreation Data}
    (hs : s.CreationInv accepts db auth selectedUsers) (hrest : s.AtRest)
    : (s.stage = .abandoned ∧ s.Untouched db)
        ∨ (∃ group, s.stage = .fetchFailed group ∧ Creates db auth selectedUsers group
          ∧ .chat group ∈ s.viewControllers
          ∧ s.db = DatabaseManager.performAccepted accepts db (DatabaseManager.addUser group))
        ∨ ∃ group currentUser, s.stage = .finished group ∧ Creates db auth selectedUsers group
          ∧ auth = some currentUser.uid
          ∧ s.db = DatabaseManager.performAccepted accepts db (DatabaseManager.addUser group
              ++ DatabaseManager.addGroupUsers group (selectedUsers ++ [currentUser])) := by
  rcases hrest with ⟨hfinal, hissued⟩
  have hstage := hs.stage
  unfold StageInv at hstage
  split at hstage
  . next h =>
    rw [h] at hfinal
    contradiction
  . next h =>
    rw [h] at hfinal
    contradiction
  . next h => exact Or.inl ⟨h, hstage⟩
  . next h =>
    rw [h] at hfinal
    contradiction
  . next group h =>
    rcases hstage with ⟨hcreates, hchat, hdb⟩
    rw [hissued, DatabaseManager.performAccepted_nil] at hdb
    exact Or.inr (Or.inl ⟨group, h, hcreates, hchat, hdb⟩)
  . next group h =>
    rcases hstage with ⟨hcreates, currentUser, hcreator, _, hdb⟩
    rw [hissued, DatabaseManager.performAccepted_nil] at hdb
    exact Or.inr (Or.inr ⟨group, currentUser, h, hcreates, hcreator, hdb⟩)

theorem allOrNothing_of_abandoned {s : GroupCreation Data} {members : List DocumentID}
    (hs : s.Untouched db) : s.AllOrNothing db members := by
  refine Or.inr ⟨?_, hs.right.right⟩
  intro uid huid
  rw [hs.left]
  exact huid

theorem not_allOrNothing_of_fetchFailed {s : GroupCreation Data} {group : User}
    {members : List DocumentID} {uid : DocumentID} (hstage : s.stage = .fetchFailed group)
    (hunmentioned : db.Unmentioned group.uid) (hchat : .chat group ∈ s.viewControllers)
    (hdb : s.db = DatabaseManager.perform db (DatabaseManager.addUser group))
    (huid : uid ∈ members) : ¬ s.AllOrNothing db members := by
  rintro (⟨group', hgroup', hmembers, _⟩ | ⟨_, hnone⟩)
  . rw [hstage, Stage.group?, Option.mem_some_iff] at hgroup'
    have hlisted := hmembers.listed uid huid
    rw [← hgroup', hdb, DatabaseManager.isSome_getDocument_perform,
      hunmentioned.recentUsers uid] at hlisted
    simp [DatabaseManager.addUser, DatabaseManager.userPath, DatabaseManager.recentUserPath]
      at hlisted
  . exact hnone group hchat

theorem hasMembers_perform (group : User) (users : List User)
    : (DatabaseManager.perform db (DatabaseManager.addUser group
        ++ DatabaseManager.addGroupUsers group users)).HasMembers group (users.map User.uid) := by
  have hwritten : ∀ path, (∃ write ∈ DatabaseManager.addGroupUsers group users, write.path = path) →
      ((DatabaseManager.perform db (DatabaseManager.addUser group
        ++ DatabaseManager.addGroupUsers group users)).getDocument path).isSome := by
    rintro path ⟨write, hwrite, hpath⟩
    rw [DatabaseManager.isSome_getDocument_perform]
    exact Or.inr ⟨write, List.mem_append_right _ hwrite, hpath⟩
  constructor
  case document =>
    rw [DatabaseManager.isSome_getDocument_perform]
    exact Or.inr ⟨_, List.mem_append_left _ (List.mem_singleton_self _), rfl⟩
  case listed =>
    intro uid huid
    rw [List.mem_map] at huid
    rcases huid with ⟨user, huser, huid⟩
    apply hwritten
    rw [DatabaseManager.path_of_mem_addGroupUsers, ← huid]
    exact ⟨user, huser, Or.inr rfl⟩
  case recent =>
    intro uid huid
    rw [List.mem_map] at huid
    rcases huid with ⟨user, huser, huid⟩
    apply hwritten
    rw [DatabaseManager.path_of_mem_addGroupUsers, ← huid]
    exact ⟨user, huser, Or.inl rfl⟩

-- There was nobody in a new group before, so the members are those that the loop has written.
theorem mem_of_listed {group : User} {users : List User} {uid : DocumentID}
    (hunmentioned : db.Unmentioned group.uid)
    (h : ((DatabaseManager.perform db (DatabaseManager.addUser group
      ++ DatabaseManager.addGroupUsers group users)).getDocument
        (DatabaseManager.recentUserPath group.uid uid)).isSome)
    : uid ∈ users.map User.uid := by
  rw [DatabaseManager.isSome_getDocument_perform, hunmentioned.recentUsers uid] at h
  rcases h with h | ⟨write, hwrite, hpath⟩
  . contradiction
  . rw [List.mem_append] at hwrite
    cases hwrite with
    | inl hwrite =>
      rw [DatabaseManager.addUser, List.mem_singleton] at hwrite
      rw [hwrite] at hpath
      injection hpath with hcollection
      contradiction
    | inr hwrite =>
      rcases DatabaseManager.path_of_mem_addGroupUsers.mp ⟨write, hwrite, hpath⟩ with
        ⟨user, huser, hrecent | hlisted⟩
      . rw [DatabaseManager.recentUserPath_inj] at hrecent
        rw [hrecent.right, hrecent.left]
        exact List.mem_map_of_mem huser
      . rw [DatabaseManager.recentUserPath_inj] at hlisted
        rw [hlisted.right]
        exact List.mem_map_of_mem huser

theorem allOrNothing_of_finished {s : GroupCreation Data} {group : User} {users : List User}
    (hstage : s.stage = .finished group) (hunmentioned : db.Unmentioned group.uid)
    (hdb : s.db = DatabaseManager.perform db (DatabaseManager.addUser group
      ++ DatabaseManager.addGroupUsers group users))
    : s.AllOrNothing db (users.map User.uid) := by
  refine Or.inl ⟨group, ?_, ?_, ?_⟩
  . rw [hstage]
    rfl
  . rw [hdb]
    exact hasMembers_perform group users
  . intro uid huid
    rw [hdb] at huid
    exact mem_of_listed hunmentioned huid

theorem performAccepted_eq_perform {writes : List Write}
    (h : ∀ write ∈ writes, accepts write.path = true)
    : DatabaseManager.performAccepted accepts db writes = DatabaseManager.perform db writes := by
  unfold DatabaseManager.performAccepted
  rw [List.filter_eq_self.mpr h]

theorem allOrNothing_iff_fetchSucceeds {Image : Type v} (pngData : Image → Option Data)
    (es₀ : List Backend.Event) (b : Backend) (hb : backend.exec Backend.init es₀ = some b)
    (c : CreateGroupController Image) (controller : Nat) (auth : Option DocumentID)
    (selectedUsers : List User) (es : List Event) (s : GroupCreation Data)
    (hrun : (groupCreation (fun _ => true)).exec
      (start b.db controller
        (c.createGroup pngData auth controller (usersId selectedUsers) selectedUsers)) es = some s)
    (hrest : s.AtRest)
    : s.AllOrNothing b.db (selectedUsers.map User.uid ++ auth.toList) ↔ .fetchFailed ∉ es := by
  have hs := exec_creationInv (Backend.exec_wellFormedStore hb).documents
    (fun upload hupload => captures_of_mem_createGroup hupload) hrun
  have houtcome := (exec_outcome hrun).fetchFailed
  rcases hs.atRest hrest with
    ⟨hstage, huntouched⟩ | ⟨group, hstage, hcreates, hchat, hdb⟩
      | ⟨group, currentUser, hstage, hcreates, hcreator, hdb⟩
  . have hnot : .fetchFailed ∉ es := by
      rw [← houtcome, hstage]
      simp
    exact ⟨fun _ => hnot, fun _ => allOrNothing_of_abandoned huntouched⟩
  . have hfailed := houtcome.mp ⟨group, hstage⟩
    rcases hcreates.uid with ⟨_, creator, hcreator, _⟩
    rw [performAccepted_eq_perform (fun _ _ => rfl)] at hdb
    have hmem : creator ∈ selectedUsers.map User.uid ++ auth.toList := by
      rw [hcreator]
      simp
    have hnot := not_allOrNothing_of_fetchFailed hstage hcreates.unmentioned hchat hdb hmem
    exact ⟨fun h => absurd h hnot, fun h => absurd hfailed h⟩
  . have hnot : .fetchFailed ∉ es := by
      rw [← houtcome, hstage]
      simp
    rw [performAccepted_eq_perform (fun _ _ => rfl)] at hdb
    have hall := allOrNothing_of_finished hstage hcreates.unmentioned hdb
    rw [List.map_append, List.map_singleton] at hall
    rw [hcreator]
    exact ⟨fun _ => hnot, fun _ => hall⟩

def teamUUID : UUID :=
  ⟨⟨"6BA7B810-9DAD-11D1-80B4-00C04FD430C8", by decide⟩, by simp⟩

def annsAccount : List Backend.Event :=
  [.createAccount "a", .signup "a" "Ann" "A" "ann@mail.org" "pa" 1 1, .perform 0 1]

def bob : User :=
  ⟨"b", "Bob", "B", "bob@mail.org", "pb", 1, false⟩

-- Ann makes a group with Bob.
def teamRun : List Event :=
  [.imageUploaded, .urlObtained teamUUID "pg" 2 2, .performWrite, .userFetched 2, .performWrite,
    .performWrite, .performWrite, .performWrite]

theorem allOrNothing_iff_fetchSucceeds_teamRun
    : ∃ (b : Backend) (s : GroupCreation Nat),
        (groupCreation (fun _ => true)).exec
            (start b.db 0 (CreateGroupController.createGroup some (some "a") ⟨some 7, "Team"⟩ 0
              (usersId [bob]) [bob])) teamRun = some s
          ∧ s.AtRest ∧ s.AllOrNothing b.db ["b", "a"] := by
  have hiff := allOrNothing_iff_fetchSucceeds some annsAccount _ rfl ⟨some 7, "Team"⟩ 0 (some "a")
    [bob] teamRun _ rfl ⟨rfl, rfl⟩
  refine ⟨_, _, rfl, ⟨rfl, rfl⟩, hiff.mpr ?_⟩
  simp [teamRun]

-- The group is stored and its chat is open, but nobody is in it.
def emptyTeamRun : List Event :=
  [.imageUploaded, .urlObtained teamUUID "pg" 2 2, .fetchFailed, .performWrite]

theorem not_allOrNothing
    : ¬∀ (es₀ : List Backend.Event) (b : Backend), backend.exec Backend.init es₀ = some b →
        ∀ (c : CreateGroupController Nat) (controller : Nat) (auth : Option DocumentID)
          (selectedUsers : List User) (es : List Event) (s : GroupCreation Nat),
          (groupCreation (fun _ => true)).exec
              (start b.db controller
                (c.createGroup some auth controller (usersId selectedUsers) selectedUsers)) es
            = some s →
          s.AtRest → s.AllOrNothing b.db (selectedUsers.map User.uid ++ auth.toList) := by
  intro h
  rcases h annsAccount _ rfl ⟨some 7, "Team"⟩ 0 (some "a") [bob] emptyTeamRun _ rfl ⟨rfl, rfl⟩ with
    ⟨group, hgroup, hmembers, _⟩ | ⟨_, hnone⟩
  . injection hgroup with hgroup
    have hlisted := hmembers.listed "b" (by decide)
    rw [← hgroup] at hlisted
    contradiction
  . exact hnone _ (List.mem_of_getLast? rfl)

end GroupCreation

end ChatApplication
