import ChatApplication.Controller.CreateGroupController.GroupCreation

/-!
This module contains the size up to which groups come about. The uid of a group holds the uids of
all its members, and Firestore rejects a path with a document id of more than 1500 bytes.
-/

namespace ChatApplication

def Path.documentIDs (path : Path) : List DocumentID :=
  match path.collection with
  | .users | .messages => [path.documentID]
  | .recentUsers uid => [uid, path.documentID]

namespace Firestore

-- in UTF-8 bytes
def maxDocumentIDSize : Nat :=
  1500

def accepts (path : Path) : Bool :=
  path.documentIDs.all (fun documentID => documentID.utf8ByteSize ≤ maxDocumentIDSize)

end Firestore

theorem utf8ByteSize_of_ascii {s : String} (h : ∀ c ∈ s.toList, c.toNat < 128)
    : s.utf8ByteSize = s.length := by
  have hlist : ∀ cs : List Char, (∀ c ∈ cs, c.toNat < 128) →
      (String.ofList cs).utf8ByteSize = cs.length := by
    intro cs hcs
    induction cs with
    | nil => rfl
    | cons c cs ih =>
      rw [List.forall_mem_cons] at hcs
      have hsize : c.utf8Size = 1 := by
        rw [Char.utf8Size_eq_one_iff, UInt32.le_iff_toNat_le]
        exact Nat.le_of_lt_succ hcs.left
      rw [String.ofList_cons, String.utf8ByteSize_append, String.utf8ByteSize_singleton, hsize,
        ih hcs.right, List.length_cons, Nat.add_comm]
  have hs := hlist s.toList h
  rw [String.ofList_toList, String.length_toList] at hs
  exact hs

theorem AuthUid.utf8ByteSize_value (uid : AuthUid) : uid.value.utf8ByteSize = 28 := by
  rw [utf8ByteSize_of_ascii uid.ascii, uid.length_eq]

theorem UUID.utf8ByteSize_value (uuid : UUID) : uuid.value.utf8ByteSize = 36 := by
  rw [utf8ByteSize_of_ascii uuid.ascii, uuid.length_eq]

namespace NavigationController

theorem utf8ByteSize_usersId {selectedUsers : List User}
    (h : ∀ user ∈ selectedUsers, ∃ uid : AuthUid, uid.value = user.uid)
    : (usersId selectedUsers).utf8ByteSize = 28 * selectedUsers.length := by
  induction selectedUsers using List.reverseRecOn with
  | nil => rfl
  | append_singleton selectedUsers user ih =>
    rcases h user (by simp) with ⟨uid, huid⟩
    have hrest : ∀ other ∈ selectedUsers, ∃ uid : AuthUid, uid.value = other.uid := by
      intro other hother
      exact h other (List.mem_append_left _ hother)
    rw [usersId_concat, String.utf8ByteSize_append, ih hrest, ← huid, uid.utf8ByteSize_value,
      List.length_append, List.length_singleton]
    omega

theorem utf8ByteSize_group (uuid : UUID) (creator : AuthUid) {selectedUsers : List User}
    (h : ∀ user ∈ selectedUsers, ∃ uid : AuthUid, uid.value = user.uid)
    : (uuid.value ++ creator.value ++ usersId selectedUsers).utf8ByteSize
        =
      64 + 28 * selectedUsers.length := by
  rw [String.utf8ByteSize_append, String.utf8ByteSize_append, uuid.utf8ByteSize_value,
    creator.utf8ByteSize_value, utf8ByteSize_usersId h]

end NavigationController

namespace GroupCreation

open NavigationController (usersId utf8ByteSize_group)

variable {Data : Type u} {db : Firestore} {group : User} {users : List User}

-- Every write of the call has the group in its path, next to a member at most.
theorem documentIDs_of_mem {write : Write}
    (h : write ∈ DatabaseManager.addUser group ++ DatabaseManager.addGroupUsers group users)
    : group.uid ∈ write.path.documentIDs
        ∧ ∀ documentID ∈ write.path.documentIDs,
            documentID = group.uid ∨ ∃ user ∈ users, documentID = user.uid := by
  rw [List.mem_append] at h
  cases h with
  | inl h =>
    rw [DatabaseManager.addUser, List.mem_singleton] at h
    rw [h]
    simp [DatabaseManager.userPath, Path.documentIDs]
  | inr h =>
    rcases DatabaseManager.path_of_mem_addGroupUsers.mp ⟨write, h, rfl⟩ with
      ⟨user, huser, hrecent | hlisted⟩
    . rw [hrecent]
      simp only [DatabaseManager.recentUserPath, Path.documentIDs, List.mem_cons, List.not_mem_nil,
        or_false]
      refine ⟨Or.inr trivial, ?_⟩
      rintro documentID (hdocumentID | hdocumentID)
      . exact Or.inr ⟨user, huser, hdocumentID⟩
      . exact Or.inl hdocumentID
    . rw [hlisted]
      simp only [DatabaseManager.recentUserPath, Path.documentIDs, List.mem_cons, List.not_mem_nil,
        or_false]
      refine ⟨Or.inl trivial, ?_⟩
      rintro documentID (hdocumentID | hdocumentID)
      . exact Or.inl hdocumentID
      . exact Or.inr ⟨user, huser, hdocumentID⟩

theorem performAccepted_eq_self {accepts : Path → Bool} {writes : List Write}
    (h : ∀ write ∈ writes, accepts write.path = false)
    : DatabaseManager.performAccepted accepts db writes = db := by
  have hnil : writes.filter (fun write => accepts write.path) = [] := by
    rw [List.filter_eq_nil_iff]
    intro write hwrite
    rw [h write hwrite]
    exact Bool.false_ne_true
  unfold DatabaseManager.performAccepted
  rw [hnil]
  rfl

-- All writes of the call share the fate of the group's own document.
theorem hasMembers_performAccepted_iff (hunmentioned : db.Unmentioned group.uid)
    (husers : ∀ user ∈ users, user.uid.utf8ByteSize ≤ Firestore.maxDocumentIDSize)
    : (DatabaseManager.performAccepted Firestore.accepts db (DatabaseManager.addUser group
          ++ DatabaseManager.addGroupUsers group users)).HasMembers group (users.map User.uid)
        ↔
      group.uid.utf8ByteSize ≤ Firestore.maxDocumentIDSize := by
  constructor
  . intro hmembers
    by_contra hlong
    have hrejected : ∀ write ∈ DatabaseManager.addUser group
        ++ DatabaseManager.addGroupUsers group users, Firestore.accepts write.path = false := by
      intro write hwrite
      rw [Firestore.accepts, List.all_eq_false]
      exact ⟨group.uid, (documentIDs_of_mem hwrite).left, by simpa using hlong⟩
    have hdocument := hmembers.document
    rw [performAccepted_eq_self hrejected, hunmentioned.document] at hdocument
    contradiction
  . intro hshort
    have haccepted : ∀ write ∈ DatabaseManager.addUser group
        ++ DatabaseManager.addGroupUsers group users, Firestore.accepts write.path = true := by
      intro write hwrite
      rw [Firestore.accepts, List.all_eq_true]
      intro documentID hdocumentID
      rcases (documentIDs_of_mem hwrite).right documentID hdocumentID with hgroup | ⟨user, huser, huid⟩
      . rw [hgroup]
        exact decide_eq_true hshort
      . rw [huid]
        exact decide_eq_true (husers user huser)
    rw [performAccepted_eq_perform haccepted]
    exact hasMembers_perform group users

variable {accepts : Path → Bool} {Image : Type v} {pngData : Image → Option Data}
  {c : CreateGroupController Image} {controller : Nat} {auth : Option DocumentID}
  {selectedUsers : List User}

-- Without a failure the operation comes to rest behind the writes of the memberships.
theorem finished_of_atRest {s : GroupCreation Data} {es : List Event}
    {uploads : List (GroupUpload Data)}
    (hdocuments : ∀ path data, db.getDocument path = some data → WellFormed path data)
    (huploads : ∀ upload ∈ uploads, Captures auth selectedUsers upload)
    (hrun : (groupCreation accepts).exec (start db controller uploads) es = some s)
    (hrest : s.AtRest) (hne : uploads ≠ []) (huploaded : .uploadFailed ∉ es)
    (hfetched : .fetchFailed ∉ es)
    : ∃ group currentUser, s.stage = .finished group ∧ Creates db auth selectedUsers group
        ∧ auth = some currentUser.uid
        ∧ s.db = DatabaseManager.performAccepted accepts db (DatabaseManager.addUser group
            ++ DatabaseManager.addGroupUsers group (selectedUsers ++ [currentUser])) := by
  have hs := exec_creationInv hdocuments huploads hrun
  have houtcome := exec_outcome hrun
  rcases hs.atRest hrest with ⟨hstage, _⟩ | ⟨group, hstage, _⟩ | hfinished
  . cases houtcome.abandoned.mp hstage with
    | inl hnil => contradiction
    | inr hfailed => contradiction
  . exact absurd (houtcome.fetchFailed.mp ⟨group, hstage⟩) hfetched
  . exact hfinished

theorem createGroup_ne_nil {imageData : Data} {uid : DocumentID}
    (himage : c.profileImage.bind pngData = some imageData) (hname : c.groupName ≠ "")
    : c.createGroup pngData (some uid) controller (usersId selectedUsers) selectedUsers ≠ [] := by
  unfold CreateGroupController.createGroup
  rw [himage]
  simp [hname]

theorem exec_performWrites (s : GroupCreation Data)
    : (groupCreation accepts).exec s (List.replicate s.issued.length .performWrite)
        =
      some { s with db := DatabaseManager.performAccepted accepts s.db s.issued, issued := [] } := by
  rcases s with ⟨db, stage, issued, viewControllers⟩
  induction issued generalizing db with
  | nil => rfl
  | cons write issued ih =>
    have hrest := ih (DatabaseManager.performAccepted accepts db [write])
    rw [← DatabaseManager.performAccepted_append, List.singleton_append] at hrest
    exact hrest

-- Whatever the selection, an operation without a failure comes to rest.
theorem exists_run {upload : GroupUpload Data} {data : Dictionary} (uuid : UUID) (url : String)
    (date now : Date)
    (hdocuments : ∀ path data, db.getDocument path = some data → WellFormed path data)
    (hcreator : db.getDocument (DatabaseManager.userPath upload.uid) = some data)
    (hnew : db.IsNew (uuid.value ++ upload.uid ++ upload.usersId))
    : ∃ es s, (groupCreation accepts).exec (start db upload.controller [upload]) es = some s
        ∧ s.AtRest ∧ .uploadFailed ∉ es ∧ .fetchFailed ∉ es := by
  rcases (hdocuments _ data hcreator).init_user (by simp [DatabaseManager.userPath]) now with
    ⟨currentUser, hcurrentUser, _, _⟩
  have hfetch : (DatabaseManager.fetchUser db upload.uid).bind (User.init now)
      = some currentUser := by
    rw [DatabaseManager.fetchUser, hcreator, Option.bind_some, hcurrentUser]
  have hanswered : ∃ s, s.stage.isFinal
      ∧ (groupCreation accepts).exec (start db upload.controller [upload])
          [.imageUploaded, .urlObtained uuid url date now, .userFetched now] = some s := by
    simp [groupCreation, Machine.exec, step, start, User.init_values, NavigationController.showGroup,
      NavigationController.stackOf, NavigationController.removeLast, hnew, hfetch, Stage.isFinal]
  rcases hanswered with ⟨s, hfinal, hanswered⟩
  refine ⟨_, _, (Machine.exec_append_eq_some _ ).mpr ⟨s, hanswered, exec_performWrites s⟩,
    ⟨hfinal, rfl⟩, ?_, ?_⟩
  . simp [List.mem_replicate]
  . simp [List.mem_replicate]

theorem hasMembers_iff_utf8ByteSize_le {s : GroupCreation Data} {es : List Event}
    {uploads : List (GroupUpload Data)} {creator : DocumentID}
    (hdocuments : ∀ path data, db.getDocument path = some data → WellFormed path data)
    (huploads : ∀ upload ∈ uploads, Captures (some creator) selectedUsers upload)
    (hshort : ∀ uid ∈ selectedUsers.map User.uid ++ [creator],
      uid.utf8ByteSize ≤ Firestore.maxDocumentIDSize)
    (hrun : (groupCreation Firestore.accepts).exec (start db controller uploads) es = some s)
    (hrest : s.AtRest) (hne : uploads ≠ []) (huploaded : .uploadFailed ∉ es)
    (hfetched : .fetchFailed ∉ es)
    : ∃ uuid : UUID,
        (∃ group ∈ s.stage.group?, s.db.HasMembers group (selectedUsers.map User.uid ++ [creator]))
          ↔
        (uuid.value ++ creator ++ usersId selectedUsers).utf8ByteSize
          ≤ Firestore.maxDocumentIDSize := by
  rcases finished_of_atRest hdocuments huploads hrun hrest hne huploaded hfetched with
    ⟨group, currentUser, hstage, hcreates, hcreator, hdb⟩
  injection hcreator with hcreator
  rcases hcreates.uid with ⟨uuid, creator', hcreator', hgroup⟩
  injection hcreator' with hcreator'
  have hmembers : selectedUsers.map User.uid ++ [creator]
      = (selectedUsers ++ [currentUser]).map User.uid := by
    rw [List.map_append, List.map_singleton, hcreator]
  have hshortUsers : ∀ user ∈ selectedUsers ++ [currentUser],
      user.uid.utf8ByteSize ≤ Firestore.maxDocumentIDSize := by
    intro user huser
    apply hshort
    rw [hmembers]
    exact List.mem_map_of_mem huser
  refine ⟨uuid, ?_⟩
  rw [hstage, hmembers, hdb, hcreator', ← hgroup]
  simp only [Stage.group?, Option.mem_some_iff, exists_eq_left']
  exact hasMembers_performAccepted_iff hcreates.unmentioned hshortUsers

theorem utf8ByteSize_member {creator : AuthUid}
    (hselected : ∀ user ∈ selectedUsers, ∃ uid : AuthUid, uid.value = user.uid)
    : ∀ uid ∈ selectedUsers.map User.uid ++ [creator.value],
        uid.utf8ByteSize ≤ Firestore.maxDocumentIDSize := by
  have hauth : ∀ uid : AuthUid, uid.value.utf8ByteSize ≤ Firestore.maxDocumentIDSize := by
    intro uid
    rw [uid.utf8ByteSize_value]
    decide
  intro uid huid
  rw [List.mem_append, List.mem_map, List.mem_singleton] at huid
  rcases huid with ⟨user, huser, huid⟩ | huid
  . rcases hselected user huser with ⟨uid', huid'⟩
    rw [← huid, ← huid']
    exact hauth uid'
  . rw [huid]
    exact hauth creator

-- 36 bytes for the UUID and 28 for each member, the creator included
theorem hasMembers_iff_length_le (pngData : Image → Option Data) (es₀ : List Backend.Event)
    (b : Backend) (hb : backend.exec Backend.init es₀ = some b) (c : CreateGroupController Image)
    (controller : Nat) (imageData : Data) (himage : c.profileImage.bind pngData = some imageData)
    (hname : c.groupName ≠ "") (creator : AuthUid) (selectedUsers : List User)
    (hselected : ∀ user ∈ selectedUsers, ∃ uid : AuthUid, uid.value = user.uid)
    (es : List Event) (s : GroupCreation Data)
    (hrun : (groupCreation Firestore.accepts).exec
      (start b.db controller (c.createGroup pngData (some creator.value) controller
        (usersId selectedUsers) selectedUsers)) es = some s)
    (hrest : s.AtRest) (huploaded : .uploadFailed ∉ es) (hfetched : .fetchFailed ∉ es)
    : (∃ group ∈ s.stage.group?,
        s.db.HasMembers group (selectedUsers.map User.uid ++ [creator.value]))
        ↔
      selectedUsers.length ≤ 51 := by
  rcases hasMembers_iff_utf8ByteSize_le (Backend.exec_wellFormedStore hb).documents
      (fun upload hupload => captures_of_mem_createGroup hupload) (utf8ByteSize_member hselected)
      hrun hrest (createGroup_ne_nil himage hname) huploaded hfetched with ⟨uuid, hiff⟩
  rw [hiff, utf8ByteSize_group uuid creator hselected, Firestore.maxDocumentIDSize]
  omega

def cyd : AuthUid :=
  ⟨"cydcydcydcydcydcydcydcydcydc", by decide, by simp⟩

def dana : AuthUid :=
  ⟨"danadanadanadanadanadanadana", by decide, by simp⟩

def cydsAccount : List Backend.Event :=
  [
    .createAccount cyd.value,
    .signup cyd.value "Cyd" "C" "cyd@mail.org" "pc" 1 1,
    .perform 0 1
  ]

def userOf (uid : AuthUid) : User :=
  ⟨uid.value, "", "", "", "", 1, false⟩

def pairRun : List Event :=
  [.imageUploaded, .urlObtained teamUUID "pg" 2 2, .userFetched 2] ++ List.replicate 5 .performWrite

theorem hasMembers_iff_length_le_pairRun
    : ∃ (b : Backend) (s : GroupCreation Nat), backend.exec Backend.init cydsAccount = some b
        ∧ (groupCreation Firestore.accepts).exec
            (start b.db 0 (CreateGroupController.createGroup some (some cyd.value)
              ⟨some 7, "Pair"⟩ 0 (usersId [userOf dana]) [userOf dana])) pairRun = some s
          ∧ s.AtRest
          ∧ ∃ group ∈ s.stage.group?, s.db.HasMembers group [dana.value, cyd.value] := by
  have hiff := hasMembers_iff_length_le some cydsAccount _ rfl ⟨some 7, "Pair"⟩ 0 7 rfl (by decide)
    cyd [userOf dana] (by simp [userOf]) pairRun _ rfl ⟨rfl, rfl⟩ (by simp [pairRun])
      (by simp [pairRun])
  exact ⟨_, _, rfl, rfl, ⟨rfl, rfl⟩, hiff.mpr (by decide)⟩

-- a uid for each letter
def letterUid (c : Char) : DocumentID :=
  String.ofList (List.replicate 28 c)

def letters : List Char :=
  "ABCDEFGHIJKLMNOPQRSTUVWXYZabcdefghijklmnopqrstuvwxyz".toList

-- 52 users
def letterUsers : List User :=
  letters.map (fun c => ⟨letterUid c, "", "", "", "", 1, false⟩)

theorem exists_authUid_of_mem_letterUsers
    : ∀ user ∈ letterUsers, ∃ uid : AuthUid, uid.value = user.uid := by
  have hascii : letters.all (fun c => c.toNat < 128) = true := by rfl
  intro user huser
  rw [letterUsers, List.mem_map] at huser
  rcases huser with ⟨c, hc, huser⟩
  rw [← huser]
  refine ⟨⟨letterUid c, ?_, ?_⟩, rfl⟩
  . rw [letterUid, String.length_ofList, List.length_replicate]
  . intro c' hc'
    rw [letterUid, String.toList_ofList] at hc'
    rw [List.eq_of_mem_replicate hc']
    exact of_decide_eq_true (List.all_eq_true.mp hascii c hc)

theorem letterUid_injective : Function.Injective letterUid := by
  intro c c' h
  have hlist := String.ofList_injective h
  rw [List.replicate_right_inj (by decide)] at hlist
  exact hlist

theorem nodup_letterUsers : (letterUsers.map User.uid).Nodup := by
  have hletters : letters.Nodup := by decide
  rw [letterUsers, List.map_map]
  exact hletters.map letterUid_injective

-- The group is too long to be named, and then there is no document of it or of its members.
theorem not_hasMembers
    : ¬∀ (es₀ : List Backend.Event) (b : Backend), backend.exec Backend.init es₀ = some b →
        ∀ (c : CreateGroupController Nat) (controller : Nat), c.profileImage.isSome →
        c.groupName ≠ "" →
        ∀ (creator : AuthUid) (selectedUsers : List User),
        (∀ user ∈ selectedUsers, ∃ uid : AuthUid, uid.value = user.uid) →
        (selectedUsers.map User.uid).Nodup →
        ∀ (es : List Event) (s : GroupCreation Nat),
          (groupCreation Firestore.accepts).exec
              (start b.db controller (c.createGroup some (some creator.value) controller
                (usersId selectedUsers) selectedUsers)) es = some s →
          s.AtRest → .uploadFailed ∉ es → .fetchFailed ∉ es →
          ∃ group ∈ s.stage.group?,
            s.db.HasMembers group (selectedUsers.map User.uid ++ [creator.value]) := by
  intro h
  have hbackend : ∃ b, backend.exec Backend.init cydsAccount = some b
      ∧ (b.db.getDocument (DatabaseManager.userPath cyd.value)).isSome
      ∧ b.db.keys = [DatabaseManager.userPath cyd.value] :=
    ⟨_, rfl, rfl, rfl⟩
  rcases hbackend with ⟨b, hb, hcreator, hkeys⟩
  rcases Option.isSome_iff_exists.mp hcreator with ⟨data, hcreator⟩
  have hdocuments := (Backend.exec_wellFormedStore hb).documents
  let c : CreateGroupController Nat := ⟨some 7, "Team"⟩
  let upload : GroupUpload Nat := ⟨7, 0, cyd.value, "Team", usersId letterUsers, letterUsers⟩
  have hupload : c.createGroup some (some cyd.value) 0 (usersId letterUsers) letterUsers
      = [upload] := by
    rfl
  have hnew : b.db.IsNew (teamUUID.value ++ upload.uid ++ upload.usersId) := by
    have hlong := GroupID.le_length_value ⟨teamUUID.toUUIDString, cyd, upload.usersId⟩
    intro path hpath
    rw [hkeys, List.mem_singleton] at hpath
    rw [hpath]
    refine ⟨?_, nofun⟩
    intro heq
    rw [GroupID.value, ← heq, DatabaseManager.userPath, cyd.length_eq] at hlong
    contradiction
  have hexists : ∃ es s, (groupCreation Firestore.accepts).exec (start b.db 0 [upload]) es = some s
      ∧ s.AtRest ∧ .uploadFailed ∉ es ∧ .fetchFailed ∉ es :=
    exists_run teamUUID "pg" 2 2 hdocuments hcreator hnew
  rcases hexists with ⟨es, s, hrun, hrest, huploaded, hfetched⟩
  rw [← hupload] at hrun
  rcases hasMembers_iff_utf8ByteSize_le hdocuments
      (fun upload hupload => captures_of_mem_createGroup hupload)
      (utf8ByteSize_member exists_authUid_of_mem_letterUsers) hrun hrest
      (createGroup_ne_nil rfl (by decide)) huploaded hfetched with ⟨uuid, hiff⟩
  have hmembers := h cydsAccount b hb c 0 rfl (by decide) cyd letterUsers
    exists_authUid_of_mem_letterUsers nodup_letterUsers es s hrun hrest huploaded hfetched
  rw [hiff, utf8ByteSize_group uuid cyd exists_authUid_of_mem_letterUsers] at hmembers
  exact absurd hmembers (by decide)

end GroupCreation

end ChatApplication
