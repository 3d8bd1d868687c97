import ChatApplication.API.Membership.Basic

/-!
This module contains the invariant of the relation between users and its preservation by every
event of an admissible run.
-/

namespace ChatApplication

namespace Backend

structure MembershipInv (s : Backend) : Prop where
  objects : ∀ object uid isGroup, s.identity object = some (uid, isGroup) → s.Known uid isGroup
  documents : ∀ path data, s.Touched path data → path.collection ≠ .messages →
    ∃ user : User, s.Known user.uid user.isGroup ∧ user.uid = path.documentID
      ∧ data = user.dictionary
  allowed : ∀ uid otherUid, s.Touches (DatabaseManager.recentUserPath uid otherUid) →
    s.Allowed uid otherUid
  symmetric : ∀ uid otherUid, s.Touches (DatabaseManager.recentUserPath uid otherUid) →
    s.Touches (DatabaseManager.recentUserPath otherUid uid)
  separate : ∀ group ∈ s.groups, group.uid ∉ s.accounts ∧ ∀ uid ∈ group.members, uid ∈ s.accounts
  distinct : ∀ group ∈ s.groups, ∀ group' ∈ s.groups, group.uid = group'.uid → group = group'
  awaiting : ∀ operation ∈ s.operations, ∀ awaiting, operation.awaiting = some awaiting →
    s.Sound awaiting

theorem membershipInv_init : MembershipInv init := by
  constructor
  case documents =>
    rintro path data (hdata | ⟨write, hwrite, _⟩)
    . rw [init, Firestore.getDocument_empty] at hdata
      contradiction
    . contradiction
  case allowed =>
    intro uid otherUid _ group hgroup
    contradiction
  case symmetric =>
    rintro uid otherUid ⟨data, hdata | ⟨write, hwrite, _⟩⟩
    . rw [init, Firestore.getDocument_empty] at hdata
      contradiction
    . contradiction
  all_goals
    intros
    contradiction

theorem MembershipInv.of_touched {s s' : Backend} (hs : s.MembershipInv) {writes : List Write}
    (hwrites : s.AdmittedWrites writes) (hidentity : s'.identity = s.identity)
    (haccounts : s'.accounts = s.accounts) (hgroups : s'.groups = s.groups)
    (htouched : ∀ path data, s'.Touched path data ↔
      s.Touched path data ∨ ∃ write ∈ writes, write.path = path ∧ write.data = data)
    (hawaiting : ∀ operation ∈ s'.operations, ∀ awaiting, operation.awaiting = some awaiting →
      s'.Sound awaiting)
    : s'.MembershipInv := by
  have hknown : ∀ uid isGroup, s.Known uid isGroup → s'.Known uid isGroup := by
    intro uid isGroup h
    unfold Known
    rw [haccounts, hgroups]
    exact h
  have hallowed : ∀ uid otherUid, s.Allowed uid otherUid → s'.Allowed uid otherUid := by
    intro uid otherUid h
    unfold Allowed
    rw [hgroups]
    exact h
  constructor
  case objects =>
    intro object uid isGroup h
    rw [hidentity] at h
    exact hknown uid isGroup (hs.objects object uid isGroup h)
  case documents =>
    intro path data h hpath
    rw [htouched] at h
    rcases h with h | ⟨write, hwrite, rfl, rfl⟩
    . rcases hs.documents path data h hpath with ⟨user, huser, hdata⟩
      exact ⟨user, hknown _ _ huser, hdata⟩
    . rcases hwrites.documents write hwrite hpath with ⟨user, huser, hdata⟩
      exact ⟨user, hknown _ _ huser, hdata⟩
  case allowed =>
    rintro uid otherUid ⟨data, h⟩
    rw [htouched] at h
    apply hallowed
    rcases h with h | ⟨write, hwrite, hpath, _⟩
    . exact hs.allowed uid otherUid ⟨data, h⟩
    . exact hwrites.allowed write hwrite uid otherUid hpath
  case symmetric =>
    rintro uid otherUid ⟨data, h⟩
    rw [htouched] at h
    rcases h with h | ⟨write, hwrite, hpath, _⟩
    . rcases hs.symmetric uid otherUid ⟨data, h⟩ with ⟨data', h'⟩
      exact ⟨data', (htouched _ _).mpr (Or.inl h')⟩
    . rcases hwrites.symmetric write hwrite uid otherUid hpath with ⟨write', hwrite', hpath'⟩
      exact ⟨write'.data, (htouched _ _).mpr (Or.inr ⟨write', hwrite', hpath', rfl⟩)⟩
  case separate =>
    rw [haccounts, hgroups]
    exact hs.separate
  case distinct =>
    rw [hgroups]
    exact hs.distinct
  case awaiting => exact hawaiting

-- `s'` knows at least the objects and groups that `s` knows.
structure Extends (s s' : Backend) : Prop where
  identity : ∀ object known, s.identity object = some known → s'.identity object = some known
  accounts : ∀ uid ∈ s.accounts, uid ∈ s'.accounts
  groups : ∀ group ∈ s.groups, group ∈ s'.groups

theorem Extends.known {s s' : Backend} (h : Extends s s') {uid : DocumentID} {isGroup : Bool}
    (hknown : s.Known uid isGroup) : s'.Known uid isGroup := by
  cases isGroup with
  | true =>
    rcases hknown with ⟨group, hgroup, huid⟩
    exact ⟨group, h.groups group hgroup, huid⟩
  | false => exact h.accounts uid hknown

theorem Extends.creates {s s' : Backend} (h : Extends s s') {group : Group} {object : Nat}
    {selectedUsers : List Nat} (hcreates : s.Creates group object selectedUsers)
    : s'.Creates group object selectedUsers := by
  refine ⟨h.identity object _ hcreates.left, ?_⟩
  rw [← hcreates.right]
  apply List.map_congr_left
  intro selected hselected
  have hmem : s.identity selected ∈ selectedUsers.map s.identity := List.mem_map_of_mem hselected
  rw [hcreates.right, List.mem_map] at hmem
  rcases hmem with ⟨uid, _, huid⟩
  rw [← huid]
  exact h.identity selected _ huid.symm

-- New groups have uids that nobody had.
theorem Allowed.extend {s s' : Backend} {uid otherUid : DocumentID} (h : s.Allowed uid otherUid)
    {isGroup isGroup' : Bool} (huid : s.Known uid isGroup) (hotherUid : s.Known otherUid isGroup')
    (hgroups : ∀ group ∈ s'.groups, group ∈ s.groups ∨ ∀ isGroup, ¬ s.Known group.uid isGroup)
    : s'.Allowed uid otherUid := by
  intro group hgroup
  cases hgroups group hgroup with
  | inl hold => exact h group hold
  | inr hnew =>
    constructor
    . intro heq
      rw [← heq] at huid
      exact absurd huid (hnew isGroup)
    . intro heq
      rw [← heq] at hotherUid
      exact absurd hotherUid (hnew isGroup')

theorem Extends.sound {s s' : Backend} (h : Extends s s') {awaiting : Awaiting}
    (hobjects : ∀ object uid isGroup, s.identity object = some (uid, isGroup) → s.Known uid isGroup)
    (hgroups : ∀ group ∈ s'.groups, group ∈ s.groups ∨ ∀ isGroup, ¬ s.Known group.uid isGroup)
    (hawaiting : s.Sound awaiting) : s'.Sound awaiting := by
  match awaiting with
  | .request (.groupMembers otherUser) =>
    rcases hawaiting with ⟨uid, huid⟩
    exact ⟨uid, h.identity otherUser _ huid⟩
  | .request (.creator uid object selectedUsers) =>
    rcases hawaiting with ⟨group, hgroup, hcreator, hcreates⟩
    exact ⟨group, h.groups group hgroup, hcreator, h.creates hcreates⟩
  | .reply (.groupMembers otherUser seen documents) =>
    rcases hawaiting with ⟨uid, huid, hdocuments⟩
    refine ⟨uid, h.identity otherUser _ huid, ?_⟩
    intro document hdocument
    rcases hdocuments document hdocument with ⟨user, hknown, hallowed, hdata⟩
    have hgroup := hobjects otherUser uid true huid
    exact ⟨user, h.known hknown, hallowed.extend hknown hgroup hgroups, hdata⟩
  | .reply (.creator object selectedUsers data) =>
    rcases hawaiting with ⟨group, hgroup, hcreates, user, hknown, hrest⟩
    exact ⟨group, h.groups group hgroup, h.creates hcreates, user, h.known hknown, hrest⟩

theorem extends_of_eq {s s' : Backend} (hidentity : s'.identity = s.identity)
    (haccounts : s'.accounts = s.accounts) (hgroups : s'.groups = s.groups) : Extends s s' := by
  constructor
  . intro object known h
    rw [hidentity]
    exact h
  . rw [haccounts]
    exact fun _ h => h
  . rw [hgroups]
    exact fun _ h => h

-- New objects, accounts and groups with nothing stored about them yet keep the invariant.
theorem MembershipInv.extend {s s' : Backend} (hs : s.MembershipInv) (h : Extends s s')
    (hdb : s'.db = s.db) (hoperations : s'.operations = s.operations)
    (hobjects : ∀ object uid isGroup, s'.identity object = some (uid, isGroup) →
      s.identity object = some (uid, isGroup) ∨ s'.Known uid isGroup)
    (hgroups : ∀ group ∈ s'.groups, group ∈ s.groups ∨ ∀ isGroup, ¬ s.Known group.uid isGroup)
    (hseparate : ∀ group ∈ s'.groups, group.uid ∉ s'.accounts
      ∧ ∀ uid ∈ group.members, uid ∈ s'.accounts)
    (hdistinct : ∀ group ∈ s'.groups, ∀ group' ∈ s'.groups, group.uid = group'.uid → group = group')
    : s'.MembershipInv := by
  have htouched : ∀ path data, s'.Touched path data ↔ s.Touched path data := by
    intro path data
    unfold Touched pending
    rw [hdb, hoperations]
  have htouches : ∀ path, s'.Touches path ↔ s.Touches path := by
    intro path
    unfold Touches
    simp only [htouched]
  -- whoever occurs in a document of `recent-users` on either side is known to `s`
  have honce : ∀ uid otherUid, s.Touches (DatabaseManager.recentUserPath uid otherUid) →
      ∃ isGroup, s.Known otherUid isGroup := by
    rintro uid otherUid ⟨data, hdata⟩
    rcases hs.documents _ data hdata (by simp [DatabaseManager.recentUserPath])
      with ⟨user, huser, huid, _⟩
    rw [huid] at huser
    exact ⟨user.isGroup, huser⟩
  constructor
  case objects =>
    intro object uid isGroup hidentity
    cases hobjects object uid isGroup hidentity with
    | inl hold => exact h.known (hs.objects object uid isGroup hold)
    | inr hnew => exact hnew
  case documents =>
    intro path data hdata hpath
    rw [htouched] at hdata
    rcases hs.documents path data hdata hpath with ⟨user, huser, hrest⟩
    exact ⟨user, h.known huser, hrest⟩
  case allowed =>
    intro uid otherUid htouch
    rw [htouches] at htouch
    rcases honce uid otherUid htouch with ⟨isGroup, hknown⟩
    rcases honce otherUid uid (hs.symmetric uid otherUid htouch) with ⟨isGroup', hknown'⟩
    exact (hs.allowed uid otherUid htouch).extend hknown' hknown hgroups
  case symmetric =>
    intro uid otherUid htouch
    rw [htouches] at htouch ⊢
    exact hs.symmetric uid otherUid htouch
  case separate => exact hseparate
  case distinct => exact hdistinct
  case awaiting =>
    rw [hoperations]
    intro operation hoperation awaiting hawaiting
    exact h.sound hs.objects hgroups (hs.awaiting operation hoperation awaiting hawaiting)

theorem MembershipInv.start {s : Backend} (hs : s.MembershipInv) {operation : Operation}
    (hissued : s.AdmittedWrites operation.issued)
    (hawaiting : ∀ awaiting, operation.awaiting = some awaiting → s.Sound awaiting)
    : (s.start operation).MembershipInv := by
  apply hs.of_touched hissued
  . rfl
  . rfl
  . rfl
  . intro path data
    exact touched_start
  . intro operation' hoperation' awaiting hawaiting'
    apply (extends_of_eq (s := s) rfl rfl rfl).sound hs.objects (fun _ h => Or.inl h)
    simp only [Backend.start, List.mem_append, List.mem_singleton] at hoperation'
    cases hoperation' with
    | inl hoperation' => exact hs.awaiting operation' hoperation' awaiting hawaiting'
    | inr hoperation' =>
      rw [hoperation'] at hawaiting'
      exact hawaiting awaiting hawaiting'

theorem MembershipInv.receive {s : Backend} (hs : s.MembershipInv) {i : Nat} {awaiting : Awaiting}
    {reply : Reply} (h : s.operations[i]? = some ⟨[], some awaiting⟩)
    (hreply : s.Sound (.reply reply)) : (s.receive i reply).MembershipInv := by
  apply hs.of_touched (admittedWrites_nil s)
  . rfl
  . rfl
  . rfl
  . intro path data
    rw [touched_receive h]
    simp
  . intro operation hoperation awaiting' hawaiting
    apply (extends_of_eq (s := s) rfl rfl rfl).sound hs.objects (fun _ h => Or.inl h)
    cases List.mem_or_eq_of_mem_set hoperation with
    | inl hmem => exact hs.awaiting operation hmem awaiting' hawaiting
    | inr heq =>
      rw [heq] at hawaiting
      injection hawaiting with hawaiting
      rw [← hawaiting]
      exact hreply

theorem MembershipInv.issue {s : Backend} (hs : s.MembershipInv) {i : Nat} {awaiting : Awaiting}
    {issued : List Write} (h : s.operations[i]? = some ⟨[], some awaiting⟩)
    (hissued : s.AdmittedWrites issued) : (s.issue i issued).MembershipInv := by
  apply hs.of_touched hissued
  . rfl
  . rfl
  . rfl
  . intro path data
    exact touched_issue h
  . intro operation hoperation awaiting' hawaiting
    apply (extends_of_eq (s := s) rfl rfl rfl).sound hs.objects (fun _ h => Or.inl h)
    cases List.mem_or_eq_of_mem_set hoperation with
    | inl hmem => exact hs.awaiting operation hmem awaiting' hawaiting
    | inr heq =>
      rw [heq] at hawaiting
      contradiction

theorem MembershipInv.performWrite {s : Backend} (hs : s.MembershipInv) {i : Nat} {write : Write}
    {issued : List Write} {awaiting : Option Awaiting}
    (h : s.operations[i]? = some ⟨write :: issued, awaiting⟩)
    : (s.performWrite i write issued awaiting).MembershipInv := by
  constructor
  case objects => exact hs.objects
  case documents =>
    intro path data htouched
    exact hs.documents path data (touched_of_touched_performWrite h htouched)
  case allowed =>
    rintro uid otherUid ⟨data, htouched⟩
    exact hs.allowed uid otherUid ⟨data, touched_of_touched_performWrite h htouched⟩
  case symmetric =>
    rintro uid otherUid ⟨data, htouched⟩
    apply touches_performWrite h
    exact hs.symmetric uid otherUid ⟨data, touched_of_touched_performWrite h htouched⟩
  case separate => exact hs.separate
  case distinct => exact hs.distinct
  case awaiting =>
    intro operation hoperation awaiting' hawaiting
    apply (extends_of_eq (s := s) rfl rfl rfl).sound hs.objects (fun _ h => Or.inl h)
    cases List.mem_or_eq_of_mem_set hoperation with
    | inl hmem => exact hs.awaiting operation hmem awaiting' hawaiting
    | inr heq =>
      rw [heq] at hawaiting
      exact hs.awaiting _ (List.mem_of_getElem? h) awaiting' hawaiting

theorem identity_setTimestamp (s : Backend) (object : Nat) (timestamp : Timestamp)
    : identity { s with objects := setTimestamp s.objects object timestamp } = s.identity := by
  funext i
  unfold identity
  rw [getElem?_setTimestamp, Option.map_map]
  congr 1
  funext user
  dsimp
  split
  . rfl
  . rfl

theorem identity_setTimestamp_setTimestamp (s : Backend) (currentUser otherUser : Nat)
    (date date' : Date)
    : identity
          { s with objects := setTimestamp (setTimestamp s.objects currentUser date) otherUser date' }
        =
      s.identity := by
  exact (identity_setTimestamp { s with objects := _ } otherUser date').trans
    (identity_setTimestamp s currentUser date)

theorem identity_append (s : Backend) (user : User) (object : Nat)
    : identity { s with objects := s.objects ++ [user] } object
        =
      if object = s.objects.length then some (user.uid, user.isGroup) else s.identity object := by
  unfold identity
  dsimp
  split
  . next h =>
    rw [h, List.getElem?_concat_length]
    rfl
  . next h =>
    rw [List.getElem?_append]
    split
    . rfl
    . next hlength =>
      rw [List.getElem?_eq_none (by simp; omega), List.getElem?_eq_none (by omega)]

theorem identity_eq_none_of_length_le {s : Backend} {object : Nat} (h : s.objects.length ≤ object)
    : s.identity object = none := by
  unfold identity
  rw [List.getElem?_eq_none h]
  rfl

theorem identity_append_of_eq_some {s : Backend} {object : Nat} {known : DocumentID × Bool}
    (h : s.identity object = some known) (user : User)
    : identity { s with objects := s.objects ++ [user] } object = some known := by
  rw [identity_append]
  split
  . next hlast =>
    rw [identity_eq_none_of_length_le (by omega)] at h
    contradiction
  . exact h

theorem extends_step {s s' : Backend} {e : Event} (hstep : backend.step s e = some s')
    : Extends s s' := by
  cases e with
  | createAccount uid =>
    rw [step_createAccount hstep]
    exact ⟨fun _ _ h => h, fun _ h => List.mem_append_left _ h, fun _ h => h⟩
  | signup uid firstName lastName email url date now =>
    rcases step_signup hstep with ⟨_, user, _, _, hs'⟩
    rw [hs']
    exact extends_of_eq rfl rfl rfl
  | load path now =>
    rcases step_load hstep with ⟨_, data, user, _, _, hs'⟩
    rw [hs']
    exact ⟨fun _ _ h => identity_append_of_eq_some h user, fun _ h => h, fun _ h => h⟩
  | createGroup uid uuid usersId groupName url selectedUsers date now =>
    rcases step_createGroup hstep with ⟨_, _, user, _, _, hs'⟩
    rw [hs']
    exact ⟨fun _ _ h => identity_append_of_eq_some h user, fun _ h => h,
      fun _ h => List.mem_append_left _ h⟩
  | addMessage message currentUser otherUser date date' documentID =>
    rcases step_addMessage hstep with ⟨objects, user, user', hobjects, _, _, hs'⟩
    rw [hs', hobjects]
    have hidentity := identity_setTimestamp_setTimestamp s currentUser otherUser date date'
    exact extends_of_eq hidentity rfl rfl
  | perform i now =>
    rcases step_perform hstep
      with ⟨_, _, _, _, hs'⟩ | ⟨_, _, _, _, hs'⟩ | ⟨_, _, _, _, hs'⟩
    all_goals
      rw [hs']
      exact extends_of_eq rfl rfl rfl

theorem isPerson_iff {s : Backend} {object : Nat}
    : s.isPerson object ↔ ∃ uid, s.identity object = some (uid, false) := by
  unfold isPerson identity
  cases s.objects[object]? with
  | none => simp
  | some user => simp

theorem map_identity_selectedUsers {s : Backend} {selectedUsers : List Nat}
    (h : ∀ object ∈ selectedUsers, s.isPerson object)
    : selectedUsers.map s.identity
        =
      (s.selectedUids selectedUsers).map (fun uid => some (uid, false)) := by
  induction selectedUsers with
  | nil => rfl
  | cons object selectedUsers ih =>
    rw [List.forall_mem_cons] at h
    rw [isPerson_iff] at h
    rcases h with ⟨⟨uid, huid⟩, h⟩
    have hobject := huid
    unfold identity at hobject
    rw [Option.map_eq_some_iff] at hobject
    rcases hobject with ⟨user, huser, huserId⟩
    simp only [Prod.mk.injEq] at huserId
    unfold selectedUids at ih ⊢
    rw [List.map_cons, ih h, huid, List.filterMap_cons_some huser]
    simp [huserId.left]

theorem creates_createGroup {s : Backend} {user : User} (hgroup : user.isGroup = true)
    (uid : DocumentID) {selectedUsers : List Nat}
    (hselected : ∀ object ∈ selectedUsers, s.isPerson object)
    : Creates { s with objects := s.objects ++ [user] }
        ⟨user.uid, uid, s.selectedUids selectedUsers⟩ s.objects.length selectedUsers := by
  constructor
  . rw [identity_append, if_pos rfl, hgroup]
  . rw [← map_identity_selectedUsers hselected]
    apply List.map_congr_left
    intro object hobject
    have hperson := hselected object hobject
    rw [isPerson_iff] at hperson
    rcases hperson with ⟨uid', huid'⟩
    rw [huid']
    exact identity_append_of_eq_some huid' user

/--
The runs in question: group ids are different from each other and from the uids of all accounts, a
message is sent by a signed-in user, `isGroupMessage` is the `isGroup` of the user it is sent to,
and whoever sends to a group created it or has it among their recent users.
-/
def Admissible (s : Backend) : Event → Backend → Prop
  | .createAccount uid, _ => ∀ group ∈ s.groups, group.uid ≠ uid
  | .createGroup uid uuid usersId _ _ _ _ _, _ =>
    uuid ++ uid ++ usersId ∉ s.accounts ∧ ∀ group ∈ s.groups, group.uid ≠ uuid ++ uid ++ usersId
  | .addMessage message currentUser otherUser _ _ _, _ =>
    match s.objects[currentUser]?, s.objects[otherUser]? with
    | some user, some user' =>
      user.isGroup = false ∧ message.isGroupMessage = user'.isGroup
        ∧ (user'.isGroup = true → ∀ group ∈ s.groups, group.uid = user'.uid →
            user.uid = group.creator ∨ s.Recent user.uid group.uid)
    | _, _ => False
  | _, _ => True

instance decidableAdmissible (s : Backend) (e : Event) (s' : Backend)
    : Decidable (Admissible s e s') := by
  unfold Admissible Recent
  split
  . infer_instance
  . infer_instance
  . split
    . infer_instance
    . infer_instance
  . infer_instance

theorem admissible_addMessage {s s' : Backend} {message : Message} {currentUser otherUser : Nat}
    {date date' : Date} {documentID : DocumentID}
    (h : Admissible s (.addMessage message currentUser otherUser date date' documentID) s')
    : ∃ user user', s.objects[currentUser]? = some user ∧ s.objects[otherUser]? = some user'
        ∧ user.isGroup = false ∧ message.isGroupMessage = user'.isGroup
        ∧ (user'.isGroup = true → ∀ group ∈ s.groups, group.uid = user'.uid →
            user.uid = group.creator ∨ s.Recent user.uid group.uid) := by
  simp only [Admissible] at h
  split at h
  . next user user' huser huser' => exact ⟨user, user', huser, huser', h⟩
  . contradiction

theorem identity_of_getElem? {s : Backend} {object : Nat} {user : User}
    (h : s.objects[object]? = some user) : s.identity object = some (user.uid, user.isGroup) := by
  unfold identity
  rw [h]
  rfl

theorem MembershipInv.createAccount {s : Backend} (hs : s.MembershipInv) {uid : DocumentID}
    (hfresh : ∀ group ∈ s.groups, group.uid ≠ uid)
    : MembershipInv { s with accounts := s.accounts ++ [uid] } := by
  have hmem : ∀ uid' ∈ s.accounts, uid' ∈ s.accounts ++ [uid] := by
    intro uid' huid'
    exact List.mem_append_left _ huid'
  apply hs.extend
  . exact ⟨fun _ _ h => h, hmem, fun _ h => h⟩
  . rfl
  . rfl
  . intro object uid' isGroup h
    exact Or.inl h
  . intro group hgroup
    exact Or.inl hgroup
  . intro group hgroup
    have hseparate := hs.separate group hgroup
    constructor
    . simp only [List.mem_append, List.mem_singleton, not_or]
      exact ⟨hseparate.left, hfresh group hgroup⟩
    . intro uid' huid'
      exact hmem uid' (hseparate.right uid' huid')
  . exact hs.distinct

theorem MembershipInv.of_getDocument {s : Backend} (hs : s.MembershipInv) {path : Path}
    {data : Dictionary} {now : Date} {user : User} (hpath : path.collection ≠ .messages)
    (hdata : s.db.getDocument path = some data) (huser : User.init now data = some user)
    : s.Known user.uid user.isGroup ∧ user.uid = path.documentID ∧ data = user.dictionary := by
  rcases hs.documents path data (Or.inl hdata) hpath with ⟨stored, hknown, huid, hstored⟩
  rw [hstored, User.init_dictionary] at huser
  injection huser with huser
  rw [← huser]
  exact ⟨hknown, huid, hstored⟩

theorem MembershipInv.sound_of_fetch {s : Backend} (hs : s.MembershipInv) {read : Read}
    {reply : Reply} (hread : s.Sound (.request read)) (h : s.fetch read = some reply)
    : s.Sound (.reply reply) := by
  cases read with
  | groupMembers otherUser =>
    rcases fetch_groupMembers h with ⟨group, hgroup, hreply⟩
    rcases hread with ⟨uid, huid⟩
    have hidentity := identity_of_getElem? hgroup
    rw [huid, Option.some.injEq, Prod.mk.injEq] at hidentity
    rw [hreply]
    refine ⟨uid, huid, ?_⟩
    intro document hdocument
    have hdata := DatabaseManager.getDocument_of_mem_getGroupMembers hdocument
    rcases hs.documents _ _ (Or.inl hdata) (by simp [DatabaseManager.recentUserPath])
      with ⟨user, hknown, huser, hdictionary⟩
    have hallowed := hs.allowed _ _ ⟨_, Or.inl hdata⟩
    rw [← hidentity.left] at hallowed
    refine ⟨user, hknown, ?_, hdictionary⟩
    rw [huser]
    exact hallowed.symm
  | creator uid object selectedUsers =>
    rcases fetch_creator h with ⟨data, hdata, hreply⟩
    rcases hread with ⟨group, hgroup, hcreator, hcreates⟩
    rcases hs.documents _ data (Or.inl hdata) (by simp [DatabaseManager.userPath])
      with ⟨user, hknown, huser, hdictionary⟩
    rw [hreply]
    exact ⟨group, hgroup, hcreates, user, hknown, huser.trans hcreator.symm, hdictionary⟩

theorem MembershipInv.load {s : Backend} (hs : s.MembershipInv) {path : Path} {data : Dictionary}
    {now : Date} {user : User} (hpath : path.collection ≠ .messages)
    (hdata : s.db.getDocument path = some data) (huser : User.init now data = some user)
    : MembershipInv { s with objects := s.objects ++ [user] } := by
  have hknown := (hs.of_getDocument hpath hdata huser).left
  apply hs.extend
  . constructor
    . intro object known h
      exact identity_append_of_eq_some h user
    . exact fun _ h => h
    . exact fun _ h => h
  . rfl
  . rfl
  . intro object uid isGroup h
    rw [identity_append] at h
    split at h
    . simp only [Option.some.injEq, Prod.mk.injEq] at h
      rw [← h.left, ← h.right]
      exact Or.inr hknown
    . exact Or.inl h
  . intro group hgroup
    exact Or.inl hgroup
  . exact hs.separate
  . exact hs.distinct

theorem MembershipInv.addGroup {s : Backend} (hs : s.MembershipInv) {uid : DocumentID}
    {selectedUsers : List Nat} {user : User} (huid : uid ∈ s.accounts)
    (hselected : ∀ object ∈ selectedUsers, s.isPerson object) (hgroup : user.isGroup = true)
    (haccounts : user.uid ∉ s.accounts) (hgroups : ∀ group ∈ s.groups, group.uid ≠ user.uid)
    : MembershipInv {
        s with
        objects := s.objects ++ [user]
        groups := s.groups ++ [⟨user.uid, uid, s.selectedUids selectedUsers⟩]
      } := by
  have hmembers : ∀ uid' ∈ s.selectedUids selectedUsers, uid' ∈ s.accounts := by
    intro uid' huid'
    have hmem : some (uid', false) ∈ selectedUsers.map s.identity := by
      rw [map_identity_selectedUsers hselected]
      exact List.mem_map_of_mem huid'
    rw [List.mem_map] at hmem
    rcases hmem with ⟨object, _, hobject⟩
    exact hs.objects object uid' false hobject
  apply hs.extend
  . constructor
    . intro object known h
      exact identity_append_of_eq_some h user
    . exact fun _ h => h
    . exact fun group h => List.mem_append_left _ h
  . rfl
  . rfl
  . intro object uid' isGroup h
    change identity { s with objects := s.objects ++ [user] } object = some (uid', isGroup) at h
    rw [identity_append] at h
    split at h
    . simp only [Option.some.injEq, Prod.mk.injEq] at h
      rw [← h.left, ← h.right, hgroup]
      refine Or.inr ⟨_, List.mem_append_right _ (List.mem_singleton.mpr rfl), rfl⟩
    . exact Or.inl h
  . intro group hgroup'
    rw [List.mem_append, List.mem_singleton] at hgroup'
    cases hgroup' with
    | inl hold => exact Or.inl hold
    | inr hnew =>
      right
      intro isGroup hknown
      rw [hnew] at hknown
      cases isGroup with
      | true =>
        rcases hknown with ⟨group', hgroup', huid'⟩
        exact hgroups group' hgroup' huid'
      | false => exact haccounts hknown
  . intro group hgroup'
    rw [List.mem_append, List.mem_singleton] at hgroup'
    cases hgroup' with
    | inl hold => exact hs.separate group hold
    | inr hnew =>
      rw [hnew]
      refine ⟨haccounts, ?_⟩
      intro uid' huid'
      rw [Group.members, List.mem_append, List.mem_singleton] at huid'
      cases huid' with
      | inl huid' => exact hmembers uid' huid'
      | inr huid' =>
        rw [huid']
        exact huid
  . intro group hgroup₁ group' hgroup₂ heq
    rw [List.mem_append, List.mem_singleton] at hgroup₁ hgroup₂
    rcases hgroup₁ with hgroup₁ | hgroup₁ <;> rcases hgroup₂ with hgroup₂ | hgroup₂
    . exact hs.distinct group hgroup₁ group' hgroup₂ heq
    . rw [hgroup₂] at heq
      exact absurd heq (hgroups group hgroup₁)
    . rw [hgroup₁] at heq
      exact absurd heq.symm (hgroups group' hgroup₂)
    . rw [hgroup₁, hgroup₂]

theorem MembershipInv.setTimestamp {s : Backend} (hs : s.MembershipInv) (object : Nat)
    (timestamp : Timestamp)
    : MembershipInv { s with objects := Backend.setTimestamp s.objects object timestamp } := by
  have hidentity := identity_setTimestamp s object timestamp
  apply hs.extend (extends_of_eq hidentity rfl rfl)
  . rfl
  . rfl
  . intro object uid isGroup h
    rw [hidentity] at h
    exact Or.inl h
  . intro group hgroup
    exact Or.inl hgroup
  . exact hs.separate
  . exact hs.distinct

-- Nobody but the members of a group ever sends to it, a person may send to every person.
theorem MembershipInv.allowed_of_admissible {s : Backend} (hs : s.MembershipInv)
    {user user' : User} (huser : s.Known user.uid user.isGroup) (hperson : user.isGroup = false)
    (huser' : s.Known user'.uid user'.isGroup)
    (hmember : user'.isGroup = true → ∀ group ∈ s.groups, group.uid = user'.uid →
      user.uid = group.creator ∨ s.Recent user.uid group.uid)
    : s.Allowed user.uid user'.uid := by
  rw [hperson] at huser
  intro group hgroup
  have hseparate := hs.separate group hgroup
  constructor
  . intro huid
    rw [huid] at hseparate
    exact absurd huser hseparate.left
  . intro huid
    cases hisGroup : user'.isGroup with
    | false =>
      rw [hisGroup] at huser'
      rw [huid] at hseparate
      exact absurd huser' hseparate.left
    | true =>
      cases hmember hisGroup group hgroup huid with
      | inl hcreator => simp [Group.members, hcreator]
      | inr hrecent => exact (hs.allowed _ _ (touches_of_recent hrecent) group hgroup).right rfl

theorem MembershipInv.addMessage {s s' : Backend} (hs : s.MembershipInv) {message : Message}
    {currentUser otherUser : Nat} {date date' : Date} {documentID : DocumentID}
    (hstep : backend.step s (.addMessage message currentUser otherUser date date' documentID)
      = some s')
    (hadmissible : Admissible s
      (.addMessage message currentUser otherUser date date' documentID) s')
    : s'.MembershipInv := by
  rcases step_addMessage hstep with ⟨objects, user, user', hobjects, huser, huser', hs'⟩
  rcases admissible_addMessage hadmissible
    with ⟨before, before', hbefore, hbefore', hperson, hisGroup, hmember⟩
  have hstamped := (hs.setTimestamp currentUser date).setTimestamp otherUser date'
  have hidentity : identity { s with objects := objects } = s.identity := by
    rw [hobjects]
    apply identity_setTimestamp_setTimestamp
  have hsame : ∀ {object : Nat} {now before : User}, objects[object]? = some now →
      s.objects[object]? = some before → now.uid = before.uid ∧ now.isGroup = before.isGroup := by
    intro object now before hnow hbefore
    have heq := congrFun hidentity object
    rw [identity_of_getElem? hbefore] at heq
    have hnow := identity_of_getElem? (s := { s with objects := objects }) hnow
    rw [hnow, Option.some.injEq, Prod.mk.injEq] at heq
    exact heq
  rw [← hobjects] at hstamped
  have hknown := hstamped.objects currentUser _ _
    (identity_of_getElem? (s := { s with objects := objects }) huser)
  have hknown' := hstamped.objects otherUser _ _
    (identity_of_getElem? (s := { s with objects := objects }) huser')
  have heq := hsame huser hbefore
  have heq' := hsame huser' hbefore'
  rw [hs']
  apply hstamped.start
  . apply admittedWrites_addMessage hknown hknown'
    apply hstamped.allowed_of_admissible hknown (heq.right.trans hperson) hknown'
    rw [heq.left, heq'.left, heq'.right]
    exact hmember
  . intro read hread
    split at hread
    . next hmessage =>
      injection hread with hread
      rw [← hread]
      refine ⟨user'.uid, ?_⟩
      rw [identity_of_getElem? (s := { s with objects := objects }) huser', heq'.right,
        ← hisGroup, hmessage]
    . contradiction

theorem MembershipInv.admittedWrites_updateGroupMembers {s : Backend} (hs : s.MembershipInv)
    {now : Date} {otherUser seen : Nat} {documents : List DocumentSnapshot} {issued : List Write}
    (hsound : s.Sound (.reply (.groupMembers otherUser seen documents)))
    (h : s.answer now (.groupMembers otherUser seen documents) = some issued)
    : s.AdmittedWrites issued := by
  rcases answer_groupMembers h with ⟨group, users, hgroup, husers, hissued⟩
  rcases hsound with ⟨uid, huid, hdocuments⟩
  have hidentity := identity_of_getElem? hgroup
  have hknown := hs.objects otherUser _ _ hidentity
  rw [huid, Option.some.injEq, Prod.mk.injEq] at hidentity
  rw [hissued]
  apply AdmittedWrites.flatMap
  intro user huser
  rw [DatabaseManager.mem_decodeUsers husers] at huser
  rcases huser with ⟨document, hdocument, hinit⟩
  rcases hdocuments document hdocument with ⟨member, hmember, hallowed, hdata⟩
  rw [hdata, User.init_dictionary] at hinit
  injection hinit with hinit
  rw [hinit, hidentity.left] at hallowed
  rw [hinit] at hmember
  exact admittedWrites_membershipWrites hknown hmember hallowed

theorem MembershipInv.isGroup_eq_false {s : Backend} (hs : s.MembershipInv) {uid : DocumentID}
    {isGroup : Bool} (hknown : s.Known uid isGroup) (huid : uid ∈ s.accounts)
    : isGroup = false := by
  cases isGroup with
  | false => rfl
  | true =>
    rcases hknown with ⟨group, hgroup, heq⟩
    rw [← heq] at huid
    exact absurd huid (hs.separate group hgroup).left

theorem MembershipInv.admittedWrites_addGroupUsers {s : Backend} (hs : s.MembershipInv)
    {now : Date} {object : Nat} {selectedUsers : List Nat} {data : Dictionary}
    {issued : List Write} (hsound : s.Sound (.reply (.creator object selectedUsers data)))
    (h : s.answer now (.creator object selectedUsers data) = some issued)
    : s.AdmittedWrites issued := by
  rcases answer_creator h with ⟨currentUser, user, hcurrentUser, huser, hissued⟩
  rcases hsound with ⟨group, hgroup, hcreates, creator, hknown, hcreator, hdata⟩
  rw [hdata, User.init_dictionary] at hcurrentUser
  injection hcurrentUser with hcurrentUser
  rw [hcurrentUser] at hknown hcreator
  have hidentity := identity_of_getElem? huser
  have huserKnown := hs.objects object _ _ hidentity
  rw [hcreates.left, Option.some.injEq, Prod.mk.injEq] at hidentity
  have hseparate := hs.separate group hgroup
  have hmember : ∀ member : User, member.isGroup = false → member.uid ∈ group.members →
      s.AdmittedWrites (DatabaseManager.membershipWrites .fresh user member) := by
    intro member hperson hmem
    have hmemberKnown : s.Known member.uid member.isGroup := by
      rw [hperson]
      exact hseparate.right _ hmem
    refine admittedWrites_membershipWrites huserKnown hmemberKnown ?_
    intro group' hgroup'
    constructor
    . intro huid
      have hcontra := (hs.separate group' hgroup').left
      rw [huid] at hcontra
      exact absurd (hseparate.right _ hmem) hcontra
    . intro huid
      rw [hs.distinct group' hgroup' group hgroup (huid.trans hidentity.left.symm)]
      exact hmem
  rw [hissued]
  apply AdmittedWrites.flatMap
  intro member hmem
  rw [List.mem_append, List.mem_singleton] at hmem
  cases hmem with
  | inl hselected =>
    rw [List.mem_filterMap] at hselected
    rcases hselected with ⟨selected, hselected, hobject⟩
    have hmap : s.identity selected ∈ selectedUsers.map s.identity :=
      List.mem_map_of_mem hselected
    rw [hcreates.right, identity_of_getElem? hobject, List.mem_map] at hmap
    rcases hmap with ⟨uid', huid', heq⟩
    rw [Option.some.injEq, Prod.mk.injEq] at heq
    apply hmember member heq.right.symm
    rw [← heq.left]
    exact List.mem_append_left _ huid'
  | inr hcurrent =>
    have hcreatorMember : group.creator ∈ group.members := by simp [Group.members]
    rw [← hcreator] at hcreatorMember
    rw [hcurrent]
    apply hmember currentUser _ hcreatorMember
    exact hs.isGroup_eq_false hknown (hseparate.right _ hcreatorMember)

theorem MembershipInv.admittedWrites_answer {s : Backend} (hs : s.MembershipInv) {now : Date}
    {reply : Reply} {issued : List Write} (hsound : s.Sound (.reply reply))
    (h : s.answer now reply = some issued) : s.AdmittedWrites issued := by
  cases reply with
  | groupMembers otherUser seen documents => exact hs.admittedWrites_updateGroupMembers hsound h
  | creator object selectedUsers data => exact hs.admittedWrites_addGroupUsers hsound h

theorem membershipInv_step {s : Backend} {e : Event} {s' : Backend} (hs : s.MembershipInv)
    (hstep : backend.step s e = some s') (hadmissible : Admissible s e s') : s'.MembershipInv := by
  cases e with
  | createAccount uid =>
    rw [step_createAccount hstep]
    exact hs.createAccount hadmissible
  | signup uid firstName lastName email url date now =>
    rcases step_signup hstep with ⟨huid, user, huser, hperson, hs'⟩
    rw [hs']
    apply hs.start
    . apply admittedWrites_addUser
      rw [hperson, huser]
      exact huid
    . intro read hread
      contradiction
  | load path now =>
    rcases step_load hstep with ⟨hpath, data, user, hdata, huser, hs'⟩
    rw [hs']
    exact hs.load hpath hdata huser
  | createGroup uid uuid usersId groupName url selectedUsers date now =>
    rcases step_createGroup hstep with ⟨huid, hselected, group, hgroupUid, hgroup, hs'⟩
    rcases hadmissible with ⟨haccounts, hgroups⟩
    rw [← hgroupUid] at haccounts hgroups
    have hadded := hs.addGroup huid hselected hgroup haccounts hgroups
    rw [hs']
    apply hadded.start
    . apply admittedWrites_addUser
      rw [hgroup]
      exact ⟨_, List.mem_append_right _ (List.mem_singleton.mpr rfl), rfl⟩
    . intro read hread
      injection hread with hread
      rw [← hread]
      exact ⟨_, List.mem_append_right _ (List.mem_singleton.mpr rfl), rfl,
        creates_createGroup hgroup uid hselected⟩
  | addMessage message currentUser otherUser date date' documentID =>
    exact hs.addMessage hstep hadmissible
  | perform i now =>
    rcases step_perform hstep with hwrite | hrequest | hreply
    . rcases hwrite with ⟨write, issued, awaiting, hoperation, hs'⟩
      rw [hs']
      exact hs.performWrite hoperation
    . rcases hrequest with ⟨read, reply, hoperation, hfetch, hs'⟩
      rw [hs']
      have hsound := hs.awaiting _ (List.mem_of_getElem? hoperation) _ rfl
      exact hs.receive hoperation (hs.sound_of_fetch hsound hfetch)
    . rcases hreply with ⟨reply, issued, hoperation, hanswer, hs'⟩
      rw [hs']
      have hsound := hs.awaiting _ (List.mem_of_getElem? hoperation) _ rfl
      exact hs.issue hoperation (hs.admittedWrites_answer hsound hanswer)

end Backend

end ChatApplication
