import ChatApplication.API.MessageLog
import ChatApplication.API.Persons
import ChatApplication.Clients.Basic

/-!
This module contains what a client knows about the `User` objects that its screens hand on: it
depends on where they come from.
-/

namespace ChatApplication

namespace Backend

def Event.newAccount? : Event → Option DocumentID
  | .createAccount uid => some uid
  | _ => none

def Event.newGroup? : Event → Option (DocumentID × DocumentID)
  | .createGroup uid uuid usersId _ _ _ _ _ => some (uuid ++ uid ++ usersId, uid)
  | _ => none

def Event.newObjects : Event → Nat
  | .load _ _ | .createGroup _ _ _ _ _ _ _ _ => 1
  | _ => 0

-- the groups with their creators
def creators (s : Backend) : List (DocumentID × DocumentID) :=
  s.groups.map (fun group => (group.uid, group.creator))

structure Registers (s : Backend) (e : Event) (s' : Backend) : Prop where
  accounts : s'.accounts = s.accounts ++ e.newAccount?.toList
  creators : s'.creators = s.creators ++ e.newGroup?.toList
  objects : s'.objects.length = s.objects.length + e.newObjects

theorem registers_of_eq {s s' : Backend} {e : Event} (haccount : e.newAccount? = none)
    (hgroup : e.newGroup? = none) (haccounts : s'.accounts = s.accounts)
    (hgroups : s'.groups = s.groups) (hobjects : s'.objects.length = s.objects.length + e.newObjects)
    : Registers s e s' := by
  constructor
  . rw [haccount, haccounts, Option.toList_none, List.append_nil]
  . rw [hgroup, creators, hgroups, Option.toList_none, List.append_nil]
    rfl
  . exact hobjects

theorem registers_step {s s' : Backend} {e : Event} (hstep : backend.step s e = some s')
    : Registers s e s' := by
  cases e with
  | createAccount uid =>
    rw [step_createAccount hstep]
    exact ⟨rfl, (List.append_nil _).symm, rfl⟩
  | signup uid firstName lastName email url date now =>
    rcases step_signup hstep with ⟨_, user, _, _, hs'⟩
    rw [hs']
    exact registers_of_eq rfl rfl rfl rfl rfl
  | load path now =>
    rcases step_load hstep with ⟨_, data, user, _, _, hs'⟩
    rw [hs']
    exact registers_of_eq rfl rfl rfl rfl List.length_append
  | createGroup uid uuid usersId groupName url selectedUsers date now =>
    rcases step_createGroup hstep with ⟨_, _, group, huid, _, hs'⟩
    rw [hs']
    constructor
    . exact (List.append_nil _).symm
    . unfold creators start
      dsimp only
      rw [List.map_append, List.map_singleton, huid]
      rfl
    . exact List.length_append
  | addMessage message currentUser otherUser date date' documentID =>
    rcases step_addMessage hstep with ⟨objects, user, user', hobjects, _, _, hs'⟩
    rw [hs']
    refine registers_of_eq rfl rfl rfl rfl ?_
    rw [start, hobjects, setTimestamp, setTimestamp, List.length_modify, List.length_modify]
    rfl
  | perform i now =>
    rcases step_perform hstep
      with ⟨_, _, _, _, hs'⟩ | ⟨_, _, _, _, hs'⟩ | ⟨_, _, _, _, hs'⟩
    all_goals
      rw [hs']
      exact registers_of_eq rfl rfl rfl rfl rfl

-- Documents are overwritten, but never deleted.
theorem stored_step {s s' : Backend} {e : Event} (hstep : backend.step s e = some s') {path : Path}
    (h : (s.db.getDocument path).isSome) : (s'.db.getDocument path).isSome := by
  rcases store_step hstep with ⟨i, write, issued, awaiting, _, hs', _⟩ | ⟨hdb, _, _⟩
  . rw [hs', performWrite, Firestore.getDocument_setData]
    split
    . rfl
    . exact h
  . rw [hdb]
    exact h

theorem exists_of_identity {s : Backend} {object : Nat} {uid : DocumentID} {isGroup : Bool}
    (h : s.identity object = some (uid, isGroup))
    : ∃ user, s.objects[object]? = some user ∧ user.uid = uid ∧ user.isGroup = isGroup := by
  unfold identity at h
  rw [Option.map_eq_some_iff] at h
  rcases h with ⟨user, huser, heq⟩
  rw [Prod.mk.injEq] at heq
  exact ⟨user, huser, heq⟩

end Backend

theorem GroupID.value_ne (id : GroupID) (uid : AuthUid) : id.value ≠ uid.value := by
  intro heq
  have hlen := id.le_length_value
  rw [heq, uid.length_eq] at hlen
  omega

def Peer.identity : Peer → DocumentID × Bool
  | .person uid => (uid.value, false)
  | .group id => (id.value, true)

theorem Peer.isUser_iff {peer : Peer} {user : User}
    : peer.IsUser user ↔ (user.uid, user.isGroup) = peer.identity := by
  cases peer with
  | person uid =>
    rw [identity, Prod.mk.injEq]
    rfl
  | group id =>
    rw [identity, Prod.mk.injEq]
    rfl

namespace Clients

variable {Image : Type u} {Data : Type v} {pngData : Image → Option Data}

-- what the place where the client has an object from says about the user it stands for
def Fits (s : Clients Data) (known : DocumentID × Bool) : Source → Prop
  | .allUsers uid => known.2 = false ∧ known.1 ≠ uid.value
  | .recentUsers uid => s.server.Recent uid.value known.1
  | .currentUser uid =>
    known = (uid.value, false)
      ∧ (s.server.db.getDocument (DatabaseManager.userPath uid.value)).isSome
  | .createdGroup uid => ∃ id ∈ s.groups, id.creator = uid ∧ known = (id.value, true)

-- the message is one that `uid` sends to the object
structure Addressed (s : Clients Data) (uid : AuthUid) (otherUser : Nat) (message : Message) : Prop where
  fromId : message.fromId = uid.value
  otherUser : ∃ user : User, s.server.identity otherUser = some (user.uid, user.isGroup)
    ∧ message.toId = user.uid ∧ message.isGroupMessage = user.isGroup
    ∧ message.msgId = messageId (some uid.value) user

/-
`Opens` says from which of the sources a chat is opened. All that follows holds for `Source.Opens` in
every run, and for stricter conditions in the runs that keep to them.
-/

variable (Opens : AuthUid → Source → Prop)

-- `uid` has a screen on which the object is chosen
def Offered (s : Clients Data) (uid : AuthUid) (object : Nat) : Prop :=
  ∃ source, s.sources[object]? = some source ∧ Opens uid source

structure Sends (s : Clients Data) (uid : AuthUid) (currentUser otherUser : Nat) (message : Message)
    : Prop where
  currentUser : s.sources[currentUser]? = some (.currentUser uid)
  offered : s.Offered Opens uid otherUser
  addressed : s.Addressed uid otherUser message

structure Screens (s : Clients Data) (c : OpenChat) : Prop where
  uid : c.uid ∈ s.accounts
  offered : s.Offered Opens c.uid c.user
  messageId : ∃ user : User, s.server.identity c.user = some (user.uid, user.isGroup)
    ∧ c.messageId = messageId (some c.uid.value) user
  currentUser : ∀ currentUser ∈ c.currentUser, s.sources[currentUser]? = some (.currentUser c.uid)

structure SourcesInv (s : Clients Data) : Prop where
  accounts : s.server.accounts = s.accounts.map AuthUid.value
  creators : s.server.creators = s.groups.map (fun id => (id.value, id.creator.value))
  uuids : (s.groups.map GroupID.uuid).Nodup
  length : s.sources.length = s.server.objects.length
  sources : ∀ object source, s.sources[object]? = some source →
    source.uid ∈ s.accounts ∧ ∃ known, s.server.identity object = some known ∧ s.Fits known source
  chats : ∀ c ∈ s.chats, s.Screens Opens c
  uploads : ∀ upload ∈ s.uploads,
    s.Sends Opens upload.uid upload.currentUser upload.otherUser upload.message
  posted : ∀ posted ∈ s.posted, ∃ currentUser otherUser,
    s.Sends Opens posted.uid currentUser otherUser posted.message

variable {Opens}

-- What is sent in a chat is for the conversation that the chat queries.
theorem Screens.msgId_composed {s : Clients Data} {c : OpenChat} (h : s.Screens Opens c)
    {otherUser : User} (huser : s.server.objects[c.user]? = some otherUser) (text : String)
    (now : Date) : (composed c otherUser text now).msgId = c.messageId := by
  rcases h.messageId with ⟨user, hidentity, hmessageId⟩
  rw [Backend.identity_of_getElem? huser, Option.some.injEq, Prod.mk.injEq] at hidentity
  rw [hmessageId]
  unfold composed ChatApplication.messageId
  rw [hidentity.left, hidentity.right]

theorem sourcesInv_init : (init : Clients Data).SourcesInv Opens := by
  constructor
  case accounts => rfl
  case creators => rfl
  case uuids => exact List.nodup_nil
  case length => rfl
  all_goals
    intros
    contradiction

-- `s'` knows at least what `s` knows.
structure Grows (s s' : Clients Data) : Prop where
  server : Backend.Extends s.server s'.server
  stored : ∀ path, (s.server.db.getDocument path).isSome → (s'.server.db.getDocument path).isSome
  accounts : ∀ uid ∈ s.accounts, uid ∈ s'.accounts
  groups : ∀ id ∈ s.groups, id ∈ s'.groups
  sources : ∀ (object : Nat) (source : Source), s.sources[object]? = some source →
    s'.sources[object]? = some source

namespace Grows

theorem of_server {s s' : Clients Data} {e : Backend.Event}
    (hserver : backend.step s.server e = some s'.server)
    (haccounts : ∀ uid ∈ s.accounts, uid ∈ s'.accounts) (hgroups : ∀ id ∈ s.groups, id ∈ s'.groups)
    (hsources : ∀ (object : Nat) (source : Source), s.sources[object]? = some source →
      s'.sources[object]? = some source)
    : s.Grows s' := by
  refine ⟨Backend.extends_step hserver, ?_, haccounts, hgroups, hsources⟩
  intro path h
  exact Backend.stored_step hserver h

variable {s s' : Clients Data}

theorem fits (h : s.Grows s') {known : DocumentID × Bool} {source : Source}
    (hfits : s.Fits known source) : s'.Fits known source := by
  cases source with
  | allUsers uid => exact hfits
  | recentUsers uid => exact h.stored _ hfits
  | currentUser uid => exact ⟨hfits.left, h.stored _ hfits.right⟩
  | createdGroup uid =>
    rcases hfits with ⟨id, hid, hknown⟩
    exact ⟨id, h.groups id hid, hknown⟩

theorem offered (h : s.Grows s') {uid : AuthUid} {object : Nat}
    (hoffered : s.Offered Opens uid object) : s'.Offered Opens uid object := by
  rcases hoffered with ⟨source, hsource, hopens⟩
  exact ⟨source, h.sources object source hsource, hopens⟩

theorem addressed (h : s.Grows s') {uid : AuthUid} {otherUser : Nat} {message : Message}
    (haddressed : s.Addressed uid otherUser message) : s'.Addressed uid otherUser message := by
  rcases haddressed.otherUser with ⟨user, hidentity, huser⟩
  exact ⟨haddressed.fromId, user, h.server.identity _ _ hidentity, huser⟩

theorem sends (h : s.Grows s') {uid : AuthUid} {currentUser otherUser : Nat} {message : Message}
    (hsends : s.Sends Opens uid currentUser otherUser message)
    : s'.Sends Opens uid currentUser otherUser message := by
  constructor
  . exact h.sources _ _ hsends.currentUser
  . exact h.offered hsends.offered
  . exact h.addressed hsends.addressed

theorem screens (h : s.Grows s') {c : OpenChat} (hscreens : s.Screens Opens c) : s'.Screens Opens c := by
  constructor
  . exact h.accounts _ hscreens.uid
  . exact h.offered hscreens.offered
  . rcases hscreens.messageId with ⟨user, hidentity, hmessageId⟩
    exact ⟨user, h.server.identity _ _ hidentity, hmessageId⟩
  . intro currentUser hcurrentUser
    exact h.sources _ _ (hscreens.currentUser currentUser hcurrentUser)

end Grows

-- what has to be shown about the things that an event adds
structure Extended (Opens : AuthUid → Source → Prop) (s s' : Clients Data) : Prop where
  sources : ∀ object source, s'.sources[object]? = some source →
    s.sources[object]? = some source
      ∨ (source.uid ∈ s'.accounts ∧ ∃ known, s'.server.identity object = some known
          ∧ s'.Fits known source)
  chats : ∀ c ∈ s'.chats, c ∈ s.chats ∨ s'.Screens Opens c
  uploads : ∀ upload ∈ s'.uploads, upload ∈ s.uploads
    ∨ s'.Sends Opens upload.uid upload.currentUser upload.otherUser upload.message
  posted : ∀ posted ∈ s'.posted, posted ∈ s.posted
    ∨ ∃ currentUser otherUser, s'.Sends Opens posted.uid currentUser otherUser posted.message

theorem extended_of_eq {s s' : Clients Data} (hsources : s'.sources = s.sources)
    (hchats : s'.chats = s.chats) (huploads : s'.uploads = s.uploads)
    (hposted : s'.posted = s.posted) : Extended Opens s s' := by
  constructor
  . rw [hsources]
    exact fun _ _ h => Or.inl h
  . rw [hchats]
    exact fun _ h => Or.inl h
  . rw [huploads]
    exact fun _ h => Or.inl h
  . rw [hposted]
    exact fun _ h => Or.inl h

theorem SourcesInv.extend {s s' : Clients Data} (hs : s.SourcesInv Opens) (h : s.Grows s')
    (haccounts : s'.server.accounts = s'.accounts.map AuthUid.value)
    (hcreators : s'.server.creators = s'.groups.map (fun id => (id.value, id.creator.value)))
    (huuids : (s'.groups.map GroupID.uuid).Nodup)
    (hlength : s'.sources.length = s'.server.objects.length)
    (hextended : Extended Opens s s') : s'.SourcesInv Opens := by
  constructor
  case accounts => exact haccounts
  case creators => exact hcreators
  case uuids => exact huuids
  case length => exact hlength
  case sources =>
    intro object source hsource
    cases hextended.sources object source hsource with
    | inl hold =>
      rcases hs.sources object source hold with ⟨huid, known, hidentity, hfits⟩
      exact ⟨h.accounts _ huid, known, h.server.identity _ _ hidentity, h.fits hfits⟩
    | inr hnew => exact hnew
  case chats =>
    intro c hc
    cases hextended.chats c hc with
    | inl hold => exact h.screens (hs.chats c hold)
    | inr hnew => exact hnew
  case uploads =>
    intro upload hupload
    cases hextended.uploads upload hupload with
    | inl hold => exact h.sends (hs.uploads upload hold)
    | inr hnew => exact hnew
  case posted =>
    intro posted hposted
    cases hextended.posted posted hposted with
    | inl hold =>
      rcases hs.posted posted hold with ⟨currentUser, otherUser, hsends⟩
      exact ⟨currentUser, otherUser, h.sends hsends⟩
    | inr hnew => exact hnew

-- most requests add neither accounts nor groups nor objects
theorem SourcesInv.of_request {s s' : Clients Data} (hs : s.SourcesInv Opens) {e : Backend.Event}
    (hserver : backend.step s.server e = some s'.server) (haccount : e.newAccount? = none)
    (hgroup : e.newGroup? = none) (hobjects : e.newObjects = 0) (haccounts : s'.accounts = s.accounts)
    (hgroups : s'.groups = s.groups) (hsources : s'.sources = s.sources)
    (hextended : Extended Opens s s') : s'.SourcesInv Opens := by
  have hregisters := Backend.registers_step hserver
  apply hs.extend
  . apply Grows.of_server hserver
    . rw [haccounts]
      exact fun _ h => h
    . rw [hgroups]
      exact fun _ h => h
    . rw [hsources]
      exact fun _ _ h => h
  . rw [hregisters.accounts, haccount, haccounts, hs.accounts]
    exact List.append_nil _
  . rw [hregisters.creators, hgroup, hgroups, hs.creators]
    exact List.append_nil _
  . rw [hgroups]
    exact hs.uuids
  . rw [hregisters.objects, hobjects, hsources, hs.length]
    rfl
  . exact hextended

theorem SourcesInv.of_server_eq {s s' : Clients Data} (hs : s.SourcesInv Opens)
    (hserver : s'.server = s.server) (haccounts : s'.accounts = s.accounts)
    (hgroups : s'.groups = s.groups) (hsources : s'.sources = s.sources)
    (hextended : Extended Opens s s') : s'.SourcesInv Opens := by
  apply hs.extend
  . constructor
    . rw [hserver]
      exact Backend.extends_of_eq rfl rfl rfl
    . rw [hserver]
      exact fun _ h => h
    . rw [haccounts]
      exact fun _ h => h
    . rw [hgroups]
      exact fun _ h => h
    . rw [hsources]
      exact fun _ _ h => h
  . rw [hserver, haccounts]
    exact hs.accounts
  . rw [hserver, hgroups]
    exact hs.creators
  . rw [hgroups]
    exact hs.uuids
  . rw [hserver, hsources]
    exact hs.length
  . exact hextended

theorem SourcesInv.createAccount {s s' : Clients Data} (hs : s.SourcesInv Opens) {uid : AuthUid}
    (hstep : (clients pngData).step s (.createAccount uid) = some s') : s'.SourcesInv Opens := by
  rcases step_createAccount hstep with ⟨_, server', hserver, hs'⟩
  have hregisters := Backend.registers_step hserver
  rw [hs']
  apply hs.extend
  . apply Grows.of_server hserver
    . exact fun _ h => List.mem_append_left _ h
    . exact fun _ h => h
    . exact fun _ _ h => h
  . dsimp only
    rw [hregisters.accounts, hs.accounts, List.map_append]
    rfl
  . rw [hregisters.creators, hs.creators]
    exact List.append_nil _
  . exact hs.uuids
  . rw [hregisters.objects, ← hs.length]
    rfl
  . exact extended_of_eq rfl rfl rfl rfl

-- the new object is at the end, and so is its source
theorem getElem?_append_source {sources : List Source} {source source' : Source} {object : Nat}
    (h : (sources ++ [source'])[object]? = some source)
    : sources[object]? = some source ∨ (object = sources.length ∧ source = source') := by
  rw [List.getElem?_append] at h
  split at h
  . exact Or.inl h
  . rw [List.getElem?_singleton] at h
    split at h
    . injection h with h
      exact Or.inr ⟨by omega, h.symm⟩
    . contradiction

theorem getElem?_append_of_eq_some {sources : List Source} {source : Source} {object : Nat}
    (source' : Source) (h : sources[object]? = some source)
    : (sources ++ [source'])[object]? = some source := by
  rw [List.getElem?_append_left]
  . exact h
  . rw [List.getElem?_eq_some_iff] at h
    exact h.choose

-- The document that is decoded has the uid of the user as its id.
theorem decoded_of_load {s : Clients Data} (hpersons : s.server.PersonsInv) {path : Path} {now : Date}
    {data : Dictionary} {user : User} (hpath : path.collection ≠ .messages)
    (hdata : s.server.db.getDocument path = some data) (huser : User.init now data = some user)
    : s.server.Known user.uid user.isGroup ∧ user.uid = path.documentID
        ∧ data = user.dictionary := by
  rcases (hpersons.touched path data (Or.inl hdata)).user hpath with ⟨stored, hknown, huid, hstored⟩
  rw [hstored, User.init_dictionary] at huser
  injection huser with huser
  rw [← huser]
  exact ⟨hknown, huid, hstored⟩

theorem SourcesInv.not_isGroup {s : Clients Data} (hs : s.SourcesInv Opens)
    (hpersons : s.server.PersonsInv) {uid : AuthUid} (huid : uid ∈ s.accounts) {isGroup : Bool}
    (hknown : s.server.Known uid.value isGroup) : isGroup = false := by
  cases isGroup with
  | false => rfl
  | true =>
    rcases hknown with ⟨group, hgroup, hgroupUid⟩
    have hseparate := hpersons.separate group hgroup
    rw [hgroupUid, hs.accounts] at hseparate
    exact absurd (List.mem_map_of_mem huid) hseparate

theorem SourcesInv.fits_of_load {s : Clients Data} (hs : s.SourcesInv Opens)
    (hpersons : s.server.PersonsInv) {source : Source} {documentID : DocumentID} {now : Date}
    {path : Path} {data : Dictionary} {user : User} (huid : source.uid ∈ s.accounts)
    (hsource : source.path s.server.db documentID = some path)
    (hdata : s.server.db.getDocument path = some data) (huser : User.init now data = some user)
    : s.Fits (user.uid, user.isGroup) source := by
  cases source with
  | allUsers uid =>
    simp only [Source.path] at hsource
    split at hsource
    . next hmem =>
      injection hsource with hsource
      rw [List.mem_map] at hmem
      rcases hmem with ⟨document, hdocument, hid⟩
      have hstored := DatabaseManager.getDocument_of_mem_getAllUsers hdocument
      rw [hid, hsource, hdata] at hstored
      injection hstored with hstored
      unfold DatabaseManager.getAllUsers at hdocument
      have hisGroup := (DocumentSnapshot.mem_whereField.mp (List.mem_of_mem_filter hdocument)).right
      rw [← hstored] at hisGroup
      have hdecoded := decoded_of_load hpersons (by rw [← hsource]; simp [DatabaseManager.userPath])
        hdata huser
      have hnotEqual := List.of_mem_filter hdocument
      rw [← hstored, decide_eq_true_iff] at hnotEqual
      rw [hdecoded.right.right] at hisGroup hnotEqual
      constructor
      . injection hisGroup with hisGroup
        injection hisGroup
      . intro heq
        apply hnotEqual
        rw [← heq]
        simp [User.dictionary]
    . contradiction
  | recentUsers uid =>
    unfold Source.path at hsource
    injection hsource with hsource
    have hdecoded := decoded_of_load hpersons
      (by rw [← hsource]; simp [DatabaseManager.recentUserPath]) hdata huser
    have hdocumentID : user.uid = documentID := by
      rw [hdecoded.right.left, ← hsource]
      rfl
    change s.server.Recent uid.value user.uid
    rw [Backend.Recent, hdocumentID, hsource, hdata]
    rfl
  | currentUser uid =>
    simp only [Source.path] at hsource
    split at hsource
    . injection hsource with hsource
      have hdecoded := decoded_of_load hpersons (by rw [← hsource]; simp [DatabaseManager.userPath])
        hdata huser
      have hvalue : user.uid = uid.value := by
        rw [hdecoded.right.left, ← hsource]
        rfl
      have hknown := hdecoded.left
      rw [hvalue] at hknown
      rw [Fits, hvalue, hs.not_isGroup hpersons huid hknown, hsource, hdata]
      exact ⟨rfl, rfl⟩
    . contradiction
  | createdGroup uid => contradiction

theorem SourcesInv.load {s s' : Clients Data} (hs : s.SourcesInv Opens)
    (hpersons : s.server.PersonsInv) {source : Source} {documentID : DocumentID} {now : Date}
    (hstep : (clients pngData).step s (.load source documentID now) = some s')
    : s'.SourcesInv Opens := by
  rcases step_load hstep with ⟨huid, path, server', hpath, hserver, hs'⟩
  have hregisters := Backend.registers_step hserver
  have hgrows : s.Grows s' := by
    rw [hs']
    apply Grows.of_server hserver
    . exact fun _ h => h
    . exact fun _ h => h
    . exact fun _ _ h => getElem?_append_of_eq_some source h
  rw [hs'] at hgrows ⊢
  apply hs.extend hgrows
  . rw [hregisters.accounts, hs.accounts]
    exact List.append_nil _
  . rw [hregisters.creators, hs.creators]
    exact List.append_nil _
  . exact hs.uuids
  . rw [hregisters.objects, ← hs.length]
    exact List.length_append
  . constructor
    . intro object source' hsource'
      cases getElem?_append_source hsource' with
      | inl hold => exact Or.inl hold
      | inr hnew =>
        right
        rcases Backend.step_load hserver with ⟨_, data, user, hdata, huser, hserver'⟩
        have hfits := hs.fits_of_load hpersons huid hpath hdata huser
        rw [hnew.right]
        refine ⟨huid, (user.uid, user.isGroup), ?_, hgrows.fits hfits⟩
        dsimp only
        rw [hserver', hnew.left, hs.length, Backend.identity_append, if_pos rfl]
    . exact fun _ h => Or.inl h
    . exact fun _ h => Or.inl h
    . exact fun _ h => Or.inl h

theorem SourcesInv.createGroup {s s' : Clients Data} (hs : s.SourcesInv Opens) {uuid : UUIDString}
    {uid : AuthUid} {groupName url : String} {selectedUsers : List Nat} {date now : Date}
    (hstep : (clients pngData).step s (.createGroup uuid uid groupName url selectedUsers date now)
      = some s')
    : s'.SourcesInv Opens := by
  rcases step_createGroup hstep with ⟨hnew, _, server', hserver, hs'⟩
  have hregisters := Backend.registers_step hserver
  rcases Backend.step_createGroup hserver with ⟨huid, _, group, hgroupUid, hisGroup, hserver'⟩
  have huid' : uid ∈ s.accounts := by
    rw [hs.accounts, List.mem_map] at huid
    rcases huid with ⟨uid', huid', hvalue⟩
    rw [← AuthUid.value_injective hvalue]
    exact huid'
  rw [hs']
  apply hs.extend
  . apply Grows.of_server hserver
    . exact fun _ h => h
    . exact fun _ h => List.mem_append_left _ h
    . exact fun _ _ h => getElem?_append_of_eq_some _ h
  . rw [hregisters.accounts, hs.accounts]
    exact List.append_nil _
  . dsimp only
    rw [hregisters.creators, hs.creators, List.map_append]
    rfl
  . dsimp only
    rw [List.map_append, List.nodup_append]
    refine ⟨hs.uuids, List.nodup_singleton _, ?_⟩
    intro old hold new' hnew' heq
    rw [List.mem_map] at hold
    rcases hold with ⟨id, hid, huuid⟩
    rw [List.map_singleton, List.mem_singleton] at hnew'
    exact hnew id hid (by rw [huuid, heq, hnew'])
  . rw [hregisters.objects, ← hs.length]
    exact List.length_append
  . constructor
    . intro object source hsource
      cases getElem?_append_source hsource with
      | inl hold => exact Or.inl hold
      | inr hlast =>
        right
        rw [hlast.right]
        refine ⟨huid', (group.uid, group.isGroup), ?_, ?_⟩
        . dsimp only
          rw [hserver', hlast.left, hs.length]
          change Backend.identity { s.server with objects := s.server.objects ++ [group] } _ = _
          rw [Backend.identity_append, if_pos rfl]
        . rw [hgroupUid, hisGroup]
          exact ⟨⟨uuid, uid, s.usersId selectedUsers⟩, by simp, rfl, rfl⟩
    . exact fun _ h => Or.inl h
    . exact fun _ h => Or.inl h
    . exact fun _ h => Or.inl h

theorem SourcesInv.addMessage {s s' : Clients Data} (hs : s.SourcesInv Opens) {uid : AuthUid}
    {message : Message} {currentUser otherUser : Nat} {date date' : Date} {documentID : DocumentID}
    (hsends : s.Sends Opens uid currentUser otherUser message)
    (h : s.addMessage uid message currentUser otherUser date date' documentID = some s')
    : s'.SourcesInv Opens := by
  rcases addMessage_eq_some h with ⟨_, server', hserver, hs'⟩
  have hgrows : s.Grows s' := by
    rw [hs']
    exact Grows.of_server hserver (fun _ h => h) (fun _ h => h) (fun _ _ h => h)
  rw [hs'] at hgrows ⊢
  refine hs.of_request hserver rfl rfl rfl rfl rfl rfl ?_
  constructor
  . exact fun _ _ h => Or.inl h
  . exact fun _ h => Or.inl h
  . exact fun _ h => Or.inl h
  . intro posted hposted
    rw [List.mem_append, List.mem_singleton] at hposted
    cases hposted with
    | inl hold => exact Or.inl hold
    | inr hnew =>
      right
      rw [hnew]
      exact ⟨currentUser, otherUser, hgrows.sends hsends⟩

theorem Screens.sends {s : Clients Data} {c : OpenChat} (hc : s.Screens Opens c) {otherUser : User}
    {currentUser : Nat} (hotherUser : s.server.objects[c.user]? = some otherUser)
    (hcurrentUser : c.currentUser = some currentUser) (text : String) (now : Date)
    : s.Sends Opens c.uid currentUser c.user (composed c otherUser text now) := by
  constructor
  . exact hc.currentUser currentUser hcurrentUser
  . exact hc.offered
  . exact ⟨rfl, otherUser, Backend.identity_of_getElem? hotherUser, rfl, rfl, rfl⟩

theorem Sends.uploaded {s : Clients Data} {uid : AuthUid} {currentUser otherUser : Nat}
    {message : Message} (h : s.Sends Opens uid currentUser otherUser message) (url : String)
    : s.Sends Opens uid currentUser otherUser { message with imageUrl := some url } := by
  rcases h.addressed.otherUser with ⟨user, hidentity, htoId, hisGroup, hmsgId⟩
  exact ⟨h.currentUser, h.offered, h.addressed.fromId, user, hidentity, htoId, hisGroup, hmsgId⟩

-- the chats that are opened in the run are opened from these sources
def Chooses (Opens : AuthUid → Source → Prop) (s : Clients Data) : Event Image → Prop
  | .openChat uid user => ∀ source ∈ s.sources[user]?, Opens uid source
  | _ => True

theorem SourcesInv.set_chat {s : Clients Data} (hs : s.SourcesInv Opens) (chat : Nat) {c : OpenChat}
    (hc : s.Screens Opens c)
    : SourcesInv Opens { s with chats := s.chats.set chat c } := by
  have hgrows : s.Grows { s with chats := s.chats.set chat c } := by
    exact ⟨Backend.extends_of_eq rfl rfl rfl, fun _ h => h, fun _ h => h, fun _ h => h,
      fun _ _ h => h⟩
  refine hs.of_server_eq rfl rfl rfl rfl ?_
  constructor
  . exact fun _ _ h => Or.inl h
  . intro c' hc'
    cases List.mem_or_eq_of_mem_set hc' with
    | inl hold => exact Or.inl hold
    | inr heq =>
      rw [heq]
      exact Or.inr (hgrows.screens hc)
  . exact fun _ h => Or.inl h
  . exact fun _ h => Or.inl h

theorem SourcesInv.set_uploads {s : Clients Data} (hs : s.SourcesInv Opens)
    {uploads : List (ChatUpload Data)}
    (huploads : ∀ upload ∈ uploads, upload ∈ s.uploads
      ∨ s.Sends Opens upload.uid upload.currentUser upload.otherUser upload.message)
    : SourcesInv Opens { s with uploads := uploads } := by
  have hgrows : s.Grows { s with uploads := uploads } := by
    exact ⟨Backend.extends_of_eq rfl rfl rfl, fun _ h => h, fun _ h => h, fun _ h => h,
      fun _ _ h => h⟩
  refine hs.of_server_eq rfl rfl rfl rfl ?_
  constructor
  . exact fun _ _ h => Or.inl h
  . exact fun _ h => Or.inl h
  . intro upload hupload
    cases huploads upload hupload with
    | inl hold => exact Or.inl hold
    | inr hnew => exact Or.inr (hgrows.sends hnew)
  . exact fun _ h => Or.inl h

theorem SourcesInv.openChat {s s' : Clients Data} (hs : s.SourcesInv Opens) {uid : AuthUid}
    {user : Nat} (hstep : (clients pngData).step s (.openChat uid user) = some s')
    (hchooses : s.Chooses Opens (.openChat uid user : Event Image)) : s'.SourcesInv Opens := by
  rcases step_openChat hstep with ⟨source, otherUser, hsource, hotherUser, huid, _, hs'⟩
  have hopens := hchooses source hsource
  rw [hs']
  refine hs.of_server_eq rfl rfl rfl rfl ?_
  constructor
  . exact fun _ _ h => Or.inl h
  . intro c hc
    rw [List.mem_append, List.mem_singleton] at hc
    cases hc with
    | inl hold => exact Or.inl hold
    | inr hnew =>
      right
      rw [hnew]
      constructor
      . exact huid
      . exact ⟨source, hsource, hopens⟩
      . exact ⟨otherUser, Backend.identity_of_getElem? hotherUser, rfl⟩
      . intro currentUser hcurrentUser
        contradiction
  . exact fun _ h => Or.inl h
  . exact fun _ h => Or.inl h

theorem SourcesInv.send {s s' : Clients Data} (hs : s.SourcesInv Opens) {chat : Nat}
    {pickedImage : Option Image} {text : String} {date now date' date'' : Date}
    {documentID : DocumentID}
    (hstep : (clients pngData).step s
      (.send chat pickedImage text date now date' date'' documentID) = some s')
    : s'.SourcesInv Opens := by
  rcases step_send hstep with ⟨heq, _⟩ | ⟨c, otherUser, currentUser, hc, huser, hcurrentUser, hsend⟩
  . rw [heq]
    exact hs
  . have hsends := (hs.chats c (List.mem_of_getElem? hc)).sends huser hcurrentUser text now
    rcases hsend with ⟨_, hadd, _⟩ | ⟨_, imageData, _, _, hs', _⟩
    . exact hs.addMessage hsends hadd
    . rw [hs']
      apply hs.set_uploads
      intro upload hupload
      rw [List.mem_append, List.mem_singleton] at hupload
      cases hupload with
      | inl hold => exact Or.inl hold
      | inr hnew =>
        rw [hnew]
        exact Or.inr hsends

theorem SourcesInv.uploadCompleted {s s' : Clients Data} (hs : s.SourcesInv Opens) {i : Nat}
    {url : String} {date date' : Date} {documentID : DocumentID}
    (hstep : (clients pngData).step s (.uploadCompleted i url date date' documentID) = some s')
    : s'.SourcesInv Opens := by
  rcases step_uploadCompleted hstep with ⟨upload, hupload, hadd⟩
  have hsends := (hs.uploads upload (List.mem_of_getElem? hupload)).uploaded url
  have herased : SourcesInv Opens { s with uploads := s.uploads.eraseIdx i } := by
    apply hs.set_uploads
    intro upload' hupload'
    exact Or.inl (List.mem_of_mem_eraseIdx hupload')
  have hsends' : Sends Opens { s with uploads := s.uploads.eraseIdx i } upload.uid upload.currentUser
      upload.otherUser { upload.message with imageUrl := some url } := by
    exact ⟨hsends.currentUser, hsends.offered, hsends.addressed.fromId, hsends.addressed.otherUser⟩
  exact herased.addMessage hsends' hadd

theorem sourcesInv_step {s s' : Clients Data} {e : Event Image} (hs : s.SourcesInv Opens)
    (hpersons : s.server.PersonsInv) (hstep : (clients pngData).step s e = some s')
    (hchooses : s.Chooses Opens e) : s'.SourcesInv Opens := by
  cases e with
  | createAccount uid => exact hs.createAccount hstep
  | signup uid firstName lastName email url date now =>
    rcases step_signup hstep with ⟨server', hserver, hs'⟩
    rw [hs']
    exact hs.of_request hserver rfl rfl rfl rfl rfl rfl (extended_of_eq rfl rfl rfl rfl)
  | load source documentID now => exact hs.load hpersons hstep
  | createGroup uuid uid groupName url selectedUsers date now => exact hs.createGroup hstep
  | openChat uid user => exact hs.openChat hstep hchooses
  | currentUserFetched chat currentUser =>
    rcases step_currentUserFetched hstep with ⟨c, hc, hsource, hs'⟩
    have hscreens := hs.chats c (List.mem_of_getElem? hc)
    rw [hs']
    apply hs.set_chat
    refine ⟨hscreens.uid, hscreens.offered, hscreens.messageId, ?_⟩
    intro currentUser' hcurrentUser
    injection hcurrentUser with hcurrentUser
    rw [← hcurrentUser]
    exact hsource
  | send chat pickedImage text date now date' date'' documentID => exact hs.send hstep
  | uploadCompleted i url date date' documentID => exact hs.uploadCompleted hstep
  | uploadFailed i =>
    rw [step_uploadFailed hstep]
    apply hs.set_uploads
    intro upload hupload
    exact Or.inl (List.mem_of_mem_eraseIdx hupload)
  | perform operation now =>
    rcases step_perform hstep with ⟨server', hserver, hs'⟩
    rw [hs']
    exact hs.of_request hserver rfl rfl rfl rfl rfl rfl (extended_of_eq rfl rfl rfl rfl)
  | listener chat e =>
    rcases step_listener hstep with ⟨c, listener, hc, _, _, hs'⟩
    have hscreens := hs.chats c (List.mem_of_getElem? hc)
    rw [hs']
    apply hs.set_chat
    exact ⟨hscreens.uid, hscreens.offered, hscreens.messageId, hscreens.currentUser⟩

end Clients

end ChatApplication
