import ChatApplication.API.Membership.Exchanges

/-!
This module contains the copies of user documents. Everybody who is in touch with a user has a copy of
their document, and clients write the copies they have read to further places. `timestamp` is the only
field that is ever assigned to, so whatever goes round is the profile that was signed up.
-/

namespace ChatApplication

-- the fields of a `User` that are not assigned to once the object is made
structure Profile where
  uid : DocumentID
  firstName : String
  lastName : String
  email : String
  profileImageUrl : String
  isGroup : Bool
  deriving DecidableEq, Repr

def User.profile (user : User) : Profile :=
  {
    uid := user.uid
    firstName := user.firstName
    lastName := user.lastName
    email := user.email
    profileImageUrl := user.profileImageUrl
    isGroup := user.isGroup
  }

namespace Backend

-- the profile of the `User` that `signup` and `createGroup` make
def Event.profile? : Event → Option Profile
  | .signup uid firstName lastName email url _ _ =>
    some ⟨uid, firstName, lastName, email, url, false⟩
  | .createGroup uid uuid usersId groupName url _ _ _ =>
    some ⟨uuid ++ uid ++ usersId, groupName, "", "", url, true⟩
  | _ => none

theorem profile?_of_signup {s s' : Backend} {uid firstName lastName email url : String}
    {date now : Date}
    (h : backend.step s (.signup uid firstName lastName email url date now) = some s')
    : ∃ user : User,
        Event.profile? (.signup uid firstName lastName email url date now) = some user.profile
        ∧ s' = s.start ⟨DatabaseManager.addUser user, none⟩ := by
  simp only [backend, step, User.init_values] at h
  split at h
  . injection h with h
    exact ⟨_, rfl, h.symm⟩
  . contradiction

theorem profile?_of_createGroup {s s' : Backend} {uid uuid usersId groupName url : String}
    {selectedUsers : List Nat} {date now : Date}
    (h : backend.step s (.createGroup uid uuid usersId groupName url selectedUsers date now)
      = some s')
    : ∃ (group : User) (groups : List Group) (awaiting : Read),
        Event.profile? (.createGroup uid uuid usersId groupName url selectedUsers date now)
            = some group.profile
          ∧ s' = start { s with objects := s.objects ++ [group], groups := groups }
              ⟨DatabaseManager.addUser group, some (.request awaiting)⟩ := by
  simp only [backend, step, User.init_values] at h
  split at h
  . injection h with h
    exact ⟨_, _, _, rfl, h.symm⟩
  . contradiction

/-
What a client has read it may write somewhere else, so a property of users holds of all of them at
once: of the objects, of the documents and of what is on its way. It must not depend on `timestamp`.
-/

def IsDocument (P : User → Prop) (documentID : DocumentID) (data : Dictionary) : Prop :=
  ∃ user, P user ∧ user.uid = documentID ∧ data = user.dictionary

def AnswersOnly (P : User → Prop) : Awaiting → Prop
  | .request _ => True
  | .reply (.groupMembers _ _ documents) =>
    ∀ document ∈ documents, IsDocument P document.documentID document.data
  | .reply (.creator _ _ data) => ∃ documentID, IsDocument P documentID data

structure Only (P : User → Prop) (s : Backend) : Prop where
  objects : ∀ user ∈ s.objects, P user
  documents : ∀ path data, path.collection ≠ .messages → s.Touched path data →
    IsDocument P path.documentID data
  answers : ∀ operation ∈ s.operations, ∀ awaiting, operation.awaiting = some awaiting →
    AnswersOnly P awaiting

def OnlyWrites (P : User → Prop) (writes : List Write) : Prop :=
  ∀ write ∈ writes, write.path.collection ≠ .messages →
    IsDocument P write.path.documentID write.data

variable {P Q : User → Prop} {s : Backend}

theorem only_init (P : User → Prop) : init.Only P := by
  constructor
  case documents =>
    rintro path data _ (hdata | ⟨write, hwrite, _⟩)
    . rw [init, Firestore.getDocument_empty] at hdata
      contradiction
    . contradiction
  all_goals
    intros
    contradiction

theorem IsDocument.imp (hPQ : ∀ user, P user → Q user) {documentID : DocumentID}
    {data : Dictionary} (h : IsDocument P documentID data) : IsDocument Q documentID data := by
  rcases h with ⟨user, hp, hrest⟩
  exact ⟨user, hPQ user hp, hrest⟩

theorem IsDocument.of_init {documentID : DocumentID} {data : Dictionary}
    (h : IsDocument P documentID data) {now : Date} {user : User} (hinit : User.init now data = some user)
    : P user ∧ user.uid = documentID := by
  rcases h with ⟨stored, hp, huid, hdata⟩
  rw [hdata, User.init_dictionary] at hinit
  injection hinit with hinit
  rw [← hinit]
  exact ⟨hp, huid⟩

theorem Only.imp (hs : s.Only P) (hPQ : ∀ user, P user → Q user) : s.Only Q := by
  constructor
  . intro user huser
    exact hPQ user (hs.objects user huser)
  . intro path data hpath hdata
    exact (hs.documents path data hpath hdata).imp hPQ
  . intro operation hoperation awaiting hawaiting
    have hanswers := hs.answers operation hoperation awaiting hawaiting
    match awaiting with
    | .request read => trivial
    | .reply (.groupMembers otherUser seen documents) =>
      intro document hdocument
      exact (hanswers document hdocument).imp hPQ
    | .reply (.creator group selectedUsers data) =>
      rcases hanswers with ⟨documentID, hdata⟩
      exact ⟨documentID, hdata.imp hPQ⟩

theorem onlyWrites_addUser {user : User} (h : P user)
    : OnlyWrites P (DatabaseManager.addUser user) := by
  intro write hwrite _
  rw [DatabaseManager.addUser, List.mem_singleton] at hwrite
  rw [hwrite]
  exact ⟨user, h, rfl, rfl⟩

theorem onlyWrites_addMessage {documentID : DocumentID} {message : Message}
    {currentUser otherUser : User} (h : P currentUser) (h' : P otherUser)
    : OnlyWrites P (DatabaseManager.addMessage documentID message currentUser otherUser) := by
  intro write hwrite hpath
  simp only [DatabaseManager.addMessage, List.mem_cons, List.not_mem_nil, or_false] at hwrite
  rcases hwrite with hwrite | hwrite | hwrite
  . rw [hwrite] at hpath
    contradiction
  . rw [hwrite]
    exact ⟨otherUser, h', rfl, rfl⟩
  . rw [hwrite]
    exact ⟨currentUser, h, rfl, rfl⟩

theorem onlyWrites_membershipWrites {origin : Origin} {group : User} (hgroup : P group)
    {users : List User} (husers : ∀ user ∈ users, P user)
    : OnlyWrites P (users.flatMap (DatabaseManager.membershipWrites origin group)) := by
  intro write hwrite _
  rw [List.mem_flatMap] at hwrite
  rcases hwrite with ⟨user, huser, hwrite⟩
  rw [DatabaseManager.mem_membershipWrites] at hwrite
  cases hwrite with
  | inl hwrite =>
    rw [hwrite]
    exact ⟨group, hgroup, rfl, rfl⟩
  | inr hwrite =>
    rw [hwrite]
    exact ⟨user, husers user huser, rfl, rfl⟩

theorem Only.onlyWrites_answer (hs : s.Only P) {now : Date} {reply : Reply} {issued : List Write}
    (hreply : AnswersOnly P (.reply reply)) (h : s.answer now reply = some issued)
    : OnlyWrites P issued := by
  cases reply with
  | groupMembers otherUser seen documents =>
    rcases answer_groupMembers h with ⟨group, users, hgroup, husers, hissued⟩
    rw [hissued]
    apply onlyWrites_membershipWrites (hs.objects group (List.mem_of_getElem? hgroup))
    intro user huser
    rw [DatabaseManager.mem_decodeUsers husers] at huser
    rcases huser with ⟨document, hdocument, hinit⟩
    exact ((hreply document hdocument).of_init hinit).left
  | creator group selectedUsers data =>
    rcases answer_creator h with ⟨currentUser, group', hcurrentUser, hgroup, hissued⟩
    rcases hreply with ⟨documentID, hdata⟩
    rw [hissued]
    apply onlyWrites_membershipWrites (hs.objects group' (List.mem_of_getElem? hgroup))
    intro user huser
    rw [List.mem_append, List.mem_filterMap, List.mem_singleton] at huser
    cases huser with
    | inl hselected =>
      rcases hselected with ⟨object, _, hobject⟩
      exact hs.objects user (List.mem_of_getElem? hobject)
    | inr heq =>
      rw [heq]
      exact (hdata.of_init hcurrentUser).left

theorem Only.answersOnly_of_fetch (hs : s.Only P) {read : Read} {reply : Reply}
    (h : s.fetch read = some reply) : AnswersOnly P (.reply reply) := by
  cases read with
  | groupMembers otherUser =>
    rcases fetch_groupMembers h with ⟨group, _, hreply⟩
    rw [hreply]
    intro document hdocument
    have hdata := DatabaseManager.getDocument_of_mem_getGroupMembers hdocument
    exact hs.documents _ _ (by simp [DatabaseManager.recentUserPath]) (Or.inl hdata)
  | creator uid group selectedUsers =>
    rcases fetch_creator h with ⟨data, hdata, hreply⟩
    rw [hreply]
    exact ⟨uid, hs.documents _ _ (by simp [DatabaseManager.userPath]) (Or.inl hdata)⟩

theorem Only.start (hs : s.Only P) {operation : Operation} (hissued : OnlyWrites P operation.issued)
    (hawaiting : ∀ awaiting, operation.awaiting = some awaiting → AnswersOnly P awaiting)
    : (s.start operation).Only P := by
  constructor
  . exact hs.objects
  . intro path data hpath hdata
    rw [touched_start] at hdata
    cases hdata with
    | inl hold => exact hs.documents path data hpath hold
    | inr hnew =>
      rcases hnew with ⟨write, hwrite, hwritePath, hdata⟩
      rw [← hwritePath] at hpath
      rw [← hwritePath, ← hdata]
      exact hissued write hwrite hpath
  . intro operation' hoperation'
    rw [Backend.start, List.mem_append, List.mem_singleton] at hoperation'
    cases hoperation' with
    | inl hold => exact hs.answers operation' hold
    | inr hnew =>
      rw [hnew]
      exact hawaiting

-- An operation goes on with what is stored or on its way already, or with further writes.
theorem Only.set {s' : Backend} (hs : s.Only P) {i : Nat} {operation : Operation}
    (hobjects : s'.objects = s.objects) (hoperations : s'.operations = s.operations.set i operation)
    (hdocuments : ∀ path data, s'.Touched path data →
      s.Touched path data
        ∨
      ∃ writes, OnlyWrites P writes ∧ ∃ write ∈ writes, write.path = path ∧ write.data = data)
    (hawaiting : ∀ awaiting, operation.awaiting = some awaiting → AnswersOnly P awaiting)
    : s'.Only P := by
  constructor
  . rw [hobjects]
    exact hs.objects
  . intro path data hpath hdata
    cases hdocuments path data hdata with
    | inl hold => exact hs.documents path data hpath hold
    | inr hnew =>
      rcases hnew with ⟨writes, hwrites, write, hwrite, hwritePath, hdata⟩
      rw [← hwritePath] at hpath
      rw [← hwritePath, ← hdata]
      exact hwrites write hwrite hpath
  . rw [hoperations]
    intro operation' hoperation'
    cases List.mem_or_eq_of_mem_set hoperation' with
    | inl hold => exact hs.answers operation' hold
    | inr hnew =>
      rw [hnew]
      exact hawaiting

theorem Only.perform {s' : Backend} (hs : s.Only P) {i : Nat} {now : Date}
    (hstep : backend.step s (.perform i now) = some s') : s'.Only P := by
  rcases step_perform hstep with hwrite | hrequest | hreply
  . rcases hwrite with ⟨write, issued, awaiting, hoperation, hs'⟩
    apply hs.set (by rw [hs']; rfl) (by rw [hs']; rfl)
    . intro path data hdata
      rw [hs'] at hdata
      exact Or.inl (touched_of_touched_performWrite hoperation hdata)
    . exact hs.answers ⟨write :: issued, awaiting⟩ (List.mem_of_getElem? hoperation)
  . rcases hrequest with ⟨read, reply, hoperation, hfetch, hs'⟩
    apply hs.set (by rw [hs']; rfl) (by rw [hs']; rfl)
    . intro path data hdata
      rw [hs', touched_receive hoperation] at hdata
      exact Or.inl hdata
    . intro awaiting hawaiting
      injection hawaiting with hawaiting
      rw [← hawaiting]
      exact hs.answersOnly_of_fetch hfetch
  . rcases hreply with ⟨reply, issued, hoperation, hanswer, hs'⟩
    have hreply := hs.answers _ (List.mem_of_getElem? hoperation) _ rfl
    apply hs.set (by rw [hs']; rfl) (by rw [hs']; rfl)
    . intro path data hdata
      rw [hs', touched_issue hoperation] at hdata
      exact hdata.imp_right (fun hwrite => ⟨issued, hs.onlyWrites_answer hreply hanswer, hwrite⟩)
    . intro awaiting hawaiting
      contradiction

-- Only `signup` and `createGroup` bring in a user who was not there before.
theorem only_step {e : Event} {s' : Backend}
    (htimestamp : ∀ user timestamp, P user → P { user with timestamp := timestamp })
    (hs : s.Only P) (hstep : backend.step s e = some s')
    (hnew : ∀ user : User, e.profile? = some user.profile → P user) : s'.Only P := by
  cases e with
  | createAccount uid =>
    rw [step_createAccount hstep]
    exact ⟨hs.objects, hs.documents, hs.answers⟩
  | signup uid firstName lastName email url date now =>
    rcases profile?_of_signup hstep with ⟨user, hprofile, hs'⟩
    rw [hs']
    apply hs.start (onlyWrites_addUser (hnew user hprofile))
    intro awaiting hawaiting
    contradiction
  | load path now =>
    rcases step_load hstep with ⟨hpath, data, user, hdata, huser, hs'⟩
    rw [hs']
    refine ⟨?_, hs.documents, hs.answers⟩
    rw [List.forall_mem_append, List.forall_mem_singleton]
    exact ⟨hs.objects, ((hs.documents path data hpath (Or.inl hdata)).of_init huser).left⟩
  | createGroup uid uuid usersId groupName url selectedUsers date now =>
    rcases profile?_of_createGroup hstep with ⟨group, groups, read, hprofile, hs'⟩
    have hadded : Only P { s with objects := s.objects ++ [group], groups := groups } := by
      refine ⟨?_, hs.documents, hs.answers⟩
      rw [List.forall_mem_append, List.forall_mem_singleton]
      exact ⟨hs.objects, hnew group hprofile⟩
    rw [hs']
    apply hadded.start (onlyWrites_addUser (hnew group hprofile))
    intro awaiting hawaiting
    injection hawaiting with hawaiting
    rw [← hawaiting]
    trivial
  | addMessage message currentUser otherUser date date' documentID =>
    rcases step_addMessage hstep with ⟨objects, user, user', hobjects, huser, huser', hs'⟩
    have hset : ∀ (users : List User) (object : Nat) (timestamp : Timestamp),
        (∀ user ∈ users, P user) → ∀ user ∈ setTimestamp users object timestamp, P user := by
      intro users object timestamp husers user huser
      rw [List.mem_iff_getElem?] at huser
      rcases huser with ⟨i, huser⟩
      rw [getElem?_setTimestamp, Option.map_eq_some_iff] at huser
      rcases huser with ⟨old, hold, heq⟩
      have hp := husers old (List.mem_of_getElem? hold)
      rw [← heq]
      split
      . exact htimestamp old timestamp hp
      . exact hp
    have hstamped : Only P { s with objects := objects } := by
      refine ⟨?_, hs.documents, hs.answers⟩
      dsimp only
      rw [hobjects]
      exact hset _ otherUser date' (hset _ currentUser date hs.objects)
    rw [hs']
    apply hstamped.start
    . exact onlyWrites_addMessage (hstamped.objects user (List.mem_of_getElem? huser))
        (hstamped.objects user' (List.mem_of_getElem? huser'))
    . intro awaiting hawaiting
      split at hawaiting
      . injection hawaiting with hawaiting
        rw [← hawaiting]
        trivial
      . contradiction
  | perform i now => exact hs.perform hstep

-- the profiles that were signed up or created in a run
def profiles (es : List Event) : List Profile :=
  es.filterMap Event.profile?

theorem profiles_concat (es : List Event) (e : Event)
    : profiles (es ++ [e]) = profiles es ++ e.profile?.toList := by
  unfold profiles
  rw [List.filterMap_append]
  cases hprofile : e.profile? with
  | none => rw [List.filterMap_cons_none hprofile, List.filterMap_nil, Option.toList_none]
  | some profile => rw [List.filterMap_cons_some hprofile, List.filterMap_nil, Option.toList_some]

theorem only_of_run {es : List Event} (h : backend.exec init es = some s)
    : s.Only (fun user => user.profile ∈ profiles es) := by
  have hInv : ∀ es s e s', s.Only (fun user => user.profile ∈ profiles es) →
      backend.step s e = some s' → s'.Only (fun user => user.profile ∈ profiles (es ++ [e])) := by
    intro es s e s' hs hstep
    have hmono : s.Only (fun user => user.profile ∈ profiles (es ++ [e])) := by
      apply hs.imp
      intro user huser
      rw [profiles_concat]
      exact List.mem_append_left _ huser
    apply only_step (fun user timestamp huser => huser) hmono hstep
    intro user hprofile
    rw [profiles_concat, hprofile]
    exact List.mem_append_right _ List.mem_cons_self
  exact Machine.exec_preserves_history hInv (only_init _) h

theorem touches_addUser (s : Backend) (user : User) (awaiting : Option Awaiting)
    : (s.start ⟨DatabaseManager.addUser user, awaiting⟩).Touches
        (DatabaseManager.userPath user.uid) := by
  refine ⟨user.dictionary, touched_start.mpr (Or.inr ⟨_, List.mem_cons_self, rfl, rfl⟩)⟩

theorem touches_of_profile {e : Event} {s' : Backend} (hstep : backend.step s e = some s')
    {profile : Profile} (hprofile : e.profile? = some profile)
    : s'.Touches (DatabaseManager.userPath profile.uid) := by
  cases e with
  | signup uid firstName lastName email url date now =>
    rcases profile?_of_signup hstep with ⟨user, huser, hs'⟩
    rw [hprofile] at huser
    injection huser with huser
    rw [hs', huser]
    apply touches_addUser
  | createGroup uid uuid usersId groupName url selectedUsers date now =>
    rcases profile?_of_createGroup hstep with ⟨group, groups, read, hgroup, hs'⟩
    rw [hprofile] at hgroup
    injection hgroup with hgroup
    rw [hs', hgroup]
    apply touches_addUser
  | _ => contradiction

-- The document of a profile is stored, or a write of it is on its way.
theorem touches_of_run {es : List Event} (h : backend.exec init es = some s)
    : ∀ profile ∈ profiles es, s.Touches (DatabaseManager.userPath profile.uid) := by
  have hInv : ∀ es s e s',
      (∀ profile ∈ profiles es, s.Touches (DatabaseManager.userPath profile.uid)) →
      backend.step s e = some s' →
      ∀ profile ∈ profiles (es ++ [e]), s'.Touches (DatabaseManager.userPath profile.uid) := by
    intro es s e s' hs hstep profile hprofile
    rw [profiles_concat, List.mem_append, Option.mem_toList] at hprofile
    cases hprofile with
    | inl hold => exact touches_step hstep (hs profile hold)
    | inr hnew => exact touches_of_profile hstep hnew
  refine Machine.exec_preserves_history hInv ?_ h
  intro profile hprofile
  contradiction

theorem agrees_of_run {es : List Event} (h : backend.exec init es = some s)
    (honce : ((profiles es).map Profile.uid).Nodup) {uid otherUid : DocumentID} {copy : Dictionary}
    (hcopy : s.db.getDocument (DatabaseManager.recentUserPath uid otherUid) = some copy)
    : (∀ original, s.db.getDocument (DatabaseManager.userPath otherUid) = some original →
          ∃ user user' : User, copy = user.dictionary ∧ original = user'.dictionary
            ∧ user = { user' with timestamp := user.timestamp })
        ∧ (s.Quiescent → (s.db.getDocument (DatabaseManager.userPath otherUid)).isSome) := by
  have hs := only_of_run h
  have hrecent := hs.documents _ copy (by simp [DatabaseManager.recentUserPath]) (Or.inl hcopy)
  rcases hrecent with ⟨user, hprofile, huid, hdata⟩
  constructor
  . intro original horiginal
    have huser := hs.documents _ original (by simp [DatabaseManager.userPath]) (Or.inl horiginal)
    rcases huser with ⟨user', hprofile', huid', hdata'⟩
    have heq : user.profile = user'.profile := by
      apply List.inj_on_of_nodup_map honce hprofile hprofile'
      exact huid.trans huid'.symm
    refine ⟨user, user', hdata, hdata', ?_⟩
    rcases user
    rcases user'
    simp only [User.profile, Profile.mk.injEq] at heq
    rcases heq with ⟨rfl, rfl, rfl, rfl, rfl, rfl⟩
    rfl
  . intro hrest
    rcases touches_of_run h user.profile hprofile with ⟨data, hdata | ⟨write, hwrite, _⟩⟩
    . change user.uid = otherUid at huid
      rw [← huid, Option.isSome_iff_exists]
      exact ⟨data, hdata⟩
    . rw [pending_eq_nil_of_quiescent hrest] at hwrite
      contradiction

/--
Every user that is held, stored or on its way has a profile that was signed up or created. If nobody
signs up twice, a copy of a user document is the document but for the timestamp. Once all writes are
performed there is a document for every copy.
-/
theorem copies_agree (es : List Event) (s : Backend) (h : backend.exec init es = some s)
    : s.Only (fun user => user.profile ∈ profiles es)
        ∧ (((profiles es).map Profile.uid).Nodup → ∀ uid otherUid copy,
            s.db.getDocument (DatabaseManager.recentUserPath uid otherUid) = some copy →
            (∀ original, s.db.getDocument (DatabaseManager.userPath otherUid) = some original →
                ∃ user user' : User, copy = user.dictionary ∧ original = user'.dictionary
                  ∧ user = { user' with timestamp := user.timestamp })
              ∧ (s.Quiescent → (s.db.getDocument (DatabaseManager.userPath otherUid)).isSome)) := by
  refine ⟨only_of_run h, ?_⟩
  intro honce uid otherUid copy hcopy
  exact agrees_of_run h honce hcopy

theorem copies_agree_groupRun
    : ∃ s copy original, backend.exec init groupRun = some s
        ∧ s.Only (fun user => user.profile ∈ profiles groupRun)
        ∧ s.db.getDocument (DatabaseManager.recentUserPath "b" "Uab") = some copy
        ∧ s.db.getDocument (DatabaseManager.userPath "Uab") = some original ∧ copy ≠ original
        ∧ ∃ user user' : User, copy = user.dictionary ∧ original = user'.dictionary
            ∧ user = { user' with timestamp := user.timestamp } := by
  have honce : ((profiles groupRun).map Profile.uid).Nodup := by
    decide
  rcases copies_agree groupRun _ rfl with ⟨honly, hagree⟩
  exact ⟨_, _, _, rfl, honly, rfl, rfl, by decide, (hagree honce "b" "Uab" _ rfl).left _ rfl⟩

end Backend

end ChatApplication
