import ChatApplication.API.Membership.Invariant

/-!
This module contains the runs in which messages are sent by signed-in users, to whomever they like:
nothing is ever stored about a group in the recent users of that very group.
-/

namespace ChatApplication

namespace Backend

/--
The runs in question: group ids are different from the uids of all accounts, and who sends a message
has an account.
-/
def FromAccounts (s : Backend) : Event → Backend → Prop
  | .createAccount uid, _ => ∀ group ∈ s.groups, group.uid ≠ uid
  | .createGroup uid uuid usersId _ _ _ _ _, _ => uuid ++ uid ++ usersId ∉ s.accounts
  | .addMessage _ currentUser _ _ _ _, _ => ∀ user ∈ s.objects[currentUser]?, user.uid ∈ s.accounts
  | _, _ => True

instance decidableFromAccounts (s : Backend)
    : (e : Event) → (s' : Backend) → Decidable (FromAccounts s e s')
  | .createAccount uid, _ => inferInstanceAs (Decidable (∀ group ∈ s.groups, group.uid ≠ uid))
  | .createGroup uid uuid usersId _ _ _ _ _, _ =>
    inferInstanceAs (Decidable (uuid ++ uid ++ usersId ∉ s.accounts))
  | .addMessage _ currentUser _ _ _ _, _ =>
    inferInstanceAs (Decidable (∀ user ∈ s.objects[currentUser]?, user.uid ∈ s.accounts))
  | .signup _ _ _ _ _ _ _, _ | .load _ _, _ | .perform _ _, _ =>
    inferInstanceAs (Decidable True)

-- Only persons are their own recent users.
structure Fitting (s : Backend) (path : Path) (data : Dictionary) : Prop where
  user : path.collection ≠ .messages → ∃ user : User, s.Known user.uid user.isGroup
    ∧ user.uid = path.documentID ∧ data = user.dictionary
  self : path.collection = .recentUsers path.documentID → path.documentID ∈ s.accounts

def Selected (s : Backend) (selectedUsers : List Nat) : Prop :=
  ∀ object ∈ selectedUsers, ∃ uid isGroup, s.identity object = some (uid, isGroup)
    ∧ uid ∈ s.accounts

def Consistent (s : Backend) : Awaiting → Prop
  | .request (.groupMembers _) => True
  | .request (.creator uid _ selectedUsers) => uid ∈ s.accounts ∧ s.Selected selectedUsers
  | .reply (.groupMembers otherUser _ documents) =>
    ∃ uid isGroup, s.identity otherUser = some (uid, isGroup) ∧ ∀ document ∈ documents,
      s.Fitting (DatabaseManager.recentUserPath uid document.documentID) document.data
  | .reply (.creator _ selectedUsers data) =>
    s.Selected selectedUsers ∧ ∃ user : User, s.Known user.uid user.isGroup
      ∧ user.uid ∈ s.accounts ∧ data = user.dictionary

structure PersonsInv (s : Backend) : Prop where
  objects : ∀ object uid isGroup, s.identity object = some (uid, isGroup) → s.Known uid isGroup
  touched : ∀ path data, s.Touched path data → s.Fitting path data
  separate : ∀ group ∈ s.groups, group.uid ∉ s.accounts
  consistent : ∀ operation ∈ s.operations, ∀ awaiting, operation.awaiting = some awaiting →
    s.Consistent awaiting

theorem personsInv_init : PersonsInv init := by
  constructor
  case touched =>
    rintro path data (hdata | ⟨write, hwrite, _⟩)
    . rw [init, Firestore.getDocument_empty] at hdata
      contradiction
    . contradiction
  all_goals
    intros
    contradiction

theorem Extends.fitting {s s' : Backend} (h : Extends s s') {path : Path} {data : Dictionary}
    (hfitting : s.Fitting path data) : s'.Fitting path data := by
  constructor
  . intro hpath
    rcases hfitting.user hpath with ⟨user, hknown, hrest⟩
    exact ⟨user, h.known hknown, hrest⟩
  . intro hpath
    exact h.accounts _ (hfitting.self hpath)

theorem Extends.selected {s s' : Backend} (h : Extends s s') {selectedUsers : List Nat}
    (hselected : s.Selected selectedUsers) : s'.Selected selectedUsers := by
  intro object hobject
  rcases hselected object hobject with ⟨uid, isGroup, hidentity, huid⟩
  exact ⟨uid, isGroup, h.identity object _ hidentity, h.accounts uid huid⟩

theorem Extends.consistent {s s' : Backend} (h : Extends s s') {awaiting : Awaiting}
    (hawaiting : s.Consistent awaiting) : s'.Consistent awaiting := by
  match awaiting with
  | .request (.groupMembers otherUser) => trivial
  | .request (.creator uid object selectedUsers) =>
    exact ⟨h.accounts uid hawaiting.left, h.selected hawaiting.right⟩
  | .reply (.groupMembers otherUser seen documents) =>
    rcases hawaiting with ⟨uid, isGroup, hidentity, hdocuments⟩
    refine ⟨uid, isGroup, h.identity otherUser _ hidentity, ?_⟩
    intro document hdocument
    exact h.fitting (hdocuments document hdocument)
  | .reply (.creator object selectedUsers data) =>
    rcases hawaiting with ⟨hselected, user, hknown, huid, hdata⟩
    exact ⟨h.selected hselected, user, h.known hknown, h.accounts _ huid, hdata⟩

-- All that an event has to show is that what it adds is fitting.
theorem PersonsInv.extend {s s' : Backend} (hs : s.PersonsInv) (h : Extends s s')
    (hobjects : ∀ object uid isGroup, s'.identity object = some (uid, isGroup) →
      s.identity object = some (uid, isGroup) ∨ s'.Known uid isGroup)
    (htouched : ∀ path data, s'.Touched path data → s.Touched path data ∨ s'.Fitting path data)
    (hseparate : ∀ group ∈ s'.groups, group.uid ∉ s'.accounts)
    (hoperations : ∀ operation ∈ s'.operations, operation ∈ s.operations
      ∨ ∀ awaiting, operation.awaiting = some awaiting → s'.Consistent awaiting)
    : s'.PersonsInv := by
  constructor
  case objects =>
    intro object uid isGroup hidentity
    cases hobjects object uid isGroup hidentity with
    | inl hold => exact h.known (hs.objects object uid isGroup hold)
    | inr hnew => exact hnew
  case touched =>
    intro path data hdata
    cases htouched path data hdata with
    | inl hold => exact h.fitting (hs.touched path data hold)
    | inr hnew => exact hnew
  case separate => exact hseparate
  case consistent =>
    intro operation hoperation awaiting hawaiting
    cases hoperations operation hoperation with
    | inl hold => exact h.consistent (hs.consistent operation hold awaiting hawaiting)
    | inr hnew => exact hnew awaiting hawaiting

theorem fitting_userPath {s : Backend} {user : User} (h : s.Known user.uid user.isGroup)
    : s.Fitting (DatabaseManager.userPath user.uid) user.dictionary := by
  constructor
  . intro _
    exact ⟨user, h, rfl, rfl⟩
  . intro hpath
    contradiction

theorem fitting_recentUserPath {s : Backend} {uid : DocumentID} {user : User}
    (h : s.Known user.uid user.isGroup) (hself : uid = user.uid → user.uid ∈ s.accounts)
    : s.Fitting (DatabaseManager.recentUserPath uid user.uid) user.dictionary := by
  constructor
  . intro _
    exact ⟨user, h, rfl, rfl⟩
  . intro hpath
    injection hpath with huid
    exact hself huid

theorem fitting_messages (s : Backend) (documentID : DocumentID) (data : Dictionary)
    : s.Fitting ⟨.messages, documentID⟩ data := by
  constructor
  . intro hpath
    contradiction
  . intro hpath
    contradiction

theorem fitting_of_mem_addMessage {s : Backend} {documentID : DocumentID} {message : Message}
    {currentUser otherUser : User} (h : s.Known currentUser.uid currentUser.isGroup)
    (h' : s.Known otherUser.uid otherUser.isGroup) (huid : currentUser.uid ∈ s.accounts)
    {write : Write}
    (hwrite : write ∈ DatabaseManager.addMessage documentID message currentUser otherUser)
    : s.Fitting write.path write.data := by
  simp only [DatabaseManager.addMessage, List.mem_cons, List.not_mem_nil, or_false] at hwrite
  rcases hwrite with hwrite | hwrite | hwrite
  . rw [hwrite]
    apply fitting_messages
  . rw [hwrite]
    apply fitting_recentUserPath h'
    intro heq
    rw [← heq]
    exact huid
  . rw [hwrite]
    apply fitting_recentUserPath h
    intro _
    exact huid

theorem fitting_of_mem_membershipWrites {s : Backend} {origin : Origin} {group user : User}
    (hgroup : s.Known group.uid group.isGroup) (huser : s.Known user.uid user.isGroup)
    (hself : user.uid = group.uid → user.uid ∈ s.accounts) {write : Write}
    (hwrite : write ∈ DatabaseManager.membershipWrites origin group user)
    : s.Fitting write.path write.data := by
  rw [DatabaseManager.mem_membershipWrites] at hwrite
  cases hwrite with
  | inl hwrite =>
    rw [hwrite]
    apply fitting_recentUserPath hgroup
    intro heq
    rw [← heq]
    exact hself heq
  | inr hwrite =>
    rw [hwrite]
    apply fitting_recentUserPath huser
    intro heq
    exact hself heq.symm

theorem PersonsInv.fitting_of_answer {s : Backend} (hs : s.PersonsInv) {now : Date} {reply : Reply}
    {issued : List Write} (hreply : s.Consistent (.reply reply))
    (h : s.answer now reply = some issued) {write : Write} (hwrite : write ∈ issued)
    : s.Fitting write.path write.data := by
  cases reply with
  | groupMembers otherUser seen documents =>
    rcases answer_groupMembers h with ⟨group, users, hgroup, husers, hissued⟩
    rcases hreply with ⟨uid, isGroup, huid, hdocuments⟩
    have hidentity := identity_of_getElem? hgroup
    have hknown := hs.objects otherUser _ _ hidentity
    rw [huid, Option.some.injEq, Prod.mk.injEq] at hidentity
    rw [hissued, DatabaseManager.mem_updateGroupMembers] at hwrite
    rcases hwrite with ⟨user, huser, hwrite⟩
    rw [DatabaseManager.mem_decodeUsers husers] at huser
    rcases huser with ⟨document, hdocument, hinit⟩
    have hfitting := hdocuments document hdocument
    rcases hfitting.user (by simp [DatabaseManager.recentUserPath])
      with ⟨stored, hstored, hstoredUid, hdata⟩
    rw [hdata, User.init_dictionary] at hinit
    injection hinit with hinit
    rw [hinit] at hstored hstoredUid
    apply fitting_of_mem_membershipWrites hknown hstored _ hwrite
    intro hself
    rw [hstoredUid]
    apply hfitting.self
    rw [hidentity.left, ← hself, hstoredUid]
    rfl
  | creator object selectedUsers data =>
    rcases answer_creator h with ⟨currentUser, group, hcurrentUser, hgroup, hissued⟩
    rcases hreply with ⟨hselected, creator, hcreator, huid, hdata⟩
    rw [hdata, User.init_dictionary] at hcurrentUser
    injection hcurrentUser with hcurrentUser
    rw [hcurrentUser] at hcreator huid
    have hknown := hs.objects object _ _ (identity_of_getElem? hgroup)
    rw [hissued, DatabaseManager.mem_addGroupUsers] at hwrite
    rcases hwrite with ⟨user, huser, hwrite⟩
    rw [List.mem_append, List.mem_filterMap, List.mem_singleton] at huser
    cases huser with
    | inl hmem =>
      rcases hmem with ⟨selected, hselectedMem, hobject⟩
      have hidentity := identity_of_getElem? hobject
      apply fitting_of_mem_membershipWrites hknown (hs.objects selected _ _ hidentity) _ hwrite
      intro _
      rcases hselected selected hselectedMem with ⟨uid, isGroup, huid, haccount⟩
      rw [huid, Option.some.injEq, Prod.mk.injEq] at hidentity
      rw [← hidentity.left]
      exact haccount
    | inr hcurrent =>
      rw [← hcurrent] at hcreator huid
      exact fitting_of_mem_membershipWrites hknown hcreator (fun _ => huid) hwrite

theorem PersonsInv.consistent_of_fetch {s : Backend} (hs : s.PersonsInv) {read : Read}
    {reply : Reply} (hread : s.Consistent (.request read)) (h : s.fetch read = some reply)
    : s.Consistent (.reply reply) := by
  cases read with
  | groupMembers otherUser =>
    rcases fetch_groupMembers h with ⟨group, hgroup, hreply⟩
    rw [hreply]
    refine ⟨group.uid, group.isGroup, identity_of_getElem? hgroup, ?_⟩
    intro document hdocument
    apply hs.touched
    exact Or.inl (DatabaseManager.getDocument_of_mem_getGroupMembers hdocument)
  | creator uid object selectedUsers =>
    rcases fetch_creator h with ⟨data, hdata, hreply⟩
    have hfitting := hs.touched _ data (Or.inl hdata)
    rcases hfitting.user (by simp [DatabaseManager.userPath]) with ⟨user, hknown, huser, huserData⟩
    rw [hreply]
    refine ⟨hread.right, user, hknown, ?_, huserData⟩
    rw [huser]
    exact hread.left

theorem PersonsInv.start {s s' : Backend} (hs : s.PersonsInv) (h : Extends s s')
    (hobjects : ∀ object uid isGroup, s'.identity object = some (uid, isGroup) →
      s.identity object = some (uid, isGroup) ∨ s'.Known uid isGroup)
    (hdb : s'.db = s.db) (hoperations : s'.operations = s.operations)
    (hseparate : ∀ group ∈ s'.groups, group.uid ∉ s'.accounts) {operation : Operation}
    (hissued : ∀ write ∈ operation.issued, s'.Fitting write.path write.data)
    (hawaiting : ∀ awaiting, operation.awaiting = some awaiting → s'.Consistent awaiting)
    : (s'.start operation).PersonsInv := by
  have hextends : Extends s (s'.start operation) := ⟨h.identity, h.accounts, h.groups⟩
  have hlast : Extends s' (s'.start operation) := extends_of_eq rfl rfl rfl
  apply hs.extend hextends hobjects _ hseparate
  . intro operation' hoperation'
    rw [Backend.start, List.mem_append, List.mem_singleton, hoperations] at hoperation'
    cases hoperation' with
    | inl hold => exact Or.inl hold
    | inr hnew =>
      right
      intro awaiting hawaiting'
      rw [hnew] at hawaiting'
      exact hlast.consistent (hawaiting awaiting hawaiting')
  . intro path data hdata
    rw [touched_start] at hdata
    cases hdata with
    | inl hold =>
      unfold Touched pending at hold
      rw [hdb, hoperations] at hold
      exact Or.inl hold
    | inr hnew =>
      rcases hnew with ⟨write, hwrite, rfl, rfl⟩
      exact Or.inr (hlast.fitting (hissued write hwrite))

theorem PersonsInv.perform {s s' : Backend} (hs : s.PersonsInv) {i : Nat} {now : Date}
    (hstep : backend.step s (.perform i now) = some s') : s'.PersonsInv := by
  have hextends := extends_step hstep
  have hold : ∀ {operation : Operation} {awaiting : Awaiting}, s.operations[i]? = some operation →
      operation.awaiting = some awaiting → s.Consistent awaiting := by
    intro operation awaiting hoperation hawaiting
    exact hs.consistent operation (List.mem_of_getElem? hoperation) awaiting hawaiting
  rcases step_perform hstep with hwrite | hrequest | hreply
  . rcases hwrite with ⟨write, issued, awaiting, hoperation, hs'⟩
    rw [hs'] at hextends ⊢
    apply hs.extend hextends (fun _ _ _ h => Or.inl h) _ hs.separate
    . intro operation hmem
      cases List.mem_or_eq_of_mem_set hmem with
      | inl hmem => exact Or.inl hmem
      | inr heq =>
        right
        intro awaiting' hawaiting
        rw [heq] at hawaiting
        exact hextends.consistent (hold hoperation hawaiting)
    . intro path data hdata
      exact Or.inl (touched_of_touched_performWrite hoperation hdata)
  . rcases hrequest with ⟨read, reply, hoperation, hfetch, hs'⟩
    have hreply := hs.consistent_of_fetch (hold hoperation rfl) hfetch
    rw [hs'] at hextends ⊢
    apply hs.extend hextends (fun _ _ _ h => Or.inl h) _ hs.separate
    . intro operation hmem
      cases List.mem_or_eq_of_mem_set hmem with
      | inl hmem => exact Or.inl hmem
      | inr heq =>
        right
        intro awaiting hawaiting
        rw [heq] at hawaiting
        injection hawaiting with hawaiting
        rw [← hawaiting]
        exact hextends.consistent hreply
    . intro path data hdata
      exact Or.inl ((touched_receive hoperation).mp hdata)
  . rcases hreply with ⟨reply, issued, hoperation, hanswer, hs'⟩
    have hreply := hold hoperation rfl
    rw [hs'] at hextends ⊢
    apply hs.extend hextends (fun _ _ _ h => Or.inl h) _ hs.separate
    . intro operation hmem
      cases List.mem_or_eq_of_mem_set hmem with
      | inl hmem => exact Or.inl hmem
      | inr heq =>
        right
        intro awaiting hawaiting
        rw [heq] at hawaiting
        contradiction
    . intro path data hdata
      rw [touched_issue hoperation] at hdata
      cases hdata with
      | inl hold => exact Or.inl hold
      | inr hnew =>
        rcases hnew with ⟨write, hwrite, rfl, rfl⟩
        exact Or.inr (hextends.fitting (hs.fitting_of_answer hreply hanswer hwrite))

theorem PersonsInv.load {s s' : Backend} (hs : s.PersonsInv) {path : Path} {now : Date}
    (hstep : backend.step s (.load path now) = some s') : s'.PersonsInv := by
  have hextends := extends_step hstep
  rcases step_load hstep with ⟨hpath, data, user, hdata, huser, hs'⟩
  rw [hs'] at hextends ⊢
  apply hs.extend hextends _ (fun _ _ h => Or.inl h) hs.separate (fun _ h => Or.inl h)
  intro object uid isGroup h
  rw [identity_append] at h
  split at h
  . rw [Option.some.injEq, Prod.mk.injEq] at h
    rcases (hs.touched path data (Or.inl hdata)).user hpath with ⟨stored, hknown, _, hstored⟩
    rw [hstored, User.init_dictionary] at huser
    injection huser with huser
    rw [← h.left, ← h.right, ← huser]
    exact Or.inr hknown
  . exact Or.inl h

theorem PersonsInv.createGroup {s s' : Backend} (hs : s.PersonsInv)
    {uid uuid usersId groupName url : String} {selectedUsers : List Nat} {date now : Date}
    (hstep : backend.step s (.createGroup uid uuid usersId groupName url selectedUsers date now)
      = some s')
    (hfrom : uuid ++ uid ++ usersId ∉ s.accounts) : s'.PersonsInv := by
  rcases step_createGroup hstep with ⟨huid, hselected, group, hgroupUid, hgroup, hs'⟩
  have hknown : Known {
      s with
      objects := s.objects ++ [group]
      groups := s.groups ++ [⟨group.uid, uid, s.selectedUids selectedUsers⟩]
    } group.uid true := ⟨_, List.mem_append_right _ (List.mem_singleton.mpr rfl), rfl⟩
  have hadded : Extends s {
      s with
      objects := s.objects ++ [group]
      groups := s.groups ++ [⟨group.uid, uid, s.selectedUids selectedUsers⟩]
    } := ⟨fun _ _ h => identity_append_of_eq_some h group, fun _ h => h,
      fun _ h => List.mem_append_left _ h⟩
  rw [hs']
  apply hs.start hadded _ rfl rfl
  . rw [List.forall_mem_append, List.forall_mem_singleton]
    dsimp only
    rw [hgroupUid]
    exact ⟨hs.separate, hfrom⟩
  . intro write hwrite
    rw [DatabaseManager.addUser, List.mem_singleton] at hwrite
    rw [hwrite]
    apply fitting_userPath
    rw [hgroup]
    exact hknown
  . intro awaiting hawaiting
    injection hawaiting with hawaiting
    rw [← hawaiting]
    refine ⟨huid, ?_⟩
    apply hadded.selected
    intro object hobject
    have hperson := hselected object hobject
    rw [isPerson_iff] at hperson
    rcases hperson with ⟨uid', huid'⟩
    exact ⟨uid', false, huid', hs.objects object uid' false huid'⟩
  . intro object uid' isGroup h
    change identity { s with objects := s.objects ++ [group] } object = some (uid', isGroup) at h
    rw [identity_append] at h
    split at h
    . rw [Option.some.injEq, Prod.mk.injEq] at h
      rw [← h.left, ← h.right, hgroup]
      exact Or.inr hknown
    . exact Or.inl h

theorem PersonsInv.addMessage {s s' : Backend} (hs : s.PersonsInv) {message : Message}
    {currentUser otherUser : Nat} {date date' : Date} {documentID : DocumentID}
    (hstep : backend.step s (.addMessage message currentUser otherUser date date' documentID)
      = some s')
    (hfrom : ∀ user ∈ s.objects[currentUser]?, user.uid ∈ s.accounts) : s'.PersonsInv := by
  rcases step_addMessage hstep with ⟨objects, user, user', hobjects, huser, huser', hs'⟩
  have hidentity : identity { s with objects := objects } = s.identity := by
    rw [hobjects]
    apply identity_setTimestamp_setTimestamp
  have huserIdentity : identity { s with objects := objects } _ = _ := identity_of_getElem? huser
  have huserIdentity' : identity { s with objects := objects } _ = _ := identity_of_getElem? huser'
  rw [hidentity] at huserIdentity huserIdentity'
  have hsender : user.uid ∈ s.accounts := by
    unfold identity at huserIdentity
    rw [Option.map_eq_some_iff] at huserIdentity
    rcases huserIdentity with ⟨sender, hsender, heq⟩
    rw [Prod.mk.injEq] at heq
    rw [← heq.left]
    exact hfrom sender hsender
  have hstamped : Extends s { s with objects := objects } := extends_of_eq hidentity rfl rfl
  rw [hs']
  apply hs.start hstamped _ rfl rfl hs.separate
  . intro write hwrite
    apply hstamped.fitting
    apply fitting_of_mem_addMessage _ _ hsender hwrite
    . exact hs.objects currentUser _ _ huserIdentity
    . exact hs.objects otherUser _ _ huserIdentity'
  . intro awaiting hawaiting
    split at hawaiting
    . injection hawaiting with hawaiting
      rw [← hawaiting]
      trivial
    . contradiction
  . intro object uid isGroup h
    rw [hidentity] at h
    exact Or.inl h

theorem personsInv_step {s : Backend} {e : Event} {s' : Backend} (hs : s.PersonsInv)
    (hstep : backend.step s e = some s') (hfrom : FromAccounts s e s') : s'.PersonsInv := by
  cases e with
  | createAccount uid =>
    have hextends := extends_step hstep
    rw [step_createAccount hstep] at hextends ⊢
    apply hs.extend hextends (fun _ _ _ h => Or.inl h) (fun _ _ h => Or.inl h) _
      (fun _ h => Or.inl h)
    intro group hgroup huid
    rw [List.mem_append, List.mem_singleton] at huid
    cases huid with
    | inl huid => exact hs.separate group hgroup huid
    | inr huid => exact hfrom group hgroup huid
  | signup uid firstName lastName email url date now =>
    rcases step_signup hstep with ⟨huid, user, huser, hperson, hs'⟩
    rw [hs']
    apply hs.start (extends_of_eq rfl rfl rfl) (fun _ _ _ h => Or.inl h) rfl rfl hs.separate
    . intro write hwrite
      rw [DatabaseManager.addUser, List.mem_singleton] at hwrite
      rw [hwrite]
      apply fitting_userPath
      rw [hperson, huser]
      exact huid
    . intro awaiting hawaiting
      contradiction
  | load path now => exact hs.load hstep
  | createGroup uid uuid usersId groupName url selectedUsers date now =>
    exact hs.createGroup hstep hfrom
  | addMessage message currentUser otherUser date date' documentID =>
    exact hs.addMessage hstep hfrom
  | perform i now => exact hs.perform hstep

theorem exec_personsInv {es : List Event} {s : Backend} (h : backend.exec init es = some s)
    (hfrom : backend.Meets FromAccounts init es) : s.PersonsInv := by
  apply Machine.exec_preserves_of_meets _ personsInv_init h hfrom
  intro s e s' hs hstep hfrom
  exact personsInv_step hs hstep hfrom

end Backend

end ChatApplication
