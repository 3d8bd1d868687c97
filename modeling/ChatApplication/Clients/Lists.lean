import ChatApplication.API.Decoding
import ChatApplication.API.Membership.Exchanges
import ChatApplication.Clients.Parties

/-!
This module contains what the two lists of an account are. The contacts are all other accounts, the
recent users are those with whom a message was exchanged and the groups with the account as a member.
-/

namespace ChatApplication

namespace Clients

variable {Image : Type u} {Data : Type v} {pngData : Image → Option Data}

-- A profile is stored under the uid of its account.
theorem profile_of_getDocument {s : Clients Data} (hpersons : s.server.PersonsInv)
    {documentID : DocumentID} {data : Dictionary}
    (hdata : s.server.db.getDocument (DatabaseManager.userPath documentID) = some data)
    : ∃ user : User, s.server.Known user.uid user.isGroup ∧ user.uid = documentID
        ∧ data = user.dictionary := by
  have hfitting := hpersons.touched _ data (Or.inl hdata)
  exact hfitting.user (by simp [DatabaseManager.userPath])

theorem SourcesInv.mem_contacts {Opens : AuthUid → Source → Prop} {s : Clients Data}
    (hs : s.SourcesInv Opens) (hpersons : s.server.PersonsInv) (uid : AuthUid) {now : Date}
    {users : List User}
    (husers : DatabaseManager.decodeUsers now (DatabaseManager.getAllUsers s.server.db uid.value)
      = some users) (otherUid : DocumentID)
    : otherUid ∈ users.map User.uid
        ↔
      ∃ other ∈ s.accounts, other.value = otherUid ∧ other ≠ uid
        ∧ (s.server.db.getDocument (DatabaseManager.userPath otherUid)).isSome := by
  rw [List.mem_map]
  constructor
  . rintro ⟨user, huser, huid⟩
    rw [DatabaseManager.mem_decodeUsers husers] at huser
    rcases huser with ⟨document, hdocument, huser⟩
    have hdata := DatabaseManager.getDocument_of_mem_getAllUsers hdocument
    rcases profile_of_getDocument hpersons hdata with ⟨stored, hknown, hid, hstored⟩
    rw [hstored, User.init_dictionary] at huser
    injection huser with huser
    rw [DatabaseManager.getAllUsers, List.mem_filter, DocumentSnapshot.mem_whereField, hstored,
      decide_eq_true_iff] at hdocument
    rcases hdocument with ⟨⟨_, hisGroup⟩, hnotEqual⟩
    injection hisGroup with hisGroup
    injection hisGroup with hisGroup
    rw [hisGroup] at hknown
    change stored.uid ∈ s.server.accounts at hknown
    rw [hs.accounts, List.mem_map] at hknown
    rcases hknown with ⟨other, hother, hvalue⟩
    refine ⟨other, hother, by rw [hvalue, huser, huid], ?_, ?_⟩
    . intro heq
      apply hnotEqual
      rw [← heq, hvalue]
      simp [User.dictionary]
    . rw [← huid, ← huser, hid, hdata]
      rfl
  . rintro ⟨other, hother, hvalue, hne, hprofile⟩
    rw [Option.isSome_iff_exists] at hprofile
    rcases hprofile with ⟨data, hdata⟩
    rcases profile_of_getDocument hpersons hdata with ⟨stored, hknown, hid, hstored⟩
    have hperson : stored.isGroup = false := by
      rw [hid, ← hvalue] at hknown
      exact hs.not_isGroup hpersons hother hknown
    refine ⟨stored, ?_, hid⟩
    rw [DatabaseManager.mem_decodeUsers husers]
    refine ⟨⟨otherUid, data⟩, ?_, by rw [hstored, User.init_dictionary]⟩
    rw [DatabaseManager.getAllUsers, List.mem_filter, DocumentSnapshot.mem_whereField,
      Firestore.mem_getDocuments, hstored, decide_eq_true_iff]
    refine ⟨⟨by rw [← hstored]; exact hdata, ?_⟩, ?_⟩
    . rw [← hperson]
      rfl
    . have hvalue' : stored.uid ≠ uid.value := by
        rw [hid, ← hvalue]
        exact fun heq => hne (AuthUid.value_injective heq)
      simp [User.dictionary, hvalue']

/-- The contacts of an account are the other accounts that have a profile, each of them once. -/
theorem contacts_of_run (pngData : Image → Option Data) (es : List (Event Image)) {s : Clients Data}
    (hrun : (clients pngData).exec init es = some s) (uid : AuthUid) (now : Date)
    : ∃ users,
        DatabaseManager.decodeUsers now (DatabaseManager.getAllUsers s.server.db uid.value)
            = some users
          ∧ (users.map User.uid).Nodup
          ∧ ∀ otherUid, otherUid ∈ users.map User.uid ↔
              ∃ other ∈ s.accounts, other.value = otherUid ∧ other ≠ uid
                ∧ (s.server.db.getDocument (DatabaseManager.userPath otherUid)).isSome := by
  rcases sources_of_run hrun with ⟨hs, hpersons⟩
  have hdecodes : (DatabaseManager.decodeUsers now
      (DatabaseManager.getAllUsers s.server.db uid.value)).isSome := by
    apply DatabaseManager.decodeUsers_isSome
    intro document hdocument
    have hdata := DatabaseManager.getDocument_of_mem_getAllUsers hdocument
    rcases profile_of_getDocument hpersons hdata with ⟨user, _, _, huser⟩
    rw [huser, User.init_dictionary]
    rfl
  rw [Option.isSome_iff_exists] at hdecodes
  rcases hdecodes with ⟨users, husers⟩
  have hserver := server_of_run hrun
  exact ⟨users, husers, Backend.nodup_uid_getAllUsers hserver husers,
    hs.mem_contacts hpersons uid husers⟩

theorem contacts_of_run_teamRun
    : ∃ s users, (clients (fun image => some image)).exec init teamRun = some s
        ∧ DatabaseManager.decodeUsers 13 (DatabaseManager.getAllUsers s.server.db ann.value)
            = some users
        ∧ (users.map User.uid).Nodup
        ∧ ∀ otherUid, otherUid ∈ users.map User.uid ↔
            ∃ other ∈ s.accounts, other.value = otherUid ∧ other ≠ ann
              ∧ (s.server.db.getDocument (DatabaseManager.userPath otherUid)).isSome := by
  rcases contacts_of_run (fun image => some image) teamRun rfl ann 13
    with ⟨users, husers, hnodup, hmem⟩
  exact ⟨_, users, rfl, husers, hnodup, hmem⟩

-- `posted` is a message between the two persons
def Posted.Between (posted : Posted) (uid otherUid : DocumentID) : Prop :=
  posted.message.isGroupMessage = false
    ∧ ((uid = posted.message.fromId ∧ otherUid = posted.message.toId)
        ∨ (uid = posted.message.toId ∧ otherUid = posted.message.fromId))

structure RecentsInv (s : Clients Data) : Prop where
  exchanged : ∀ uid ∈ s.accounts, ∀ otherUid ∈ s.accounts,
    s.server.Touches (DatabaseManager.recentUserPath uid.value otherUid.value) →
      ∃ posted ∈ s.posted, Posted.Between posted uid.value otherUid.value
  listed : ∀ posted ∈ s.posted, ∀ uid otherUid, Posted.Between posted uid otherUid →
    s.server.Touches (DatabaseManager.recentUserPath uid otherUid)
  -- nobody is in contact with themselves
  others : ∀ uid ∈ s.accounts,
    ¬ s.server.Touches (DatabaseManager.recentUserPath uid.value uid.value)

theorem recentsInv_init : (init : Clients Data).RecentsInv := by
  constructor
  all_goals
    intros
    contradiction

section Accounts

variable {s : Clients Data}

theorem SourcesInv.not_group {Opens : AuthUid → Source → Prop} (hs : s.SourcesInv Opens)
    {uid : AuthUid} {group : Group} (hgroup : group ∈ s.server.groups) : group.uid ≠ uid.value := by
  rcases hs.exists_id hgroup with ⟨id, _, hvalue, _⟩
  rw [← hvalue]
  exact GroupID.value_ne id uid

-- Whose `recent-users` document is touched had an account already.
theorem SourcesInv.account_of_touches {Opens : AuthUid → Source → Prop} (hs : s.SourcesInv Opens)
    (hmembership : s.server.MembershipInv) {uid otherUid : AuthUid}
    (h : s.server.Touches (DatabaseManager.recentUserPath uid.value otherUid.value))
    : otherUid ∈ s.accounts := by
  rcases h with ⟨data, hdata⟩
  rcases hmembership.documents _ data hdata (by simp [DatabaseManager.recentUserPath])
    with ⟨user, hknown, huid, _⟩
  have hvalue : user.uid = otherUid.value := huid
  rw [hvalue] at hknown
  cases hisGroup : user.isGroup with
  | true =>
    rw [hisGroup] at hknown
    rcases hknown with ⟨group, hgroup, hgroupUid⟩
    exact absurd hgroupUid (hs.not_group hgroup)
  | false =>
    rw [hisGroup] at hknown
    change otherUid.value ∈ s.server.accounts at hknown
    rw [hs.accounts, List.mem_map] at hknown
    rcases hknown with ⟨uid', huid', hvalue'⟩
    rw [← AuthUid.value_injective hvalue']
    exact huid'

-- A user never writes to themselves.
theorem SourcesInv.ne_of_sends (hs : s.SourcesInv Source.Own) (hrecents : s.RecentsInv)
    {uid : AuthUid} {currentUser otherUser : Nat} {message : Message}
    (hsends : s.Sends Source.Own uid currentUser otherUser message) {known : DocumentID × Bool}
    (hknown : s.server.identity otherUser = some known) : known.1 ≠ uid.value := by
  rcases hsends.offered with ⟨source, hsource, hopens, hown⟩
  rcases hs.sources otherUser source hsource with ⟨huid, known', hknown', hfits⟩
  rw [hknown] at hknown'
  injection hknown' with hknown'
  rw [← hknown'] at hfits
  cases source with
  | allUsers uid' =>
    rw [← hown]
    exact hfits.right
  | recentUsers uid' =>
    intro heq
    have hrecent : s.server.Recent uid'.value known.1 := hfits
    rw [heq, ← hown] at hrecent
    exact hrecents.others uid' huid (Backend.touches_of_recent hrecent)
  | currentUser uid' => contradiction
  | createdGroup uid' =>
    rcases hfits with ⟨id, _, _, heq⟩
    rw [heq]
    exact GroupID.value_ne id uid

end Accounts

theorem RecentsInv.of_server_eq {s s' : Clients Data} (hs : s.RecentsInv)
    (hsources : s.SourcesInv Source.Own) (hmembership : s.server.MembershipInv)
    (hserver : s'.server = s.server) (hposted : s'.posted = s.posted) : s'.RecentsInv := by
  constructor
  . intro uid _ otherUid _ htouches
    rw [hserver] at htouches
    rw [hposted]
    have hotherUid := hsources.account_of_touches hmembership htouches
    have huid := hsources.account_of_touches hmembership (hmembership.symmetric _ _ htouches)
    exact hs.exchanged uid huid otherUid hotherUid htouches
  . rw [hserver, hposted]
    exact hs.listed
  . intro uid _ htouches
    rw [hserver] at htouches
    exact hs.others uid (hsources.account_of_touches hmembership htouches) htouches

theorem Requests.posted_subset {s s' : Clients Data} {e : Backend.Event} (h : s.Requests e s')
    {posted : Posted} (hposted : posted ∈ s.posted) : posted ∈ s'.posted := by
  cases e with
  | createAccount uid =>
    rw [h.right]
    exact hposted
  | createGroup uid uuid usersId groupName url selectedUsers date now =>
    rw [h.right]
    exact hposted
  | addMessage message currentUser otherUser date date' documentID =>
    rcases h with ⟨_, uid, _, hs'⟩
    rw [hs']
    exact List.mem_append_left _ hposted
  | signup uid firstName lastName email url date now =>
    rw [h]
    exact hposted
  | load path now =>
    rw [h]
    exact hposted
  | perform i now =>
    rw [h]
    exact hposted

-- Two accounts are related by a request only if it posts a message of one of them to the other.
theorem posted_of_relates {s s' : Clients Data} {e : Backend.Event}
    (hsources : s.SourcesInv Source.Own) (hmembership : s.server.MembershipInv)
    (hrequests : s.Requests e s') {uid otherUid : AuthUid}
    (h : s.server.Relates e uid.value otherUid.value)
    : ∃ posted ∈ s'.posted, Posted.Between posted uid.value otherUid.value := by
  rcases h with ⟨group, hgroup, hgroupUid | hgroupUid⟩
    | ⟨message, currentUser, otherUser, date, date', documentID, known, known', he, hknown, hknown',
        hpair⟩
  . exact absurd hgroupUid (hsources.not_group hgroup)
  . exact absurd hgroupUid (hsources.not_group hgroup)
  . rw [he] at hrequests
    rcases hrequests with ⟨_, sender, hcomposes, hs'⟩
    have hsends := hsources.sends_of_composes hcomposes
    have hsender := (hsources.currentUser hsends.currentUser).right
    rcases hsends.addressed.otherUser with ⟨user, hidentity, htoId, hisGroup, _⟩
    rw [hsender] at hknown
    rw [hidentity] at hknown'
    injection hknown with hknown
    injection hknown' with hknown'
    rw [← hknown, ← hknown'] at hpair
    refine ⟨⟨sender, documentID, message⟩, by rw [hs']; simp, ?_, ?_⟩
    . cases hgroup : user.isGroup with
      | false => rw [hisGroup, hgroup]
      | true =>
        have hgroupKnown := hmembership.objects otherUser _ _ hidentity
        rw [hgroup] at hgroupKnown
        rcases hgroupKnown with ⟨group, hgroup, hgroupUid⟩
        cases hpair with
        | inl hpair => exact absurd (hgroupUid.trans hpair.right.symm) (hsources.not_group hgroup)
        | inr hpair => exact absurd (hgroupUid.trans hpair.left.symm) (hsources.not_group hgroup)
    . dsimp only
      rw [hsends.addressed.fromId, htoId]
      exact hpair

theorem RecentsInv.request {s s' : Clients Data} {e : Backend.Event} (hs : s.RecentsInv)
    (hsources : s.SourcesInv Source.Own) (hmembership : s.server.MembershipInv)
    (hserver : backend.step s.server e = some s'.server) (hrequests : s.Requests e s')
    : s'.RecentsInv := by
  constructor
  case exchanged =>
    intro uid _ otherUid _ htouches
    cases hmembership.relates_step hserver htouches with
    | inl hold =>
      have hotherUid := hsources.account_of_touches hmembership hold
      have huid := hsources.account_of_touches hmembership (hmembership.symmetric _ _ hold)
      rcases hs.exchanged uid huid otherUid hotherUid hold with ⟨posted, hposted, hbetween⟩
      exact ⟨posted, hrequests.posted_subset hposted, hbetween⟩
    | inr hrelates => exact posted_of_relates hsources hmembership hrequests hrelates
  case listed =>
    intro posted hposted uid otherUid hbetween
    have hold : posted ∈ s.posted →
        s'.server.Touches (DatabaseManager.recentUserPath uid otherUid) := by
      intro hold
      exact Backend.touches_step hserver (hs.listed posted hold uid otherUid hbetween)
    cases e with
    | addMessage message currentUser otherUser date date' documentID =>
      rcases hrequests with ⟨_, sender, hcomposes, hs'⟩
      rw [hs', List.mem_append, List.mem_singleton] at hposted
      cases hposted with
      | inl hposted => exact hold hposted
      | inr hnew =>
        have hsends := hsources.sends_of_composes hcomposes
        have hsender := (hsources.currentUser hsends.currentUser).right
        rcases hsends.addressed.otherUser with ⟨user, hidentity, htoId, hisGroup, _⟩
        have htouches := Backend.touches_addMessage hserver hsender hidentity
        rw [hnew, Posted.Between, hsends.addressed.fromId, htoId] at hbetween
        rcases hbetween.right with ⟨huid, hotherUid⟩ | ⟨huid, hotherUid⟩
        . rw [huid, hotherUid]
          exact htouches.left
        . rw [huid, hotherUid]
          exact htouches.right
    | createAccount uid =>
      rw [hrequests.right] at hposted
      exact hold hposted
    | createGroup uid uuid usersId groupName url selectedUsers date now =>
      rw [hrequests.right] at hposted
      exact hold hposted
    | signup uid firstName lastName email url date now =>
      rw [hrequests] at hposted
      exact hold hposted
    | load path now =>
      rw [hrequests] at hposted
      exact hold hposted
    | perform i now =>
      rw [hrequests] at hposted
      exact hold hposted
  case others =>
    intro uid _ htouches
    cases hmembership.relates_step hserver htouches with
    | inl hold => exact hs.others uid (hsources.account_of_touches hmembership hold) hold
    | inr hrelates =>
      rcases hrelates with ⟨group, hgroup, hgroupUid | hgroupUid⟩
        | ⟨message, currentUser, otherUser, date, date', documentID, known, known', he, hknown,
            hknown', hpair⟩
      . exact absurd hgroupUid (hsources.not_group hgroup)
      . exact absurd hgroupUid (hsources.not_group hgroup)
      . rw [he] at hrequests
        rcases hrequests with ⟨_, sender, hcomposes, _⟩
        have hsends := hsources.sends_of_composes hcomposes
        have hsender := (hsources.currentUser hsends.currentUser).right
        have hne := hsources.ne_of_sends hs hsends hknown'
        rw [hsender] at hknown
        injection hknown with hknown
        rw [← hknown] at hpair
        apply hne
        rcases hpair with ⟨huid, huid'⟩ | ⟨huid, huid'⟩
        . rw [← huid', huid]
        . rw [← huid, huid']

theorem recentsInv_step {s s' : Clients Data} {e : Event Image} (hs : s.RecentsInv)
    (hsources : s.SourcesInv Source.Own) (hmembership : s.server.MembershipInv)
    (hstep : (clients pngData).step s e = some s') : s'.RecentsInv := by
  rcases requests_step hstep with ⟨_, hserver, hposted⟩ | ⟨e', _, hserver, hrequests⟩
  . exact hs.of_server_eq hsources hmembership hserver hposted
  . exact hs.request hsources hmembership hserver hrequests

-- the invariants of the runs in which nobody is shown the rows of another account
structure OwnInv (s : Clients Data) : Prop where
  sources : s.SourcesInv Source.Own
  persons : s.server.PersonsInv
  membership : s.server.MembershipInv
  complete : s.server.Complete
  recents : s.RecentsInv

theorem ownInv_step {s s' : Clients Data} {e : Event Image} (hs : s.OwnInv)
    (hstep : (clients pngData).step s e = some s') (hown : OwnRows s e s') : s'.OwnInv := by
  have hsources := refines_backend_of_ownRows.inv ⟨hs.sources, hs.persons⟩
    ⟨hs.membership, hs.complete⟩ hstep hown
  have hmembership := refines_backend_of_ownRows.step_inv' ⟨hs.sources, hs.persons⟩
    ⟨hs.membership, hs.complete⟩ hstep hown
  exact ⟨hsources.left, hsources.right, hmembership.left, hmembership.right,
    recentsInv_step hs.recents hs.sources hs.membership hstep⟩

theorem ownInv_of_run {s : Clients Data} {es : List (Event Image)}
    (hrun : (clients pngData).exec init es = some s) (hown : (clients pngData).Meets OwnRows init es)
    : s.OwnInv := by
  have hcomplete : Backend.init.Complete := by
    intro group hgroup
    contradiction
  have hinit : (init : Clients Data).OwnInv := by
    exact ⟨sourcesInv_init, Backend.personsInv_init, Backend.membershipInv_init, hcomplete,
      recentsInv_init⟩
  exact Machine.exec_preserves_of_meets (fun s e s' => ownInv_step) hinit hrun hown

-- whom an account is in contact with
def InContact (s : Clients Data) (uid : AuthUid) : Peer → Prop
  | .person otherUid => ∃ posted ∈ s.posted, Posted.Between posted uid.value otherUid.value
  | .group id => s.Party uid (.inr id)

theorem OwnInv.recent_iff {s : Clients Data} (hs : s.OwnInv) (hquiescent : s.server.Quiescent)
    {uid : AuthUid} (huid : uid ∈ s.accounts) {peer : Peer} (hpeer : s.Registered peer)
    : s.server.Recent uid.value peer.identity.1 ↔ s.InContact uid peer := by
  cases peer with
  | person otherUid =>
    constructor
    . intro hrecent
      exact hs.recents.exchanged uid huid otherUid hpeer (Backend.touches_of_recent hrecent)
    . rintro ⟨posted, hposted, hbetween⟩
      exact Backend.recent_of_touches hquiescent (hs.recents.listed posted hposted _ _ hbetween)
  | group id =>
    rcases hs.sources.exists_group hpeer with ⟨group, hgroup, hgroupUid⟩
    constructor
    . intro hrecent
      rw [Peer.identity, ← hgroupUid] at hrecent
      have hallowed := hs.membership.allowed _ _ (Backend.touches_of_recent hrecent)
      exact ⟨group, hgroup, hgroupUid, (hallowed group hgroup).right rfl⟩
    . rintro ⟨group', hgroup', hgroupUid', hmember⟩
      have hrecent := hs.complete.recent hquiescent hgroup' hmember
      have hsymm := hs.membership.symmetric _ _ (Backend.touches_of_recent hrecent)
      rw [hgroupUid'] at hsymm
      exact Backend.recent_of_touches hquiescent hsymm

end Clients

end ChatApplication
