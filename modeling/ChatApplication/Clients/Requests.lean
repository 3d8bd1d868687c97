import ChatApplication.API.Membership
import ChatApplication.Clients.Sources
import ChatApplication.Machine.Refinement

/-!
This module contains the requests of the clients as a run of `Backend`. The assumptions about the
runs of `Backend` become facts about the runs of the clients.
-/

namespace ChatApplication

namespace Backend

-- A group gets an id that no group has yet.
def NewGroup (s : Backend) : Event → Backend → Prop
  | .createGroup uid uuid usersId _ _ _ _ _, _ =>
    ∀ group ∈ s.groups, group.uid ≠ uuid ++ uid ++ usersId
  | _, _ => True

def FromClients (s : Backend) (e : Event) (s' : Backend) : Prop :=
  s.FromAccounts e s' ∧ s.NewGroup e s'

end Backend

namespace Clients

variable {Image : Type u} {Data : Type v} {pngData : Image → Option Data}
  {Opens : AuthUid → Source → Prop}

theorem SourcesInv.sends_of_composes {s : Clients Data} (hs : s.SourcesInv Opens) {uid : AuthUid}
    {currentUser otherUser : Nat} {message : Message}
    (h : s.Composes uid currentUser otherUser message)
    : s.Sends Opens uid currentUser otherUser message := by
  rcases h with ⟨c, hc, user, text, now, huid, hcurrentUser, hotherUser, huser, hmessage⟩
    | ⟨upload, hupload, url, huid, hcurrentUser, hotherUser, hmessage⟩
  . rw [← hotherUser] at huser
    rw [← huid, ← hotherUser, hmessage]
    exact (hs.chats c hc).sends huser hcurrentUser text now
  . rw [← huid, ← hcurrentUser, ← hotherUser, hmessage]
    exact (hs.uploads upload hupload).uploaded url

theorem exec_server {s s' : Clients Data} {e : Event Image}
    (hstep : (clients pngData).step s e = some s')
    : backend.exec s.server (serverEvents pngData s e) = some s'.server := by
  rcases requests_step hstep with ⟨hevents, hserver, _⟩ | ⟨e', hevents, hserver, _⟩
  . rw [hevents, hserver]
    rfl
  . rw [hevents, Machine.exec_singleton]
    exact hserver

theorem meets_server {s s' : Clients Data} {e : Event Image}
    (hstep : (clients pngData).step s e = some s') {C : Backend → Backend.Event → Backend → Prop}
    (h : ∀ e' server', s.Requests e' s' → C s.server e' server')
    : backend.Meets C s.server (serverEvents pngData s e) := by
  rcases requests_step hstep with ⟨hevents, _, _⟩ | ⟨e', hevents, _, hrequests⟩
  . rw [hevents]
    trivial
  . rw [hevents]
    apply Machine.meets_singleton
    intro server' _
    exact h e' server' hrequests

theorem SourcesInv.exists_id {s : Clients Data} (hs : s.SourcesInv Opens) {group : Group}
    (hgroup : group ∈ s.server.groups)
    : ∃ id ∈ s.groups, id.value = group.uid ∧ id.creator.value = group.creator := by
  have hmem : (group.uid, group.creator) ∈ s.server.creators := List.mem_map_of_mem hgroup
  rw [hs.creators, List.mem_map] at hmem
  rcases hmem with ⟨id, hid, heq⟩
  rw [Prod.mk.injEq] at heq
  exact ⟨id, hid, heq⟩

theorem SourcesInv.currentUser {s : Clients Data} (hs : s.SourcesInv Opens) {uid : AuthUid}
    {currentUser : Nat} (h : s.sources[currentUser]? = some (.currentUser uid))
    : uid ∈ s.accounts ∧ s.server.identity currentUser = some (uid.value, false) := by
  rcases hs.sources currentUser _ h with ⟨huid, known, hidentity, hfits⟩
  refine ⟨huid, ?_⟩
  rw [hidentity]
  exact congrArg some hfits.left

theorem SourcesInv.fromAccounts {s s' : Clients Data} (hs : s.SourcesInv Opens) {e : Backend.Event}
    {server' : Backend} (h : s.Requests e s') : Backend.FromAccounts s.server e server' := by
  cases e with
  | createAccount uid =>
    rcases h with ⟨⟨uid', huid'⟩, _⟩
    intro group hgroup
    rcases hs.exists_id hgroup with ⟨id, _, hvalue, _⟩
    rw [← hvalue, ← huid']
    exact GroupID.value_ne id uid'
  | createGroup uid uuid usersId groupName url selectedUsers date now =>
    rcases h with ⟨⟨id, hvalue, _⟩, _⟩
    change uuid ++ uid ++ usersId ∉ s.server.accounts
    rw [hs.accounts, List.mem_map, ← hvalue]
    rintro ⟨uid', _, heq⟩
    exact GroupID.value_ne id uid' heq.symm
  | addMessage message currentUser otherUser date date' documentID =>
    rcases h with ⟨_, uid, hcomposes, _⟩
    have hsends := hs.sends_of_composes hcomposes
    rcases hs.currentUser hsends.currentUser with ⟨huid, hidentity⟩
    intro user huser
    rw [Backend.identity_of_getElem? huser, Option.some.injEq, Prod.mk.injEq] at hidentity
    rw [hidentity.left, hs.accounts]
    exact List.mem_map_of_mem huid
  | signup uid firstName lastName email url date now => trivial
  | load path now => trivial
  | perform i now => trivial

theorem SourcesInv.inj_value {s : Clients Data} (hs : s.SourcesInv Opens) {id id' : GroupID}
    (hid : id ∈ s.groups) (hid' : id' ∈ s.groups) (heq : id.value = id'.value) : id = id' := by
  exact List.inj_on_of_nodup_map hs.uuids hid hid' (GroupID.uuid_eq_of_value_eq heq)

-- Ids with different UUIDs are different, whoever creates the groups.
theorem SourcesInv.newGroup {s s' : Clients Data} (hs : s.SourcesInv Opens) {e : Backend.Event}
    {server' : Backend} (h : s.Requests e s') : Backend.NewGroup s.server e server' := by
  cases e with
  | createGroup uid uuid usersId groupName url selectedUsers date now =>
    rcases h with ⟨⟨id, hvalue, hnew⟩, _⟩
    intro group hgroup heq
    rcases hs.exists_id hgroup with ⟨id', hid', hvalue', _⟩
    rw [← hvalue, ← hvalue'] at heq
    exact hnew id' hid' (GroupID.uuid_eq_of_value_eq heq)
  | _ => trivial

theorem SourcesInv.fromClients {s s' : Clients Data} (hs : s.SourcesInv Opens) {e : Backend.Event}
    {server' : Backend} (h : s.Requests e s') : Backend.FromClients s.server e server' := by
  exact ⟨hs.fromAccounts h, hs.newGroup h⟩

end Clients

-- The rows of the conversation list may be those of an account that was signed in before.
def Source.Own (uid : AuthUid) (source : Source) : Prop :=
  source.Opens uid ∧ source.uid = uid

instance (uid : AuthUid) (source : Source) : Decidable (source.Own uid) :=
  inferInstanceAs (Decidable (_ ∧ _))

namespace Clients

variable {Image : Type u} {Data : Type v} {pngData : Image → Option Data}

-- Whoever has a group on a screen of their own has created it, or has it among their recent users.
theorem SourcesInv.creator_or_recent {s : Clients Data} (hs : s.SourcesInv Source.Own)
    {uid : AuthUid} {object : Nat} (hoffered : s.Offered Source.Own uid object) {group : Group}
    (hgroup : group ∈ s.server.groups) (hidentity : s.server.identity object = some (group.uid, true))
    : uid.value = group.creator ∨ s.server.Recent uid.value group.uid := by
  rcases hoffered with ⟨source, hsource, hopens, hown⟩
  rcases hs.sources object source hsource with ⟨_, known, hknown, hfits⟩
  rw [hidentity] at hknown
  injection hknown with hknown
  rw [← hknown] at hfits
  cases source with
  | allUsers uid' => exact absurd hfits.left (by simp)
  | recentUsers uid' =>
    right
    rw [← hown]
    exact hfits
  | currentUser uid' => contradiction
  | createdGroup uid' =>
    left
    rcases hfits with ⟨id, hid, hcreator, heq⟩
    rcases hs.exists_id hgroup with ⟨id', hid', hvalue, hcreator'⟩
    rw [Prod.mk.injEq] at heq
    have hsame := hs.inj_value hid' hid (hvalue.trans heq.left)
    rw [← hcreator', hsame, hcreator]
    exact congrArg AuthUid.value hown.symm

theorem SourcesInv.admissible {s s' : Clients Data} (hs : s.SourcesInv Source.Own)
    {e : Backend.Event} {server' : Backend} (h : s.Requests e s')
    : Backend.Admissible s.server e server' := by
  have hclients : Backend.FromClients s.server e server' := hs.fromClients h
  cases e with
  | createAccount uid => exact hclients.left
  | createGroup uid uuid usersId groupName url selectedUsers date now => exact hclients
  | addMessage message currentUser otherUser date date' documentID =>
    rcases h with ⟨_, uid, hcomposes, _⟩
    have hsends := hs.sends_of_composes hcomposes
    rcases Backend.exists_of_identity (hs.currentUser hsends.currentUser).right
      with ⟨user, huser, huid, hperson⟩
    rcases hsends.addressed.otherUser with ⟨addressee, hidentity, _, hisGroup, _⟩
    rcases Backend.exists_of_identity hidentity with ⟨user', huser', huid', hisGroup'⟩
    simp only [Backend.Admissible, huser, huser']
    refine ⟨hperson, hisGroup.trans hisGroup'.symm, ?_⟩
    intro htrue group hgroup hgroupUid
    rw [huid]
    apply hs.creator_or_recent hsends.offered hgroup
    rw [hidentity, hgroupUid, huid', ← hisGroup', htrue]
  | signup uid firstName lastName email url date now => trivial
  | load path now => trivial
  | perform i now => trivial

theorem chooses_opens {s s' : Clients Data} {e : Event Image}
    (hstep : (clients pngData).step s e = some s') : s.Chooses Source.Opens e := by
  cases e with
  | openChat uid user =>
    rcases step_openChat hstep with ⟨source, otherUser, hsource, _, _, hopens, _⟩
    intro source' hsource'
    rw [hsource] at hsource'
    injection hsource' with hsource'
    rw [← hsource']
    exact hopens
  | _ => trivial

theorem refines_backend
    : Machine.Refines (clients pngData) backend server (serverEvents pngData) (fun _ _ _ => True)
        Backend.FromClients (SourcesInv Source.Opens) Backend.PersonsInv := by
  constructor
  . intro s e s' _ _ hstep _
    exact exec_server hstep
  . intro s e s' hs _ hstep _
    exact meets_server hstep (fun _ _ h => hs.fromClients h)
  . intro s e s' hs hpersons hstep _
    exact sourcesInv_step hs hpersons hstep (chooses_opens hstep)
  . intro server e server' hpersons hserver hfrom
    exact Backend.personsInv_step hpersons hserver hfrom.left

def OwnRows (s : Clients Data) (e : Event Image) (_ : Clients Data) : Prop :=
  s.Chooses Source.Own e

instance decidableOwnRows (s : Clients Data)
    : (e : Event Image) → (s' : Clients Data) → Decidable (OwnRows s e s')
  | .openChat uid user, _ =>
    inferInstanceAs (Decidable (∀ source ∈ s.sources[user]?, source.Own uid))
  | .createAccount _, _ | .signup _ _ _ _ _ _ _, _ | .load _ _ _, _ | .createGroup _ _ _ _ _ _ _, _
  | .currentUserFetched _ _, _ | .send _ _ _ _ _ _ _ _, _ | .uploadCompleted _ _ _ _ _, _
  | .uploadFailed _, _ | .perform _ _, _ | .listener _ _, _ => inferInstanceAs (Decidable True)

theorem refines_backend_of_ownRows
    : Machine.Refines (clients pngData) backend server (serverEvents pngData) OwnRows
        Backend.Admissible (fun s => s.SourcesInv Source.Own ∧ s.server.PersonsInv)
        (fun server => server.MembershipInv ∧ server.Complete) := by
  constructor
  . intro s e s' _ _ hstep _
    exact exec_server hstep
  . intro s e s' hs _ hstep _
    exact meets_server hstep (fun _ _ h => hs.left.admissible h)
  . intro s e s' hs _ hstep hown
    have hpersons := Machine.exec_preserves_of_meets
      (fun _ _ _ => Backend.personsInv_step) hs.right (exec_server hstep)
      (meets_server hstep (fun _ _ h => hs.left.fromAccounts h))
    exact ⟨sourcesInv_step hs.left hs.right hstep hown, hpersons⟩
  . intro server e server' hmembership hserver hadmissible
    exact ⟨Backend.membershipInv_step hmembership.left hserver hadmissible,
      Backend.complete_step hmembership.right hmembership.left hserver⟩

/--
The store only ever sees a run of `Backend` in which messages are sent by accounts and a new group has
an id of its own. As long as nobody is shown the rows of another account, it sees an admissible one.
-/
theorem run_is_run_of_backend (pngData : Image → Option Data) (es : List (Event Image))
    {s : Clients Data} (hrun : (clients pngData).exec init es = some s)
    : backend.exec Backend.init ((clients pngData).trace (serverEvents pngData) init es)
            = some s.server
        ∧ backend.Meets Backend.FromClients Backend.init
            ((clients pngData).trace (serverEvents pngData) init es)
        ∧ ((clients pngData).Meets OwnRows init es →
            backend.Meets Backend.Admissible Backend.init
              ((clients pngData).trace (serverEvents pngData) init es)) := by
  have hall : (clients pngData).Meets (fun _ _ _ => True) init es := by
    exact Machine.meets_of_forall_mem _ (fun _ _ => trivial)
  rcases refines_backend.run sourcesInv_init Backend.personsInv_init hrun hall
    with ⟨hserver, hfrom, _, _⟩
  refine ⟨hserver, hfrom, ?_⟩
  intro hown
  have hcomplete : Backend.init.Complete := by
    intro group hgroup
    contradiction
  exact (refines_backend_of_ownRows.run ⟨sourcesInv_init, Backend.personsInv_init⟩
    ⟨Backend.membershipInv_init, hcomplete⟩ hrun hown).right.left

theorem run_is_run_of_backend_teamRun
    : ∃ s, (clients (fun image => some image)).exec init teamRun = some s
        ∧ s.server.groups = [⟨team.value, ann.value, [bob.value]⟩]
        ∧ backend.Meets Backend.FromClients Backend.init
            ((clients (fun image => some image)).trace (serverEvents (fun image => some image)) init
              teamRun)
        ∧ backend.Meets Backend.Admissible Backend.init
            ((clients (fun image => some image)).trace (serverEvents (fun image => some image)) init
              teamRun) := by
  have hresult := run_is_run_of_backend (fun image => some image) teamRun rfl
  exact ⟨_, rfl, rfl, hresult.right.left, hresult.right.right (by decide)⟩

end Clients

end ChatApplication
