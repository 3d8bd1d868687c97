import ChatApplication.API.Activity.Basic

/-!
This module contains the invariant of a run in which messages are sent to one group, and why such a
step makes no timestamp of the group decrease.
-/

namespace ChatApplication

namespace Backend

def InTime (clock latest : Date) (user : User) : Prop :=
  clock ≤ user.timestamp ∧ user.timestamp ≤ latest

-- The client stamps the object of the group before it asks for the members.
def Stamped (group : Group) (clock latest : Date) (s : Backend) (otherUser : Nat) : Prop :=
  ∃ user, s.objects[otherUser]? = some user ∧ user.uid = group.uid ∧ InTime clock latest user

-- The write brings a timestamp between the two times, or one that was stored since the start.
structure Timely (group : Group) (start : Nat) (clock latest : Date)
    (log : List (LogEntry Path (WithBot Timestamp))) (write : Write) : Prop where
  writesBack : WriteLog.WritesBack start log write.entry
  fresh : write.path ∈ group.activity → write.origin = .fresh → clock ≤ write.data.stamp
  bounded : write.path ∈ group.activity → write.data.stamp ≤ latest

-- The documents that come back are those of all members.
def AsksFor (group : Group) (start : Nat) (clock latest : Date) (s : Backend) : Awaiting → Prop
  | .request (.groupMembers otherUser) => Stamped group clock latest s otherUser
  | .reply (.groupMembers otherUser seen documents) =>
    Stamped group clock latest s otherUser
      ∧ (∀ uid ∈ group.members, ∃ user : User, user.uid = uid ∧ ⟨uid, user.dictionary⟩ ∈ documents)
      ∧ ∀ document ∈ documents, ∃ user : User, document.data = user.dictionary
          ∧ Timely group start clock latest s.log
              ⟨DatabaseManager.recentUserPath group.uid user.uid, user.dictionary, .copy seen⟩
  | .request (.creator _ _ _) | .reply (.creator _ _ _) => False

-- The first `start` writes were performed before the sends to the group.
structure Sending (group : Group) (start : Nat) (clock latest : Date) (s : Backend) : Prop where
  membership : s.MembershipInv
  created : group ∈ s.groups
  members : ∀ uid ∈ group.members, s.Recent group.uid uid
  recorded : s.Recorded
  wellFormed : WriteLog.WellFormed start s.log
  before : ∀ path ∈ group.activity, WriteLog.content path (s.log.take start) ≤ clock
  stored : ∀ path ∈ group.activity, WriteLog.content path s.log ≤ latest
  timely : ∀ write ∈ s.pending, Timely group start clock latest s.log write
  awaiting : ∀ operation ∈ s.operations, ∀ awaiting, operation.awaiting = some awaiting →
    AsksFor group start clock latest s awaiting

variable {group : Group} {start : Nat} {clock latest : Date}

theorem timely_fresh {log : List (LogEntry Path (WithBot Timestamp))} {path : Path}
    {data : Dictionary}
    (h : path ∈ group.activity → clock ≤ data.stamp ∧ data.stamp ≤ latest)
    : Timely group start clock latest log ⟨path, data, .fresh⟩ := by
  constructor
  . intro n hn
    contradiction
  . intro hpath _
    exact (h hpath).left
  . intro hpath
    exact (h hpath).right

theorem Timely.append {log : List (LogEntry Path (WithBot Timestamp))} {write : Write}
    (h : Timely group start clock latest log write) (entry : LogEntry Path (WithBot Timestamp))
    : Timely group start clock latest (log ++ [entry]) write := by
  exact ⟨h.writesBack.append entry, h.fresh, h.bounded⟩

theorem AsksFor.imp {s s' : Backend} {awaiting : Awaiting}
    (h : AsksFor group start clock latest s awaiting)
    (hstamped : ∀ otherUser, Stamped group clock latest s otherUser →
      Stamped group clock latest s' otherUser)
    (htimely : ∀ write, Timely group start clock latest s.log write →
      Timely group start clock latest s'.log write)
    : AsksFor group start clock latest s' awaiting := by
  match awaiting with
  | .request (.groupMembers otherUser) => exact hstamped otherUser h
  | .reply (.groupMembers otherUser seen documents) =>
    rcases h with ⟨hobject, hmembers, hdocuments⟩
    refine ⟨hstamped otherUser hobject, hmembers, ?_⟩
    intro document hdocument
    rcases hdocuments document hdocument with ⟨user, hdata, hcopy⟩
    exact ⟨user, hdata, htimely _ hcopy⟩

theorem Sending.of_pending {s s' : Backend} (hs : Sending group start clock latest s)
    {writes : List Write} (hwrites : ∀ write ∈ writes, Timely group start clock latest s.log write)
    (hmembership : s'.MembershipInv) (hdb : s'.db = s.db) (hhistory : s'.history = s.history)
    (hgroups : s'.groups = s.groups)
    (hpending : ∀ write, write ∈ s'.pending ↔ write ∈ s.pending ∨ write ∈ writes)
    (hstamped : ∀ otherUser, Stamped group clock latest s otherUser →
      Stamped group clock latest s' otherUser)
    (hoperations : ∀ operation ∈ s'.operations, operation ∈ s.operations
      ∨ ∀ awaiting, operation.awaiting = some awaiting →
          AsksFor group start clock latest s' awaiting)
    : Sending group start clock latest s' := by
  have hlog : s'.log = s.log := by
    unfold log
    rw [hhistory]
  constructor
  case membership => exact hmembership
  case created =>
    rw [hgroups]
    exact hs.created
  case members =>
    unfold Recent
    rw [hdb]
    exact hs.members
  case recorded => exact hs.recorded.of_eq hdb hhistory
  case wellFormed =>
    rw [hlog]
    exact hs.wellFormed
  case before =>
    rw [hlog]
    exact hs.before
  case stored =>
    rw [hlog]
    exact hs.stored
  case timely =>
    intro write hwrite
    rw [hlog]
    rw [hpending] at hwrite
    cases hwrite with
    | inl hold => exact hs.timely write hold
    | inr hnew => exact hwrites write hnew
  case awaiting =>
    intro operation hoperation awaiting hawaiting
    cases hoperations operation hoperation with
    | inl hold =>
      apply (hs.awaiting operation hold awaiting hawaiting).imp hstamped
      intro write hwrite
      rw [hlog]
      exact hwrite
    | inr hnew => exact hnew awaiting hawaiting

theorem timestamp_eq_of_getElem?_setTimestamp {objects : List User} {object : Nat}
    {timestamp : Timestamp} {user : User}
    (h : (setTimestamp objects object timestamp)[object]? = some user)
    : user.timestamp = timestamp := by
  rw [getElem?_setTimestamp, Option.map_eq_some_iff] at h
  rcases h with ⟨old, _, h⟩
  rw [if_pos rfl] at h
  rw [← h]

theorem Stamped.setTimestamp {s : Backend} {otherUser : Nat}
    (h : Stamped group clock latest s otherUser) (object : Nat) {date : Date}
    (hdate : clock ≤ date ∧ date ≤ latest)
    : Stamped group clock latest { s with objects := Backend.setTimestamp s.objects object date }
        otherUser := by
  rcases h with ⟨user, huser, huid, htime⟩
  unfold Stamped
  dsimp
  rw [getElem?_setTimestamp, huser, Option.map_some]
  refine ⟨_, rfl, ?_⟩
  split
  . exact ⟨huid, hdate⟩
  . exact ⟨huid, htime⟩

theorem timely_of_inTime {log : List (LogEntry Path (WithBot Timestamp))} {path : Path}
    {user : User} (h : InTime clock latest user)
    : Timely group start clock latest log ⟨path, user.dictionary, .fresh⟩ := by
  apply timely_fresh
  intro _
  rw [User.stamp_dictionary]
  exact ⟨WithBot.coe_le_coe.mpr h.left, WithBot.coe_le_coe.mpr h.right⟩

theorem timely_of_mem_addMessage {log : List (LogEntry Path (WithBot Timestamp))}
    {documentID : DocumentID} {message : Message} {user user' : User}
    (huser : InTime clock latest user) (huser' : InTime clock latest user') {write : Write}
    (hwrite : write ∈ DatabaseManager.addMessage documentID message user user')
    : Timely group start clock latest log write := by
  simp only [DatabaseManager.addMessage, List.mem_cons, List.not_mem_nil, or_false] at hwrite
  rcases hwrite with hwrite | hwrite | hwrite
  . rw [hwrite]
    apply timely_fresh
    intro hpath
    rw [mem_activity] at hpath
    rcases hpath with ⟨uid, _, hpath | hpath⟩
    . injection hpath
      contradiction
    . injection hpath
      contradiction
  . rw [hwrite]
    exact timely_of_inTime huser'
  . rw [hwrite]
    exact timely_of_inTime huser

theorem Sending.addMessage {s s' : Backend} (hs : Sending group start clock latest s)
    {message : Message} {currentUser otherUser : Nat} {date date' : Date} {documentID : DocumentID}
    (hstep : backend.step s (.addMessage message currentUser otherUser date date' documentID)
      = some s')
    (hmembership : s'.MembershipInv) (hsends : s.identity otherUser = some (group.uid, true))
    (hdate : clock ≤ date ∧ date ≤ latest) (hdate' : clock ≤ date' ∧ date' ≤ latest)
    : Sending group start clock latest s' := by
  rcases step_addMessage hstep with ⟨objects, user, user', hobjects, huser, huser', hs'⟩
  have hstamped' : InTime clock latest user' := by
    rw [hobjects] at huser'
    unfold InTime
    rw [timestamp_eq_of_getElem?_setTimestamp huser']
    exact hdate'
  have hstamped : InTime clock latest user := by
    rw [hobjects, getElem?_setTimestamp, Option.map_eq_some_iff] at huser
    rcases huser with ⟨old, hold, huser⟩
    have htimestamp := timestamp_eq_of_getElem?_setTimestamp hold
    rw [← huser]
    split
    . exact hdate'
    . unfold InTime
      rw [htimestamp]
      exact hdate
  have huid : user'.uid = group.uid := by
    have hidentity := identity_of_getElem? (s := { s with objects := objects }) huser'
    rw [hobjects, identity_setTimestamp_setTimestamp, hsends, Option.some.injEq,
      Prod.mk.injEq] at hidentity
    exact hidentity.left.symm
  have hobjectsStamped : ∀ object, Stamped group clock latest s object →
      Stamped group clock latest { s with objects := objects } object := by
    intro object h
    rw [hobjects]
    exact (h.setTimestamp currentUser hdate).setTimestamp otherUser hdate'
  rw [hs'] at hmembership ⊢
  apply hs.of_pending _ hmembership rfl rfl rfl (fun _ => mem_pending_start) hobjectsStamped
  . intro operation hoperation
    rw [Backend.start, List.mem_append, List.mem_singleton] at hoperation
    cases hoperation with
    | inl hold => exact Or.inl hold
    | inr hnew =>
      right
      intro awaiting hawaiting
      rw [hnew] at hawaiting
      dsimp at hawaiting
      split at hawaiting
      . injection hawaiting with hawaiting
        rw [← hawaiting]
        exact ⟨user', huser', huid, hstamped'⟩
      . contradiction
  . intro write hwrite
    exact timely_of_mem_addMessage hstamped hstamped' hwrite

theorem Sending.load {s s' : Backend} (hs : Sending group start clock latest s) {path : Path}
    {now : Date} (hstep : backend.step s (.load path now) = some s')
    (hmembership : s'.MembershipInv) : Sending group start clock latest s' := by
  rcases step_load hstep with ⟨_, data, user, _, _, hs'⟩
  have hnone : ∀ write ∈ ([] : List Write), Timely group start clock latest s.log write := by
    intro write hwrite
    contradiction
  rw [hs'] at hmembership ⊢
  apply hs.of_pending hnone hmembership rfl rfl rfl
  . intro write
    simp [pending]
  . rintro object ⟨old, hold, hrest⟩
    refine ⟨old, ?_, hrest⟩
    have hlt := (List.getElem?_eq_some_iff.mp hold).choose
    dsimp
    rw [List.getElem?_append_left hlt, hold]
  . intro operation hoperation
    exact Or.inl hoperation

theorem Sending.performWrite {s : Backend} (hs : Sending group start clock latest s) {i : Nat}
    {write : Write} {issued : List Write} {awaiting : Option Awaiting}
    (hoperation : s.operations[i]? = some ⟨write :: issued, awaiting⟩)
    : Sending group start clock latest (s.performWrite i write issued awaiting) := by
  have hwrite : write ∈ s.pending := by
    rw [mem_pending_performWrite hoperation]
    exact Or.inl rfl
  have hpending : ∀ w ∈ (s.performWrite i write issued awaiting).pending, w ∈ s.pending := by
    intro w hw
    rw [mem_pending_performWrite hoperation]
    exact Or.inr hw
  have htimely := hs.timely write hwrite
  constructor
  case membership => exact hs.membership.performWrite hoperation
  case created => exact hs.created
  case members =>
    intro uid huid
    have hrecent := hs.members uid huid
    unfold Recent Backend.performWrite at *
    rw [Firestore.getDocument_setData]
    split
    . rfl
    . exact hrecent
  case recorded => exact hs.recorded.performWrite i write issued awaiting
  case wellFormed =>
    rw [log_performWrite]
    exact hs.wellFormed.append htimely.writesBack
  case before =>
    intro path hpath
    rw [log_performWrite, List.take_append_of_le_length hs.wellFormed.start_le]
    exact hs.before path hpath
  case stored =>
    intro path hpath
    rw [log_performWrite, WriteLog.content_append]
    split
    . next hkey =>
      rw [← hkey] at hpath
      exact htimely.bounded hpath
    . exact hs.stored path hpath
  case timely =>
    intro w hw
    rw [log_performWrite]
    exact (hs.timely w (hpending w hw)).append write.entry
  case awaiting =>
    intro operation hmem awaiting' hawaiting
    have hold : AsksFor group start clock latest s awaiting' := by
      cases List.mem_or_eq_of_mem_set hmem with
      | inl hold => exact hs.awaiting operation hold awaiting' hawaiting
      | inr hnew =>
        rw [hnew] at hawaiting
        exact hs.awaiting _ (List.mem_of_getElem? hoperation) awaiting' hawaiting
    apply hold.imp
    . intro otherUser h
      exact h
    . intro w hw
      rw [log_performWrite]
      exact hw.append write.entry

theorem Sending.asksFor_of_fetch {s : Backend} (hs : Sending group start clock latest s)
    {read : Read} {reply : Reply} (hread : AsksFor group start clock latest s (.request read))
    (h : s.fetch read = some reply) : AsksFor group start clock latest s (.reply reply) := by
  cases read with
  | creator uid object selectedUsers => contradiction
  | groupMembers otherUser =>
    rcases fetch_groupMembers h with ⟨user, huser, hreply⟩
    have huid : user.uid = group.uid := by
      rcases hread with ⟨user', huser', huid, _⟩
      rw [huser, Option.some.injEq] at huser'
      rw [huser']
      exact huid
    have hlength : s.history.length = s.log.length := by
      unfold log
      rw [List.length_map]
    rw [hreply, huid]
    refine ⟨hread, ?_, ?_⟩
    . intro uid hmember
      have hrecent := hs.members uid hmember
      rw [Recent, Option.isSome_iff_exists] at hrecent
      rcases hrecent with ⟨data, hdata⟩
      rcases hs.membership.documents _ data (Or.inl hdata)
        (by simp [DatabaseManager.recentUserPath]) with ⟨member, _, hmemberUid, hdictionary⟩
      rw [hdictionary] at hdata
      exact ⟨member, hmemberUid, DatabaseManager.mem_getGroupMembers_of_getDocument hdata⟩
    . intro document hdocument
      have hdata := DatabaseManager.getDocument_of_mem_getGroupMembers hdocument
      rcases hs.membership.documents _ _ (Or.inl hdata)
        (by simp [DatabaseManager.recentUserPath]) with ⟨member, _, hmemberUid, hdictionary⟩
      have hmemberUid : member.uid = document.documentID := hmemberUid
      refine ⟨member, hdictionary, ?_⟩
      have hcontent : member.dictionary.stamp
          = WriteLog.content (DatabaseManager.recentUserPath group.uid member.uid) s.log := by
        rw [← hs.recorded, timestampAt, hmemberUid, hdata, hdictionary]
      constructor
      . intro n hn
        injection hn with hn
        rw [← hn, hlength, List.take_length]
        exact ⟨hs.wellFormed.start_le, Nat.le_refl _, hcontent⟩
      . intro _ horigin
        contradiction
      . intro hpath
        rw [hcontent]
        exact hs.stored _ hpath

theorem Sending.receive {s : Backend} (hs : Sending group start clock latest s) {i : Nat}
    {read : Read} {reply : Reply} (hoperation : s.operations[i]? = some ⟨[], some (.request read)⟩)
    (hfetch : s.fetch read = some reply) (hmembership : (s.receive i reply).MembershipInv)
    : Sending group start clock latest (s.receive i reply) := by
  have hnone : ∀ write ∈ ([] : List Write), Timely group start clock latest s.log write := by
    intro write hwrite
    contradiction
  have hread := hs.awaiting _ (List.mem_of_getElem? hoperation) _ rfl
  have hreply := hs.asksFor_of_fetch hread hfetch
  apply hs.of_pending hnone hmembership rfl rfl rfl
  . intro write
    rw [mem_pending_receive hoperation]
    simp
  . intro otherUser h
    exact h
  . intro operation hmem
    cases List.mem_or_eq_of_mem_set hmem with
    | inl hold => exact Or.inl hold
    | inr hnew =>
      right
      intro awaiting hawaiting
      rw [hnew] at hawaiting
      injection hawaiting with hawaiting
      rw [← hawaiting]
      exact hreply.imp (fun _ h => h) (fun _ h => h)

theorem timely_of_answer {s : Backend} {now : Date} {reply : Reply} {issued : List Write}
    (hreply : AsksFor group start clock latest s (.reply reply))
    (hanswer : s.answer now reply = some issued) {write : Write} (hwrite : write ∈ issued)
    : Timely group start clock latest s.log write := by
  cases reply with
  | creator object selectedUsers data => contradiction
  | groupMembers otherUser seen documents =>
    rcases hreply with ⟨⟨user, huser, huid, htime⟩, _, hdocuments⟩
    rcases answer_groupMembers hanswer with ⟨user', users, huser', husers, hissued⟩
    rw [huser, Option.some.injEq] at huser'
    rw [hissued, ← huser', DatabaseManager.mem_updateGroupMembers] at hwrite
    rcases hwrite with ⟨member, hmember, hwrite⟩
    rw [DatabaseManager.mem_membershipWrites] at hwrite
    cases hwrite with
    | inl hfresh =>
      rw [hfresh]
      exact timely_of_inTime htime
    | inr hcopy =>
      rw [DatabaseManager.mem_decodeUsers husers] at hmember
      rcases hmember with ⟨document, hdocument, hinit⟩
      rcases hdocuments document hdocument with ⟨stored, hdata, htimely⟩
      rw [hdata, User.init_dictionary] at hinit
      injection hinit with hinit
      rw [hcopy, ← hinit, huid]
      exact htimely

theorem Sending.issue {s : Backend} (hs : Sending group start clock latest s) {i : Nat}
    {now : Date} {reply : Reply} {issued : List Write}
    (hoperation : s.operations[i]? = some ⟨[], some (.reply reply)⟩)
    (hanswer : s.answer now reply = some issued) (hmembership : (s.issue i issued).MembershipInv)
    : Sending group start clock latest (s.issue i issued) := by
  have hreply := hs.awaiting _ (List.mem_of_getElem? hoperation) _ rfl
  apply hs.of_pending _ hmembership rfl rfl rfl (fun _ => mem_pending_issue hoperation)
  . intro otherUser h
    exact h
  . intro operation hmem
    cases List.mem_or_eq_of_mem_set hmem with
    | inl hold => exact Or.inl hold
    | inr hnew =>
      right
      intro awaiting hawaiting
      rw [hnew] at hawaiting
      contradiction
  . intro write hwrite
    exact timely_of_answer hreply hanswer hwrite

-- the steps of the run: admissible ones, sends to the group, at times between the two
structure Sends (group : Group) (clock latest : Date) (s : Backend) (e : Event) (s' : Backend)
    : Prop where
  admissible : Admissible s e s'
  sendsTo : SendsTo group s e
  dates : ∀ date ∈ dates [e], clock ≤ date ∧ date ≤ latest

theorem Sending.step {s s' : Backend} {e : Event} (hs : Sending group start clock latest s)
    (hstep : backend.step s e = some s') (hsends : Sends group clock latest s e s')
    : Sending group start clock latest s' := by
  have hmembership := membershipInv_step hs.membership hstep hsends.admissible
  have hsendsTo := hsends.sendsTo
  cases e with
  | createAccount uid => contradiction
  | signup uid firstName lastName email url date now => contradiction
  | createGroup uid uuid usersId groupName url selectedUsers date now => contradiction
  | load path now => exact hs.load hstep hmembership
  | addMessage message currentUser otherUser date date' documentID =>
    apply hs.addMessage hstep hmembership hsendsTo
    . exact hsends.dates date (by simp [dates])
    . exact hsends.dates date' (by simp [dates])
  | perform i now =>
    rcases step_perform hstep with hwrite | hrequest | hreply
    . rcases hwrite with ⟨write, issued, awaiting, hoperation, hs'⟩
      rw [hs']
      exact hs.performWrite hoperation
    . rcases hrequest with ⟨read, reply, hoperation, hfetch, hs'⟩
      rw [hs'] at hmembership ⊢
      exact hs.receive hoperation hfetch hmembership
    . rcases hreply with ⟨reply, issued, hoperation, hanswer, hs'⟩
      rw [hs'] at hmembership ⊢
      exact hs.issue hoperation hanswer hmembership

-- the timestamps of the group have not decreased since the start
def Kept (group : Group) (start : Nat) (s : Backend) : Prop :=
  ∀ path ∈ group.activity, WriteLog.NonDecreasing start path s.log

theorem Kept.step {s s' : Backend} {e : Event} (hs : Kept group start s) (hrecorded : s.Recorded)
    (hstep : backend.step s e = some s') (h : NeverDecreases group s s') : Kept group start s' := by
  intro path hpath
  have hle := h path hpath
  rw [hrecorded, recorded_step hrecorded hstep] at hle
  rcases step_write hstep with ⟨i, _, write, issued, awaiting, _, _, hs'⟩ | ⟨_, hhistory, _⟩
  . rw [hs', log_performWrite] at hle ⊢
    exact (hs path hpath).append hle
  . unfold log
    rw [hhistory]
    exact hs path hpath

theorem Sending.neverDecreases_iff {s s' : Backend} {e : Event}
    (hs : Sending group start clock latest s) (hkept : Kept group start s)
    (hstep : backend.step s e = some s')
    : NeverDecreases group s s' ↔ NotOvertaken start group s e := by
  rcases step_write hstep
    with ⟨i, now, write, issued, awaiting, he, hoperation, hs'⟩ | ⟨hdb, _, hovertaken⟩
  . have hpending : write ∈ s.pending := by
      rw [mem_pending_performWrite hoperation]
      exact Or.inl rfl
    have hiff : ∀ path ∈ group.activity, write.path = path →
        (s.timestampAt path ≤ s'.timestampAt path
          ↔ WriteLog.NotOvertaken start s.log write.entry) := by
      intro path hpath hwrite
      rw [← hwrite] at hpath ⊢
      have htimely := hs.timely write hpending
      rw [hs.recorded, recorded_step hs.recorded hstep, hs', log_performWrite]
      apply hs.wellFormed.content_le_append_iff htimely.writesBack (hkept _ hpath)
      intro hfresh
      have horigin : write.origin = .fresh := by
        unfold Write.entry at hfresh
        cases horigin : write.origin with
        | fresh => rfl
        | copy seen =>
          rw [horigin] at hfresh
          contradiction
      exact (hs.before _ hpath).trans (htimely.fresh hpath horigin)
    rw [he]
    constructor
    . intro h operation hmem write' hwrite' hpath
      rw [hoperation, Option.mem_some_iff] at hmem
      rw [← hmem, List.head?_cons, Option.mem_some_iff] at hwrite'
      rw [← hwrite'] at hpath ⊢
      exact (hiff write.path hpath rfl).mp (h write.path hpath)
    . intro h path hpath
      by_cases hwrite : write.path = path
      . rw [hiff path hpath hwrite]
        rw [← hwrite] at hpath
        exact h _ hoperation write rfl hpath
      . have hkey : write.entry.key ≠ path := hwrite
        rw [hs', timestampAt_performWrite, if_neg hkey]
  . constructor
    . intro _
      exact hovertaken start group
    . intro _ path _
      unfold timestampAt
      rw [hdb]

end Backend

end ChatApplication
