import ChatApplication.Clients.Delivery
import ChatApplication.Clients.Requests
import ChatApplication.Controller.Attribution

/-!
This module contains who is shown what: the conversations that the open chats and the posted messages
belong to, the users who are party to them, and who is named as the sender.
-/

namespace ChatApplication

namespace Clients

variable {Image : Type u} {Data : Type v} {pngData : Image → Option Data}
  {Opens : AuthUid → Source → Prop}

def Registered (s : Clients Data) : Peer → Prop
  | .person uid => uid ∈ s.accounts
  | .group id => id ∈ s.groups

-- what `uid` writes to the user that is known as `known` belongs to the conversation
def Talks (s : Clients Data) (uid : AuthUid) (known : DocumentID × Bool)
    (conversation : Sym2 AuthUid ⊕ GroupID) : Prop :=
  ∃ peer, s.Registered peer ∧ peer.identity = known ∧ peer.conversation uid = conversation

def Party (s : Clients Data) (uid : AuthUid) : Sym2 AuthUid ⊕ GroupID → Prop
  | .inl pair => uid ∈ pair
  | .inr id => ∃ group ∈ s.server.groups, group.uid = id.value ∧ uid.value ∈ group.members

section Conversations

variable {s : Clients Data}

theorem SourcesInv.exists_group (hs : s.SourcesInv Opens) {id : GroupID} (hid : id ∈ s.groups)
    : ∃ group ∈ s.server.groups, group.uid = id.value := by
  have hmem : (id.value, id.creator.value) ∈ s.server.creators := by
    rw [hs.creators]
    exact List.mem_map_of_mem hid
  rw [Backend.creators, List.mem_map] at hmem
  rcases hmem with ⟨group, hgroup, heq⟩
  rw [Prod.mk.injEq] at heq
  exact ⟨group, hgroup, heq.left⟩

theorem SourcesInv.exists_peer_of_known (hs : s.SourcesInv Opens) {known : DocumentID × Bool}
    (hknown : s.server.Known known.1 known.2) : ∃ peer, s.Registered peer ∧ peer.identity = known := by
  rcases known with ⟨uid, isGroup⟩
  cases isGroup with
  | false =>
    change uid ∈ s.server.accounts at hknown
    rw [hs.accounts, List.mem_map] at hknown
    rcases hknown with ⟨uid', huid', hvalue⟩
    refine ⟨.person uid', huid', ?_⟩
    rw [Peer.identity, hvalue]
  | true =>
    rcases hknown with ⟨group, hgroup, hgroupUid⟩
    rcases hs.exists_id hgroup with ⟨id, hid, hvalue, _⟩
    refine ⟨.group id, hid, ?_⟩
    rw [Peer.identity, hvalue, hgroupUid]

-- Every object stands for an account or a group that was created.
theorem SourcesInv.exists_peer (hs : s.SourcesInv Opens) (hpersons : s.server.PersonsInv)
    {object : Nat} {known : DocumentID × Bool} (h : s.server.identity object = some known)
    : ∃ peer, s.Registered peer ∧ peer.identity = known := by
  exact hs.exists_peer_of_known (hpersons.objects object known.1 known.2 h)

theorem SourcesInv.exists_talks (hs : s.SourcesInv Opens) (hpersons : s.server.PersonsInv)
    {object : Nat} {known : DocumentID × Bool} (h : s.server.identity object = some known)
    (uid : AuthUid) : ∃ conversation, s.Talks uid known conversation := by
  rcases hs.exists_peer hpersons h with ⟨peer, hregistered, hidentity⟩
  exact ⟨peer.conversation uid, peer, hregistered, hidentity, rfl⟩

-- Message ids are equal for the same conversation only.
theorem SourcesInv.messageId_eq_iff (hs : s.SourcesInv Opens) {uid uid' : AuthUid}
    {user user' : User} {conversation conversation' : Sym2 AuthUid ⊕ GroupID}
    (h : s.Talks uid (user.uid, user.isGroup) conversation)
    (h' : s.Talks uid' (user'.uid, user'.isGroup) conversation')
    : messageId (some uid.value) user = messageId (some uid'.value) user'
        ↔
      conversation = conversation' := by
  rcases h with ⟨peer, hregistered, hidentity, hconversation⟩
  rcases h' with ⟨peer', hregistered', hidentity', hconversation'⟩
  rw [← String.toList_inj, Peer.toList_messageId uid (Peer.isUser_iff.mpr hidentity.symm),
    Peer.toList_messageId uid' (Peer.isUser_iff.mpr hidentity'.symm), ← hconversation,
    ← hconversation']
  apply Peer.key_eq_key_iff
  intro id id' hid hid' huuid
  rw [hid] at hregistered
  rw [hid'] at hregistered'
  exact List.inj_on_of_nodup_map hs.uuids hregistered hregistered' huuid

end Conversations

theorem sources_of_run {s : Clients Data} {es : List (Event Image)}
    (hrun : (clients pngData).exec init es = some s)
    : s.SourcesInv Source.Opens ∧ s.server.PersonsInv := by
  have hall : (clients pngData).Meets (fun _ _ _ => True) init es := by
    exact Machine.meets_of_forall_mem _ (fun _ _ => trivial)
  exact (refines_backend.run sourcesInv_init Backend.personsInv_init hrun hall).right.right

theorem server_of_run {s : Clients Data} {es : List (Event Image)}
    (hrun : (clients pngData).exec init es = some s)
    : backend.exec Backend.init ((clients pngData).trace (serverEvents pngData) init es)
        =
      some s.server := by
  have hall : (clients pngData).Meets (fun _ _ _ => True) init es := by
    exact Machine.meets_of_forall_mem _ (fun _ _ => trivial)
  exact (refines_backend.run sourcesInv_init Backend.personsInv_init hrun hall).left

theorem membership_of_run {s : Clients Data} {es : List (Event Image)}
    (hrun : (clients pngData).exec init es = some s) (hown : (clients pngData).Meets OwnRows init es)
    : s.SourcesInv Source.Own ∧ s.server.MembershipInv := by
  have hcomplete : Backend.init.Complete := by
    intro group hgroup
    contradiction
  rcases refines_backend_of_ownRows.run ⟨sourcesInv_init, Backend.personsInv_init⟩
    ⟨Backend.membershipInv_init, hcomplete⟩ hrun hown with ⟨_, _, hsources, hmembership⟩
  exact ⟨hsources.left, hmembership.left⟩

-- A posted message and a chat have one message id if they have one conversation.
theorem SourcesInv.msgId_eq_iff {s : Clients Data} (hs : s.SourcesInv Opens) {posted : Posted}
    (hposted : posted ∈ s.posted) {c : OpenChat} (hc : c ∈ s.chats) {known : DocumentID × Bool}
    (hknown : s.server.identity c.user = some known)
    {conversation conversation' : Sym2 AuthUid ⊕ GroupID}
    (hconversation : s.Talks posted.uid (posted.message.toId, posted.message.isGroupMessage)
      conversation)
    (hconversation' : s.Talks c.uid known conversation')
    : posted.message.msgId = c.messageId ↔ conversation = conversation' := by
  rcases hs.posted posted hposted with ⟨currentUser, otherUser, hsends⟩
  rcases hsends.addressed.otherUser with ⟨user, _, htoId, hisGroup, hmsgId⟩
  rcases (hs.chats c hc).messageId with ⟨user', hidentity', hmessageId⟩
  rw [hidentity'] at hknown
  injection hknown with hknown
  rw [htoId, hisGroup] at hconversation
  rw [← hknown] at hconversation'
  rw [hmsgId, hmessageId]
  exact hs.messageId_eq_iff hconversation hconversation'

/-- An open chat shows messages of its own conversation only, whoever opened it from wherever. -/
theorem shows_own_conversation (pngData : Image → Option Data) (es : List (Event Image))
    {s : Clients Data} (hrun : (clients pngData).exec init es = some s) {c : OpenChat}
    (hc : c ∈ s.chats)
    : ∃ known conversation, s.server.identity c.user = some known
        ∧ s.Talks c.uid known conversation
        ∧ ∀ shown ∈ c.listener.chat, ∃ sender ∈ s.accounts, shown.message.fromId = sender.value
            ∧ s.Talks sender (shown.message.toId, shown.message.isGroupMessage) conversation := by
  rcases sources_of_run hrun with ⟨hs, hpersons⟩
  rcases inv_of_run hrun with ⟨hlog, hpublished⟩
  rcases (hs.chats c hc).messageId with ⟨user, hidentity, _⟩
  rcases hs.exists_talks hpersons hidentity c.uid with ⟨conversation, hconversation⟩
  refine ⟨_, conversation, hidentity, hconversation, ?_⟩
  intro shown hshown
  rcases hlog.exists_posted_of_shown hpublished hc hshown
    with ⟨posted, hposted, hmsgId, _, hmessage⟩
  rcases hs.posted posted hposted with ⟨currentUser, otherUser, hsends⟩
  rcases hsends.addressed.otherUser with ⟨user', hidentity', htoId, hisGroup, _⟩
  rcases hs.exists_talks hpersons hidentity' posted.uid with ⟨conversation', hconversation'⟩
  rw [← htoId, ← hisGroup] at hconversation'
  have heq := (hs.msgId_eq_iff hposted hc hidentity hconversation' hconversation).mp hmsgId
  rw [hmessage]
  refine ⟨posted.uid, (hs.currentUser hsends.currentUser).left, hsends.addressed.fromId, ?_⟩
  rw [← heq]
  exact hconversation'

theorem shows_own_conversation_teamRun
    : ∃ s c, (clients (fun image => some image)).exec init teamRun = some s ∧ c ∈ s.chats
        ∧ c.listener.chat.map ChatMessage.message = [hello, hi]
        ∧ ∃ known conversation, s.server.identity c.user = some known
            ∧ s.Talks c.uid known conversation
            ∧ ∀ shown ∈ c.listener.chat, ∃ sender ∈ s.accounts,
                shown.message.fromId = sender.value
                  ∧ s.Talks sender (shown.message.toId, shown.message.isGroupMessage)
                      conversation := by
  refine ⟨_, _, rfl, List.mem_cons_of_mem _ List.mem_cons_self, rfl, ?_⟩
  exact shows_own_conversation (fun image => some image) teamRun rfl
    (List.mem_cons_of_mem _ List.mem_cons_self)

-- Who has a conversation on a screen of their own is a party to it.
theorem SourcesInv.party {s : Clients Data} (hs : s.SourcesInv Source.Own)
    (hmembership : s.server.MembershipInv) {uid : AuthUid} {object : Nat}
    (hoffered : s.Offered Source.Own uid object) {known : DocumentID × Bool}
    (hknown : s.server.identity object = some known) {conversation : Sym2 AuthUid ⊕ GroupID}
    (hconversation : s.Talks uid known conversation) : s.Party uid conversation := by
  rcases hconversation with ⟨peer, hregistered, hidentity, hconversation⟩
  rw [← hconversation]
  cases peer with
  | person uid' => exact Sym2.mem_mk_left uid uid'
  | group id =>
    rcases hs.exists_group hregistered with ⟨group, hgroup, hgroupUid⟩
    refine ⟨group, hgroup, hgroupUid, ?_⟩
    rw [← hidentity, Peer.identity, ← hgroupUid] at hknown
    cases hs.creator_or_recent hoffered hgroup hknown with
    | inl hcreator => simp [Group.members, hcreator]
    | inr hrecent =>
      have htouches := Backend.touches_of_recent hrecent
      exact (hmembership.allowed _ _ htouches group hgroup).right rfl

/-- A message reaches the chats of its conversation, and no others. -/
theorem reaches_conversation_at_rest (pngData : Image → Option Data) (es : List (Event Image))
    {s : Clients Data} (hrun : (clients pngData).exec init es = some s) {chat : Nat}
    (hinOrder : (clients pngData).Meets (fun s e _ => s.RepliesInOrder chat e) init es)
    {c : OpenChat} (hc : s.chats[chat]? = some c) (hrest : s.AtRest c) {posted : Posted}
    (hposted : posted ∈ s.posted) {known : DocumentID × Bool}
    (hknown : s.server.identity c.user = some known)
    {conversation conversation' : Sym2 AuthUid ⊕ GroupID}
    (hconversation : s.Talks posted.uid (posted.message.toId, posted.message.isGroupMessage)
      conversation)
    (hconversation' : s.Talks c.uid known conversation')
    : posted.message ∈ c.listener.chat.map ChatMessage.message
        ↔
      conversation = conversation' := by
  rcases sources_of_run hrun with ⟨hs, _⟩
  rcases inv_of_run hrun with ⟨hlog, hpublished⟩
  have hperm := hlog.perm_posted hpublished (List.mem_of_getElem? hc)
    (generations_of_run hrun hinOrder hc) hrest
  rw [hperm.mem_iff, List.mem_filter, decide_eq_true_iff, hs.msgId_eq_iff hposted
    (List.mem_of_getElem? hc) hknown hconversation hconversation']
  constructor
  . intro h
    exact h.right
  . intro h
    exact ⟨List.mem_map_of_mem hposted, h⟩

theorem reaches_conversation_at_rest_teamRun
    : ∃ s c posted, (clients (fun image => some image)).exec init teamRun = some s
        ∧ s.chats[1]? = some c ∧ posted ∈ s.posted ∧ posted.message = hello
        ∧ (posted.message ∈ c.listener.chat.map ChatMessage.message
            ↔
          (Sum.inr team : Sym2 AuthUid ⊕ GroupID) = Sum.inr team) := by
  have hinOrder := repliesInOrder_teamRun 1 (by decide)
  refine ⟨_, _, _, rfl, rfl, List.mem_cons_self, rfl, ?_⟩
  refine reaches_conversation_at_rest (fun image => some image) teamRun rfl hinOrder rfl
    ⟨rfl, by decide, rfl⟩ List.mem_cons_self rfl ?_ ?_
  . exact ⟨.group team, List.mem_cons_self, rfl, rfl⟩
  . exact ⟨.group team, List.mem_cons_self, rfl, rfl⟩

/-- Once at rest, all chats of a conversation show the same messages. -/
theorem chats_agree_at_rest (pngData : Image → Option Data) (es : List (Event Image))
    {s : Clients Data} (hrun : (clients pngData).exec init es = some s) {chat chat' : Nat}
    (hinOrder : (clients pngData).Meets (fun s e _ => s.RepliesInOrder chat e) init es)
    (hinOrder' : (clients pngData).Meets (fun s e _ => s.RepliesInOrder chat' e) init es)
    {c c' : OpenChat} (hc : s.chats[chat]? = some c) (hc' : s.chats[chat']? = some c')
    (hrest : s.AtRest c) (hrest' : s.AtRest c') {known known' : DocumentID × Bool}
    (hknown : s.server.identity c.user = some known)
    (hknown' : s.server.identity c'.user = some known')
    {conversation : Sym2 AuthUid ⊕ GroupID} (hconversation : s.Talks c.uid known conversation)
    (hconversation' : s.Talks c'.uid known' conversation)
    : (c.listener.chat.map ChatMessage.message).Perm (c'.listener.chat.map ChatMessage.message) := by
  rcases sources_of_run hrun with ⟨hs, _⟩
  rcases inv_of_run hrun with ⟨hlog, hpublished⟩
  have hmem := List.mem_of_getElem? hc
  have hmem' := List.mem_of_getElem? hc'
  have hperm := hlog.perm_posted hpublished hmem (generations_of_run hrun hinOrder hc) hrest
  have hperm' := hlog.perm_posted hpublished hmem' (generations_of_run hrun hinOrder' hc') hrest'
  have hmessageId : c.messageId = c'.messageId := by
    rcases (hs.chats c hmem).messageId with ⟨user, hidentity, hmessageId⟩
    rcases (hs.chats c' hmem').messageId with ⟨user', hidentity', hmessageId'⟩
    rw [hidentity] at hknown
    rw [hidentity'] at hknown'
    injection hknown with hknown
    injection hknown' with hknown'
    rw [← hknown] at hconversation
    rw [← hknown'] at hconversation'
    rw [hmessageId, hmessageId', hs.messageId_eq_iff hconversation hconversation']
  rw [hmessageId] at hperm
  exact hperm.trans hperm'.symm

theorem chats_agree_at_rest_teamRun
    : ∃ s c c', (clients (fun image => some image)).exec init teamRun = some s
        ∧ s.chats = [c, c'] ∧ c.uid = ann ∧ c'.uid = bob
        ∧ c.listener.chat.map ChatMessage.message = [hello, hi]
        ∧ (c.listener.chat.map ChatMessage.message).Perm
            (c'.listener.chat.map ChatMessage.message) := by
  have hinOrder := repliesInOrder_teamRun 0 (by decide)
  have hinOrder' := repliesInOrder_teamRun 1 (by decide)
  have hteam : team ∈ [team] := by simp
  refine ⟨_, _, _, rfl, rfl, rfl, rfl, rfl, ?_⟩
  exact chats_agree_at_rest (fun image => some image) teamRun rfl hinOrder hinOrder' rfl rfl
    ⟨rfl, by decide, rfl⟩ ⟨rfl, by decide, rfl⟩ rfl rfl ⟨.group team, hteam, rfl, rfl⟩
    ⟨.group team, hteam, rfl, rfl⟩

-- What the store reports to a listener is as the listener takes it to be.
theorem PostedInv.reported {s : Clients Data} (hs : s.PostedInv) (hpublished : s.published.Inv)
    (hpersons : s.server.PersonsInv) {c : OpenChat} (hc : c ∈ s.chats) {e : ChatListener.Event}
    (hdelivers : s.Delivers c e) : c.listener.Reported e := by
  cases e with
  | snapshot changes now =>
    have hadded : ∀ change ∈ changes, change.type = .added := by
      intro change hchange
      exact hs.added hpublished hc (hdelivers.right change hchange)
    have hfilter : changes.filter (fun change => change.type = .added) = changes := by
      rw [List.filter_eq_self]
      intro change hchange
      exact decide_eq_true (hadded change hchange)
    rw [ChatListener.Reported, (hs.listeners c hc).documents, ChatListener.addedDocuments, hfilter,
      List.map_append, List.map_map, List.nodup_append]
    refine ⟨hs.nodup_documents hpublished hc, hdelivers.left, ?_⟩
    intro old hold new hnew heq
    rw [List.mem_map] at hold hnew
    rcases hold with ⟨document, hdocument, hid⟩
    rcases hnew with ⟨change, hchange, hid'⟩
    have hreports := hdelivers.right change hchange
    rw [Reports, hadded change hchange] at hreports
    apply hreports.right document hdocument
    rw [hid, heq]
    exact hid'.symm
  | userFetched i data now =>
    rcases hdelivers with ⟨request, hrequest, hdata⟩
    have hfitting := hpersons.touched _ data (Or.inl hdata)
    rcases hfitting.user (by simp [DatabaseManager.userPath]) with ⟨user, _, huid, huser⟩
    intro request' hrequest'
    rw [Option.mem_def] at hrequest hrequest'
    rw [hrequest] at hrequest'
    injection hrequest' with hrequest'
    rw [huser, ← hrequest']
    exact congrArg some huid
  | fetchFailed i => trivial

theorem attributed_step {s s' : Clients Data} {e : Event Image}
    (hs : ∀ c ∈ s.chats, c.listener.Attributed c.messageId) (hlog : s.PostedInv)
    (hpublished : s.published.Inv) (hpersons : s.server.PersonsInv)
    (hstep : (clients pngData).step s e = some s')
    : ∀ c ∈ s'.chats, c.listener.Attributed c.messageId := by
  intro c' hc'
  rw [List.mem_iff_getElem?] at hc'
  rcases hc' with ⟨chat, hc'⟩
  rcases chat_step hstep hc' with hstarts | ⟨c, hc, hsame | hfetched | hlistener⟩
  . rcases hstarts with ⟨uid, user, source, otherUser, _, _, _, _, heq⟩
    rw [heq]
    apply ChatListener.attributed_init
  . rw [hsame]
    exact hs c (List.mem_of_getElem? hc)
  . rcases hfetched with ⟨currentUser, _, heq⟩
    rw [heq]
    exact hs c (List.mem_of_getElem? hc)
  . rcases hlistener with ⟨e', listener, _, hdelivers, hlistener, heq⟩
    have hmem := List.mem_of_getElem? hc
    have hreported := hlog.reported hpublished hpersons hmem hdelivers
    rw [heq]
    exact (hs c hmem).step hlistener hreported

theorem attributed_of_run {s : Clients Data} {es : List (Event Image)}
    (hrun : (clients pngData).exec init es = some s) {c : OpenChat} (hc : c ∈ s.chats)
    : c.listener.Attributed c.messageId := by
  have hpreserves : (clients pngData).Preserves (fun s => (s.PostedInv ∧ s.published.Inv)
      ∧ (s.SourcesInv Source.Opens ∧ s.server.PersonsInv)
      ∧ ∀ c ∈ s.chats, c.listener.Attributed c.messageId) := by
    rintro s e s' ⟨⟨hlog, hpublished⟩, ⟨hs, hpersons⟩, hchats⟩ hstep
    refine ⟨⟨postedInv_step hlog hpublished hstep,
        refines_pubSub.step_inv' hlog hpublished hstep trivial⟩,
      ⟨refines_backend.inv hs hpersons hstep trivial,
        refines_backend.step_inv' hs hpersons hstep trivial⟩, ?_⟩
    exact attributed_step hchats hlog hpublished hpersons hstep
  have hinit : ∀ c ∈ (init : Clients Data).chats, c.listener.Attributed c.messageId := by
    intro c hc
    contradiction
  exact (Machine.exec_preserves hpreserves ⟨⟨postedInv_init, PubSub.inv_init⟩,
    ⟨sourcesInv_init, Backend.personsInv_init⟩, hinit⟩ hrun).right.right c hc

/-- Who is named beside a message is the one who posted it. -/
theorem shows_senders (pngData : Image → Option Data) (es : List (Event Image)) {s : Clients Data}
    (hrun : (clients pngData).exec init es = some s) {c : OpenChat} (hc : c ∈ s.chats)
    {shown : ChatMessage} (hshown : shown ∈ c.listener.chat) {user : User}
    (hsender : shown.sender = some user)
    : ∃ posted ∈ s.posted, shown.message = posted.message ∧ user.uid = posted.uid.value := by
  rcases sources_of_run hrun with ⟨hs, _⟩
  rcases inv_of_run hrun with ⟨hlog, hpublished⟩
  rcases hlog.exists_posted_of_shown hpublished hc hshown with ⟨posted, hposted, _, _, hmessage⟩
  rcases hs.posted posted hposted with ⟨currentUser, otherUser, hsends⟩
  have hobject := (hlog.listeners c hc).isPrefix_chat.subset hshown
  have huid := ((attributed_of_run hrun hc).objects shown hobject).right user hsender
  refine ⟨posted, hposted, hmessage, ?_⟩
  rw [huid, hmessage]
  exact hsends.addressed.fromId

theorem shows_senders_teamRun
    : ∃ s c shown user, (clients (fun image => some image)).exec init teamRun = some s ∧ c ∈ s.chats
        ∧ shown ∈ c.listener.chat ∧ shown.sender = some user ∧ user.firstName = "Ann"
        ∧ ∃ posted ∈ s.posted, shown.message = posted.message ∧ user.uid = posted.uid.value := by
  refine ⟨_, _, _, _, rfl, List.mem_cons_of_mem _ List.mem_cons_self, List.mem_cons_self, rfl, rfl,
    ?_⟩
  exact shows_senders (fun image => some image) teamRun rfl
    (List.mem_cons_of_mem _ List.mem_cons_self) List.mem_cons_self rfl

end Clients

end ChatApplication
