import ChatApplication.API.Rows
import ChatApplication.Clients.Lists
import ChatApplication.Controller.ConversationViewController

/-!
This module contains the rows that the store has for the conversation list of an account: the recent
users as `getRecentConversations` orders them, with the messages that `fetchRecentMessage` finds.
-/

namespace ChatApplication

theorem Backend.PersonsInv.isGroup_eq {s : Backend} (hs : s.PersonsInv) {uid : DocumentID}
    {isGroup isGroup' : Bool} (h : s.Known uid isGroup) (h' : s.Known uid isGroup')
    : isGroup = isGroup' := by
  have hseparate : s.Known uid true → ¬ s.Known uid false := by
    rintro ⟨group, hgroup, hgroupUid⟩ haccount
    rw [← hgroupUid] at haccount
    exact hs.separate group hgroup haccount
  cases isGroup with
  | false =>
    cases isGroup' with
    | false => rfl
    | true => exact absurd h (hseparate h')
  | true =>
    cases isGroup' with
    | false => exact absurd h' (hseparate h)
    | true => rfl

namespace Clients

variable {Data : Type v} {Opens : AuthUid → Source → Prop}

-- what a document of the query of `getRecentConversations` becomes
def row? (s : Clients Data) (auth : Option DocumentID) (now : Date) (document : DocumentSnapshot)
    : Option RecentUser :=
  match User.init now document.data with
  | some user =>
    (DatabaseManager.fetchRecentMessage s.documents auth now user).map (RecentUser.mk user)
  | none => none

def conversationList (s : Clients Data) (uid : DocumentID) (now : Date) : List (Option RecentUser) :=
  (DatabaseManager.getRecentConversations s.server.db uid).map (s.row? (some uid) now)

-- `message` is one of `messages`, and none of them is newer. Without a message there are none.
def Newest (messages : List Message) : Option Message → Prop
  | none => messages = []
  | some message => message ∈ messages ∧ ∀ other ∈ messages, other.timestamp ≤ message.timestamp

def PostedIn (s : Clients Data) (conversation : Sym2 AuthUid ⊕ GroupID) (posted : Posted) : Prop :=
  s.Talks posted.uid (posted.message.toId, posted.message.isGroupMessage) conversation

def IsNewest (s : Clients Data) (conversation : Sym2 AuthUid ⊕ GroupID) : Option Message → Prop
  | none => ∀ posted ∈ s.posted, ¬ s.PostedIn conversation posted
  | some message => (∃ posted ∈ s.posted, s.PostedIn conversation posted ∧ posted.message = message)
      ∧ ∀ posted ∈ s.posted, s.PostedIn conversation posted →
          posted.message.timestamp ≤ message.timestamp

-- a row for everybody whom the account is in contact with
structure ListsContacts (s : Clients Data) (uid : AuthUid) (rows : List RecentUser) : Prop where
  nodup : (rows.map (fun row => row.user.uid)).Nodup
  ordered : rows.Pairwise (fun row row' => row'.user.timestamp ≤ row.user.timestamp)
  contacts : ∀ peer, s.Registered peer →
    ((∃ row ∈ rows, peer.IsUser row.user) ↔ s.InContact uid peer)
  newest : ∀ row ∈ rows, ∃ peer, s.Registered peer ∧ peer.IsUser row.user
    ∧ s.IsNewest (peer.conversation uid) row.recentMessage

section Rows

variable {s : Clients Data}

theorem PostedInv.mem_documents_of_posted (hs : s.PostedInv) (hrest : s.server.outgoingMessages = [])
    {posted : Posted} (hposted : posted ∈ s.posted)
    : posted.document ∈ DatabaseManager.fetchMessages s.documents posted.message.msgId := by
  have hmem := hs.posted.symm.subset (List.mem_map_of_mem hposted)
  rw [Backend.allMessages, hrest, List.append_nil] at hmem
  rw [DatabaseManager.mem_fetchMessages, documents, hs.log.stored]
  exact ⟨⟨hmem, rfl⟩, rfl⟩

-- `fetchRecentMessage` always decodes what it finds, and reads the clock in vain.
theorem PostedInv.fetchRecentMessage (hs : s.PostedInv) (auth : Option DocumentID) (user : User)
    : ∃ preview,
        (∀ now, DatabaseManager.fetchRecentMessage s.documents auth now user = some preview)
          ∧ (s.server.outgoingMessages = [] → Newest ((s.posted.map Posted.message).filter
              (fun message => message.msgId = messageId auth user)) preview) := by
  rcases DatabaseManager.recentMessages_eq_nil_or s.documents (messageId auth user)
    with ⟨hrecent, hnil⟩ | ⟨document, hdocument, hrecent, hnewest⟩
  . refine ⟨none, ?_, ?_⟩
    . intro now
      rw [DatabaseManager.fetchRecentMessage, DatabaseManager.computeMessageId, hrecent]
      rfl
    . intro hrest
      rw [Newest, List.filter_eq_nil_iff]
      intro message hmessage hmsgId
      rw [List.mem_map] at hmessage
      rcases hmessage with ⟨posted, hposted, hmessage⟩
      have hmem := hs.mem_documents_of_posted hrest hposted
      rw [decide_eq_true_iff] at hmsgId
      rw [hmessage, hmsgId, hnil] at hmem
      contradiction
  . rcases hs.exists_posted_of_query hdocument with ⟨posted, hposted, heq, hmsgId⟩
    rw [← heq] at hrecent hnewest
    refine ⟨some posted.message, ?_, ?_⟩
    . intro now
      have hdata : Message.init now posted.document.data = some posted.message := by
        exact Message.init_dictionary now posted.message
      rw [DatabaseManager.fetchRecentMessage, DatabaseManager.computeMessageId, hrecent]
      simp only [List.foldlM_cons, List.foldlM_nil, bind_pure]
      rw [hdata]
      rfl
    . intro hrest
      refine ⟨?_, ?_⟩
      . rw [List.mem_filter, decide_eq_true_iff]
        exact ⟨List.mem_map_of_mem hposted, hmsgId⟩
      . intro other hother
        rw [List.mem_filter, decide_eq_true_iff, List.mem_map] at hother
        rcases hother with ⟨⟨posted', hposted', hother⟩, hmsgId'⟩
        have hmem := hs.mem_documents_of_posted hrest hposted'
        rw [hother, hmsgId'] at hmem
        rw [← hother]
        exact DocumentSnapshot.timestamp_le_of_queryKey_le rfl rfl (hnewest _ hmem)

theorem mem_getRecentConversations (hpersons : s.server.PersonsInv) {uid : DocumentID}
    {document : DocumentSnapshot}
    : document ∈ DatabaseManager.getRecentConversations s.server.db uid
        ↔
      s.server.db.getDocument (DatabaseManager.recentUserPath uid document.documentID)
        = some document.data := by
  rw [DatabaseManager.getRecentConversations, DocumentSnapshot.mem_orderByTimestampDescending,
    Firestore.mem_getDocuments]
  constructor
  . intro h
    exact h.left
  . intro h
    refine ⟨h, ?_⟩
    rcases (hpersons.touched _ _ (Or.inl h)).user (by simp [DatabaseManager.recentUserPath])
      with ⟨user, _, _, hdata⟩
    rw [hdata]
    rfl

theorem row?_eq_some (hs : s.PostedInv) (hpersons : s.server.PersonsInv) {uid : DocumentID}
    {document : DocumentSnapshot}
    (h : document ∈ DatabaseManager.getRecentConversations s.server.db uid)
    : ∃ row : RecentUser, (∀ now, s.row? (some uid) now document = some row)
        ∧ s.server.Known row.user.uid row.user.isGroup ∧ row.user.uid = document.documentID
        ∧ document.data = row.user.dictionary
        ∧ (s.server.outgoingMessages = [] → Newest ((s.posted.map Posted.message).filter
            (fun message => message.msgId = messageId (some uid) row.user)) row.recentMessage) := by
  rw [mem_getRecentConversations hpersons] at h
  rcases (hpersons.touched _ _ (Or.inl h)).user (by simp [DatabaseManager.recentUserPath])
    with ⟨user, hknown, huid, hdata⟩
  rcases hs.fetchRecentMessage (some uid) user with ⟨preview, hfetch, hnewest⟩
  refine ⟨⟨user, preview⟩, ?_, hknown, huid, hdata, hnewest⟩
  intro now
  rw [row?, hdata, User.init_dictionary]
  dsimp only
  rw [hfetch]
  rfl

/-- The list never depends on the clock, and `User.init` and `Message.init` never trap on it. -/
theorem exists_rows (hs : s.PostedInv) (hpersons : s.server.PersonsInv) (uid : DocumentID)
    : ∃ rows : List RecentUser, ∀ now, s.conversationList uid now = rows.map some := by
  refine ⟨(s.conversationList uid 0).filterMap id, ?_⟩
  intro now
  rw [conversationList, conversationList, List.filterMap_map, List.map_filterMap]
  rw [← List.filterMap_eq_map]
  apply List.filterMap_congr
  intro document hdocument
  rcases row?_eq_some hs hpersons hdocument with ⟨row, hrow, _⟩
  simp [hrow]

-- Message ids tell conversations apart.
theorem SourcesInv.msgId_eq_iff_postedIn (hs : s.SourcesInv Opens) (hpersons : s.server.PersonsInv)
    {uid : AuthUid} {user : User} {peer : Peer} (hpeer : s.Registered peer) (huser : peer.IsUser user)
    {posted : Posted} (hposted : posted ∈ s.posted)
    : posted.message.msgId = messageId (some uid.value) user
        ↔
      s.PostedIn (peer.conversation uid) posted := by
  have htalks : s.Talks uid (user.uid, user.isGroup) (peer.conversation uid) := by
    exact ⟨peer, hpeer, (Peer.isUser_iff.mp huser).symm, rfl⟩
  rcases hs.posted posted hposted with ⟨currentUser, otherUser, hsends⟩
  rcases hsends.addressed.otherUser with ⟨other, hidentity, htoId, hisGroup, hmsgId⟩
  rw [PostedIn, htoId, hisGroup, hmsgId]
  constructor
  . intro heq
    rcases hs.exists_talks hpersons hidentity posted.uid with ⟨conversation, hconversation⟩
    rw [← (hs.messageId_eq_iff hconversation htalks).mp heq]
    exact hconversation
  . intro hconversation
    exact (hs.messageId_eq_iff hconversation htalks).mpr rfl

theorem SourcesInv.isNewest (hs : s.SourcesInv Opens) (hpersons : s.server.PersonsInv)
    {uid : AuthUid} {user : User} {peer : Peer} (hpeer : s.Registered peer) (huser : peer.IsUser user)
    {preview : Option Message}
    (h : Newest ((s.posted.map Posted.message).filter
      (fun message => message.msgId = messageId (some uid.value) user)) preview)
    : s.IsNewest (peer.conversation uid) preview := by
  have hmem : ∀ posted ∈ s.posted, s.PostedIn (peer.conversation uid) posted →
      posted.message ∈ (s.posted.map Posted.message).filter
        (fun message => message.msgId = messageId (some uid.value) user) := by
    intro posted hposted hin
    rw [List.mem_filter, decide_eq_true_iff]
    exact ⟨List.mem_map_of_mem hposted,
      (hs.msgId_eq_iff_postedIn hpersons hpeer huser hposted).mpr hin⟩
  cases preview with
  | none =>
    intro posted hposted hin
    have hnone := hmem posted hposted hin
    rw [Newest] at h
    rw [h] at hnone
    contradiction
  | some message =>
    refine ⟨?_, fun posted hposted hin => h.right _ (hmem posted hposted hin)⟩
    have hfound := h.left
    rw [List.mem_filter, decide_eq_true_iff, List.mem_map] at hfound
    rcases hfound with ⟨⟨posted, hposted, hmessage⟩, hmsgId⟩
    rw [← hmessage] at hmsgId
    exact ⟨posted, hposted, (hs.msgId_eq_iff_postedIn hpersons hpeer huser hposted).mp hmsgId,
      hmessage⟩

theorem mem_rows_iff {uid : DocumentID} {now : Date} {rows : List RecentUser}
    (hrows : s.conversationList uid now = rows.map some) {row : RecentUser}
    : row ∈ rows
        ↔
      ∃ document ∈ DatabaseManager.getRecentConversations s.server.db uid,
        s.row? (some uid) now document = some row := by
  have hmem : row ∈ rows ↔ some row ∈ rows.map some := by
    simp
  rw [hmem, ← hrows, conversationList, List.mem_map]

theorem nodup_getRecentConversations (s : Clients Data) (uid : DocumentID)
    : ((DatabaseManager.getRecentConversations s.server.db uid).map
        DocumentSnapshot.documentID).Nodup := by
  have hperm := (List.perm_sortBy (fun document => OrderDual.toDual (DocumentSnapshot.queryKey document))
    ((s.server.db.getDocuments (.recentUsers uid)).filter
      (fun document => (document.data.lookup "timestamp").isSome))).map DocumentSnapshot.documentID
  apply hperm.nodup_iff.mpr
  apply List.Nodup.sublist (List.filter_sublist.map _)
  exact s.server.db.nodup_documentID_getDocuments (.recentUsers uid)

theorem SourcesInv.known (hs : s.SourcesInv Opens) {peer : Peer} (hpeer : s.Registered peer)
    : s.server.Known peer.identity.1 peer.identity.2 := by
  cases peer with
  | person uid =>
    change uid.value ∈ s.server.accounts
    rw [hs.accounts]
    exact List.mem_map_of_mem hpeer
  | group id => exact hs.exists_group hpeer

section List

variable {uid : DocumentID} {now : Date} {rows : List RecentUser}

theorem user_of_row (hs : s.PostedInv) (hpersons : s.server.PersonsInv) {document : DocumentSnapshot}
    (hdocument : document ∈ DatabaseManager.getRecentConversations s.server.db uid)
    {row : RecentUser} (hrow : s.row? (some uid) now document = some row)
    : row.user.uid = document.documentID ∧ document.data = row.user.dictionary := by
  rcases row?_eq_some hs hpersons hdocument with ⟨row', hrow', _, huid, hdata, _⟩
  rw [hrow'] at hrow
  injection hrow with hrow
  rw [← hrow]
  exact ⟨huid, hdata⟩

theorem nodup_rows (hs : s.PostedInv) (hpersons : s.server.PersonsInv)
    (hrows : s.conversationList uid now = rows.map some)
    : (rows.map (fun row => row.user.uid)).Nodup := by
  have hids : rows.map (fun row => some row.user.uid)
      = (DatabaseManager.getRecentConversations s.server.db uid).map
          (fun document => some document.documentID) := by
    have hmapped := congrArg (List.map (Option.map (fun row => row.user.uid))) hrows.symm
    rw [conversationList, List.map_map, List.map_map] at hmapped
    refine hmapped.trans (List.map_congr_left ?_)
    intro document hdocument
    rcases row?_eq_some hs hpersons hdocument with ⟨row, hrow, _, huid, _⟩
    rw [Function.comp_apply, hrow, Option.map_some, huid]
  have hnodup := (nodup_getRecentConversations s uid).map (Option.some_injective _)
  rw [List.map_map] at hnodup
  change ((DatabaseManager.getRecentConversations s.server.db uid).map
    (fun document => some document.documentID)).Nodup at hnodup
  rw [← hids] at hnodup
  apply List.Nodup.of_map some
  rw [List.map_map]
  exact hnodup

theorem ordered_rows (hs : s.PostedInv) (hpersons : s.server.PersonsInv)
    (hrows : s.conversationList uid now = rows.map some)
    : rows.Pairwise (fun row row' => row'.user.timestamp ≤ row.user.timestamp) := by
  have hsorted : (DatabaseManager.getRecentConversations s.server.db uid).Pairwise
      (fun document document' =>
        OrderDual.toDual document.queryKey ≤ OrderDual.toDual document'.queryKey) := by
    apply List.pairwise_sortBy
  have hordered : (rows.map some).Pairwise (fun row? row?' => ∀ row ∈ row?, ∀ row' ∈ row?',
      row'.user.timestamp ≤ row.user.timestamp) := by
    rw [← hrows, conversationList, List.pairwise_map]
    apply hsorted.imp_of_mem
    intro document document' hmem hmem' hle row hrow row' hrow'
    have hdata := (user_of_row hs hpersons hmem hrow).right
    have hdata' := (user_of_row hs hpersons hmem' hrow').right
    apply DocumentSnapshot.timestamp_le_of_queryKey_le _ _ hle
    . rw [hdata']
      rfl
    . rw [hdata]
      rfl
  rw [List.pairwise_map] at hordered
  exact hordered.imp (fun h => h _ rfl _ rfl)

theorem SourcesInv.exists_row_iff (hsources : s.SourcesInv Opens) (hs : s.PostedInv)
    (hpersons : s.server.PersonsInv) (hrows : s.conversationList uid now = rows.map some)
    {peer : Peer} (hpeer : s.Registered peer)
    : (∃ row ∈ rows, peer.IsUser row.user) ↔ s.server.Recent uid peer.identity.1 := by
  rw [Backend.Recent, Option.isSome_iff_exists]
  constructor
  . rintro ⟨row, hrow, huser⟩
    rw [mem_rows_iff hrows] at hrow
    rcases hrow with ⟨document, hdocument, hrow⟩
    have hid := (user_of_row hs hpersons hdocument hrow).left
    rw [mem_getRecentConversations hpersons] at hdocument
    rw [← congrArg Prod.fst (Peer.isUser_iff.mp huser), hid]
    exact ⟨_, hdocument⟩
  . rintro ⟨data, hdata⟩
    have hdocument : ⟨peer.identity.1, data⟩
        ∈ DatabaseManager.getRecentConversations s.server.db uid := by
      rw [mem_getRecentConversations hpersons]
      exact hdata
    rcases row?_eq_some hs hpersons hdocument with ⟨row, hrow, hknown, hid, _⟩
    refine ⟨row, (mem_rows_iff hrows).mpr ⟨_, hdocument, hrow now⟩, ?_⟩
    rw [hid] at hknown
    have hisGroup := hpersons.isGroup_eq hknown (hsources.known hpeer)
    rw [Peer.isUser_iff, hid, hisGroup]

end List

theorem row?_eq_some_iff {auth : Option DocumentID} {now : Date} {document : DocumentSnapshot}
    {row : RecentUser}
    : s.row? auth now document = some row
        ↔
      User.init now document.data = some row.user
        ∧ DatabaseManager.fetchRecentMessage s.documents auth now row.user
          = some row.recentMessage := by
  unfold row?
  constructor
  . intro h
    split at h
    . next user huser =>
      rw [Option.map_eq_some_iff] at h
      rcases h with ⟨preview, hpreview, hrow⟩
      rw [← hrow]
      exact ⟨huser, hpreview⟩
    . contradiction
  . rintro ⟨huser, hpreview⟩
    rw [huser]
    dsimp only
    rw [hpreview]
    rfl

-- what the loop of `getRecentConversations` makes of the list
theorem users_of_conversationList {uid : DocumentID} {now : Date} {rows : List RecentUser}
    (hrows : s.conversationList uid now = rows.map some) {users : List User}
    (husers : DatabaseManager.decodeUsers now
      (DatabaseManager.getRecentConversations s.server.db uid) = some users)
    : users = rows.map RecentUser.user := by
  rw [conversationList] at hrows
  generalize DatabaseManager.getRecentConversations s.server.db uid = documents at hrows husers
  induction documents generalizing rows users with
  | nil =>
    rw [List.map_nil, eq_comm, List.map_eq_nil_iff] at hrows
    injection husers with husers
    rw [hrows, ← husers]
    rfl
  | cons document documents ih =>
    cases rows with
    | nil => contradiction
    | cons row rows =>
      rw [List.map_cons, List.map_cons, List.cons.injEq, row?_eq_some_iff] at hrows
      unfold DatabaseManager.decodeUsers at husers
      split at husers
      . next user rest huser hrest =>
        injection husers with husers
        rw [hrows.left.left] at huser
        injection huser with huser
        rw [← husers, ← huser, ih hrows.right hrest]
        rfl
      . contradiction

/-- Nothing being on its way, the rows are those of the contacts. -/
theorem OwnInv.listsContacts (hs : s.OwnInv) (hposted : s.PostedInv)
    (hquiescent : s.server.Quiescent) {uid : AuthUid} (huid : uid ∈ s.accounts) {now : Date}
    {rows : List RecentUser} (hrows : s.conversationList uid.value now = rows.map some)
    : s.ListsContacts uid rows := by
  have hrest : s.server.outgoingMessages = [] := by
    rw [Backend.outgoingMessages, Backend.pending_eq_nil_of_quiescent hquiescent, List.filterMap_nil]
  constructor
  case nodup => exact nodup_rows hposted hs.persons hrows
  case ordered => exact ordered_rows hposted hs.persons hrows
  case contacts =>
    intro peer hpeer
    rw [hs.sources.exists_row_iff hposted hs.persons hrows hpeer]
    exact hs.recent_iff hquiescent huid hpeer
  case newest =>
    intro row hrow
    rw [mem_rows_iff hrows] at hrow
    rcases hrow with ⟨document, hdocument, hrow⟩
    rcases row?_eq_some hposted hs.persons hdocument with ⟨row', hrow', hknown, _, _, hnewest⟩
    rw [hrow'] at hrow
    injection hrow with hrow
    rw [hrow] at hknown hnewest
    rcases hs.sources.exists_peer_of_known
      (show s.server.Known (row.user.uid, row.user.isGroup).1 (row.user.uid, row.user.isGroup).2
        from hknown) with ⟨peer, hpeer, hidentity⟩
    have huser := Peer.isUser_iff.mpr hidentity.symm
    exact ⟨peer, hpeer, huser, hs.sources.isNewest hs.persons hpeer huser (hnewest hrest)⟩

end Rows

end Clients

end ChatApplication
