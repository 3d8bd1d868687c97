import ChatApplication.Clients.Lists
import ChatApplication.Clients.Progress

/-!
This module contains that no message is held up: in whatever order the requests are served and the
listeners are told of their results, every chat comes to show all messages in the end.
-/

namespace ChatApplication

namespace ChatListener

-- A listener is called when there is something new.
def HasNews : Event → Prop
  | .snapshot changes _ => changes ≠ []
  | _ => True

variable {messageId : String}

theorem Generations.exists_newest {s : ChatListener} (hs : s.Generations)
    (h : s.published ≠ s.messages)
    : ∃ (i : Nat) (request : FetchUser), s.requests[i]? = some request
        ∧ ∀ data now, s.NotOvertaken (.userFetched i data now) := by
  cases hs.newest with
  | inl heq => exact absurd heq h
  | inr hnewest =>
    rcases hnewest with ⟨request, hrequest, hmessages⟩
    rcases List.mem_iff_getElem?.mp hrequest with ⟨i, hi⟩
    refine ⟨i, request, hi, ?_⟩
    intro data now request' hrequest'
    rw [Option.mem_def, hi] at hrequest'
    injection hrequest' with hrequest'
    rw [← hrequest', hmessages]
    exact hs.published.length_le

theorem exists_step_snapshot (s : ChatListener) {document : DocumentSnapshot} {message : Message}
    {now : Date} (hmsgId : document.data.lookup "msgId" = some (.string messageId))
    (hmessage : Message.init now document.data = some message)
    : ∃ s', (chatListener messageId).step s (.snapshot [⟨.added, document, 0⟩] now) = some s' := by
  have hmatches : ∀ change ∈ [(⟨.added, document, 0⟩ : DocumentChange)],
      change.document.data.lookup "msgId" = some (.string messageId) := by
    rw [List.forall_mem_singleton]
    exact hmsgId
  have hadded : addedMessages now [⟨.added, document, 0⟩] = some [⟨document, message, none⟩] := by
    simp only [addedMessages, hmessage]
  simp only [chatListener, step, if_pos hmatches, hadded]
  exact ⟨_, rfl⟩

theorem exists_step_userFetched {s : ChatListener} {i : Nat} {request : FetchUser}
    {data : Dictionary} {now : Date} {user : User} (hrequest : s.requests[i]? = some request)
    (huser : User.init now data = some user)
    : ∃ s', (chatListener messageId).step s (.userFetched i data now) = some s' := by
  simp only [chatListener, step, hrequest, huser]
  exact ⟨_, rfl⟩

end ChatListener

namespace Clients

variable {Image : Type u} {Data : Type v} {pngData : Image → Option Data}

def InOrder (s : Clients Data) : Event Image → Prop
  | .listener chat e => ∀ c ∈ s.chats[chat]?, c.listener.NotOvertaken e ∧ ChatListener.Succeeds e
  | _ => True

instance decidableInOrder (s : Clients Data) : (e : Event Image) → Decidable (s.InOrder e)
  | .listener chat e => inferInstanceAs (Decidable (∀ c ∈ s.chats[chat]?,
      c.listener.NotOvertaken e ∧ ChatListener.Succeeds e))
  | .createAccount _ | .signup _ _ _ _ _ _ _ | .load _ _ _ | .createGroup _ _ _ _ _ _ _
  | .openChat _ _ | .currentUserFetched _ _ | .send _ _ _ _ _ _ _ _ | .uploadCompleted _ _ _ _ _
  | .uploadFailed _ | .perform _ _ => inferInstanceAs (Decidable True)

theorem InOrder.repliesInOrder {s : Clients Data} {e : Event Image} (h : s.InOrder e) (chat : Nat)
    : s.RepliesInOrder chat e := by
  cases e with
  | listener chat' e =>
    intro heq
    rw [heq] at h
    exact h
  | _ => trivial

-- the events that go on with what was started, none of them is an action of a user
def Serves (s : Clients Data) : Event Image → Prop
  | .perform _ _ => True
  | .listener chat e => s.InOrder (.listener chat e : Event Image) ∧ ChatListener.HasNews e
  | _ => False

-- The chats that are open in `s` show in `t` what was posted to them in `s`.
def ShowsAll (s t : Clients Data) : Prop :=
  ∀ (chat : Nat) (c : OpenChat), s.chats[chat]? = some c → ∃ c', t.chats[chat]? = some c'
    ∧ (c'.listener.chat.map ChatMessage.message).Perm
        ((s.posted.map Posted.message).filter (fun message => message.msgId = c.messageId))

-- `t` is a state on the way from `s`.
structure CatchesUp (pngData : Image → Option Data) (s t : Clients Data) : Prop where
  run : ∃ es : List (Event Image), (clients pngData).exec init es = some t
    ∧ (clients pngData).Meets (fun s e _ => s.InOrder e) init es
  posted : t.posted = s.posted
  chats : t.chats.map OpenChat.messageId = s.chats.map OpenChat.messageId

variable {s t t' : Clients Data}

theorem Serves.inOrder {e : Event Image} (h : t.Serves e) : t.InOrder e := by
  cases e with
  | listener chat e => exact h.left
  | _ => trivial

theorem CatchesUp.step (ht : CatchesUp pngData s t) {e : Event Image} (he : t.Serves e)
    (hstep : (clients pngData).step t e = some t') : CatchesUp pngData s t' := by
  rcases ht.run with ⟨es, hrun, hinOrder⟩
  constructor
  . refine ⟨es ++ [e], ((clients pngData).exec_concat_eq_some).mpr ⟨t, hrun, hstep⟩, ?_⟩
    apply hinOrder.append hrun
    exact Machine.meets_singleton (fun _ _ => he.inOrder)
  . have hcomposers : ¬ e.IsComposers := by
      intro h
      cases e with
      | _ => contradiction
    rw [(posted_step hstep hcomposers).left]
    exact ht.posted
  . rw [← ht.chats]
    cases e with
    | perform i now =>
      rcases step_perform hstep with ⟨server', _, ht'⟩
      rw [ht']
    | listener chat e =>
      rcases step_listener hstep with ⟨c, listener, hc, _, _, ht'⟩
      rw [ht']
      exact List.map_set_of_eq hc rfl
    | _ => contradiction

theorem CatchesUp.generations (ht : CatchesUp pngData s t) {c : OpenChat} (hc : c ∈ t.chats)
    : c.listener.Generations := by
  rcases ht.run with ⟨es, hrun, hinOrder⟩
  rcases List.mem_iff_getElem?.mp hc with ⟨chat, hchat⟩
  exact generations_of_run hrun (hinOrder.imp (fun _ _ _ h => h.repliesInOrder chat)) hchat

-- what the store still has to do, then what the listeners wait for, then the replies for the senders
def remaining (s : Clients Data) : (Nat ×ₗ Nat ×ₗ Nat) ×ₗ Nat ×ₗ Nat :=
  toLex (s.server.remaining,
    toLex ((s.chats.flatMap (fun c => s.posted.drop c.listener.documents.length)).length,
      (s.chats.flatMap (fun c => c.listener.requests)).length))

theorem PostedInv.length_documents_le (hs : s.PostedInv) (hpublished : s.published.Inv)
    {c : OpenChat} (hc : c ∈ s.chats) : c.listener.documents.length ≤ s.posted.length := by
  have hnodup := (hpublished.delivered _ (mem_subscribers hc)).left
  have hsubset : c.listener.documents ⊆ s.posted.map Posted.document := by
    intro document hdocument
    rcases hs.exists_posted_of_query (hs.query_of_told hpublished hc hdocument)
      with ⟨posted, hposted, heq, _⟩
    rw [← heq]
    exact List.mem_map_of_mem hposted
  have hle := (hnodup.subperm hsubset).length_le
  rw [List.length_map] at hle
  exact hle

theorem remaining_listener {chat : Nat} {e : ChatListener.Event} (ht : t.PostedInv)
    (hpublished : t.published.Inv) (ht' : t'.PostedInv) (hpublished' : t'.published.Inv)
    (he : ChatListener.Succeeds e ∧ ChatListener.HasNews e)
    (hstep : (clients pngData).step t (.listener chat e) = some t') : t'.remaining < t.remaining := by
  rcases step_listener hstep with ⟨c, listener, hc, hdelivers, hlistener, heq⟩
  have hmem : { c with listener := listener } ∈ t'.chats := by
    rw [heq]
    exact List.mem_set (List.getElem?_eq_some_iff.mp hc).choose _
  have hle := ht'.length_documents_le hpublished' hmem
  have hposted : t'.posted = t.posted := by rw [heq]
  rw [hposted] at hle
  unfold remaining
  rw [Prod.Lex.toLex_lt_toLex, Prod.Lex.toLex_lt_toLex, heq]
  refine Or.inr ⟨rfl, ?_⟩
  have hundelivered := List.length_flatMap_set_add hc
    (fun c : OpenChat => t.posted.drop c.listener.documents.length) { c with listener := listener }
  have hunanswered := List.length_flatMap_set_add hc (fun c : OpenChat => c.listener.requests)
    { c with listener := listener }
  rw [List.length_drop, List.length_drop] at hundelivered
  dsimp only at hle hundelivered hunanswered ⊢
  cases e with
  | snapshot changes now =>
    left
    have hadded : ∀ change ∈ changes, change.type = .added := by
      intro change hchange
      exact ht.added hpublished (List.mem_of_getElem? hc) (hdelivers.right change hchange)
    have hnews := List.length_pos_of_ne_nil he.right
    rcases ChatListener.step_snapshot hlistener with ⟨_, added, _, hlistener'⟩
    have hdocuments : listener.documents.length = c.listener.documents.length + changes.length := by
      rw [hlistener']
      dsimp only
      rw [ChatListener.documentsAfter_of_added _ hadded, List.length_append, List.length_map]
    omega
  | userFetched i data now =>
    right
    rcases ChatListener.step_userFetched hlistener with ⟨request, user, hrequest, _, hlistener'⟩
    rw [hlistener'] at hundelivered hunanswered ⊢
    have hi := (List.getElem?_eq_some_iff.mp hrequest).choose
    have hlength := List.length_eraseIdx_of_lt hi
    dsimp only at hundelivered hunanswered ⊢
    omega
  | fetchFailed i => exact absurd he.left id

theorem exists_step_of_listener {chat : Nat} {c : OpenChat} {e : ChatListener.Event}
    (hc : t.chats[chat]? = some c) (hdelivers : t.Delivers c e)
    (hlistener : ∃ listener, (chatListener c.messageId).step c.listener e = some listener)
    (hinOrder : c.listener.NotOvertaken e ∧ ChatListener.Succeeds e)
    (hnews : ChatListener.HasNews e)
    : ∃ e t', t.Serves e ∧ (clients pngData).step t e = some t' := by
  rcases hlistener with ⟨listener, hlistener⟩
  refine ⟨.listener chat e, { t with chats := t.chats.set chat { c with listener := listener } },
    ⟨?_, hnews⟩, ?_⟩
  . intro c' hc'
    rw [Option.mem_def, hc] at hc'
    injection hc' with hc'
    rw [← hc']
    exact hinOrder
  . simp only [clients, step, hc, if_pos hdelivers, hlistener]

-- a document that the listener has not been told of can be reported by itself
theorem PostedInv.exists_snapshot (ht : t.PostedInv) (hpublished : t.published.Inv) {chat : Nat}
    {c : OpenChat} (hc : t.chats[chat]? = some c)
    (h : ¬ t.published.UpToDate (c.messageId, c.listener.documents))
    : ∃ e t', t.Serves e ∧ (clients pngData).step t e = some t' := by
  unfold PubSub.UpToDate at h
  simp only [not_forall] at h
  rcases h with ⟨document, htopic, hnew⟩
  have hquery := ht.mem_query.mpr htopic
  have hdelivers : t.Delivers c (.snapshot [⟨.added, document, 0⟩] 0) := by
    refine ⟨List.nodup_singleton _, ?_⟩
    rw [List.forall_mem_singleton]
    refine ⟨hquery, ?_⟩
    intro old hold hid
    have hold' := ht.query_of_told hpublished (List.mem_of_getElem? hc) hold
    rw [ht.eq_of_query hold' hquery hid] at hold
    exact hnew hold
  rcases ht.exists_posted_of_query hquery with ⟨posted, _, hdocument, _⟩
  have hmessage : Message.init 0 document.data = some posted.message := by
    rw [← hdocument]
    exact Message.init_dictionary 0 posted.message
  have hmsgId := (DatabaseManager.mem_fetchMessages.mp hquery).left.right
  exact exists_step_of_listener hc hdelivers (c.listener.exists_step_snapshot hmsgId hmessage)
    ⟨trivial, trivial⟩ (List.cons_ne_nil _ _)

-- who has sent a message has fetched their own profile before
theorem exists_userFetched {es : List (Event Image)} (hrun : (clients pngData).exec init es = some t)
    {chat : Nat} {c : OpenChat} (hc : t.chats[chat]? = some c) (hgenerations : c.listener.Generations)
    (h : c.listener.published ≠ c.listener.messages)
    : ∃ e t', t.Serves e ∧ (clients pngData).step t e = some t' := by
  rcases sources_of_run hrun with ⟨hs, hpersons⟩
  rcases inv_of_run hrun with ⟨ht, hpublished⟩
  have hmem := List.mem_of_getElem? hc
  rcases hgenerations.exists_newest h with ⟨i, request, hrequest, hovertaken⟩
  rcases (attributed_of_run hrun hmem).requests request (List.mem_of_getElem? hrequest)
    with ⟨_, object, hobject, hfromId⟩
  rcases ht.exists_posted_of_object hpublished hmem (List.mem_of_getElem? hobject)
    with ⟨posted, hposted, _, _, hmessage⟩
  rcases hs.posted posted hposted with ⟨currentUser, otherUser, hsends⟩
  rcases hs.sources currentUser _ hsends.currentUser with ⟨_, known, _, hfits⟩
  have hprofile := hfits.right
  rw [← hsends.addressed.fromId, ← hmessage, hfromId, Option.isSome_iff_exists] at hprofile
  rcases hprofile with ⟨data, hdata⟩
  rcases profile_of_getDocument hpersons hdata with ⟨user, _, _, huser⟩
  have hdecoded : User.init 0 data = some user := by
    rw [huser]
    exact User.init_dictionary 0 user
  have hdelivers : t.Delivers c (.userFetched i data 0) := by
    exact ⟨request, hrequest, hdata⟩
  exact exists_step_of_listener hc hdelivers
    (ChatListener.exists_step_userFetched hrequest hdecoded) ⟨hovertaken data 0, trivial⟩ trivial

theorem CatchesUp.showsAll (ht : CatchesUp pngData s t) (hstore : t.server.outgoingMessages = [])
    (hsnapshots : ∀ c ∈ t.chats, t.published.UpToDate (c.messageId, c.listener.documents))
    (hnewest : ∀ c ∈ t.chats, c.listener.published = c.listener.messages) : s.ShowsAll t := by
  rcases ht.run with ⟨es, hrun, _⟩
  rcases inv_of_run hrun with ⟨hs, hpublished⟩
  intro chat c hc
  have hmessageId : (t.chats.map OpenChat.messageId)[chat]? = some c.messageId := by
    rw [ht.chats, List.getElem?_map, hc]
    rfl
  rw [List.getElem?_map, Option.map_eq_some_iff] at hmessageId
  rcases hmessageId with ⟨c', hc', hmessageId⟩
  have hmem := List.mem_of_getElem? hc'
  refine ⟨c', hc', ?_⟩
  rw [← hmessageId, ← ht.posted]
  exact hs.perm_posted_of_newest hpublished hmem hstore (hsnapshots c' hmem) (hnewest c' hmem)

theorem CatchesUp.exists_step (ht : CatchesUp pngData s t) (h : ¬ s.ShowsAll t)
    : ∃ e t', t.Serves e ∧ (clients pngData).step t e = some t' := by
  rcases ht.run with ⟨es, hrun, _⟩
  rcases inv_of_run hrun with ⟨hs, hpublished⟩
  by_cases hpending : t.server.pending = []
  . by_cases hsnapshots : ∀ c ∈ t.chats, t.published.UpToDate (c.messageId, c.listener.documents)
    . by_cases hnewest : ∀ c ∈ t.chats, c.listener.published = c.listener.messages
      . have hstore : t.server.outgoingMessages = [] := by
          rw [Backend.outgoingMessages, hpending]
          rfl
        exact absurd (ht.showsAll hstore hsnapshots hnewest) h
      . simp only [not_forall] at hnewest
        rcases hnewest with ⟨c, hc, hnewest⟩
        rcases List.mem_iff_getElem?.mp hc with ⟨chat, hchat⟩
        exact exists_userFetched hrun hchat (ht.generations hc) hnewest
    . simp only [not_forall] at hsnapshots
      rcases hsnapshots with ⟨c, hc, hsnapshots⟩
      rcases List.mem_iff_getElem?.mp hc with ⟨chat, hchat⟩
      exact hs.exists_snapshot hpublished hchat hsnapshots
  . rcases Backend.exists_perform_write hpending with ⟨i, server', hserver⟩
    exact ⟨.perform i 0, { t with server := server' }, trivial, step_of_perform hserver⟩

/-- However what is on its way is delivered, every open chat shows all messages in the end. -/
theorem comes_to_show_all (pngData : Image → Option Data) (es : List (Event Image))
    {s : Clients Data} (hrun : (clients pngData).exec init es = some s)
    (hinOrder : (clients pngData).Meets (fun s e _ => s.InOrder e) init es)
    : (clients pngData).Settles Serves s.ShowsAll s := by
  have hlt : ∀ (t : Clients Data) (e : Event Image) (t' : Clients Data), CatchesUp pngData s t →
      t.Serves e → (clients pngData).step t e = some t' →
        CatchesUp pngData s t' ∧ t'.remaining < t.remaining := by
    intro t e t' ht he hstep
    have ht' := ht.step he hstep
    refine ⟨ht', ?_⟩
    cases e with
    | perform i now =>
      rcases step_perform hstep with ⟨server', hserver, heq⟩
      rw [heq, remaining, remaining, Prod.Lex.toLex_lt_toLex]
      exact Or.inl (Backend.remaining_perform hserver)
    | listener chat e =>
      rcases ht.run with ⟨es, hrun, _⟩
      rcases ht'.run with ⟨es', hrun', _⟩
      rcases inv_of_run hrun with ⟨hlog, hpublished⟩
      rcases inv_of_run hrun' with ⟨hlog', hpublished'⟩
      rcases step_listener hstep with ⟨c, listener, hc, _, _, _⟩
      exact remaining_listener hlog hpublished hlog' hpublished' ⟨(he.left c hc).right, he.right⟩ hstep
    | _ => contradiction
  have hprogress : ∀ t : Clients Data, CatchesUp pngData s t → ¬ s.ShowsAll t →
      ∃ (e : Event Image) (t' : Clients Data), t.Serves e ∧ (clients pngData).step t e = some t' := by
    intro t ht h
    exact ht.exists_step h
  exact Machine.settles_of_lt remaining hlt hprogress ⟨⟨es, hrun, hinOrder⟩, rfl, rfl⟩

-- Ann's message is on its way, nobody has been shown it.
theorem comes_to_show_all_teamRun
    : ∃ s, (clients (fun image => some image)).exec init (teamRun.take 19) = some s
        ∧ s.posted.map Posted.message = [hello] ∧ s.chats.map (fun c => c.listener.chat) = [[]]
        ∧ (clients (fun image => some image)).Settles Serves s.ShowsAll s := by
  have hinOrder : (clients (fun image => some image)).Meets (fun s e _ => s.InOrder e) init
      (teamRun.take 19) := by
    decide
  exact ⟨_, rfl, rfl, rfl, comes_to_show_all (fun image => some image) (teamRun.take 19) rfl hinOrder⟩

end Clients

end ChatApplication
