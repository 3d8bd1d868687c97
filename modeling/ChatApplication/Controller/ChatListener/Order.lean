import ChatApplication.Controller.ChatListener

/-!
This module contains the comparison of the list that `fetchMessages` maintains by appending what is
added with the result of the ordered query.
-/

namespace ChatApplication

namespace ChatListener

variable {messageId : String}

-- the documents of the messages that `fetchMessages` passes to its completion
def listed (s : ChatListener) : List DocumentSnapshot :=
  s.messages.filterMap (fun message => (s.objects[message]?).map ChatMessage.document)

-- What the listener gets as messages are added: each document once, with its position in the query,
-- and the documents of one snapshot in the order of the query.
def AddsMessages (messageId : String) (s : ChatListener) : Event → Prop
  | .snapshot changes _ =>
    (∀ change ∈ changes, change.type = .added
        ∧ (change.document.data.timestamp? "timestamp").isSome
        ∧ (DatabaseManager.fetchMessages (documentsAfter s.documents changes)
            messageId)[change.newIndex]? = some change.document)
      ∧ ((s.documents ++ changes.map DocumentChange.document).map
          DocumentSnapshot.documentID).Nodup
      ∧ (changes.map DocumentChange.document).Pairwise (fun a b => a.queryKey ≤ b.queryKey)
  | _ => True

instance (s : ChatListener) : (e : Event) → Decidable (AddsMessages messageId s e)
  | .snapshot _ _ => inferInstanceAs (Decidable (_ ∧ _))
  | .userFetched _ _ _ => inferInstanceAs (Decidable True)
  | .fetchFailed _ => inferInstanceAs (Decidable True)

def ListsQuery (messageId : String) (s' : ChatListener) : Event → Prop
  | .snapshot _ _ => s'.listed = DatabaseManager.fetchMessages s'.documents messageId
  | _ => True

instance (s' : ChatListener) : (e : Event) → Decidable (ListsQuery messageId s' e)
  | .snapshot _ _ => inferInstanceAs (Decidable
    (s'.listed = DatabaseManager.fetchMessages s'.documents messageId))
  | .userFetched _ _ _ => inferInstanceAs (Decidable True)
  | .fetchFailed _ => inferInstanceAs (Decidable True)

-- Every document that is added sorts after all that were there before, by timestamp and then by id.
def ArrivesInOrder (s : ChatListener) : Event → Prop
  | .snapshot changes _ =>
    ∀ document ∈ s.documents, ∀ change ∈ changes, document.queryKey ≤ change.document.queryKey
  | _ => True

instance (s : ChatListener) : (e : Event) → Decidable (s.ArrivesInOrder e)
  | .snapshot changes _ => inferInstanceAs (Decidable
    (∀ document ∈ s.documents, ∀ change ∈ changes, document.queryKey ≤ change.document.queryKey))
  | .userFetched _ _ _ => inferInstanceAs (Decidable True)
  | .fetchFailed _ => inferInstanceAs (Decidable True)

structure InOrder (messageId : String) (s : ChatListener) : Prop where
  messages : s.messages = List.range s.objects.length
  documents : s.objects.map ChatMessage.document = s.documents
  matching : ∀ document ∈ s.documents, document.data.lookup "msgId" = some (.string messageId)
    ∧ (document.data.timestamp? "timestamp").isSome
  nodup : (s.documents.map DocumentSnapshot.documentID).Nodup
  sorted : s.documents.Pairwise (fun a b => a.queryKey ≤ b.queryKey)

theorem inOrder_init (messageId : String) : InOrder messageId init := by
  constructor
  . rfl
  . rfl
  . intro document hdocument
    contradiction
  . exact List.nodup_nil
  . exact List.Pairwise.nil

theorem listed_of_messages {s : ChatListener} (h : s.messages = List.range s.objects.length)
    : s.listed = s.objects.map ChatMessage.document := by
  unfold listed
  rw [h, List.filterMap_range_getElem?]

theorem fetchMessages_of_matching {documents : List DocumentSnapshot}
    (h : ∀ document ∈ documents, document.data.lookup "msgId" = some (.string messageId)
      ∧ (document.data.timestamp? "timestamp").isSome)
    : DatabaseManager.fetchMessages documents messageId
        =
      documents.sortBy DocumentSnapshot.queryKey := by
  have hwhere : DocumentSnapshot.whereField "msgId" (.string messageId) documents = documents := by
    unfold DocumentSnapshot.whereField
    rw [List.filter_eq_self]
    intro document hdocument
    rw [decide_eq_true_eq]
    exact (h document hdocument).left
  unfold DatabaseManager.fetchMessages DocumentSnapshot.orderByTimestamp
  rw [hwhere, List.filter_eq_self.mpr]
  intro document hdocument
  exact Dictionary.isSome_lookup_of_timestamp? (h document hdocument).right

theorem InOrder.snapshot {s s' : ChatListener} (hs : s.InOrder messageId)
    {changes : List DocumentChange} {now : Date}
    (hstep : (chatListener messageId).step s (.snapshot changes now) = some s')
    (hadds : AddsMessages messageId s (.snapshot changes now))
    : (ListsQuery messageId s' (.snapshot changes now) ↔ s.ArrivesInOrder (.snapshot changes now))
        ∧ (s.ArrivesInOrder (.snapshot changes now) → s'.InOrder messageId) := by
  rcases step_snapshot hstep with ⟨hquery, added, hadded, hs'⟩
  rcases hadds with ⟨hchanges, hnodup, hsorted⟩
  have htype : ∀ change ∈ changes, change.type = .added := by
    intro change hchange
    exact (hchanges change hchange).left
  have hmessages : s'.messages = List.range s'.objects.length := by
    rw [hs']
    dsimp
    rw [hs.messages, List.length_append, List.range_append_range']
  have hdocuments : s'.documents = s.documents ++ changes.map DocumentChange.document := by
    rw [hs']
    exact documentsAfter_of_added s.documents htype
  have hobjects : s'.objects.map ChatMessage.document = s'.documents := by
    rw [hdocuments, ← hs.documents, hs']
    dsimp
    rw [List.map_append, map_document_addedMessages hadded, List.filter_eq_self.mpr]
    intro change hchange
    simpa using htype change hchange
  have hmatching : ∀ document ∈ s'.documents,
      document.data.lookup "msgId" = some (.string messageId)
        ∧ (document.data.timestamp? "timestamp").isSome := by
    intro document hdocument
    rw [hdocuments, List.mem_append, List.mem_map] at hdocument
    cases hdocument with
    | inl hold => exact hs.matching document hold
    | inr hnew =>
      rcases hnew with ⟨change, hchange, hdocument⟩
      rw [← hdocument]
      exact ⟨hquery change hchange, (hchanges change hchange).right.left⟩
  have harrives : s.ArrivesInOrder (.snapshot changes now)
      ↔ ∀ a ∈ s.documents, ∀ b ∈ changes.map DocumentChange.document, a.queryKey ≤ b.queryKey := by
    unfold ArrivesInOrder
    simp
  constructor
  . unfold ListsQuery
    dsimp
    rw [listed_of_messages hmessages, hobjects, fetchMessages_of_matching hmatching, harrives,
      eq_comm, hdocuments]
    apply List.sortBy_append_eq_self_iff
    . exact DocumentSnapshot.eq_of_queryKey_eq hnodup
    . exact hs.sorted
    . exact hsorted
  . intro h
    rw [harrives] at h
    refine ⟨hmessages, hobjects, hmatching, ?_, ?_⟩
    . rw [hdocuments]
      exact hnodup
    . rw [hdocuments, List.pairwise_append]
      exact ⟨hs.sorted, hsorted, h⟩

theorem InOrder.of_eq {s s' : ChatListener} (hs : s.InOrder messageId)
    (hmessages : s'.messages = s.messages) (hdocuments : s'.documents = s.documents)
    (hobjects : s'.objects.map ChatMessage.document = s.objects.map ChatMessage.document)
    : s'.InOrder messageId := by
  have hlength : s'.objects.length = s.objects.length := by
    have := congrArg List.length hobjects
    simpa using this
  constructor
  . rw [hmessages, hlength, hs.messages]
  . rw [hobjects, hdocuments, hs.documents]
  . rw [hdocuments]
    exact hs.matching
  . rw [hdocuments]
    exact hs.nodup
  . rw [hdocuments]
    exact hs.sorted

theorem inOrder_step {s s' : ChatListener} (hs : s.InOrder messageId) {e : Event}
    (hstep : (chatListener messageId).step s e = some s') (hadds : AddsMessages messageId s e)
    : (ListsQuery messageId s' e ↔ s.ArrivesInOrder e)
        ∧ (s.ArrivesInOrder e → s'.InOrder messageId) := by
  cases e with
  | snapshot changes now => exact hs.snapshot hstep hadds
  | userFetched i data now =>
    rcases step_userFetched hstep with ⟨request, user, _, _, hs'⟩
    refine ⟨Iff.rfl, ?_⟩
    intro _
    rw [hs']
    exact hs.of_eq rfl rfl (map_document_setSender s.objects request.message user)
  | fetchFailed i =>
    refine ⟨Iff.rfl, ?_⟩
    intro _
    rw [step_fetchFailed hstep]
    exact hs.of_eq rfl rfl rfl

theorem listsQuery_iff_arrivesInOrder (messageId : String) (es : List Event)
    (hadds : (chatListener messageId).Meets (fun s e _ => AddsMessages messageId s e) init es)
    : (chatListener messageId).Meets (fun _ e s' => ListsQuery messageId s' e) init es
        ↔
      (chatListener messageId).Meets (fun s e _ => s.ArrivesInOrder e) init es := by
  refine Machine.meets_congr_of_meets ?_ ?_ (inOrder_init messageId) hadds
  . intro s e s' hs hstep hadds hlists
    have hnext := inOrder_step hs hstep hadds
    exact hnext.right (hnext.left.mp hlists)
  . intro s e s' hs hstep hadds
    exact (inOrder_step hs hstep hadds).left

theorem listsQuery_inOrder
    : (chatListener "ba").Meets (fun _ e s' => ListsQuery "ba" s' e) init [
        .snapshot [⟨.added, chatMessage "m1" 1, 0⟩] 1,
        .snapshot [⟨.added, chatMessage "m2" 2, 1⟩] 2
      ] := by
  rw [listsQuery_iff_arrivesInOrder _ _ (by decide)]
  decide

-- A photo is stamped when Send is pressed and stored after its upload, when a later message is there.
theorem not_listsQuery
    : ¬∀ (messageId : String) (es : List Event),
        (chatListener messageId).Meets (fun s e _ => AddsMessages messageId s e) init es →
          (chatListener messageId).Meets (fun _ e s' => ListsQuery messageId s' e) init es := by
  intro h
  have hrun := h "ba" [
    .snapshot [⟨.added, chatMessage "m1" 2, 0⟩] 2,
    .snapshot [⟨.added, chatMessage "m2" 1, 0⟩] 3
  ] (by decide)
  exact absurd hrun (by decide)

end ChatListener

end ChatApplication
