import ChatApplication.Clients.Delivery

/-!
This module contains the way of a message from the Send button to the screens. Each press of Send that
asks for something leads to one message, at once or when the photo is uploaded.
-/

namespace ChatApplication

-- the message as it was composed, whether or not its photo has been uploaded since
def Message.withoutUrl (message : Message) : Message :=
  { message with imageUrl := none }

theorem Message.withoutUrl_eq {message : Message} (h : message.imageUrl = none)
    : message.withoutUrl = message := by
  unfold withoutUrl
  rw [← h]

namespace Clients

variable {Image : Type u} {Data : Type v} {pngData : Image → Option Data}

-- the message that is given up together with its upload
def failedMessages (s : Clients Data) : Event Image → List Message
  | .uploadFailed i => s.uploads[i]?.toList.map ChatUpload.message
  | _ => []

-- the messages sent so far that are posted or wait for their photo
def sending (s : Clients Data) : List Message :=
  s.posted.map (fun posted => posted.message.withoutUrl) ++ s.uploads.map ChatUpload.message

def UploadsWithoutUrl (s : Clients Data) : Prop :=
  ∀ upload ∈ s.uploads, upload.message.imageUrl = none

theorem perm_uploads {s : Clients Data} {i : Nat} {upload : ChatUpload Data}
    (h : s.uploads[i]? = some upload)
    : (upload.message :: (s.uploads.eraseIdx i).map ChatUpload.message).Perm
        (s.uploads.map ChatUpload.message) := by
  exact (List.cons_eraseIdx_perm h).map ChatUpload.message

theorem addMessage_uploads {s s' : Clients Data} {uid : AuthUid} {message : Message}
    {currentUser otherUser : Nat} {date date' : Date} {documentID : DocumentID}
    (h : s.addMessage uid message currentUser otherUser date date' documentID = some s')
    : s'.uploads = s.uploads ∧ s'.sending.Perm (s.sending ++ [message.withoutUrl]) := by
  rcases addMessage_eq_some h with ⟨_, server', _, hs'⟩
  rw [hs']
  refine ⟨rfl, ?_⟩
  unfold sending
  dsimp only
  rw [List.map_append, List.append_assoc, List.append_assoc]
  exact List.perm_append_comm.append_left _

theorem sending_step {s s' : Clients Data} {e : Event Image} (hs : s.UploadsWithoutUrl)
    (hstep : (clients pngData).step s e = some s')
    : s'.UploadsWithoutUrl
        ∧ (s'.sending ++ failedMessages s e).Perm (s.sending ++ sentMessages pngData s e) := by
  have hsame : s'.posted = s.posted → s'.uploads = s.uploads → failedMessages s e = [] →
      sentMessages pngData s e = [] → s'.UploadsWithoutUrl
        ∧ (s'.sending ++ failedMessages s e).Perm (s.sending ++ sentMessages pngData s e) := by
    intro hposted huploads hfailed hsent
    unfold UploadsWithoutUrl sending
    rw [hposted, huploads, hfailed, hsent]
    exact ⟨hs, List.Perm.refl _⟩
  cases e with
  | send chat pickedImage text date now date' date'' documentID =>
    rcases step_send hstep with ⟨heq, hsent, _⟩
      | ⟨c, otherUser, currentUser, _, _, _, ⟨_, hadd, hsent, _⟩ | ⟨_, imageData, _, _, hs', hsent, _⟩⟩
    . exact hsame (by rw [heq]) (by rw [heq]) rfl hsent
    . rcases addMessage_uploads hadd with ⟨huploads, hsending⟩
      have hcomposed : (composed c otherUser text now).withoutUrl = composed c otherUser text now := by
        exact Message.withoutUrl_eq rfl
      rw [hcomposed] at hsending
      refine ⟨?_, ?_⟩
      . unfold UploadsWithoutUrl
        rw [huploads]
        exact hs
      . rw [hsent]
        change (s'.sending ++ []).Perm _
        rw [List.append_nil]
        exact hsending
    . rw [hs', hsent]
      refine ⟨?_, ?_⟩
      . unfold UploadsWithoutUrl
        rw [List.forall_mem_append, List.forall_mem_singleton]
        exact ⟨hs, rfl⟩
      . unfold sending failedMessages
        rw [List.map_append, List.append_nil, List.append_assoc]
        exact List.Perm.refl _
  | uploadCompleted i url date date' documentID =>
    rcases step_uploadCompleted hstep with ⟨upload, hupload, hadd⟩
    rcases addMessage_uploads hadd with ⟨huploads, hsending⟩
    have hmessage : { upload.message with imageUrl := some url }.withoutUrl = upload.message := by
      exact Message.withoutUrl_eq (hs upload (List.mem_of_getElem? hupload))
    rw [hmessage] at hsending
    refine ⟨?_, ?_⟩
    . unfold UploadsWithoutUrl
      rw [huploads]
      intro other hother
      exact hs other (List.mem_of_mem_eraseIdx hother)
    . change (s'.sending ++ []).Perm (s.sending ++ [])
      rw [List.append_nil, List.append_nil]
      refine hsending.trans ?_
      unfold sending
      rw [List.append_assoc]
      exact ((List.perm_append_singleton _ _).trans (perm_uploads hupload)).append_left _
  | uploadFailed i =>
    rw [step_uploadFailed hstep]
    refine ⟨?_, ?_⟩
    . intro other hother
      exact hs other (List.mem_of_mem_eraseIdx hother)
    . unfold sending failedMessages sentMessages
      dsimp only
      rw [List.append_nil, List.append_assoc]
      apply List.Perm.append_left
      cases hupload : s.uploads[i]? with
      | none =>
        rw [List.getElem?_eq_none_iff] at hupload
        rw [List.eraseIdx_of_length_le hupload, Option.toList_none, List.map_nil, List.append_nil]
      | some upload =>
        exact (List.perm_append_singleton _ _).trans (perm_uploads hupload)
  | _ =>
    have hposted := posted_step hstep (fun h => h)
    exact hsame hposted.left hposted.right rfl rfl

theorem sending_of_run {s : Clients Data} {es : List (Event Image)}
    (hrun : (clients pngData).exec init es = some s)
    : (s.sending ++ (clients pngData).trace failedMessages init es).Perm
        ((clients pngData).trace (sentMessages pngData) init es) := by
  have hinit : (init : Clients Data).UploadsWithoutUrl := by
    intro upload hupload
    contradiction
  exact Machine.perm_trace_of_exec (fun s e s' hs hstep => (sending_step hs hstep).left)
    (fun s e s' hs hstep => (sending_step hs hstep).right) hinit hrun

/--
From the button to the screen: an open chat at rest shows the messages that were sent under its
message id, each once and but for those whose photo is being uploaded or could not be.
-/
theorem shows_all_sent_at_rest (pngData : Image → Option Data) (es : List (Event Image))
    {s : Clients Data} (hrun : (clients pngData).exec init es = some s) {chat : Nat}
    (hinOrder : (clients pngData).Meets (fun s e _ => s.RepliesInOrder chat e) init es)
    {c : OpenChat} (hc : s.chats[chat]? = some c) (hrest : s.AtRest c)
    : (c.listener.chat.map (fun shown => shown.message.withoutUrl)
        ++ (s.uploads.map ChatUpload.message
            ++ (clients pngData).trace failedMessages init es).filter
          (fun message => message.msgId = c.messageId)).Perm
        (((clients pngData).trace (sentMessages pngData) init es).filter
          (fun message => message.msgId = c.messageId)) := by
  rcases inv_of_run hrun with ⟨hs, hpublished⟩
  have hgenerations := generations_of_run hrun hinOrder hc
  have hposted := (hs.perm_posted hpublished (List.mem_of_getElem? hc) hgenerations hrest).map
    Message.withoutUrl
  have hwithoutUrl : ((s.posted.map Posted.message).filter
        (fun message => message.msgId = c.messageId)).map Message.withoutUrl
      =
      (s.posted.map (fun posted => posted.message.withoutUrl)).filter
        (fun message => message.msgId = c.messageId) := by
    rw [List.filter_map, List.filter_map, List.map_map]
    rfl
  rw [hwithoutUrl, List.map_map] at hposted
  have hsent := (sending_of_run hrun).filter (fun message => message.msgId = c.messageId)
  rw [sending, List.append_assoc, List.filter_append] at hsent
  exact (hposted.append_right _).trans hsent

theorem shows_all_sent_at_rest_teamRun
    : ∃ s c, (clients (fun image => some image)).exec init teamRun = some s ∧ s.chats[1]? = some c
        ∧ c.messageId = team.value ∧ c.listener.chat.map ChatMessage.message = [hello, hi]
        ∧ (c.listener.chat.map (fun shown => shown.message.withoutUrl)
          ++ (s.uploads.map ChatUpload.message
              ++ (clients (fun image => some image)).trace failedMessages init teamRun).filter
            (fun message => message.msgId = c.messageId)).Perm
          (((clients (fun image => some image)).trace (sentMessages (fun image => some image)) init
            teamRun).filter (fun message => message.msgId = c.messageId)) := by
  have hinOrder := repliesInOrder_teamRun 1 (by decide)
  refine ⟨_, _, rfl, rfl, rfl, rfl, ?_⟩
  exact shows_all_sent_at_rest (fun image => some image) teamRun rfl hinOrder rfl
    ⟨rfl, by decide, rfl⟩

end Clients

end ChatApplication
