import ChatApplication.Controller.ChatController
import ChatApplication.Data.Positions
import ChatApplication.Machine.Basic

/-!
This module contains the composer of an open chat over any sequence of typing, picking photos,
pressing Send and uploads that complete, and the question whether what a Send leads to is what the
composer showed.
-/

namespace ChatApplication

-- a press of Send: what the composer showed, and what it led to so far
structure Send (Image : Type u) (Data : Type v) where
  text : String
  photo : Option Image
  requests : List (Request Data)

-- what happened since a photo was picked the last time
structure SincePick where
  send : Bool
  uploadCompleted : Bool
  deriving DecidableEq, Repr

structure Composer (Image : Type u) (Data : Type v) where
  controller : ChatController Image
  sends : List (Send Image Data)
  -- the uploaded photos by URL
  storage : List (String × Data)
  -- all photos picked so far
  picks : List Image
  sincePick : Option SincePick

namespace Composer

inductive Event (Image : Type u) where
  | type (text : String)
  | pick (editedImage : Option Image)
  | send (date now : Date)
  -- the upload that the `j`-th request of the `i`-th Send asked for
  | uploadCompleted (i j : Nat) (url : String)
  deriving Repr

variable {Image : Type u} {Data : Type v}

def init (user currentUser : User) : Composer Image Data :=
  {
    controller := {
      user := some user
      currentUser := some currentUser
      pickedImage := none
      text := ""
      selectPhotoButton := none
    }
    sends := []
    storage := []
    picks := []
    sincePick := none
  }

def step (pngData : Image → Data) (uid : DocumentID) (s : Composer Image Data)
    : Event Image → Option (Composer Image Data)
  | .type text => some { s with controller := { s.controller with text := text } }
  | .pick editedImage =>
    some {
      s with
      controller := s.controller.didFinishPicking editedImage
      picks := s.picks ++ editedImage.toList
      sincePick :=
        match editedImage with
        | some _ => some ⟨false, false⟩
        | none => s.sincePick
    }
  | .send date now =>
    -- no upload fails, so every photo has PNG data
    match s.controller.handleSendMessage (fun image => some (pngData image)) (some uid) date now with
    | some (controller, requests) =>
      some {
        s with
        controller := controller
        sends := s.sends ++ [⟨s.controller.text, s.controller.selectPhotoButton, requests⟩]
        sincePick := s.sincePick.map (fun since => { since with send := true })
      }
    | none => none
  | .uploadCompleted i j url =>
    match s.sends[i]? with
    | some sent =>
      match sent.requests[j]? with
      | some (.uploadImage upload) =>
        -- `uploadImage` makes up a new name for every photo
        if s.storage.lookup url = none then
          let request := ChatController.addUploaded upload url
          some {
            s with
            controller := s.controller.uploadCompleted
            sends := s.sends.set i { sent with requests := sent.requests.set j request }
            storage := (url, upload.imageData) :: s.storage
            sincePick := s.sincePick.map (fun since => { since with uploadCompleted := true })
          }
        else
          none
      | _ => none
    | none => none

end Composer

def composer {Image : Type u} {Data : Type v} (pngData : Image → Data) (uid : DocumentID)
    : Machine (Composer Image Data) (Composer.Event Image) :=
  ⟨Composer.step pngData uid⟩

-- The photo that a request carries. The inner option is `none` if there is nothing behind the URL.
def Request.photo {Data : Type v} (storage : List (String × Data))
    : Request Data → Option (Option Data)
  | .uploadImage upload => some (some upload.imageData)
  | .addMessage message _ _ => message.imageUrl.map (fun url => storage.lookup url)

namespace Send

variable {Image : Type u} {Data : Type v}

-- Exactly one message with the text and the photo shown, or none if there was nothing to be sent. A
-- message whose photo is being uploaded counts as the message that the upload will end with.
def AsShown (pngData : Image → Data) (storage : List (String × Data)) (sent : Send Image Data)
    : Prop :=
  if sent.text = "" ∧ sent.photo.isNone then
    sent.requests = []
  else
    ∃ request, sent.requests = [request] ∧ request.message.text = sent.text
      ∧ request.photo storage = sent.photo.map (fun image => some (pngData image))

theorem photo_store {storage : List (String × Data)} {request : Request Data}
    (hurls : ∀ url, request.message.imageUrl = some url → storage.lookup url ≠ none)
    {url : String} (hurl : storage.lookup url = none) (data : Data)
    : request.photo ((url, data) :: storage) = request.photo storage := by
  cases request with
  | uploadImage upload => rfl
  | addMessage message currentUser otherUser =>
    unfold Request.photo
    dsimp
    cases himageUrl : message.imageUrl with
    | none => rfl
    | some url' =>
      have hne : url' ≠ url := by
        intro heq
        have hstored := hurls url' himageUrl
        rw [heq, hurl] at hstored
        contradiction
      rw [Option.map_some, Option.map_some, List.lookup_cons, beq_false_of_ne hne]

theorem AsShown.store {pngData : Image → Data} {storage : List (String × Data)}
    {sent : Send Image Data} (h : sent.AsShown pngData storage)
    (hurls : ∀ request ∈ sent.requests, ∀ url,
      request.message.imageUrl = some url → storage.lookup url ≠ none)
    {url : String} (hurl : storage.lookup url = none) (data : Data)
    : sent.AsShown pngData ((url, data) :: storage) := by
  unfold AsShown at h ⊢
  split at h
  . next hempty =>
    rw [if_pos hempty]
    exact h
  . next hshown =>
    rw [if_neg hshown]
    rcases h with ⟨request, hrequests, htext, hphoto⟩
    refine ⟨request, hrequests, htext, ?_⟩
    rw [photo_store (hurls request (by rw [hrequests]; simp)) hurl, hphoto]

theorem AsShown.uploadCompleted {pngData : Image → Data} {storage : List (String × Data)}
    {sent : Send Image Data} (h : sent.AsShown pngData storage) {j : Nat} {upload : Upload Data}
    (hupload : sent.requests[j]? = some (.uploadImage upload)) (url : String)
    : Send.AsShown pngData ((url, upload.imageData) :: storage)
        { sent with requests := sent.requests.set j (ChatController.addUploaded upload url) } := by
  unfold AsShown at h ⊢
  split at h
  . rw [h] at hupload
    contradiction
  . next hshown =>
    rw [if_neg hshown]
    rcases h with ⟨request, hrequests, htext, hphoto⟩
    rw [hrequests, List.getElem?_singleton] at hupload
    split at hupload
    . next hj =>
      injection hupload with hupload
      rw [hupload] at htext hphoto
      refine ⟨ChatController.addUploaded upload url, ?_, htext, ?_⟩
      . rw [hrequests, hj]
        rfl
      . rw [← hphoto]
        unfold ChatController.addUploaded Request.photo
        simp
    . contradiction

variable [DecidableEq Data]

def shows (pngData : Image → Data) (data : Data) (sent : Send Image Data) : Bool :=
  sent.photo.map pngData = some data

def posts (storage : List (String × Data)) (data : Data) (sent : Send Image Data) : Bool :=
  sent.requests.any (fun request => request.photo storage = some (some data))

theorem AsShown.shows_of_posts {pngData : Image → Data} {storage : List (String × Data)}
    {sent : Send Image Data} (h : sent.AsShown pngData storage) {data : Data}
    (hposts : sent.posts storage data) : sent.shows pngData data := by
  unfold posts at hposts
  unfold AsShown at h
  split at h
  . rw [h] at hposts
    contradiction
  . rcases h with ⟨request, hrequests, _, hphoto⟩
    rw [hrequests] at hposts
    simp only [List.any_cons, List.any_nil, Bool.or_false, decide_eq_true_eq] at hposts
    rw [hphoto] at hposts
    unfold shows
    cases hshown : sent.photo with
    | none => simp [hshown] at hposts
    | some image => simpa [hshown] using hposts

end Send

namespace Composer

variable {Image : Type u} {Data : Type v} {pngData : Image → Data} {uid : DocumentID}

-- `pickedImage` is reset by the end of an upload and the photo button by a Send.
def HiddenAndShown (controller : ChatController Image) : Option SincePick → Prop
  | none => controller.pickedImage = none ∧ controller.selectPhotoButton = none
  | some since =>
    ∃ image,
      controller.pickedImage = (if since.uploadCompleted then none else some image)
        ∧ controller.selectPhotoButton = (if since.send then none else some image)

theorem HiddenAndShown.eq_iff {controller : ChatController Image} {sincePick : Option SincePick}
    (h : HiddenAndShown controller sincePick)
    : controller.pickedImage = controller.selectPhotoButton
        ↔
      ∀ since, sincePick = some since → since.send = since.uploadCompleted := by
  cases sincePick with
  | none =>
    rw [h.left, h.right]
    simp
  | some since =>
    rcases h with ⟨image, hpicked, hshown⟩
    rw [hpicked, hshown]
    rcases since with ⟨send, uploadCompleted⟩
    cases send <;> cases uploadCompleted <;> simp

theorem HiddenAndShown.eq_of_isSome {controller : ChatController Image}
    {sincePick : Option SincePick} (h : HiddenAndShown controller sincePick)
    (hpicked : controller.pickedImage.isSome) (hshown : controller.selectPhotoButton.isSome)
    : controller.pickedImage = controller.selectPhotoButton := by
  cases sincePick with
  | none => rw [h.left, h.right]
  | some since =>
    rcases h with ⟨image, hpicked', hshown'⟩
    rw [hpicked'] at hpicked
    rw [hshown'] at hshown
    rw [hpicked', hshown']
    split at hpicked
    . contradiction
    . next hcompleted =>
      split at hshown
      . contradiction
      . next hsend => rw [if_neg hcompleted, if_neg hsend]

theorem send_of_eq (pngData : Image → Data) (uid : DocumentID) {c : ChatController Image}
    (huser : c.user.isSome) (hcurrentUser : c.currentUser.isSome)
    (heq : c.pickedImage = c.selectPhotoButton) (date now : Date) (storage : List (String × Data))
    : ∃ requests,
        c.handleSendMessage (fun image => some (pngData image)) (some uid) date now
            = some ({ c with selectPhotoButton := none, text := "" }, requests)
          ∧ Send.AsShown pngData storage ⟨c.text, c.selectPhotoButton, requests⟩
          ∧ ∀ request ∈ requests, request.message.imageUrl = none := by
  rw [Option.isSome_iff_exists] at huser hcurrentUser
  rcases huser with ⟨otherUser, huser⟩
  rcases hcurrentUser with ⟨currentUser, hcurrentUser⟩
  unfold Send.AsShown
  cases Option.eq_none_or_eq_some c.pickedImage with
  | inr hsome =>
    rcases hsome with ⟨image, hpicked⟩
    rw [ChatController.handleSendMessage_photo huser hcurrentUser hpicked]
    refine ⟨_, rfl, ?_, ?_⟩
    . dsimp
      rw [← heq, hpicked, if_neg (by simp)]
      exact ⟨_, rfl, rfl, rfl⟩
    . intro request hrequest
      unfold ChatController.uploadImage at hrequest
      rw [List.mem_singleton] at hrequest
      rw [hrequest]
      rfl
  | inl hpicked =>
    have hshown : c.selectPhotoButton = none := by rw [← heq, hpicked]
    by_cases htext : c.text = ""
    . rw [ChatController.handleSendMessage_empty huser hpicked htext]
      refine ⟨[], ?_, ?_, ?_⟩
      . rw [← hshown, ← htext]
      . rw [if_pos ⟨htext, by rw [hshown]; rfl⟩]
      . intro request hrequest
        contradiction
    . rw [ChatController.handleSendMessage_text huser hcurrentUser hpicked htext]
      refine ⟨_, rfl, ?_, ?_⟩
      . rw [if_neg (fun h => htext h.left), hshown]
        exact ⟨_, rfl, rfl, rfl⟩
      . intro request hrequest
        rw [List.mem_singleton] at hrequest
        rw [hrequest]
        rfl

theorem eq_of_send {c c' : ChatController Image} {requests : List (Request Data)}
    (huser : c.user.isSome) (hcurrentUser : c.currentUser.isSome) {sincePick : Option SincePick}
    (hphoto : HiddenAndShown c sincePick) {date now : Date} {storage : List (String × Data)}
    (hsend : c.handleSendMessage (fun image => some (pngData image)) (some uid) date now
      = some (c', requests))
    (h : Send.AsShown pngData storage ⟨c.text, c.selectPhotoButton, requests⟩)
    : c.pickedImage = c.selectPhotoButton := by
  rw [Option.isSome_iff_exists] at huser hcurrentUser
  rcases huser with ⟨otherUser, huser⟩
  rcases hcurrentUser with ⟨currentUser, hcurrentUser⟩
  unfold Send.AsShown at h
  dsimp at h
  cases hpicked : c.pickedImage with
  | some image =>
    rw [ChatController.handleSendMessage_photo huser hcurrentUser hpicked] at hsend
    injection hsend with hsend
    injection hsend with _ hrequests
    rw [← hrequests] at h
    cases hshown : c.selectPhotoButton with
    | none =>
      -- the hidden photo is posted although none is shown
      split at h
      . contradiction
      . rcases h with ⟨request, hrequest, _, hphoto⟩
        unfold ChatController.uploadImage at hrequest
        injection hrequest with hrequest
        rw [← hrequest, hshown] at hphoto
        contradiction
    | some shown =>
      rw [← hpicked, ← hshown]
      apply hphoto.eq_of_isSome
      . rw [hpicked]
        rfl
      . rw [hshown]
        rfl
  | none =>
    cases hshown : c.selectPhotoButton with
    | none => rfl
    | some shown =>
      -- the photo that is shown is left out
      rw [if_neg (by simp [hshown])] at h
      rcases h with ⟨request, hrequest, _, hphoto⟩
      by_cases htext : c.text = ""
      . rw [ChatController.handleSendMessage_empty huser hpicked htext] at hsend
        injection hsend with hsend
        injection hsend with _ hrequests
        rw [← hrequests] at hrequest
        contradiction
      . rw [ChatController.handleSendMessage_text huser hcurrentUser hpicked htext] at hsend
        injection hsend with hsend
        injection hsend with _ hrequests
        rw [← hrequests] at hrequest
        injection hrequest with hrequest
        rw [← hrequest, hshown] at hphoto
        contradiction

theorem step_uploadCompleted {s s' : Composer Image Data} {i j : Nat} {url : String}
    (hstep : (composer pngData uid).step s (.uploadCompleted i j url) = some s')
    : ∃ sent upload, s.sends[i]? = some sent ∧ sent.requests[j]? = some (.uploadImage upload)
        ∧ s.storage.lookup url = none
        ∧ s' = {
            s with
            controller := s.controller.uploadCompleted
            sends := s.sends.set i {
              sent with
              requests := sent.requests.set j (ChatController.addUploaded upload url)
            }
            storage := (url, upload.imageData) :: s.storage
            sincePick := s.sincePick.map (fun since => { since with uploadCompleted := true })
          } := by
  simp only [composer, step] at hstep
  split at hstep
  . next sent hsent =>
    split at hstep
    . next upload hupload =>
      split at hstep
      . next hurl =>
        injection hstep with hstep
        exact ⟨sent, upload, hsent, hupload, hurl, hstep.symm⟩
      . contradiction
    . contradiction
  . contradiction

variable [DecidableEq Data]

-- Every Send led to what the composer showed, and no photo is in more messages than it was picked.
def SentAsShown (pngData : Image → Data) (s : Composer Image Data) : Prop :=
  (∀ sent ∈ s.sends, sent.AsShown pngData s.storage)
    ∧
  ∀ data, s.sends.countP (Send.posts s.storage data)
    ≤ s.picks.countP (fun image => pngData image = data)

-- Send is pressed when, since the last pick, either both a Send and the end of an upload have
-- happened or neither of them.
def SendAfterUpload (s : Composer Image Data) : Event Image → Prop
  | .send _ _ => ∀ since, s.sincePick = some since → since.send = since.uploadCompleted
  | _ => True

structure InSync (pngData : Image → Data) (s : Composer Image Data) : Prop where
  loaded : s.controller.user.isSome ∧ s.controller.currentUser.isSome
  photo : HiddenAndShown s.controller s.sincePick
  sends : ∀ sent ∈ s.sends, sent.AsShown pngData s.storage
  urls : ∀ sent ∈ s.sends, ∀ request ∈ sent.requests, ∀ url,
    request.message.imageUrl = some url → s.storage.lookup url ≠ none
  -- a photo that is still shown may be sent once more
  picks : ∀ data,
    s.sends.countP (Send.shows pngData data)
      + (if s.controller.selectPhotoButton.map pngData = some data then 1 else 0)
      ≤ s.picks.countP (fun image => pngData image = data)

theorem InSync.sentAsShown {s : Composer Image Data} (hs : s.InSync pngData)
    : s.SentAsShown pngData := by
  refine ⟨hs.sends, ?_⟩
  intro data
  have hcount : s.sends.countP (Send.posts s.storage data)
      ≤ s.sends.countP (Send.shows pngData data) := by
    apply List.countP_mono_left
    intro sent hsent hposts
    exact (hs.sends sent hsent).shows_of_posts hposts
  have hpicks := hs.picks data
  omega

theorem inSync_init (pngData : Image → Data) (user currentUser : User)
    : InSync pngData (init user currentUser : Composer Image Data) := by
  constructor
  . exact ⟨rfl, rfl⟩
  . exact ⟨rfl, rfl⟩
  . intro sent hsent
    contradiction
  . intro sent hsent
    contradiction
  . intro data
    simp [init]

theorem inSync_type {s : Composer Image Data} (hs : s.InSync pngData) (text : String)
    : InSync pngData { s with controller := { s.controller with text := text } } := by
  constructor
  . exact hs.loaded
  . exact hs.photo
  . exact hs.sends
  . exact hs.urls
  . exact hs.picks

theorem inSync_pick {s s' : Composer Image Data} (hs : s.InSync pngData)
    {editedImage : Option Image}
    (hstep : (composer pngData uid).step s (.pick editedImage) = some s') : s'.InSync pngData := by
  simp only [composer, step, Option.some.injEq] at hstep
  rw [← hstep]
  cases editedImage with
  | none =>
    constructor
    . exact hs.loaded
    . exact hs.photo
    . exact hs.sends
    . exact hs.urls
    . intro data
      simpa [ChatController.didFinishPicking] using hs.picks data
  | some image =>
    constructor
    . exact hs.loaded
    . exact ⟨image, rfl, rfl⟩
    . exact hs.sends
    . exact hs.urls
    . intro data
      have hpicks := hs.picks data
      simp only [ChatController.didFinishPicking, Option.toList_some, List.countP_append,
        List.countP_singleton, Option.map_some, Option.some.injEq, decide_eq_true_eq]
      omega

theorem inSync_send {s s' : Composer Image Data} (hs : s.InSync pngData) {date now : Date}
    (hstep : (composer pngData uid).step s (.send date now) = some s')
    (hsend : s.SendAfterUpload (.send date now)) : s'.InSync pngData := by
  have heq := hs.photo.eq_iff.mpr hsend
  rcases send_of_eq pngData uid hs.loaded.left hs.loaded.right heq date now s.storage
    with ⟨requests, hrequests, hasShown, hurls⟩
  simp only [composer, step, hrequests, Option.some.injEq] at hstep
  rw [← hstep]
  constructor
  . exact hs.loaded
  . have hphoto := hs.photo
    dsimp
    cases hsince : s.sincePick with
    | none =>
      rw [hsince] at hphoto
      exact ⟨hphoto.left, rfl⟩
    | some since =>
      rw [hsince] at hphoto
      rcases hphoto with ⟨image, hpicked, _⟩
      exact ⟨image, hpicked, rfl⟩
  . intro sent hsent
    rw [List.mem_append, List.mem_singleton] at hsent
    cases hsent with
    | inl hold => exact hs.sends sent hold
    | inr hnew =>
      rw [hnew]
      exact hasShown
  . intro sent hsent
    rw [List.mem_append, List.mem_singleton] at hsent
    cases hsent with
    | inl hold => exact hs.urls sent hold
    | inr hnew =>
      intro request hrequest url hurl
      rw [hnew] at hrequest
      rw [hurls request hrequest] at hurl
      contradiction
  . intro data
    have hpicks := hs.picks data
    simp only [List.countP_append, List.countP_singleton, Send.shows, Option.map_none,
      reduceCtorEq, if_false, decide_eq_true_eq]
    omega

theorem inSync_uploadCompleted {s s' : Composer Image Data} (hs : s.InSync pngData) {i j : Nat}
    {url : String} (hstep : (composer pngData uid).step s (.uploadCompleted i j url) = some s')
    : s'.InSync pngData := by
  rcases step_uploadCompleted hstep with ⟨sent, upload, hsent, hupload, hurl, hs'⟩
  have hmem := List.mem_of_getElem? hsent
  rw [hs']
  constructor
  . exact hs.loaded
  . have hphoto := hs.photo
    dsimp [ChatController.uploadCompleted]
    cases hsince : s.sincePick with
    | none =>
      rw [hsince] at hphoto
      exact ⟨rfl, hphoto.right⟩
    | some since =>
      rw [hsince] at hphoto
      rcases hphoto with ⟨image, _, hshown⟩
      exact ⟨image, rfl, hshown⟩
  . intro sent' hsent'
    cases List.mem_or_eq_of_mem_set hsent' with
    | inl hold => exact (hs.sends sent' hold).store (hs.urls sent' hold) hurl upload.imageData
    | inr hnew =>
      rw [hnew]
      exact (hs.sends sent hmem).uploadCompleted hupload url
  . intro sent' hsent' request hrequest url' hurl'
    have hstored : ∀ url', s.storage.lookup url' ≠ none →
        ((url, upload.imageData) :: s.storage).lookup url' ≠ none := by
      intro url' hurl'
      rw [List.lookup_cons]
      split
      . simp
      . exact hurl'
    cases List.mem_or_eq_of_mem_set hsent' with
    | inl hold => exact hstored url' (hs.urls sent' hold request hrequest url' hurl')
    | inr hnew =>
      rw [hnew] at hrequest
      cases List.mem_or_eq_of_mem_set hrequest with
      | inl hold => exact hstored url' (hs.urls sent hmem request hold url' hurl')
      | inr huploaded =>
        rw [huploaded] at hurl'
        injection hurl' with hurl'
        simp [← hurl']
  . intro data
    have hshows : Send.shows pngData data {
        sent with
        requests := sent.requests.set j (ChatController.addUploaded upload url)
      } = Send.shows pngData data sent := by rfl
    dsimp
    rw [List.countP_set_of_eq hsent hshows]
    exact hs.picks data

theorem inSync_step {s : Composer Image Data} {e : Event Image} {s' : Composer Image Data}
    (hs : s.InSync pngData) (hstep : (composer pngData uid).step s e = some s')
    (hsend : s.SendAfterUpload e) : s'.InSync pngData := by
  cases e with
  | type text =>
    simp only [composer, step, Option.some.injEq] at hstep
    rw [← hstep]
    exact inSync_type hs text
  | pick editedImage => exact inSync_pick hs hstep
  | send date now => exact inSync_send hs hstep hsend
  | uploadCompleted i j url => exact inSync_uploadCompleted hs hstep

theorem sendAfterUpload_of_sentAsShown {s : Composer Image Data} {e : Event Image}
    {s' : Composer Image Data} (hs : s.InSync pngData)
    (hstep : (composer pngData uid).step s e = some s') (h : s'.SentAsShown pngData)
    : s.SendAfterUpload e := by
  cases e with
  | send date now =>
    simp only [composer, step] at hstep
    split at hstep
    . next controller requests hsend =>
      injection hstep with hstep
      rw [← hstep] at h
      have hlast := h.left ⟨s.controller.text, s.controller.selectPhotoButton, requests⟩
        (by simp)
      apply hs.photo.eq_iff.mp
      exact eq_of_send hs.loaded.left hs.loaded.right hs.photo hsend hlast
    . contradiction
  | type text => trivial
  | pick editedImage => trivial
  | uploadCompleted i j url => trivial

theorem sentAsShown_iff_sendAfterUpload (pngData : Image → Data) (uid : DocumentID)
    (user currentUser : User) (es : List (Event Image))
    : (composer pngData uid).Meets (fun _ _ s' => s'.SentAsShown pngData) (init user currentUser) es
        ↔
      (composer pngData uid).Meets (fun s e _ => s.SendAfterUpload e) (init user currentUser) es := by
  refine Machine.meets_congr ?_ ?_ (inSync_init pngData user currentUser)
  . intro s e s' hs hstep hshown
    exact inSync_step hs hstep (sendAfterUpload_of_sentAsShown hs hstep hshown)
  . intro s e s' hs hstep
    constructor
    . exact sendAfterUpload_of_sentAsShown hs hstep
    . intro hsend
      exact (inSync_step hs hstep hsend).sentAsShown

-- A second Send before the end of the upload posts the photo once more.
theorem not_sentAsShown
    : ¬∀ es : List (Event Nat), (composer (fun image => image) "a").Meets
        (fun _ _ s' => s'.SentAsShown (fun image => image))
        (init ⟨"b", "Bob", "B", "bob@mail.org", "pb", 1, false⟩
          ⟨"a", "Ann", "A", "ann@mail.org", "pa", 1, false⟩) es := by
  intro h
  have hrun := h [.pick (some 7), .send 2 2, .send 3 3]
  have hshown := ((hrun _ rfl).right _ rfl).right _ rfl
  have hlast := hshown.left.left ⟨"", none, _⟩ (List.mem_cons_of_mem _ (List.mem_cons_self))
  contradiction

end Composer

end ChatApplication
