import ChatApplication.Controller.ChatController
import ChatApplication.Data.Positions
import ChatApplication.Machine.Basic

/-!
This module contains the composer of an open chat when uploads may fail. `uploadImage` tells nobody
about a failure, so what Send has cleared by then stays cleared and the photo stays picked.
-/

namespace ChatApplication

-- where `uploadImage` returns although the photo has PNG data
inductive UploadError where
  | putData
  | downloadURL
  deriving DecidableEq, Repr

-- an upload in progress, and the photo that the composer showed when Send was pressed
structure PhotoUpload (Image : Type u) (Data : Type v) where
  upload : Upload Data
  shown : Option Image
  deriving DecidableEq, Repr

-- a message that `addMessage` was called with, and the photo behind its URL
structure PostedMessage (Image : Type u) (Data : Type v) where
  message : Message
  photo : Option Data
  shown : Option Image
  deriving DecidableEq, Repr

structure UploadingComposer (Image : Type u) (Data : Type v) where
  controller : ChatController Image
  uploads : List (PhotoUpload Image Data)
  posted : List (PostedMessage Image Data)
  deriving DecidableEq, Repr

namespace UploadingComposer

inductive Event (Image : Type u) where
  | type (text : String)
  | pick (editedImage : Option Image)
  | send (date now : Date)
  | uploadCompleted (i : Nat) (url : String)
  | uploadFailed (i : Nat) (error : UploadError)
  deriving DecidableEq, Repr

variable {Image : Type u} {Data : Type v}

def init (user currentUser : User) : UploadingComposer Image Data :=
  {
    controller := {
      user := some user
      currentUser := some currentUser
      pickedImage := none
      text := ""
      selectPhotoButton := none
    }
    uploads := []
    posted := []
  }

def request (shown : Option Image) (s : UploadingComposer Image Data)
    : Request Data → UploadingComposer Image Data
  | .uploadImage upload => { s with uploads := s.uploads ++ [⟨upload, shown⟩] }
  | .addMessage message _ _ => { s with posted := s.posted ++ [⟨message, none, shown⟩] }

def step (pngData : Image → Option Data) (uid : DocumentID) (s : UploadingComposer Image Data)
    : Event Image → Option (UploadingComposer Image Data)
  | .type text => some { s with controller := { s.controller with text := text } }
  | .pick editedImage => some { s with controller := s.controller.didFinishPicking editedImage }
  | .send date now =>
    match s.controller.handleSendMessage pngData (some uid) date now with
    | some (controller, requests) =>
      some (requests.foldl (request s.controller.selectPhotoButton)
        { s with controller := controller })
    | none => none
  | .uploadCompleted i url =>
    match s.uploads[i]? with
    | some ⟨upload, shown⟩ =>
      let message := (ChatController.addUploaded upload url).message
      some {
        controller := s.controller.uploadCompleted
        uploads := s.uploads.eraseIdx i
        posted := s.posted ++ [⟨message, some upload.imageData, shown⟩]
      }
    | none => none
  -- the completion is not called
  | .uploadFailed i _ =>
    if i < s.uploads.length then
      some { s with uploads := s.uploads.eraseIdx i }
    else
      none

end UploadingComposer

def uploadingComposer {Image : Type u} {Data : Type v} (pngData : Image → Option Data)
    (uid : DocumentID)
    : Machine (UploadingComposer Image Data) (UploadingComposer.Event Image) :=
  ⟨UploadingComposer.step pngData uid⟩

namespace UploadingComposer

variable {Image : Type u} {Data : Type v} {pngData : Image → Option Data} {uid : DocumentID}

-- Send is pressed with the photo picked, and the upload fails before anything else happens.
def FailedSend (pngData : Image → Option Data) (uid : DocumentID) (image : Image)
    (s s' : UploadingComposer Image Data) : Prop :=
  s.controller.pickedImage = some image ∧ s.controller.currentUser.isSome
    ∧ ∃ date now,
        match pngData image with
        | none => (uploadingComposer pngData uid).exec s [.send date now] = some s'
        | some _ =>
          ∃ error, (uploadingComposer pngData uid).exec s
            [.send date now, .uploadFailed s.uploads.length error] = some s'

-- the messages posted after `s`, in a run from `s` to `t`
def postedSince (s t : UploadingComposer Image Data) : List (PostedMessage Image Data) :=
  t.posted.drop s.posted.length

structure LosesNothing (pngData : Image → Option Data) (uid : DocumentID)
    (s s' : UploadingComposer Image Data) : Prop where
  posted : s'.posted = s.posted
  text : s'.controller.text = s.controller.text
  pickedImage : s'.controller.pickedImage = s.controller.pickedImage
  selectPhotoButton : s'.controller.selectPhotoButton = s.controller.pickedImage
  later : ∀ es t, (uploadingComposer pngData uid).exec s' es = some t →
    ∀ message ∈ s'.postedSince t, message.photo.isSome → message.shown.bind pngData = message.photo

-- A photo that the composer does not show is going to be sent.
def Hides (c : ChatController Image) (image : Image) : Prop :=
  c.pickedImage = some image ∧ c.selectPhotoButton = none

theorem user_of_handleSendMessage {c : ChatController Image} {date now : Date}
    {result : ChatController Image × List (Request Data)}
    (h : c.handleSendMessage pngData (some uid) date now = some result) : c.user.isSome := by
  cases huser : c.user with
  | none =>
    unfold ChatController.handleSendMessage at h
    rw [huser] at h
    contradiction
  | some user => rfl

theorem step_send {s s' : UploadingComposer Image Data} {image : Image}
    (hpicked : s.controller.pickedImage = some image)
    (hcurrentUser : s.controller.currentUser.isSome) {date now : Date}
    (hstep : (uploadingComposer pngData uid).step s (.send date now) = some s')
    : s'.controller = { s.controller with selectPhotoButton := none, text := "" }
        ∧ s'.posted = s.posted
        ∧ match pngData image with
          | none => s'.uploads = s.uploads
          | some imageData =>
            ∃ upload, upload.imageData = imageData
              ∧ s'.uploads = s.uploads ++ [⟨upload, s.controller.selectPhotoButton⟩] := by
  simp only [uploadingComposer, step] at hstep
  split at hstep
  . next controller requests hsend =>
    rcases Option.isSome_iff_exists.mp (user_of_handleSendMessage hsend) with ⟨user, huser⟩
    rcases Option.isSome_iff_exists.mp hcurrentUser with ⟨currentUser, hcurrentUser⟩
    rw [ChatController.handleSendMessage_photo huser hcurrentUser hpicked] at hsend
    injection hsend with hsend
    injection hsend with hcontroller hrequests
    injection hstep with hstep
    rw [← hcontroller, ← hrequests] at hstep
    rw [← hstep]
    unfold ChatController.uploadImage
    split
    . next imageData himage =>
      rw [himage]
      exact ⟨rfl, rfl, _, rfl, rfl⟩
    . next himage =>
      rw [himage]
      exact ⟨rfl, rfl, rfl⟩
  . contradiction

-- Wherever the upload fails, the text is gone and the photo is hidden.
theorem eq_of_failedSend {image : Image} {s s' : UploadingComposer Image Data}
    (h : FailedSend pngData uid image s s')
    : s' = { s with controller := { s.controller with selectPhotoButton := none, text := "" } } := by
  rcases h with ⟨hpicked, hcurrentUser, date, now, hrun⟩
  cases hdata : pngData image with
  | none =>
    simp only [hdata, Machine.exec_cons_eq_some, Machine.exec_nil, Option.some.injEq] at hrun
    rcases hrun with ⟨s₁, hsend, hs'⟩
    rcases step_send hpicked hcurrentUser hsend with ⟨hcontroller, hposted, huploads⟩
    rw [hdata] at huploads
    rw [← hs', ← hcontroller, ← hposted]
    dsimp only at huploads
    rw [← huploads]
  | some imageData =>
    simp only [hdata, Machine.exec_cons_eq_some, Machine.exec_nil, Option.some.injEq] at hrun
    rcases hrun with ⟨error, s₁, hsend, s₂, hfailed, hs'⟩
    rcases step_send hpicked hcurrentUser hsend with ⟨hcontroller, hposted, huploads⟩
    rw [hdata] at huploads
    rcases huploads with ⟨upload, _, huploads⟩
    simp only [uploadingComposer, step, huploads] at hfailed
    rw [if_pos (by simp)] at hfailed
    injection hfailed with hfailed
    rw [← hs', ← hfailed, hcontroller, hposted, List.eraseIdx_concat_length]

theorem hides_of_failedSend {image : Image} {s s' : UploadingComposer Image Data}
    (h : FailedSend pngData uid image s s') : Hides s'.controller image := by
  rw [eq_of_failedSend h]
  exact ⟨h.left, rfl⟩

theorem controller_of_handleSendMessage {c c' : ChatController Image} {date now : Date}
    {requests : List (Request Data)}
    (h : c.handleSendMessage pngData (some uid) date now = some (c', requests))
    : c' = c ∨ c' = { c with selectPhotoButton := none, text := "" } := by
  rcases Option.isSome_iff_exists.mp (user_of_handleSendMessage h) with ⟨user, huser⟩
  unfold ChatController.handleSendMessage ChatController.getMessageId at h
  simp only [huser, Option.map_some, Message.init_values] at h
  split at h
  . injection h with h
    injection h with h _
    exact Or.inl h.symm
  . split at h
    . injection h with h
      injection h with h _
      rw [← h, huser]
      exact Or.inr rfl
    . injection h with h
      injection h with h _
      exact Or.inl h.symm

theorem controller_foldl_request (shown : Option Image) (requests : List (Request Data))
    (s : UploadingComposer Image Data)
    : (requests.foldl (request shown) s).controller = s.controller := by
  induction requests generalizing s with
  | nil => rfl
  | cons r requests ih =>
    rw [List.foldl_cons, ih]
    cases r with
    | uploadImage upload => rfl
    | addMessage message currentUser otherUser => rfl

theorem user_of_failedSend {image : Image} {s s' : UploadingComposer Image Data}
    (h : FailedSend pngData uid image s s') : s.controller.user.isSome := by
  have huser : ∀ {date now : Date} {s₁ : UploadingComposer Image Data},
      (uploadingComposer pngData uid).step s (.send date now) = some s₁ →
      s.controller.user.isSome := by
    intro date now s₁ hstep
    simp only [uploadingComposer, step] at hstep
    split at hstep
    . next controller requests hsend => exact user_of_handleSendMessage hsend
    . contradiction
  rcases h with ⟨_, _, date, now, hrun⟩
  split at hrun
  . rw [Machine.exec_cons_eq_some] at hrun
    rcases hrun with ⟨s₁, hsend, _⟩
    exact huser hsend
  . simp only [Machine.exec_cons_eq_some] at hrun
    rcases hrun with ⟨error, s₁, hsend, _⟩
    exact huser hsend

-- Nothing that happens in the chat changes who takes part in it.
theorem users_step {s s' : UploadingComposer Image Data} {e : Event Image}
    (hstep : (uploadingComposer pngData uid).step s e = some s')
    : s'.controller.user = s.controller.user
        ∧ s'.controller.currentUser = s.controller.currentUser := by
  cases e with
  | type text =>
    simp only [uploadingComposer, step, Option.some.injEq] at hstep
    rw [← hstep]
    exact ⟨rfl, rfl⟩
  | pick editedImage =>
    simp only [uploadingComposer, step, Option.some.injEq] at hstep
    rw [← hstep]
    cases editedImage with
    | none => exact ⟨rfl, rfl⟩
    | some image => exact ⟨rfl, rfl⟩
  | send date now =>
    simp only [uploadingComposer, step] at hstep
    split at hstep
    . next controller requests hsend =>
      injection hstep with hstep
      rw [← hstep, controller_foldl_request]
      cases controller_of_handleSendMessage hsend with
      | inl heq =>
        rw [heq]
        exact ⟨rfl, rfl⟩
      | inr heq =>
        rw [heq]
        exact ⟨rfl, rfl⟩
    . contradiction
  | uploadCompleted i url =>
    simp only [uploadingComposer, step] at hstep
    split at hstep
    . injection hstep with hstep
      rw [← hstep]
      exact ⟨rfl, rfl⟩
    . contradiction
  | uploadFailed i error =>
    simp only [uploadingComposer, step] at hstep
    split at hstep
    . injection hstep with hstep
      rw [← hstep]
      exact ⟨rfl, rfl⟩
    . contradiction

theorem users_exec {s t : UploadingComposer Image Data} {es : List (Event Image)}
    (hrun : (uploadingComposer pngData uid).exec s es = some t)
    : t.controller.user = s.controller.user
        ∧ t.controller.currentUser = s.controller.currentUser := by
  have hpreserves : (uploadingComposer pngData uid).Preserves (fun t =>
      t.controller.user = s.controller.user
        ∧ t.controller.currentUser = s.controller.currentUser) := by
    intro t e t' ht hstep
    have husers := users_step hstep
    exact ⟨husers.left.trans ht.left, husers.right.trans ht.right⟩
  exact Machine.exec_preserves hpreserves ⟨rfl, rfl⟩ hrun

-- what is neither a new photo nor the end of an upload that succeeds
def Keeps : Event Image → Prop
  | .pick (some _) => False
  | .uploadCompleted _ _ => False
  | _ => True

theorem hides_step {image : Image} {s s' : UploadingComposer Image Data} {e : Event Image}
    (hs : Hides s.controller image) (hstep : (uploadingComposer pngData uid).step s e = some s')
    (hkeeps : Keeps e) : Hides s'.controller image := by
  cases e with
  | type text =>
    simp only [uploadingComposer, step, Option.some.injEq] at hstep
    rw [← hstep]
    exact hs
  | pick editedImage =>
    simp only [uploadingComposer, step, Option.some.injEq] at hstep
    cases editedImage with
    | none =>
      rw [← hstep]
      exact hs
    | some image' => exact absurd hkeeps id
  | send date now =>
    simp only [uploadingComposer, step] at hstep
    split at hstep
    . next controller requests hsend =>
      injection hstep with hstep
      rw [← hstep, controller_foldl_request]
      cases controller_of_handleSendMessage hsend with
      | inl heq =>
        rw [heq]
        exact hs
      | inr heq =>
        rw [heq]
        exact ⟨hs.left, rfl⟩
    . contradiction
  | uploadCompleted i url => exact absurd hkeeps id
  | uploadFailed i error =>
    simp only [uploadingComposer, step] at hstep
    split at hstep
    . injection hstep with hstep
      rw [← hstep]
      exact hs
    . contradiction

theorem hides_exec {image : Image} {s t : UploadingComposer Image Data} {es : List (Event Image)}
    (hs : Hides s.controller image) (hrun : (uploadingComposer pngData uid).exec s es = some t)
    (hkeeps : ∀ e ∈ es, Keeps e) : Hides t.controller image := by
  have hpreserves : ∀ (s : UploadingComposer Image Data) e s', Hides s.controller image →
      (uploadingComposer pngData uid).step s e = some s' → Keeps e → Hides s'.controller image := by
    intro s e s' hs hstep hkeeps
    exact hides_step hs hstep hkeeps
  exact Machine.exec_preserves_of_meets hpreserves hs hrun (Machine.meets_of_forall_mem s hkeeps)

-- The next Send posts the hidden photo along with whatever text there is by then.
theorem Hides.posts {image : Image} {s : UploadingComposer Image Data}
    (hs : Hides s.controller image) (huser : s.controller.user.isSome)
    (hcurrentUser : s.controller.currentUser.isSome) {imageData : Data}
    (hdata : pngData image = some imageData) (date now : Date) (url : String)
    : ∃ t message,
        (uploadingComposer pngData uid).exec s
            [.send date now, .uploadCompleted s.uploads.length url] = some t
          ∧ s.postedSince t = [message]
          ∧ message.message.text = s.controller.text ∧ message.photo = some imageData
          ∧ message.shown = none := by
  rcases Option.isSome_iff_exists.mp huser with ⟨user, huser⟩
  rcases Option.isSome_iff_exists.mp hcurrentUser with ⟨currentUser, hcurrentUser⟩
  have hrequests := @ChatController.handleSendMessage_photo Image Data pngData uid date now _ _ _ _
    huser hcurrentUser hs.left
  simp only [ChatController.uploadImage, hdata] at hrequests
  let upload : Upload Data :=
    ⟨imageData, s.controller.composed uid user now, currentUser, user⟩
  let message : PostedMessage Image Data :=
    ⟨(ChatController.addUploaded upload url).message, some imageData, none⟩
  let s' : UploadingComposer Image Data :=
    {
      s with
      controller := { s.controller with selectPhotoButton := none, text := "" }
      uploads := s.uploads ++ [⟨upload, none⟩]
    }
  have hsend : (uploadingComposer pngData uid).step s (.send date now) = some s' := by
    simp [uploadingComposer, step, hrequests, request, hs.right, upload, s']
  have hcompleted
      : (uploadingComposer pngData uid).step s' (.uploadCompleted s.uploads.length url)
          =
        some ⟨s'.controller.uploadCompleted, s.uploads, s.posted ++ [message]⟩ := by
    simp [uploadingComposer, step, s', message, upload, List.eraseIdx_concat_length]
  refine ⟨⟨s'.controller.uploadCompleted, s.uploads, s.posted ++ [message]⟩, message, ?_, ?_, rfl,
    rfl, rfl⟩
  . rw [Machine.exec_cons, hsend, Option.bind_some, Machine.exec_cons, hcompleted]
    rfl
  . simp [postedSince]

-- The photo of a failed Send goes out with a later one, unless another photo is picked before.
theorem posts_of_failedSend {image : Image} {s s' t : UploadingComposer Image Data}
    (h : FailedSend pngData uid image s s') {es : List (Event Image)}
    (hrun : (uploadingComposer pngData uid).exec s' es = some t) (hkeeps : ∀ e ∈ es, Keeps e)
    {imageData : Data} (hdata : pngData image = some imageData) (date now : Date) (url : String)
    : ∃ t' message,
        (uploadingComposer pngData uid).exec t
            [.send date now, .uploadCompleted t.uploads.length url] = some t'
          ∧ t.postedSince t' = [message]
          ∧ message.message.text = t.controller.text ∧ message.photo = some imageData
          ∧ message.shown = none := by
  have ht := hides_exec (hides_of_failedSend h) hrun hkeeps
  have huser := user_of_failedSend h
  have hcurrentUser := h.right.left
  have husers := users_exec hrun
  rw [eq_of_failedSend h] at husers
  apply ht.posts _ _ hdata date now url
  . rw [husers.left]
    exact huser
  . rw [husers.right]
    exact hcurrentUser

theorem not_losesNothing (pngData : Image → Option Data) (uid : DocumentID) (image : Image)
    (s s' : UploadingComposer Image Data) (h : FailedSend pngData uid image s s')
    : ¬ LosesNothing pngData uid s s' := by
  intro hloses
  have hbutton := hloses.selectPhotoButton
  rw [(hides_of_failedSend h).right, h.left] at hbutton
  contradiction

-- a photo and a text in the composer of Ann's chat with Bob
def composedRun : List (Event Nat) :=
  [.pick (some 7), .type "hi"]

theorem not_losesNothing_putData
    : ∃ s s' : UploadingComposer Nat Nat,
        (uploadingComposer some "a").exec
            (init ⟨"b", "Bob", "B", "bob@mail.org", "pb", 1, false⟩
              ⟨"a", "Ann", "A", "ann@mail.org", "pa", 1, false⟩) composedRun = some s
          ∧ FailedSend some "a" 7 s s' ∧ ¬ LosesNothing some "a" s s' :=
  ⟨_, _, rfl, ⟨rfl, rfl, 2, 2, .putData, rfl⟩,
    not_losesNothing some "a" 7 _ _ ⟨rfl, rfl, 2, 2, .putData, rfl⟩⟩

theorem not_forall_losesNothing
    : ¬∀ (pngData : Nat → Option Nat) (uid : DocumentID) (user currentUser : User)
        (es : List (Event Nat)) (image : Nat) (s s' : UploadingComposer Nat Nat),
        (uploadingComposer pngData uid).exec (init user currentUser) es = some s →
        FailedSend pngData uid image s s' → LosesNothing pngData uid s s' := by
  intro h
  have hlost := h some "a" ⟨"b", "Bob", "B", "bob@mail.org", "pb", 1, false⟩
    ⟨"a", "Ann", "A", "ann@mail.org", "pa", 1, false⟩ composedRun 7 _ _ rfl
    ⟨rfl, rfl, 2, 2, .putData, rfl⟩
  exact absurd hlost.text (by decide)

end UploadingComposer

end ChatApplication
