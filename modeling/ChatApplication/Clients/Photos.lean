import ChatApplication.API.Profiles
import ChatApplication.API.Storage
import ChatApplication.Clients.Parties
import ChatApplication.Clients.Sending

/-!
This module contains the clients together with the storage for their photos: a photo that is picked for
a message, and one that is chosen for a profile or a group, is uploaded in two requests, and what comes
of it is known to others by its URL only.
-/

namespace ChatApplication

-- The closures that are passed to `uploadImage`, with what they capture. What the one of
-- `HandleSendMessage` captures is in `Clients.uploads`.
inductive Completion where
  | chat
  | signup (firstName lastName email : String)
  | createGroup (uid : AuthUid) (groupName : String) (selectedUsers : List Nat)
  deriving DecidableEq

namespace Completion

def path : Completion → String
  | .chat => "Chat Images"
  | .signup _ _ _ | .createGroup _ _ _ => "Profile Images"

-- the `User` that is made by the closure
def Makes : Completion → User → Prop
  | .chat, _ => False
  | .signup firstName lastName email, user =>
    user.firstName = firstName ∧ user.lastName = lastName ∧ user.email = email ∧ user.isGroup = false
  | .createGroup _ groupName _, user => user.firstName = groupName ∧ user.isGroup = true

-- `e` is a call of the closure with the URL. Of the chat uploads it is the one at `position`.
def Calls (completion : Completion) (position : Nat) (url : String)
    : Clients.Event Image → Prop
  | .uploadCompleted i url' _ _ _ => completion = .chat ∧ i = position ∧ url' = url
  | .signup _ firstName lastName email url' _ _ =>
    completion = .signup firstName lastName email ∧ url' = url
  | .createGroup _ uid groupName url' selectedUsers _ _ =>
    completion = .createGroup uid groupName selectedUsers ∧ url' = url
  | _ => False

instance (completion : Completion) (position : Nat) (url : String)
    : (e : Clients.Event Image) → Decidable (completion.Calls position url e)
  | .uploadCompleted _ _ _ _ _ => inferInstanceAs (Decidable (_ ∧ _ ∧ _))
  | .signup _ _ _ _ _ _ _ | .createGroup _ _ _ _ _ _ _ => inferInstanceAs (Decidable (_ ∧ _))
  | .createAccount _ | .load _ _ _ | .openChat _ _ | .currentUserFetched _ _
  | .send _ _ _ _ _ _ _ _ | .uploadFailed _ | .perform _ _ | .listener _ _ =>
    inferInstanceAs (Decidable False)

end Completion

structure Photos (Data : Type u) where
  app : Clients Data
  storage : ImageStorage Data Completion

namespace Photos

inductive Event (Image : Type u) where
  -- `uuid` is for the photo of a Send
  | client (e : Clients.Event Image) (uuid : UUIDString)
  -- `signup` or `createGroup` starts the upload of `profileImage.image`
  | uploadImage (image : Image) (uuid : UUIDString) (completion : Completion)
  -- the completion of `putData`
  | store (i : Nat)
  -- the completion of `downloadURL`, which calls the closure
  | finish (i : Nat) (url : String) (e : Clients.Event Image)
  | fail (i : Nat)

variable {Image : Type u} {Data : Type v}

def init : Photos Data :=
  ⟨.init, .init⟩

def chatData? (upload : Uploading StorageReference Data Completion) : Option Data :=
  if upload.completion = .chat then some upload.content else none

-- where an upload is in `Clients.uploads`
def position (s : Photos Data) (i : Nat) : Nat :=
  ((s.storage.uploads.take i).filterMap chatData?).length

-- the events that an upload ends with
def EndsUpload : Clients.Event Image → Prop
  | .signup _ _ _ _ _ _ _ | .createGroup _ _ _ _ _ _ _ | .uploadCompleted _ _ _ _ _
  | .uploadFailed _ => True
  | _ => False

instance : (e : Clients.Event Image) → Decidable (EndsUpload e)
  | .signup _ _ _ _ _ _ _ | .createGroup _ _ _ _ _ _ _ | .uploadCompleted _ _ _ _ _
  | .uploadFailed _ => inferInstanceAs (Decidable True)
  | .createAccount _ | .load _ _ _ | .openChat _ _ | .currentUserFetched _ _
  | .send _ _ _ _ _ _ _ _ | .perform _ _ | .listener _ _ => inferInstanceAs (Decidable False)

def step (pngData : Image → Option Data) (s : Photos Data) : Event Image → Option (Photos Data)
  | .client e uuid =>
    if EndsUpload e then
      none
    else
      match s.app.step pngData e with
      | some app =>
        -- a Send with a photo has added an upload
        match app.uploads.drop s.app.uploads.length with
        | upload :: _ =>
          (NetworkManager.putData s.storage upload.imageData Completion.chat.path uuid .chat).map
            (fun storage => ⟨app, storage⟩)
        | [] => some { s with app := app }
      | none => none
  | .uploadImage image uuid completion =>
    if completion = .chat then
      none
    else
      (NetworkManager.uploadImage pngData s.storage image completion.path uuid completion).map
        (fun storage => { s with storage := storage })
  | .store i =>
    ((imageStorage Data Completion).step s.storage (.store i)).map
      (fun storage => { s with storage := storage })
  | .finish i url e =>
    match s.storage.uploads[i]? with
    | some upload =>
      if upload.completion.Calls (s.position i) url e then
        match (imageStorage Data Completion).step s.storage (.finish i url),
          s.app.step pngData e with
        | some storage, some app => some ⟨app, storage⟩
        | _, _ => none
      else
        none
    | none => none
  | .fail i =>
    match s.storage.uploads[i]?, (imageStorage Data Completion).step s.storage (.fail i) with
    | some upload, some storage =>
      if upload.completion = .chat then
        (s.app.step pngData (.uploadFailed (s.position i))).map (fun app => ⟨app, storage⟩)
      else
        some { s with storage := storage }
    | _, _ => none

end Photos

def photos {Image : Type u} {Data : Type v} (pngData : Image → Option Data)
    : Machine (Photos Data) (Photos.Event Image) :=
  ⟨Photos.step pngData⟩

namespace Photos

variable {Image : Type u} {Data : Type v} {pngData : Image → Option Data}

theorem step_client {s s' : Photos Data} {e : Clients.Event Image} {uuid : UUIDString}
    (h : (photos pngData).step s (.client e uuid) = some s')
    : ¬ EndsUpload e ∧ ∃ app', (clients pngData).step s.app e = some app'
        ∧ ((app'.uploads.drop s.app.uploads.length = []
              ∧ s' = { s with app := app' })
            ∨ ∃ upload uploads storage',
                app'.uploads.drop s.app.uploads.length = upload :: uploads
                ∧ (imageStorage Data Completion).step s.storage
                    (.start ⟨Completion.chat.path, uuid⟩ upload.imageData .chat) = some storage'
                ∧ s' = ⟨app', storage'⟩) := by
  simp only [photos, step] at h
  split at h
  . contradiction
  . next he =>
    refine ⟨he, ?_⟩
    split at h
    . next app' happ =>
      refine ⟨app', happ, ?_⟩
      split at h
      . next upload uploads hadded =>
        rw [Option.map_eq_some_iff] at h
        rcases h with ⟨storage', hstorage, hs'⟩
        exact Or.inr ⟨upload, uploads, storage', hadded, hstorage, hs'.symm⟩
      . next hadded =>
        injection h with h
        exact Or.inl ⟨hadded, h.symm⟩
    . contradiction

theorem step_uploadImage {s s' : Photos Data} {image : Image} {uuid : UUIDString}
    {completion : Completion}
    (h : (photos pngData).step s (.uploadImage image uuid completion) = some s')
    : completion ≠ .chat
        ∧ ((pngData image = none ∧ s' = s)
            ∨ ∃ imageData storage', pngData image = some imageData
                ∧ (imageStorage Data Completion).step s.storage
                    (.start ⟨completion.path, uuid⟩ imageData completion) = some storage'
                ∧ s' = { s with storage := storage' }) := by
  simp only [photos, step, NetworkManager.uploadImage] at h
  split at h
  . contradiction
  . next hcompletion =>
    refine ⟨hcompletion, ?_⟩
    rw [Option.map_eq_some_iff] at h
    rcases h with ⟨storage', hstorage, hs'⟩
    split at hstorage
    . next imageData hpng => exact Or.inr ⟨imageData, storage', hpng, hstorage, hs'.symm⟩
    . next hpng =>
      injection hstorage with hstorage
      rw [← hstorage] at hs'
      exact Or.inl ⟨hpng, hs'.symm⟩

theorem step_store {s s' : Photos Data} {i : Nat}
    (h : (photos pngData).step s (.store i) = some s')
    : ∃ storage', (imageStorage Data Completion).step s.storage (.store i) = some storage'
        ∧ s' = { s with storage := storage' } := by
  simp only [photos, step] at h
  rw [Option.map_eq_some_iff] at h
  rcases h with ⟨storage', hstorage, hs'⟩
  exact ⟨storage', hstorage, hs'.symm⟩

theorem step_finish {s s' : Photos Data} {i : Nat} {url : String} {e : Clients.Event Image}
    (h : (photos pngData).step s (.finish i url e) = some s')
    : ∃ upload storage' app', s.storage.uploads[i]? = some upload
        ∧ upload.completion.Calls (s.position i) url e
        ∧ (imageStorage Data Completion).step s.storage (.finish i url) = some storage'
        ∧ (clients pngData).step s.app e = some app'
        ∧ s' = ⟨app', storage'⟩ := by
  simp only [photos, step] at h
  split at h
  . next upload hupload =>
    split at h
    . next hcalls =>
      split at h
      . next storage' app' hstorage happ =>
        injection h with h
        exact ⟨upload, storage', app', hupload, hcalls, hstorage, happ, h.symm⟩
      . contradiction
    . contradiction
  . contradiction

theorem step_fail {s s' : Photos Data} {i : Nat}
    (h : (photos pngData).step s (.fail i) = some s')
    : ∃ upload storage', s.storage.uploads[i]? = some upload
        ∧ (imageStorage Data Completion).step s.storage (.fail i) = some storage'
        ∧ ((upload.completion = .chat ∧ ∃ app',
              (clients pngData).step s.app (.uploadFailed (s.position i)) = some app'
                ∧ s' = ⟨app', storage'⟩)
            ∨ (upload.completion ≠ .chat ∧ s' = { s with storage := storage' })) := by
  simp only [photos, step] at h
  split at h
  . next upload storage' hupload hstorage =>
    refine ⟨upload, storage', hupload, hstorage, ?_⟩
    split at h
    . next hchat =>
      rw [Option.map_eq_some_iff] at h
      rcases h with ⟨app', happ, hs'⟩
      exact Or.inl ⟨hchat, app', happ, hs'.symm⟩
    . next hchat =>
      injection h with h
      exact Or.inr ⟨hchat, h.symm⟩
  . contradiction

-- what an event is for the clients alone
def clientEvents (s : Photos Data) : Event Image → List (Clients.Event Image)
  | .client e _ => [e]
  | .finish _ _ e => [e]
  | .fail i =>
    match s.storage.uploads[i]? with
    | some upload => if upload.completion = .chat then [.uploadFailed (s.position i)] else []
    | none => []
  | .uploadImage _ _ _ | .store _ => []

theorem app_step {s s' : Photos Data} {e : Event Image}
    (hstep : (photos pngData).step s e = some s')
    : (s'.app = s.app ∧ clientEvents s e = [])
        ∨
      ∃ e', (clients pngData).step s.app e' = some s'.app ∧ clientEvents s e = [e'] := by
  cases e with
  | client e uuid =>
    rcases step_client hstep
      with ⟨_, app', happ, ⟨_, hs'⟩ | ⟨upload, uploads, storage', _, _, hs'⟩⟩
    . rw [hs']
      exact Or.inr ⟨e, happ, rfl⟩
    . rw [hs']
      exact Or.inr ⟨e, happ, rfl⟩
  | uploadImage image uuid completion =>
    rcases step_uploadImage hstep with ⟨_, ⟨_, hs'⟩ | ⟨imageData, storage', _, _, hs'⟩⟩
    . rw [hs']
      exact Or.inl ⟨rfl, rfl⟩
    . rw [hs']
      exact Or.inl ⟨rfl, rfl⟩
  | store i =>
    rcases step_store hstep with ⟨storage', _, hs'⟩
    rw [hs']
    exact Or.inl ⟨rfl, rfl⟩
  | finish i url e =>
    rcases step_finish hstep with ⟨upload, storage', app', _, _, _, happ, hs'⟩
    rw [hs']
    exact Or.inr ⟨e, happ, rfl⟩
  | fail i =>
    rcases step_fail hstep
      with ⟨upload, storage', hupload, _, ⟨hchat, app', happ, hs'⟩ | ⟨hchat, hs'⟩⟩
    . rw [hs']
      exact Or.inr ⟨_, happ, by simp [clientEvents, hupload, hchat]⟩
    . rw [hs']
      exact Or.inl ⟨rfl, by simp [clientEvents, hupload, hchat]⟩

theorem storage_step {s s' : Photos Data} {e : Event Image}
    (hstep : (photos pngData).step s e = some s')
    : s'.storage = s.storage
        ∨
      ∃ e', (imageStorage Data Completion).step s.storage e' = some s'.storage := by
  cases e with
  | client e uuid =>
    rcases step_client hstep
      with ⟨_, app', _, ⟨_, hs'⟩ | ⟨upload, uploads, storage', _, hstorage, hs'⟩⟩
    . rw [hs']
      exact Or.inl rfl
    . rw [hs']
      exact Or.inr ⟨_, hstorage⟩
  | uploadImage image uuid completion =>
    rcases step_uploadImage hstep with ⟨_, ⟨_, hs'⟩ | ⟨imageData, storage', _, hstorage, hs'⟩⟩
    . rw [hs']
      exact Or.inl rfl
    . rw [hs']
      exact Or.inr ⟨_, hstorage⟩
  | store i =>
    rcases step_store hstep with ⟨storage', hstorage, hs'⟩
    rw [hs']
    exact Or.inr ⟨_, hstorage⟩
  | finish i url e =>
    rcases step_finish hstep with ⟨upload, storage', app', _, _, hstorage, _, hs'⟩
    rw [hs']
    exact Or.inr ⟨_, hstorage⟩
  | fail i =>
    rcases step_fail hstep
      with ⟨upload, storage', _, hstorage, ⟨_, app', _, hs'⟩ | ⟨_, hs'⟩⟩
    . rw [hs']
      exact Or.inr ⟨_, hstorage⟩
    . rw [hs']
      exact Or.inr ⟨_, hstorage⟩

/-- For the clients the storage only decides when an upload ends and with which URL. -/
theorem refines_clients
    : Machine.Refines (photos pngData) (clients pngData) Photos.app clientEvents
        (fun _ _ _ => True) (fun _ _ _ => True) (fun _ => True) (fun _ => True) := by
  constructor
  . intro s e s' _ _ hstep _
    rcases app_step hstep with ⟨happ, hevents⟩ | ⟨e', happ, hevents⟩
    . rw [hevents, happ, Machine.exec_nil]
    . rw [hevents, Machine.exec_singleton]
      exact happ
  . intro s e s' _ _ _ _
    exact Machine.meets_of_forall_mem _ (fun _ _ => trivial)
  . intro s e s' _ _ _ _
    trivial
  . intro s e s' _ _ _
    trivial

theorem clients_of_run {es : List (Event Image)} {s : Photos Data}
    (hrun : (photos pngData).exec init es = some s)
    : (clients pngData).exec Clients.init ((photos pngData).trace clientEvents init es)
        = some s.app := by
  have hall : (photos pngData).Meets (fun _ _ _ => True) init es := by
    exact Machine.meets_of_forall_mem _ (fun _ _ => trivial)
  exact (refines_clients.run trivial trivial hrun hall).left

-- The message is from a Send with a photo that has the data, in the sender's chat of its conversation.
def Picked (pngData : Image → Option Data) (es : List (Event Image)) (s : Photos Data)
    (message : Message) (imageData : Data) : Prop :=
  ∃ chat uid image date date' date'' documentID uuid,
    .client (.send chat (some image) message.text date message.timestamp date' date'' documentID) uuid
        ∈ es
      ∧ pngData image = some imageData
      ∧ (s.app.chats.map OpenChat.screen)[chat]? = some (uid, message.msgId)
      ∧ message.fromId = uid.value

-- The image was chosen when the closure was made.
def Chosen (pngData : Image → Option Data) (es : List (Event Image)) (completion : Completion)
    (imageData : Data) : Prop :=
  ∃ image uuid, .uploadImage image uuid completion ∈ es ∧ pngData image = some imageData

def Pictured (pngData : Image → Option Data) (es : List (Event Image)) (s : Photos Data)
    (user : User) : Prop :=
  ∃ imageData completion, s.storage.content? user.profileImageUrl = some imageData
    ∧ completion.Makes user ∧ Chosen pngData es completion imageData

structure PhotosInv (pngData : Image → Option Data) (es : List (Event Image)) (s : Photos Data)
    : Prop where
  storage : s.storage.Inv
  uploads : s.storage.uploads.filterMap chatData? = s.app.uploads.map ChatUpload.imageData
  picked : ∀ upload ∈ s.app.uploads, s.Picked pngData es upload.message upload.imageData
  posted : ∀ posted ∈ s.app.posted, ∀ url ∈ posted.message.imageUrl, ∃ imageData,
    s.storage.content? url = some imageData ∧ s.Picked pngData es posted.message imageData
  chosen : ∀ upload ∈ s.storage.uploads, upload.completion ≠ .chat →
    Chosen pngData es upload.completion upload.content
  pictured : s.app.server.Only (s.Pictured pngData es)

-- what a later state still has
structure Extends (s s' : Photos Data) : Prop where
  screens : ∀ {chat : Nat} {screen : AuthUid × String},
    (s.app.chats.map OpenChat.screen)[chat]? = some screen →
    (s'.app.chats.map OpenChat.screen)[chat]? = some screen
  contents : ∀ {url : String} {imageData : Data}, s.storage.content? url = some imageData →
    s'.storage.content? url = some imageData

theorem extends_step {s s' : Photos Data} {e : Event Image} (hs : s.storage.Inv)
    (hstep : (photos pngData).step s e = some s') : Extends s s' ∧ s'.storage.Inv := by
  have hscreens : ∀ {chat : Nat} {screen : AuthUid × String},
      (s.app.chats.map OpenChat.screen)[chat]? = some screen →
      (s'.app.chats.map OpenChat.screen)[chat]? = some screen := by
    intro chat screen h
    rcases app_step hstep with ⟨happ, _⟩ | ⟨e', happ, _⟩
    . rw [happ]
      exact h
    . exact Clients.screen_step happ h
  rcases storage_step hstep with hstorage | ⟨e', hstorage⟩
  . rw [hstorage]
    refine ⟨⟨hscreens, ?_⟩, hs⟩
    intro url imageData h
    rw [hstorage]
    exact h
  . exact ⟨⟨hscreens, hs.content?_step hstorage⟩, LinkStore.inv_step hs hstorage⟩

section Extends

variable {es : List (Event Image)} {s s' : Photos Data}

theorem Extends.picked (h : Extends s s') {message : Message} {imageData : Data}
    (hpicked : s.Picked pngData es message imageData) (e : Event Image)
    : s'.Picked pngData (es ++ [e]) message imageData := by
  rcases hpicked
    with ⟨chat, uid, image, date, date', date'', documentID, uuid, hsend, hpng, hscreen, hfrom⟩
  exact ⟨chat, uid, image, date, date', date'', documentID, uuid, List.mem_append_left _ hsend, hpng,
    h.screens hscreen, hfrom⟩

theorem Chosen.append {completion : Completion} {imageData : Data}
    (h : Chosen pngData es completion imageData) (e : Event Image)
    : Chosen pngData (es ++ [e]) completion imageData := by
  rcases h with ⟨image, uuid, hupload, hpng⟩
  exact ⟨image, uuid, List.mem_append_left _ hupload, hpng⟩

theorem Extends.pictured (h : Extends s s') {user : User} (hpictured : s.Pictured pngData es user)
    (e : Event Image) : s'.Pictured pngData (es ++ [e]) user := by
  rcases hpictured with ⟨imageData, completion, hcontent, hmakes, hchosen⟩
  exact ⟨imageData, completion, h.contents hcontent, hmakes, hchosen.append e⟩

theorem Pictured.setTimestamp {user : User} (h : s.Pictured pngData es user) (timestamp : Timestamp)
    : s.Pictured pngData es { user with timestamp := timestamp } := by
  rcases h with ⟨imageData, completion, hcontent, hmakes, hchosen⟩
  refine ⟨imageData, completion, hcontent, ?_, hchosen⟩
  cases completion with
  | chat => contradiction
  | signup firstName lastName email => exact hmakes
  | createGroup uid groupName selectedUsers => exact hmakes

-- All that a step has to show is what it adds.
theorem PhotosInv.extend (hs : s.PhotosInv pngData es) {e : Event Image}
    (hstep : (photos pngData).step s e = some s')
    (huploads : s'.storage.uploads.filterMap chatData? = s'.app.uploads.map ChatUpload.imageData)
    (hpicked : ∀ upload ∈ s'.app.uploads, upload ∈ s.app.uploads
      ∨ s'.Picked pngData (es ++ [e]) upload.message upload.imageData)
    (hposted : ∀ posted ∈ s'.app.posted, posted ∈ s.app.posted
      ∨ ∀ url ∈ posted.message.imageUrl, ∃ imageData, s'.storage.content? url = some imageData
          ∧ s'.Picked pngData (es ++ [e]) posted.message imageData)
    (hchosen : ∀ upload ∈ s'.storage.uploads,
      (∃ old ∈ s.storage.uploads, old.completion = upload.completion ∧ old.content = upload.content)
        ∨ (upload.completion ≠ .chat →
            Chosen pngData (es ++ [e]) upload.completion upload.content))
    (hpictured : s'.app.server.Only (s'.Pictured pngData (es ++ [e])))
    : s'.PhotosInv pngData (es ++ [e]) := by
  rcases extends_step hs.storage hstep with ⟨hextends, hstorage⟩
  constructor
  case storage => exact hstorage
  case uploads => exact huploads
  case picked =>
    intro upload hupload
    cases hpicked upload hupload with
    | inl hold => exact hextends.picked (hs.picked upload hold) e
    | inr hnew => exact hnew
  case posted =>
    intro posted hmem
    cases hposted posted hmem with
    | inl hold =>
      intro url hurl
      rcases hs.posted posted hold url hurl with ⟨imageData, hcontent, hold⟩
      exact ⟨imageData, hextends.contents hcontent, hextends.picked hold e⟩
    | inr hnew => exact hnew
  case chosen =>
    intro upload hupload hchat
    rcases hchosen upload hupload with ⟨old, hold, hcompletion, hcontent⟩ | hnew
    . rw [← hcompletion] at hchat
      have hfirst := (hs.chosen old hold hchat).append e
      rw [hcompletion, hcontent] at hfirst
      exact hfirst
    . exact hnew hchat
  case pictured => exact hpictured

-- the events that make a `User` from a profile
def MakesUser : Clients.Event Image → Prop
  | .signup _ _ _ _ _ _ _ | .createGroup _ _ _ _ _ _ _ => True
  | _ => False

theorem profile?_eq_none {app : Clients Data} {e : Clients.Event Image} (he : ¬ MakesUser e)
    {e' : Backend.Event} (he' : e' ∈ Clients.serverEvents pngData app e) : e'.profile? = none := by
  cases e with
  | signup uid firstName lastName email url date now => exact absurd trivial he
  | createGroup uuid uid groupName url selectedUsers date now => exact absurd trivial he
  | createAccount uid =>
    rw [Clients.serverEvents, List.mem_singleton] at he'
    rw [he']
    rfl
  | load source documentID now =>
    simp only [Clients.serverEvents] at he'
    split at he'
    . rw [List.mem_singleton] at he'
      rw [he']
      rfl
    . contradiction
  | send chat pickedImage text date now date' date'' documentID =>
    simp only [Clients.serverEvents] at he'
    split at he'
    . split at he'
      . rw [List.mem_singleton] at he'
        rw [he']
        rfl
      . contradiction
    . contradiction
  | uploadCompleted i url date date' documentID =>
    simp only [Clients.serverEvents] at he'
    split at he'
    . rw [List.mem_singleton] at he'
      rw [he']
      rfl
    . contradiction
  | perform operation now =>
    rw [Clients.serverEvents, List.mem_singleton] at he'
    rw [he']
    rfl
  | _ => contradiction

theorem PhotosInv.pictured_of_same (hs : s.PhotosInv pngData es) (hextends : Extends s s')
    (happ : s'.app = s.app) (e : Event Image)
    : s'.app.server.Only (s'.Pictured pngData (es ++ [e])) := by
  rw [happ]
  exact hs.pictured.imp (fun user huser => hextends.pictured huser e)

theorem PhotosInv.pictured_of_step (hs : s.PhotosInv pngData es) (hextends : Extends s s')
    {e' : Clients.Event Image} (happ : (clients pngData).step s.app e' = some s'.app)
    (e : Event Image)
    (hnew : ∀ f ∈ Clients.serverEvents pngData s.app e', ∀ user : User,
      f.profile? = some user.profile → s'.Pictured pngData (es ++ [e]) user)
    : s'.app.server.Only (s'.Pictured pngData (es ++ [e])) := by
  have hold : s.app.server.Only (s'.Pictured pngData (es ++ [e])) := by
    exact hs.pictured.imp (fun user huser => hextends.pictured huser e)
  rcases Clients.requests_step happ with ⟨_, hserver, _⟩ | ⟨f, hevents, hserver, _⟩
  . rw [hserver]
    exact hold
  . apply Backend.only_step (fun user timestamp huser => huser.setTimestamp timestamp) hold hserver
    apply hnew
    rw [hevents]
    exact List.mem_cons_self

-- Until an upload ends, messages are posted without photos, and a Send with a photo starts an upload.
theorem sends_of_not_endsUpload {app app' : Clients Data} {e : Clients.Event Image}
    (hsources : app.SourcesInv Source.Opens)
    (hstep : (clients pngData).step app e = some app') (he : ¬ EndsUpload e)
    : (app'.uploads = app.uploads
          ∧ ∀ posted ∈ app'.posted, posted ∈ app.posted ∨ posted.message.imageUrl = none)
        ∨
      (app'.posted = app.posted ∧ ∃ chat c image date date' date'' documentID upload,
        app.chats[chat]? = some c ∧ pngData image = some upload.imageData
          ∧ upload.message.fromId = c.uid.value ∧ upload.message.msgId = c.messageId
          ∧ e = .send chat (some image) upload.message.text date upload.message.timestamp date' date''
              documentID
          ∧ app'.uploads = app.uploads ++ [upload]) := by
  cases e with
  | send chat pickedImage text date now date' date'' documentID =>
    rcases Clients.step_send hstep with ⟨heq, _⟩
      | ⟨c, otherUser, currentUser, hc, huser, _,
        ⟨_, hadd, _⟩ | ⟨image, imageData, hpicked, hpng, hs', _⟩⟩
    . rw [heq]
      exact Or.inl ⟨rfl, fun posted h => Or.inl h⟩
    . rcases Clients.addMessage_eq_some hadd with ⟨_, server', _, hs'⟩
      rw [hs']
      refine Or.inl ⟨rfl, ?_⟩
      intro posted hposted
      rw [List.mem_append, List.mem_singleton] at hposted
      apply hposted.imp_right
      intro hnew
      rw [hnew]
      rfl
    . have hmsgId := (hsources.chats c (List.mem_of_getElem? hc)).msgId_composed huser text now
      rw [hs', hpicked]
      exact Or.inr ⟨rfl, chat, c, image, date, date', date'', documentID, _, hc, hpng, rfl, hmsgId,
        rfl, rfl⟩
  | uploadCompleted i url date date' documentID => exact absurd trivial he
  | uploadFailed i => exact absurd trivial he
  | _ =>
    have hposted := Clients.posted_step hstep (fun h => h)
    rw [hposted.left, hposted.right]
    exact Or.inl ⟨rfl, fun posted h => Or.inl h⟩

theorem PhotosInv.client (hs : s.PhotosInv pngData es) (hsources : s.app.SourcesInv Source.Opens)
    {e : Clients.Event Image} {uuid : UUIDString}
    (hstep : (photos pngData).step s (.client e uuid) = some s')
    : s'.PhotosInv pngData (es ++ [.client e uuid]) := by
  have hextends := (extends_step hs.storage hstep).left
  rcases step_client hstep with ⟨he, app', happ, hcases⟩
  have hpictured : (clients pngData).step s.app e = some s'.app →
      s'.app.server.Only (s'.Pictured pngData (es ++ [.client e uuid])) := by
    intro happ'
    apply hs.pictured_of_step hextends happ'
    intro f hf user hprofile
    have hnone : f.profile? = none := by
      apply profile?_eq_none _ hf
      intro hmakes
      cases e with
      | signup uid firstName lastName email url date now => exact he trivial
      | createGroup uuid uid groupName url selectedUsers date now => exact he trivial
      | _ => contradiction
    rw [hnone] at hprofile
    contradiction
  rcases sends_of_not_endsUpload hsources happ he with ⟨huploads, hposted⟩
    | ⟨hposted, chat, c, image, date, date', date'', documentID, upload, hc, hpng, hfrom, hmsgId, hsend,
      huploads⟩
  . have hnone : app'.uploads.drop s.app.uploads.length = [] := by
      rw [huploads, List.drop_length]
    rcases hcases with ⟨_, hs'⟩ | ⟨upload, uploads, storage', hadded, _⟩
    . rw [hs'] at hpictured
      subst hs'
      apply hs.extend hstep _ _ _ _ (hpictured happ)
      . dsimp only
        rw [huploads]
        exact hs.uploads
      . dsimp only
        rw [huploads]
        exact fun upload h => Or.inl h
      . intro posted hmem
        apply (hposted posted hmem).imp_right
        intro hnourl url hurl
        rw [hnourl] at hurl
        contradiction
      . intro upload hupload
        exact Or.inl ⟨upload, hupload, rfl, rfl⟩
    . rw [hnone] at hadded
      contradiction
  . have hone : app'.uploads.drop s.app.uploads.length = [upload] := by
      rw [huploads, List.drop_left]
    rcases hcases with ⟨hnone, _⟩ | ⟨upload', uploads', storage', hadded, hstorage, hs'⟩
    . rw [hnone] at hone
      contradiction
    . rw [hone] at hadded
      injection hadded with hadded
      rw [← hadded] at hstorage
      rcases LinkStore.step_start hstorage with ⟨_, hstorage'⟩
      have hscreen : (s'.app.chats.map OpenChat.screen)[chat]? = some (c.uid, upload.message.msgId) := by
        apply hextends.screens
        rw [List.getElem?_map, hc, hmsgId]
        rfl
      rw [hs'] at hpictured hscreen
      subst hs'
      apply hs.extend hstep _ _ _ _ (hpictured happ)
      . dsimp only
        rw [hstorage', huploads, List.filterMap_append, List.map_append, hs.uploads]
        rfl
      . intro other hother
        dsimp only at hother
        rw [huploads, List.mem_append, List.mem_singleton] at hother
        apply hother.imp_right
        intro hnew
        rw [hnew]
        refine ⟨chat, c.uid, image, date, date', date'', documentID, uuid, ?_, hpng, hscreen, hfrom⟩
        rw [hsend]
        exact List.mem_append_right _ List.mem_cons_self
      . dsimp only
        rw [hposted]
        exact fun posted h => Or.inl h
      . intro other hother
        dsimp only at hother
        rw [hstorage', List.mem_append, List.mem_singleton] at hother
        cases hother with
        | inl hold => exact Or.inl ⟨other, hold, rfl, rfl⟩
        | inr hnew =>
          rw [hnew]
          exact Or.inr (fun hchat => absurd rfl hchat)

theorem PhotosInv.uploadImage (hs : s.PhotosInv pngData es) {image : Image} {uuid : UUIDString}
    {completion : Completion}
    (hstep : (photos pngData).step s (.uploadImage image uuid completion) = some s')
    : s'.PhotosInv pngData (es ++ [.uploadImage image uuid completion]) := by
  have hextends := (extends_step hs.storage hstep).left
  rcases step_uploadImage hstep
    with ⟨hcompletion, ⟨_, hs'⟩ | ⟨imageData, storage', hpng, hstorage, hs'⟩⟩
  . subst hs'
    apply hs.extend hstep hs.uploads (fun upload h => Or.inl h) (fun posted h => Or.inl h)
      (fun upload h => Or.inl ⟨upload, h, rfl, rfl⟩)
    exact hs.pictured_of_same hextends rfl _
  . rcases LinkStore.step_start hstorage with ⟨_, hstorage'⟩
    subst hs'
    apply hs.extend hstep _ (fun upload h => Or.inl h) (fun posted h => Or.inl h) _
      (hs.pictured_of_same hextends rfl _)
    . have hnone : chatData? (⟨⟨completion.path, uuid⟩, imageData, completion, false⟩
          : Uploading StorageReference Data Completion) = none := by
        exact if_neg hcompletion
      dsimp only
      rw [hstorage', List.filterMap_append, List.filterMap_cons_none hnone, List.filterMap_nil,
        List.append_nil, hs.uploads]
    . intro other hother
      dsimp only at hother
      rw [hstorage', List.mem_append, List.mem_singleton] at hother
      cases hother with
      | inl hold => exact Or.inl ⟨other, hold, rfl, rfl⟩
      | inr hnew =>
        rw [hnew]
        right
        intro _
        exact ⟨image, uuid, List.mem_append_right _ List.mem_cons_self, hpng⟩

theorem PhotosInv.store (hs : s.PhotosInv pngData es) {i : Nat}
    (hstep : (photos pngData).step s (.store i) = some s')
    : s'.PhotosInv pngData (es ++ [.store i]) := by
  have hextends := (extends_step hs.storage hstep).left
  rcases step_store hstep with ⟨storage', hstorage, hs'⟩
  rcases LinkStore.step_store hstorage with ⟨name, content, completion, hupload, hstorage'⟩
  subst hs'
  apply hs.extend hstep _ (fun upload h => Or.inl h) (fun posted h => Or.inl h) _
    (hs.pictured_of_same hextends rfl _)
  . have hset : (s.storage.uploads.set i ⟨name, content, completion, true⟩).filterMap chatData?
        = s.storage.uploads.filterMap chatData? := by
      exact List.filterMap_set_of_eq hupload rfl
    dsimp only
    rw [hstorage', hset, hs.uploads]
  . intro other hother
    dsimp only at hother
    rw [hstorage'] at hother
    cases List.mem_or_eq_of_mem_set hother with
    | inl hold => exact Or.inl ⟨other, hold, rfl, rfl⟩
    | inr hnew =>
      rw [hnew]
      exact Or.inl ⟨_, List.mem_of_getElem? hupload, rfl, rfl⟩

-- What the closure of `HandleSendMessage` has captured belongs to its upload.
theorem PhotosInv.imageData_eq (hs : s.PhotosInv pngData es) {i : Nat}
    {upload : Uploading StorageReference Data Completion} {chatUpload : ChatUpload Data}
    (hupload : s.storage.uploads[i]? = some upload) (hchat : upload.completion = .chat)
    (hchatUpload : s.app.uploads[s.position i]? = some chatUpload)
    : chatUpload.imageData = upload.content := by
  have hsome : chatData? upload = some upload.content := if_pos hchat
  have hget := List.getElem?_filterMap_take hupload hsome
  rw [hs.uploads] at hget
  have hmap : (s.app.uploads.map ChatUpload.imageData)[s.position i]? = some chatUpload.imageData := by
    rw [List.getElem?_map, hchatUpload]
    rfl
  have heq := hmap.symm.trans hget
  injection heq

theorem PhotosInv.uploads_eraseIdx (hs : s.PhotosInv pngData es) {i : Nat}
    {upload : Uploading StorageReference Data Completion}
    (hupload : s.storage.uploads[i]? = some upload) (hchat : upload.completion = .chat)
    : (s.storage.uploads.eraseIdx i).filterMap chatData?
        =
      (s.app.uploads.eraseIdx (s.position i)).map ChatUpload.imageData := by
  have hsome : chatData? upload = some upload.content := if_pos hchat
  rw [List.filterMap_eraseIdx_of_eq_some hupload hsome, hs.uploads, List.eraseIdx_map]
  rfl

theorem PhotosInv.uploads_eraseIdx_of_ne (hs : s.PhotosInv pngData es) {i : Nat}
    {upload : Uploading StorageReference Data Completion}
    (hupload : s.storage.uploads[i]? = some upload) (hchat : upload.completion ≠ .chat)
    : (s.storage.uploads.eraseIdx i).filterMap chatData? = s.app.uploads.map ChatUpload.imageData := by
  rw [List.filterMap_eraseIdx_of_eq_none hupload (if_neg hchat), hs.uploads]

theorem PhotosInv.uploadCompleted (hs : s.PhotosInv pngData es) {i j : Nat} {url url' : String}
    {date date' : Date} {documentID : DocumentID}
    (hstep : (photos pngData).step s
      (.finish i url (.uploadCompleted j url' date date' documentID)) = some s')
    : s'.PhotosInv pngData
        (es ++ [.finish i url (.uploadCompleted j url' date date' documentID)]) := by
  have hextends := (extends_step hs.storage hstep).left
  rcases step_finish hstep with ⟨upload, storage', app', hupload, hcalls, hstorage, happ, hs'⟩
  rcases hcalls with ⟨hchat, hposition, hurl⟩
  rw [hposition, hurl] at happ
  have hcontent := hs.storage.content?_finish hstorage hupload
  rcases LinkStore.step_finish hstorage with ⟨_, _, _, _, _, hstorage'⟩
  rcases Clients.step_uploadCompleted happ with ⟨chatUpload, hchatUpload, hadd⟩
  rcases Clients.addMessage_eq_some hadd with ⟨_, server', _, happ'⟩
  rw [← hs.imageData_eq hupload hchat hchatUpload] at hcontent
  have hpicked := hextends.picked (hs.picked chatUpload (List.mem_of_getElem? hchatUpload))
    (.finish i url (.uploadCompleted j url' date date' documentID))
  have hpictured := hs.pictured_of_step hextends (by rw [hs']; exact happ)
    (.finish i url (.uploadCompleted j url' date date' documentID)) (by
      intro f hf user hprofile
      have hmakes : ¬ MakesUser (.uploadCompleted (s.position i) url date date' documentID
          : Clients.Event Image) := fun h => h
      rw [profile?_eq_none hmakes hf] at hprofile
      contradiction)
  subst hs'
  apply hs.extend hstep _ _ _ _ hpictured
  . dsimp only
    rw [hstorage', happ']
    exact hs.uploads_eraseIdx hupload hchat
  . intro other hother
    dsimp only at hother
    rw [happ'] at hother
    exact Or.inl (List.mem_of_mem_eraseIdx hother)
  . intro posted hposted
    dsimp only at hposted
    rw [happ', List.mem_append, List.mem_singleton] at hposted
    apply hposted.imp_right
    intro hnew other hother
    rw [hnew] at hother ⊢
    injection hother with hother
    rw [← hother]
    exact ⟨chatUpload.imageData, hcontent, hpicked⟩
  . intro other hother
    dsimp only at hother
    rw [hstorage'] at hother
    exact Or.inl ⟨other, List.mem_of_mem_eraseIdx hother, rfl, rfl⟩

-- the ends of the uploads of `signup` and `createGroup`
theorem PhotosInv.makesUser (hs : s.PhotosInv pngData es) {i : Nat} {url : String}
    {e : Clients.Event Image} (hstep : (photos pngData).step s (.finish i url e) = some s')
    {upload : Uploading StorageReference Data Completion}
    (hupload : s.storage.uploads[i]? = some upload) (hchat : upload.completion ≠ .chat)
    (he : ¬ e.IsComposers)
    (hmakes : ∀ f ∈ Clients.serverEvents pngData s.app e, ∀ user : User,
      f.profile? = some user.profile →
        upload.completion.Makes user ∧ user.profileImageUrl = url)
    : s'.PhotosInv pngData (es ++ [.finish i url e]) := by
  have hextends := (extends_step hs.storage hstep).left
  rcases step_finish hstep with ⟨upload', storage', app', _, _, hstorage, happ, hs'⟩
  have hcontent := hs.storage.content?_finish hstorage hupload
  rcases LinkStore.step_finish hstorage with ⟨_, _, _, _, _, hstorage'⟩
  rcases Clients.posted_step happ he with ⟨hposted, huploads⟩
  have hchosen := (hs.chosen upload (List.mem_of_getElem? hupload) hchat).append (.finish i url e)
  have hpictured := hs.pictured_of_step hextends (by rw [hs']; exact happ) (.finish i url e) (by
    intro f hf user hprofile
    rcases hmakes f hf user hprofile with ⟨hmade, hurl⟩
    refine ⟨upload.content, upload.completion, ?_, hmade, hchosen⟩
    rw [hurl, hs']
    exact hcontent)
  subst hs'
  apply hs.extend hstep _ _ _ _ hpictured
  . dsimp only
    rw [hstorage', huploads]
    exact hs.uploads_eraseIdx_of_ne hupload hchat
  . dsimp only
    rw [huploads]
    exact fun other h => Or.inl h
  . dsimp only
    rw [hposted]
    exact fun posted h => Or.inl h
  . intro other hother
    dsimp only at hother
    rw [hstorage'] at hother
    exact Or.inl ⟨other, List.mem_of_mem_eraseIdx hother, rfl, rfl⟩

theorem PhotosInv.finish (hs : s.PhotosInv pngData es) {i : Nat} {url : String}
    {e : Clients.Event Image} (hstep : (photos pngData).step s (.finish i url e) = some s')
    : s'.PhotosInv pngData (es ++ [.finish i url e]) := by
  rcases step_finish hstep with ⟨upload, _, _, hupload, hcalls, _⟩
  cases e with
  | uploadCompleted j url' date date' documentID => exact hs.uploadCompleted hstep
  | signup uid firstName lastName email url' date now =>
    rcases hcalls with ⟨hcompletion, hurl⟩
    apply hs.makesUser hstep hupload (by rw [hcompletion]; simp) (fun h => h)
    intro f hf user hprofile
    rw [Clients.serverEvents, List.mem_singleton] at hf
    rw [hf] at hprofile
    injection hprofile with hprofile
    rw [User.profile, Profile.mk.injEq] at hprofile
    rcases hprofile with ⟨_, hfirstName, hlastName, hemail, hprofileUrl, hisGroup⟩
    rw [hcompletion]
    exact ⟨⟨hfirstName.symm, hlastName.symm, hemail.symm, hisGroup.symm⟩, hprofileUrl.symm.trans hurl⟩
  | createGroup uuid uid groupName url' selectedUsers date now =>
    rcases hcalls with ⟨hcompletion, hurl⟩
    apply hs.makesUser hstep hupload (by rw [hcompletion]; simp) (fun h => h)
    intro f hf user hprofile
    rw [Clients.serverEvents, List.mem_singleton] at hf
    rw [hf] at hprofile
    injection hprofile with hprofile
    rw [User.profile, Profile.mk.injEq] at hprofile
    rcases hprofile with ⟨_, hfirstName, _, _, hprofileUrl, hisGroup⟩
    rw [hcompletion]
    exact ⟨⟨hfirstName.symm, hisGroup.symm⟩, hprofileUrl.symm.trans hurl⟩
  | _ => contradiction

theorem PhotosInv.fail (hs : s.PhotosInv pngData es) {i : Nat}
    (hstep : (photos pngData).step s (.fail i) = some s')
    : s'.PhotosInv pngData (es ++ [.fail i]) := by
  have hextends := (extends_step hs.storage hstep).left
  rcases step_fail hstep with ⟨upload, storage', hupload, hstorage, hcases⟩
  have hstorage' := (LinkStore.step_fail hstorage).right
  have hchosen : ∀ other ∈ storage'.uploads, ∃ old ∈ s.storage.uploads,
      old.completion = other.completion ∧ old.content = other.content := by
    intro other hother
    rw [hstorage'] at hother
    exact ⟨other, List.mem_of_mem_eraseIdx hother, rfl, rfl⟩
  rcases hcases with ⟨hchat, app', happ, hs'⟩ | ⟨hchat, hs'⟩
  . have happ' := Clients.step_uploadFailed happ
    have hpictured := hs.pictured_of_step hextends (by rw [hs']; exact happ) (.fail i) (by
      intro f hf user hprofile
      contradiction)
    subst hs'
    apply hs.extend hstep _ _ _ (fun other h => Or.inl (hchosen other h)) hpictured
    . dsimp only
      rw [hstorage', happ']
      exact hs.uploads_eraseIdx hupload hchat
    . intro other hother
      dsimp only at hother
      rw [happ'] at hother
      exact Or.inl (List.mem_of_mem_eraseIdx hother)
    . dsimp only
      rw [happ']
      exact fun posted h => Or.inl h
  . subst hs'
    apply hs.extend hstep _ (fun upload h => Or.inl h) (fun posted h => Or.inl h)
      (fun other h => Or.inl (hchosen other h)) (hs.pictured_of_same hextends rfl _)
    dsimp only
    rw [hstorage']
    exact hs.uploads_eraseIdx_of_ne hupload hchat

theorem photosInv_step {e : Event Image} (hs : s.PhotosInv pngData es)
    (hsources : s.app.SourcesInv Source.Opens)
    (hstep : (photos pngData).step s e = some s') : s'.PhotosInv pngData (es ++ [e]) := by
  cases e with
  | client e uuid => exact hs.client hsources hstep
  | uploadImage image uuid completion => exact hs.uploadImage hstep
  | store i => exact hs.store hstep
  | finish i url e => exact hs.finish hstep
  | fail i => exact hs.fail hstep

theorem photosInv_of_run (hrun : (photos pngData).exec init es = some s)
    : s.PhotosInv pngData es := by
  have hinit : (init : Photos Data).PhotosInv pngData ([] : List (Event Image)) := by
    constructor
    case storage => exact LinkStore.inv_init
    case uploads => rfl
    case pictured => exact Backend.only_init _
    all_goals
      intros
      contradiction
  have hInv : ∀ (es : List (Event Image)) (s : Photos Data) e s',
      (photos pngData).exec init es = some s ∧ s.PhotosInv pngData es →
      (photos pngData).step s e = some s' →
      (photos pngData).exec init (es ++ [e]) = some s' ∧ s'.PhotosInv pngData (es ++ [e]) := by
    rintro es s e s' ⟨hrun, hs⟩ hstep
    have hsources := (Clients.sources_of_run (clients_of_run hrun)).left
    refine ⟨?_, photosInv_step hs hsources hstep⟩
    rw [Machine.exec_concat_eq_some]
    exact ⟨s, hrun, hstep⟩
  exact (Machine.exec_preserves_history hInv ⟨rfl, hinit⟩ hrun).right

end Extends

open Clients (ann bob)

def photo : UUIDString :=
  ⟨"3F2504E0-4F89-41D3-9A0C-0305E82C3301", by decide⟩

-- Ann and Bob sign up with pictures of their own. Ann opens the chat with Bob and sends a photo, and is
-- shown it.
def photoRun : List (Event Nat) :=
  let annUser : User := ⟨ann.value, "Ann", "A", "ann@mail.org", "pa", 1, false⟩
  let message : Message := ⟨bob.value ++ ann.value, ann.value, bob.value, "", 5, some "pm", false⟩
  [
    .client (.createAccount ann) photo,
    .uploadImage 1 ⟨"6BA7B810-9DAD-41D1-80B4-00C04FD430C8", by decide⟩
      (.signup "Ann" "A" "ann@mail.org"),
    .client (.createAccount bob) photo,
    .uploadImage 2 ⟨"6BA7B811-9DAD-41D1-80B4-00C04FD430C8", by decide⟩
      (.signup "Bob" "B" "bob@mail.org"),
    .store 1, .store 0,
    .finish 1 "pb" (.signup bob "Bob" "B" "bob@mail.org" "pb" 1 1),
    .finish 0 "pa" (.signup ann "Ann" "A" "ann@mail.org" "pa" 1 1),
    .client (.perform 0 1) photo, .client (.perform 1 1) photo,
    .client (.load (.allUsers ann) bob.value 3) photo,
    .client (.load (.currentUser ann) ann.value 3) photo,
    .client (.openChat ann 0) photo, .client (.currentUserFetched 0 1) photo,
    .client (.send 0 (some 3) "" 5 5 5 5 "m") photo,
    .store 0, .finish 0 "pm" (.uploadCompleted 0 "pm" 5 5 "m"),
    .client (.perform 2 5) photo, .client (.perform 2 5) photo, .client (.perform 2 5) photo,
    .client (.listener 0 (.snapshot [⟨.added, ⟨"m", message.dictionary⟩, 0⟩] 6)) photo,
    .client (.listener 0 (.userFetched 0 annUser.dictionary 7)) photo
  ]

/-- The photo that is downloaded for a message on a screen is the one that was picked for its Send. -/
theorem shows_picked_photos (pngData : Image → Option Data) (es : List (Event Image))
    {s : Photos Data} (hrun : (photos pngData).exec init es = some s) {c : OpenChat}
    (hc : c ∈ s.app.chats) {shown : ChatMessage} (hshown : shown ∈ c.listener.chat) {url : String}
    (hurl : shown.message.imageUrl = some url) (isURL : String → Bool) (hisURL : isURL url = true)
    (image : Data → Option Image)
    : ∃ imageData, s.Picked pngData es shown.message imageData
        ∧ NetworkManager.downloadImage isURL image s.storage url = some (image imageData) := by
  rcases Clients.inv_of_run (clients_of_run hrun) with ⟨hlog, hpublished⟩
  rcases hlog.exists_posted_of_shown hpublished hc hshown with ⟨posted, hposted, _, _, hmessage⟩
  rw [hmessage] at hurl ⊢
  rcases (photosInv_of_run hrun).posted posted hposted url hurl with ⟨imageData, hcontent, hpicked⟩
  exact ⟨imageData, hpicked, NetworkManager.downloadImage_of_content? hisURL hcontent image⟩

theorem shows_picked_photos_photoRun
    : ∃ s c shown, (photos (fun image => some image)).exec init photoRun = some s ∧ c ∈ s.app.chats
        ∧ shown ∈ c.listener.chat ∧ shown.message.imageUrl = some "pm"
        ∧ ∃ imageData, s.Picked (fun image => some image) photoRun shown.message imageData
          ∧ NetworkManager.downloadImage (fun _ => true) (fun imageData => some imageData) s.storage
              "pm" = some (some imageData) := by
  refine ⟨_, _, _, rfl, List.mem_cons_self, List.mem_cons_self, rfl, ?_⟩
  exact shows_picked_photos (fun image => some image) photoRun rfl List.mem_cons_self
    List.mem_cons_self rfl (fun _ => true) rfl (fun imageData => some imageData)

/--
The picture of a user or of a group, wherever it is shown, is the one that was chosen in the form that
the user or the group was made with.
-/
theorem shows_chosen_pictures (pngData : Image → Option Data) (es : List (Event Image))
    {s : Photos Data} (hrun : (photos pngData).exec init es = some s) {user : User}
    (huser : user ∈ s.app.server.objects) (isURL : String → Bool)
    (hisURL : isURL user.profileImageUrl = true) (image : Data → Option Image)
    : ∃ imageData completion, completion.Makes user ∧ Chosen pngData es completion imageData
        ∧ NetworkManager.downloadImage isURL image s.storage user.profileImageUrl
          = some (image imageData) := by
  rcases (photosInv_of_run hrun).pictured.objects user huser
    with ⟨imageData, completion, hcontent, hmakes, hchosen⟩
  exact ⟨imageData, completion, hmakes, hchosen,
    NetworkManager.downloadImage_of_content? hisURL hcontent image⟩

theorem shows_chosen_pictures_photoRun
    : ∃ s user, (photos (fun image => some image)).exec init photoRun = some s
        ∧ user ∈ s.app.server.objects ∧ user.uid = bob.value
        ∧ ∃ imageData completion, completion.Makes user
          ∧ Chosen (fun image => some image) photoRun completion imageData
          ∧ NetworkManager.downloadImage (fun _ => true) (fun imageData => some imageData) s.storage
              user.profileImageUrl = some (some imageData) := by
  refine ⟨_, _, rfl, List.mem_cons_self, rfl, ?_⟩
  exact shows_chosen_pictures (fun image => some image) photoRun rfl List.mem_cons_self
    (fun _ => true) rfl (fun imageData => some imageData)

end Photos

end ChatApplication
