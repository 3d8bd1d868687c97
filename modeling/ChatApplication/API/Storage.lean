import ChatApplication.API.MessageID
import ChatApplication.Machine.Uploads

/-!
This module contains `uploadImage` and `downloadImage` of `NetworkManager` and what they need of
Firebase Storage: objects are stored under references, and each has a download URL of its own.
-/

namespace ChatApplication

-- `Storage.storage().reference().child(path).child(uuid)`
structure StorageReference where
  path : String
  uuid : UUIDString
  deriving DecidableEq

-- `Completion` is the type of the closures that are passed to `uploadImage`.
abbrev ImageStorage (Data : Type u) (Completion : Type v) :=
  LinkStore StorageReference Data Completion String

abbrev imageStorage (Data : Type u) (Completion : Type v)
    : Machine (ImageStorage Data Completion)
        (LinkStore.Event StorageReference Data Completion String) :=
  linkStore StorageReference Data Completion String

namespace NetworkManager

variable {Image : Type u} {Data : Type v} {Completion : Type w}

-- the call of `putData` that starts an upload
def putData (s : ImageStorage Data Completion) (imageData : Data) (path : String) (uuid : UUIDString)
    (completion : Completion) : Option (ImageStorage Data Completion) :=
  (imageStorage Data Completion).step s (.start ⟨path, uuid⟩ imageData completion)

-- `uuid` is the one that `NSUUID` makes up. Without PNG data there is no upload.
def uploadImage (pngData : Image → Option Data) (s : ImageStorage Data Completion) (image : Image)
    (path : String) (uuid : UUIDString) (completion : Completion)
    : Option (ImageStorage Data Completion) :=
  match pngData image with
  | some imageData => putData s imageData path uuid completion
  | none => some s

-- what `completion` is called with, and `none` if it is not called
def downloadImage (isURL : String → Bool) (image : Data → Option Image)
    (s : ImageStorage Data Completion) (urlString : String) : Option (Option Image) :=
  if isURL urlString then
    (s.content? urlString).map image
  else
    none

theorem downloadImage_of_content? {isURL : String → Bool} {urlString : String}
    (hurl : isURL urlString = true) {s : ImageStorage Data Completion} {imageData : Data}
    (hcontent : s.content? urlString = some imageData) (image : Data → Option Image)
    : downloadImage isURL image s urlString = some (image imageData) := by
  rw [downloadImage, if_pos hurl, hcontent]
  rfl

end NetworkManager

end ChatApplication
