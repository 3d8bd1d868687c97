import ChatApplication.Model.Document

/-!
This module contains the class `User`. The field `recentMessage` is not part of `User.dictionary`,
it belongs to the objects that `getRecentConversations` publishes and is modelled there. Persons and
groups share the class, `isGroup` tells them apart.
-/

namespace ChatApplication

structure User where
  uid : String
  firstName : String
  lastName : String
  email : String
  profileImageUrl : String
  timestamp : Timestamp
  isGroup : Bool
  deriving DecidableEq, Repr

namespace User

-- `now` is what `Date()` returns, the result is `none` if one of the forced casts traps
def init (now : Date) (dictionary : Dictionary) : Option User :=
  match dictionary.string? "uid", dictionary.string? "first_name", dictionary.string? "last_name",
    dictionary.string? "email", dictionary.string? "profile_image_url",
    dictionary.bool? "isGroup" with
  | some uid, some firstName, some lastName, some email, some profileImageUrl, some isGroup =>
    some {
      uid := uid
      firstName := firstName
      lastName := lastName
      email := email
      profileImageUrl := profileImageUrl
      timestamp := (dictionary.timestamp? "timestamp").getD now
      isGroup := isGroup
    }
  | _, _, _, _, _, _ => none

def dictionary (user : User) : Dictionary :=
  [
    ("uid", .string user.uid),
    ("first_name", .string user.firstName),
    ("last_name", .string user.lastName),
    ("email", .string user.email),
    ("profile_image_url", .string user.profileImageUrl),
    ("timestamp", .timestamp user.timestamp),
    ("isGroup", .bool user.isGroup)
  ]

@[simp]
theorem timestamp?_dictionary (user : User)
    : user.dictionary.timestamp? "timestamp" = some user.timestamp := by
  rfl

@[simp]
theorem init_dictionary (now : Date) (user : User) : init now user.dictionary = some user := by
  rfl

theorem string?_uid_of_init {now : Date} {dictionary : Dictionary} {user : User}
    (h : init now dictionary = some user) : dictionary.string? "uid" = some user.uid := by
  unfold init at h
  split at h
  . injection h with h
    rw [← h]
    assumption
  . contradiction

-- the literal that `signup` and `createGroup` pass to `User.init`
def values (uid firstName lastName email profileImageUrl : String) (date : Date) (isGroup : Bool)
    : Dictionary :=
  [
    ("uid", .string uid),
    ("first_name", .string firstName),
    ("last_name", .string lastName),
    ("email", .string email),
    ("profile_image_url", .string profileImageUrl),
    ("timestamp", .date date),
    ("isGroup", .bool isGroup)
  ]

-- A `Date` is not a `Timestamp`, so the object is stamped when `User.init` runs and the `Date` of
-- the literal is lost.
@[simp]
theorem init_values (now : Date) (uid firstName lastName email profileImageUrl : String)
    (date : Date) (isGroup : Bool)
    : init now (values uid firstName lastName email profileImageUrl date isGroup)
        =
      some {
        uid := uid
        firstName := firstName
        lastName := lastName
        email := email
        profileImageUrl := profileImageUrl
        timestamp := now
        isGroup := isGroup
      } := by
  rfl

end User

end ChatApplication
