import ChatApplication.Model.Document

/-!
This module contains the class `Message`. The fields `image` and `sender` are not part of
`Message.dictionary`; `sender` belongs to the objects that `getConversations` fills in and is
modelled there, `image` is never used.
-/

namespace ChatApplication

structure Message where
  msgId : String
  fromId : String
  toId : String
  text : String
  timestamp : Timestamp
  imageUrl : Option String
  isGroupMessage : Bool
  deriving DecidableEq, Repr

namespace Message

-- `now` is what `Date()` returns, the result is `none` if one of the forced casts traps
def init (now : Date) (dictionary : Dictionary) : Option Message :=
  match dictionary.string? "msgId", dictionary.string? "fromId", dictionary.string? "toId",
    dictionary.string? "text", dictionary.bool? "isGroupMessage" with
  | some msgId, some fromId, some toId, some text, some isGroupMessage =>
    some {
      msgId := msgId
      fromId := fromId
      toId := toId
      text := text
      timestamp := (dictionary.timestamp? "timestamp").getD now
      imageUrl := dictionary.string? "imageUrl"
      isGroupMessage := isGroupMessage
    }
  | _, _, _, _, _ => none

def dictionary (message : Message) : Dictionary :=
  [
    ("msgId", .string message.msgId),
    ("fromId", .string message.fromId),
    ("toId", .string message.toId),
    ("text", .string message.text),
    ("timestamp", .timestamp message.timestamp),
    -- the optional is put into the literal as it is, so the key is always present
    ("imageUrl", .ofOptional message.imageUrl),
    ("isGroupMessage", .bool message.isGroupMessage)
  ]

@[simp]
theorem string?_msgId_dictionary (message : Message)
    : message.dictionary.string? "msgId" = some message.msgId := by
  rfl

@[simp]
theorem timestamp?_dictionary (message : Message)
    : message.dictionary.timestamp? "timestamp" = some message.timestamp := by
  rfl

@[simp]
theorem string?_imageUrl_dictionary (message : Message)
    : message.dictionary.string? "imageUrl" = message.imageUrl := by
  have hlookup : message.dictionary.lookup "imageUrl" = some (.ofOptional message.imageUrl) := by
    rfl
  rw [Dictionary.string?, hlookup, Option.bind_some, FieldValue.asString_ofOptional]

@[simp]
theorem init_dictionary (now : Date) (message : Message)
    : init now message.dictionary = some message := by
  have himage := string?_imageUrl_dictionary message
  unfold init
  rw [himage]
  rfl

theorem string?_msgId_of_init {now : Date} {dictionary : Dictionary} {message : Message}
    (h : init now dictionary = some message) : dictionary.string? "msgId" = some message.msgId := by
  unfold init at h
  split at h
  . injection h with h
    rw [← h]
    assumption
  . contradiction

-- the literal that `HandleSendMessage` passes to `Message.init`
def values (msgId fromId toId text : String) (date : Date) (isGroupMessage : Bool) : Dictionary :=
  [
    ("msgId", .string msgId),
    ("fromId", .string fromId),
    ("toId", .string toId),
    ("text", .string text),
    ("timestamp", .date date),
    ("isGroupMessage", .bool isGroupMessage)
  ]

@[simp]
theorem init_values (now : Date) (msgId fromId toId text : String) (date : Date)
    (isGroupMessage : Bool)
    : init now (values msgId fromId toId text date isGroupMessage)
        =
      some {
        msgId := msgId
        fromId := fromId
        toId := toId
        text := text
        timestamp := now
        imageUrl := none
        isGroupMessage := isGroupMessage
      } := by
  rfl

end Message

end ChatApplication
