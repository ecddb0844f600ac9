/-
# `Chat.Modal` — messages, users and the writes of the chat

The documents of a room's collection and of the `users` collection, the
objects that chat_modal.dart makes of them, and the single writes that the
chat and the invitation screens send to the server.  `isReacted` is a field
of invitations only; `MsgModal.fromFirestore` reads its absence as `false`.
-/
import CalendarApp.Main

namespace CalendarApp

/-- A document of the collection of a room. -/
structure MsgDoc where
  idFrom : String
  idTo : String
  timestamp : Int
  content : String
  type : Int
  isRead : Bool
  isReacted : Option Bool
  deriving DecidableEq, Repr

structure MsgModal where
  id : String
  content : String
  idFrom : String
  idTo : String
  time : Int
  type : Int
  isRead : Bool
  isReacted : Bool
  deriving DecidableEq, Repr

def MsgModal.fromFirestore (documentID : String) (document : MsgDoc) : MsgModal where
  id := documentID
  time := document.timestamp
  content := document.content
  idFrom := document.idFrom
  idTo := document.idTo
  type := document.type
  isRead := document.isRead
  isReacted := document.isReacted.getD false

/-- `UserModal`, as far as the invitation sheet uses it. -/
structure UserModal where
  id : String
  photo : String
  deriving DecidableEq, Repr

/-- One write to the server. -/
inductive Write where
  /-- `add` to the collection of the room -/
  | addMessage (chatId : String) (message : MsgDoc)
  /-- `setData` of the room's document -/
  | setRoom (chatId : String) (users : List String) (lastUpdated : Int)
  /-- `updateData({'isRead': true})` -/
  | setRead (chatId messageId : String)
  /-- `updateData({'isReacted': true})` -/
  | setReacted (chatId messageId : String)
  /-- `updateData({'participants': FieldValue.arrayUnion([userId])})` -/
  | joinEvent (eventId userId : String)
  deriving DecidableEq, Repr

/-- The room a write goes to. -/
def Write.room : Write → Option String
  | addMessage chatId _ => some chatId
  | setRoom chatId _ _ => some chatId
  | setRead chatId _ => some chatId
  | setReacted chatId _ => some chatId
  | joinEvent _ _ => none

end CalendarApp
