import OpenMinion.JsonValues
import OpenMinion.PythonText

/-!
# Telegram updates

`extract_envelope` reads a message, an edited message or a callback query out of an update; it has
no envelope for anything else, nor for a callback query without its message.
-/
namespace OpenMinion.TelegramUpdates
open JsonValues PythonText

/-- Python's `str`, and its reading of the text of a number. -/
structure ValueLibrary where
  str : Json → String
  parseInt : String → Option ℤ

section Values

variable (lib : ValueLibrary)

/-- `int(value)`, `none` when it raises; an infinite number raises `OverflowError`, which nothing but the loop catches. -/
def int : Json → Option ℤ
  | .int n => some n
  | .bool b => some (if b then 1 else 0)
  | .float q => some (q.num.tdiv q.den)
  | .str s => lib.parseInt s
  | .null | .nan | .inf _ | .list _ | .dict _ => none

def asDict : Json → Option Dict
  | .dict items => some items
  | _ => none

def asStrOrNone (value : Json) : Option String :=
  if value = .null then none else stripOrNone (some (lib.str value))

/-- `str(a or b or "")`. -/
def textOr (a b : Json) : String :=
  lib.str (if a.truthy then a else if b.truthy then b else .str "")

end Values

structure TelegramUser where
  id : ℤ
  username : Option String
  display : Option String
  deriving DecidableEq

structure TelegramInboundEnvelope where
  updateId : ℤ
  rawType : String
  chatId : ℤ
  messageId : ℤ
  text : String
  fromUser : TelegramUser
  chatType : String
  topicId : Option ℤ
  callbackQueryId : Option String
  attachments : List Dict
  rawUpdate : Dict
  deriving DecidableEq

section Envelopes

variable (lib : ValueLibrary)

def displayName (fromUser : Dict) : Option String :=
  let first := asStrOrNone lib (Dict.get fromUser "first_name")
  let last := asStrOrNone lib (Dict.get fromUser "last_name")
  let full := String.intercalate " " (first.toList ++ last.toList)
  if full = "" then asStrOrNone lib (Dict.get fromUser "username") else some full

def attachment (kind fileId : String) : Dict :=
  [("kind", .str kind), ("source", .str "upload"), ("ref", .str ("tgfile:" ++ fileId)), ("file_id", .str fileId)]

def largerPhoto (best : Option String × ℤ) (item : Json) : Option String × ℤ :=
  match (asDict item).bind fun photo => (asStrOrNone lib (Dict.get photo "file_id")).map fun fileId => (photo, fileId) with
  | none => best
  | some (photo, fileId) =>
    let area := ((int lib (Dict.get photo "width")).getD 0) * ((int lib (Dict.get photo "height")).getD 0)
    if best.2 ≤ area then (some fileId, area) else best

def extractAttachments (message : Dict) : List Dict :=
  let photos := match Dict.get message "photo" with
    | .list items => items
    | _ => []
  ((photos.foldl (largerPhoto lib) (none, -1)).1.map (attachment "photo")).toList ++
    ["document", "audio", "voice", "video"].filterMap fun kind =>
      (asDict (Dict.get message kind)).bind fun value =>
        (asStrOrNone lib (Dict.get value "file_id")).map (attachment kind)

def envelopeOf (updateId : ℤ) (rawType : String) (message fromUser rawUpdate : Dict) (text : String) (attachments : List Dict)
    (callbackQueryId : Option String) : Option TelegramInboundEnvelope := do
  let chat ← asDict (Dict.get message "chat")
  let chatId ← int lib (Dict.get chat "id")
  let messageId ← int lib (Dict.get message "message_id")
  let userId ← int lib (Dict.get fromUser "id")
  pure {
    updateId := updateId
    rawType := rawType
    chatId := chatId
    messageId := messageId
    text := text
    fromUser := ⟨userId, asStrOrNone lib (Dict.get fromUser "username"), displayName lib fromUser⟩
    chatType := textOr lib (Dict.get chat "type") .null
    topicId := int lib (Dict.get message "message_thread_id")
    callbackQueryId := callbackQueryId
    attachments := attachments
    rawUpdate := rawUpdate }

def fromMessageUpdate (updateId : ℤ) (rawType : String) (message rawUpdate : Dict) : Option TelegramInboundEnvelope := do
  let fromUser ← asDict (Dict.get message "from")
  envelopeOf lib updateId rawType message fromUser rawUpdate (textOr lib (Dict.get message "text") (Dict.get message "caption"))
    (extractAttachments lib message) none

def fromCallbackQuery (updateId : ℤ) (callbackQuery rawUpdate : Dict) : Option TelegramInboundEnvelope := do
  let message ← asDict (Dict.get callbackQuery "message")
  let fromUser ← asDict (Dict.get callbackQuery "from")
  envelopeOf lib updateId "callback_query" message fromUser rawUpdate (textOr lib (Dict.get callbackQuery "data") .null) []
    (asStrOrNone lib (Dict.get callbackQuery "id"))

def extractUpdateId (update : Dict) : Option ℤ := int lib (Dict.get update "update_id")

def extractEnvelope (update : Dict) : Option TelegramInboundEnvelope :=
  (extractUpdateId lib update).bind fun updateId =>
    match asDict (Dict.get update "message") with
    | some message => fromMessageUpdate lib updateId "message" message update
    | none => match asDict (Dict.get update "edited_message") with
      | some message => fromMessageUpdate lib updateId "edited_message" message update
      | none => (asDict (Dict.get update "callback_query")).bind fun callbackQuery =>
        fromCallbackQuery lib updateId callbackQuery update

end Envelopes

structure Update where
  updateId : ℤ
  fields : Dict
  deriving DecidableEq

namespace Update

variable (lib : ValueLibrary)

def toDict (update : Update) : Dict := ("update_id", .int update.updateId) :: update.fields

@[simp] theorem extractUpdateId_toDict (update : Update) : extractUpdateId lib update.toDict = some update.updateId := by
  rw [extractUpdateId, toDict, Dict.get_cons, if_pos rfl, int]

def acceptable (update : Update) : Bool := (extractEnvelope lib update.toDict).isSome

end Update

theorem extractEnvelope_inaccessible_callback (lib : ValueLibrary) (updateId : ℤ) (callbackQuery : Dict)
    (h : asDict (Dict.get callbackQuery "message") = none) :
    extractEnvelope lib (Update.mk updateId [("callback_query", .dict callbackQuery)]).toDict = none := by
  have hid := Update.extractUpdateId_toDict lib ⟨updateId, [("callback_query", .dict callbackQuery)]⟩
  have hget : ∀ key, Dict.get (Update.mk updateId [("callback_query", .dict callbackQuery)]).toDict key =
      if "update_id" = key then .int updateId else if "callback_query" = key then .dict callbackQuery else .null := by
    intro key
    rw [Update.toDict, Dict.get_cons, Dict.get_cons]
    rfl
  rw [extractEnvelope, hid, Option.bind_some, hget, hget, hget]
  simp [asDict, fromCallbackQuery] at h ⊢
  simp [h]

end OpenMinion.TelegramUpdates
