import RecoupChat.Promise
import RecoupChat.Rows

/-! The request handlers of server.js. Each `db.collection(..)...then(..).catch(..)` of the
source is one definition, named after what its call does; a callback's captured variables
are the definition's arguments. `res.send` ends every branch, and a property read of `null`
or of `toUpdate[-1]` is a throw. -/
namespace RecoupChat
open Promise Collection
variable {M : Type}

inductive Status where
  | SUCCESS | ERROR
  deriving DecidableEq

inductive Response (M : Type) where
  | usernames (usernames : List String)
  | chats (chats : List (Row M))
  | messages (messages : List (Entry M))
  | sent (username : String)
  | success
  | error (message : String)
  deriving DecidableEq

def Response.status : Response M → Status
  | .error _ => .ERROR
  | _ => .SUCCESS

abbrev Handler (M : Type) := Callback (Call M) Call.Result (Response M)

def dbErr : Handler M := reply (.error "DB_ERR")

/-- What a send request carries: `req.params`, `req.body` and the clock reading taken when
the handler starts. -/
structure Send (M : Type) where
  sentBy : String
  sentTo : String
  message : M
  timeNow : Int
  deriving DecidableEq

def Send.entry (d : Send M) : Entry M := ⟨d.sentBy, d.message, d.timeNow⟩

/-! Reading handlers. -/

def getExistingUsernames : Handler M :=
  chain .usersFind (fun (result : List User) => reply (.usernames (result.map (·.username)))) dbErr

/-- `Array.prototype.sort` as a merge sort that only looks at the comparator's sign. -/
def jsSort {α : Type} (compare : α → α → Int) (xs : List α) : List α :=
  xs.mergeSort fun a b => compare a b ≤ 0

/-- The milliseconds that a Date can hold. -/
abbrev IsDate (ms : Int) : Prop := ms.natAbs ≤ 8640000000000000

/-- The time value of a Date, where `none` is NaN. -/
abbrev Date := Option Int

def newDate (ms : Int) : Date := if IsDate ms then some ms else none

/-- `<` of two Dates. NaN is less than nothing, and nothing is less than NaN. -/
def Date.less : Date → Date → Bool
  | some ms, some ms' => ms < ms'
  | _, _ => false

def newestFirst (a b : Row M) : Int :=
  let date1 := newDate a.lastMessageTime
  let date2 := newDate b.lastMessageTime
  if date1.less date2 then 1 else -1

def getUserChatsBy (sort : List (Row M) → List (Row M)) (username : String) : Handler M :=
  chain (.userMessagesFindOne username)
    (fun (result : Option (UserMessages M)) => match result with
      | some result => reply (.chats (sort result.messages))
      | none => reply (.chats []))
    dbErr

def getUserChats (username : String) : Handler M := getUserChatsBy (jsSort newestFirst) username

def getUserChatMessages.findLog (chatId : Nat) : Handler M :=
  chain (.chatMessagesFindOne chatId)
    (fun (result : Option (ChatMessages M)) => match result with
      | some result => reply (.messages result.messages)
      | none => .throw)
    dbErr

def getUserChatMessages (owner recipient : String) : Handler M :=
  chain (.chatIdsFindOne owner recipient)
    (fun (result : Option ChatId) => match result with
      | some result => getUserChatMessages.findLog result.chatId
      | none => dbErr)
    dbErr

/-! `sendMessage`, from its innermost call outwards. -/

def sendMessage.updateTo (d : Send M) (toUpdate : List (Row M)) : Handler M :=
  chain (.userMessagesSet d.sentTo toUpdate)
    (fun (result : UpdateResult) =>
      if result.modifiedCount = 1 then reply (.sent d.sentTo) else dbErr)
    dbErr

def sendMessage.findTo (d : Send M) : Handler M :=
  chain (.userMessagesFindOne d.sentTo)
    (fun (result : Option (UserMessages M)) => match result with
      | none => .throw
      | some result => match setLastMessage d.sentBy d.message d.timeNow result.messages with
        | none => .throw
        | some toUpdate => sendMessage.updateTo d toUpdate)
    dbErr

def sendMessage.updateBy (d : Send M) (toUpdate : List (Row M)) : Handler M :=
  chain (.userMessagesSet d.sentBy toUpdate)
    (fun (result : UpdateResult) =>
      if result.modifiedCount = 1 then sendMessage.findTo d else dbErr)
    dbErr

def sendMessage.findBy (d : Send M) : Handler M :=
  chain (.userMessagesFindOne d.sentBy)
    (fun (result : Option (UserMessages M)) => match result with
      | none => .throw
      | some result => match setLastMessage d.sentTo d.message d.timeNow result.messages with
        | none => .throw
        | some toUpdate => sendMessage.updateBy d toUpdate)
    dbErr

def sendMessage.push (d : Send M) (chatId : Nat) : Handler M :=
  chain (.chatMessagesPush chatId d.entry)
    (fun (result : UpdateResult) =>
      if result.modifiedCount = 1 then sendMessage.findBy d else dbErr)
    dbErr

def sendMessage (d : Send M) : Handler M :=
  chain (.chatIdsFindOne d.sentBy d.sentTo)
    (fun (result : Option ChatId) => match result with
      | some result => sendMessage.push d result.chatId
      | none => dbErr)
    dbErr

/-! `sendNewMessage`. The branch for an existing chat is written out a second time in the
source, so it is here. -/

def sendNewMessage.updateTo (d : Send M) (toUpdate : List (Row M)) : Handler M :=
  chain (.userMessagesSet d.sentTo toUpdate)
    (fun (result : UpdateResult) =>
      if result.modifiedCount = 1 then reply (.sent d.sentTo) else dbErr)
    dbErr

def sendNewMessage.findTo (d : Send M) : Handler M :=
  chain (.userMessagesFindOne d.sentTo)
    (fun (result : Option (UserMessages M)) => match result with
      | none => .throw
      | some result => match setLastMessage d.sentBy d.message d.timeNow result.messages with
        | none => .throw
        | some toUpdate => sendNewMessage.updateTo d toUpdate)
    dbErr

def sendNewMessage.updateBy (d : Send M) (toUpdate : List (Row M)) : Handler M :=
  chain (.userMessagesSet d.sentBy toUpdate)
    (fun (result : UpdateResult) =>
      if result.modifiedCount = 1 then sendNewMessage.findTo d else dbErr)
    dbErr

def sendNewMessage.findBy (d : Send M) : Handler M :=
  chain (.userMessagesFindOne d.sentBy)
    (fun (result : Option (UserMessages M)) => match result with
      | none => .throw
      | some result => match setLastMessage d.sentTo d.message d.timeNow result.messages with
        | none => .throw
        | some toUpdate => sendNewMessage.updateBy d toUpdate)
    dbErr

def sendNewMessage.push (d : Send M) (chatId : Nat) : Handler M :=
  chain (.chatMessagesPush chatId d.entry)
    (fun (result : UpdateResult) =>
      if result.modifiedCount = 1 then sendNewMessage.findBy d else dbErr)
    dbErr

/-! The branch that creates the chat. -/

def sendNewMessage.createRowTo (d : Send M) (toUpdate : List (Row M)) : Handler M :=
  chain (.userMessagesSet d.sentTo toUpdate)
    (fun (result : UpdateResult) =>
      if result.modifiedCount = 1 then reply .success else dbErr)
    dbErr

def sendNewMessage.createFindTo (d : Send M) : Handler M :=
  chain (.userMessagesFindOne d.sentTo)
    (fun (result : Option (UserMessages M)) => match result with
      | some result => sendNewMessage.createRowTo d
          (setOrPushLastMessage d.sentBy d.message d.timeNow result.messages)
      | none => dbErr)
    dbErr

def sendNewMessage.createRowBy (d : Send M) (toUpdate : List (Row M)) : Handler M :=
  chain (.userMessagesSet d.sentBy toUpdate)
    (fun (result : UpdateResult) =>
      if result.modifiedCount = 1 then sendNewMessage.createFindTo d else dbErr)
    dbErr

def sendNewMessage.createFindBy (d : Send M) : Handler M :=
  chain (.userMessagesFindOne d.sentBy)
    (fun (result : Option (UserMessages M)) => match result with
      | some result => sendNewMessage.createRowBy d
          (setOrPushLastMessage d.sentTo d.message d.timeNow result.messages)
      | none => dbErr)
    dbErr

def sendNewMessage.insertLog (d : Send M) (newChatId : Nat) : Handler M :=
  chain (.chatMessagesInsertOne ⟨newChatId, [d.entry]⟩)
    (fun (result : InsertOneResult) =>
      if result.acknowledged then sendNewMessage.createFindBy d else dbErr)
    dbErr

def sendNewMessage.insertChat (d : Send M) (newChatId : Nat) : Handler M :=
  chain (.chatIdsInsertOne ⟨newChatId, d.sentBy, d.sentTo⟩)
    (fun (result : InsertOneResult) =>
      if result.acknowledged then sendNewMessage.insertLog d newChatId else dbErr)
    dbErr

/-- 0, or one more than the id of the only document read. -/
def newChatId : List ChatId → Nat
  | [] => 0
  | doc :: _ => doc.chatId + 1

theorem lt_newChatId {s : Store M} {doc : ChatId} (h : doc ∈ s.chatIds) :
    doc.chatId < newChatId s.lastChat := by
  cases hl : s.lastChat with
  | nil => simp [lastChat_eq_nil hl] at h
  | cons x xs =>
    have hm := (lastChat_max hl).2 doc h
    simp only [newChatId]
    omega

theorem newChatId_fresh (s : Store M) :
    newChatId s.lastChat ∉ s.chatIds.map (·.chatId) := by
  intro h
  obtain ⟨doc, hd, he⟩ := List.mem_map.mp h
  have hlt := lt_newChatId hd
  omega

def sendNewMessage.findLast (d : Send M) : Handler M :=
  chain .chatIdsFindLast
    (fun (result : List ChatId) => sendNewMessage.insertChat d (newChatId result))
    dbErr

def sendNewMessage.findChat (d : Send M) : Handler M :=
  chain (.chatIdsFindOne d.sentBy d.sentTo)
    (fun (result : Option ChatId) => match result with
      | some result => sendNewMessage.push d result.chatId
      | none => sendNewMessage.findLast d)
    dbErr

/-- `users.includes(sentTo.toLowerCase())` over the lower-cased usernames, for any
`toLowerCase`. -/
def userExists (toLowerCase : String → String) (sentTo : String) (users : List User) : Bool :=
  (users.map fun user => toLowerCase user.username).contains (toLowerCase sentTo)

def sendNewMessage (toLowerCase : String → String) (d : Send M) : Handler M :=
  chain .usersFind
    (fun (result : List User) =>
      if userExists toLowerCase d.sentTo result then sendNewMessage.findChat d
      else reply (.error "USER DOES NOT EXIST"))
    dbErr

/-! `addNewUser` -/

def addNewUser.insertUserMessages (username : String) : Handler M :=
  chain (.userMessagesInsertOne ⟨username, []⟩)
    (fun (result : InsertOneResult) =>
      if result.acknowledged then reply .success else dbErr)
    dbErr

def addNewUser (username : String) : Handler M :=
  chain (.usersInsertOne ⟨username⟩)
    (fun (result : InsertOneResult) =>
      if result.acknowledged then addNewUser.insertUserMessages username else dbErr)
    dbErr

inductive Request (M : Type) where
  | getExistingUsernames
  | getUserChats (username : String)
  | getUserChatMessages (owner recipient : String)
  | sendMessage (d : Send M)
  | sendNewMessage (d : Send M)
  | addNewUser (username : String)
  deriving DecidableEq

def Request.handler (toLowerCase : String → String) : Request M → Handler M
  | .getExistingUsernames => RecoupChat.getExistingUsernames
  | .getUserChats username => RecoupChat.getUserChats username
  | .getUserChatMessages owner recipient => RecoupChat.getUserChatMessages owner recipient
  | .sendMessage d => RecoupChat.sendMessage d
  | .sendNewMessage d => RecoupChat.sendNewMessage toLowerCase d
  | .addNewUser username => RecoupChat.addNewUser username

def Request.send? : Request M → Option (Send M)
  | .sendMessage d | .sendNewMessage d => some d
  | _ => none

/-- Both copies of the existing-chat branch are the same program. -/
theorem sendNewMessage_push : (sendNewMessage.push : Send M → Nat → Handler M) = sendMessage.push :=
  rfl

end RecoupChat
