import RecoupChat.Routes
import RecoupChat.Transition

/-! The screens Message and MessageNew: one conversation, its draft and the requests under way.
A request is named by its place among all that the screen has made. -/
namespace RecoupChat
open Transition

/-- `resJson.messages`, where `none` is `undefined`. -/
def Response.messages? {M : Type} : Response M → Option (List (Entry M))
  | .messages entries => some entries
  | _ => none

namespace ChatScreen

inductive Page where
  | message | messageNew
  deriving DecidableEq

/-- The state of the component; `contact` is `toUsername` in Message. -/
structure Screen where
  username : String
  contact : String
  messages : Option (List (Entry String))
  newMessage : String
  refreshing : Bool
  deriving DecidableEq

inductive Fetch where
  | makeRequest (username contact : String)
  | handleSendMessage (username contact newMessage : String)
  deriving DecidableEq

def Fetch.http : Fetch → Page → HttpRequest String
  | .makeRequest username contact, .message => Message.makeRequest "" username contact
  | .makeRequest username contact, .messageNew => MessageNew.makeRequest "" username contact
  | .handleSendMessage username contact newMessage, .message =>
    Message.handleSendMessage username contact newMessage
  | .handleSendMessage username contact newMessage, .messageNew =>
    MessageNew.handleSendMessage username contact newMessage

inductive Stage where
  | out
  | answered (resJson : Option (Response String))
  | handled
  deriving DecidableEq

structure App where
  page : Page
  screen : Screen
  fetches : List (Fetch × Stage)
  deriving DecidableEq

inductive Act where
  | onNewMessage (newMessage : String)
  | onFocus
  | onContact (contact : String)
  | press
  | refresh
  /-- the answer to request `k` arrives, or the request fails -/
  | answer (k : Nat) (resJson : Option (Response String))
  /-- the callbacks of request `k` run -/
  | handle (k : Nat) (now : Int)

def Screen.disabled (x : Screen) : Page → Bool
  | .message => x.newMessage == ""
  | .messageNew => x.newMessage == "" || x.contact == ""

def Screen.append (x : Screen) (messages : List (Entry String)) (now : Int) : Screen :=
  { x with messages := some (messages ++ [⟨x.username, x.newMessage, now⟩]), newMessage := "" }

namespace App

def fetch (s : App) (f : Fetch) : App := { s with fetches := s.fetches ++ [(f, .out)] }

def makeRequest (s : App) : App := s.fetch (.makeRequest s.screen.username s.screen.contact)

def handleSendMessage (s : App) : App :=
  s.fetch (.handleSendMessage s.screen.username s.screen.contact s.screen.newMessage)

def mount (username contact : String) : Page → App
  | .message => makeRequest ⟨.message, ⟨username, contact, some [], "", false⟩, []⟩
  | .messageNew => ⟨.messageNew, ⟨username, "", some [], "", false⟩, []⟩

def received (s : App) : Option (Response String) → App
  | some resJson => { s with screen.messages := resJson.messages?, screen.refreshing := false }
  | none => { s with screen.refreshing := false }

/-- The state is set, and MessageNew asks for the messages. -/
def appended (s : App) (messages : List (Entry String)) (now : Int) : App :=
  let s := { s with screen := s.screen.append messages now }
  match s.page with
  | .message => s
  | .messageNew => s.makeRequest

/-- The callbacks of `handleSendMessage`. To spread messages that are undefined throws before
the state is set. -/
def sent (s : App) (now : Int) : Option (Response String) → App
  | none => s
  | some resJson =>
    if resJson.status = .SUCCESS then
      match s.screen.messages with
      | none => s
      | some messages => s.appended messages now
    else s

def receive (s : App) (now : Int) : Fetch → Option (Response String) → App
  | .makeRequest _ _, resJson => s.received resJson
  | .handleSendMessage _ _ _, resJson => s.sent now resJson

def setStage (s : App) (k : Nat) (f : Fetch) (stage : Stage) : App :=
  { s with fetches := s.fetches.set k (f, stage) }

/-- Only MessageNew has a field for the contact. -/
def step (s : App) : Act → Option App
  | .onNewMessage newMessage => some { s with screen.newMessage := newMessage }
  | .onFocus => match s.page with
    | .message => none
    | .messageNew => some { s with screen.messages := some [] }
  | .onContact contact => match s.page with
    | .message => none
    | .messageNew => some { s with screen.contact := contact }
  | .press => if s.screen.disabled s.page then none else some s.handleSendMessage
  | .refresh => some { s with screen.refreshing := true }.makeRequest
  | .answer k resJson => match s.fetches[k]? with
    | some (f, .out) => some (s.setStage k f (.answered resJson))
    | _ => none
  | .handle k now => match s.fetches[k]? with
    | some (f, .answered resJson) => some ((s.setStage k f .handled).receive now f resJson)
    | _ => none

inductive Steps (s : App) : Act → App → Prop
  | onNewMessage (newMessage : String) :
      Steps s (.onNewMessage newMessage) { s with screen.newMessage := newMessage }
  | onFocus (hp : s.page = .messageNew) : Steps s .onFocus { s with screen.messages := some [] }
  | onContact (contact : String) (hp : s.page = .messageNew) :
      Steps s (.onContact contact) { s with screen.contact := contact }
  | press (hd : s.screen.disabled s.page = false) : Steps s .press s.handleSendMessage
  | refresh : Steps s .refresh { s with screen.refreshing := true }.makeRequest
  | answer (k : Nat) (f : Fetch) (resJson : Option (Response String))
      (hk : s.fetches[k]? = some (f, .out)) :
      Steps s (.answer k resJson) (s.setStage k f (.answered resJson))
  | handle (k : Nat) (f : Fetch) (resJson : Option (Response String)) (now : Int)
      (hk : s.fetches[k]? = some (f, .answered resJson)) :
      Steps s (.handle k now) ((s.setStage k f .handled).receive now f resJson)

theorem steps {s s' : App} {a : Act} (h : s.step a = some s') : s.Steps a s' := by
  cases a with
  | onNewMessage newMessage =>
    obtain rfl := Option.some.inj h
    exact .onNewMessage newMessage
  | onFocus =>
    simp only [step] at h
    split at h
    · cases h
    · rename_i hp
      obtain rfl := Option.some.inj h
      exact .onFocus hp
  | onContact contact =>
    simp only [step] at h
    split at h
    · cases h
    · rename_i hp
      obtain rfl := Option.some.inj h
      exact .onContact contact hp
  | press =>
    simp only [step] at h
    split at h
    · cases h
    · rename_i hd
      obtain rfl := Option.some.inj h
      exact .press (Bool.eq_false_iff.mpr hd)
  | refresh =>
    obtain rfl := Option.some.inj h
    exact .refresh
  | answer k resJson =>
    simp only [step] at h
    split at h
    · rename_i f hk
      obtain rfl := Option.some.inj h
      exact .answer k f resJson hk
    · cases h
  | handle k now =>
    simp only [step] at h
    split at h
    · rename_i f resJson hk
      obtain rfl := Option.some.inj h
      exact .handle k f resJson now hk
    · cases h

@[simp] theorem setStage_screen (s : App) (k : Nat) (f : Fetch) (stage : Stage) :
    (s.setStage k f stage).screen = s.screen := rfl

@[simp] theorem setStage_page (s : App) (k : Nat) (f : Fetch) (stage : Stage) :
    (s.setStage k f stage).page = s.page := rfl

theorem setStage_get {s : App} {k : Nat} {f : Fetch} {stage : Stage}
    (hk : s.fetches[k]? = some (f, stage)) (stage' : Stage) :
    (s.setStage k f stage').fetches[k]? = some (f, stage') := by
  obtain ⟨hlt, -⟩ := List.getElem?_eq_some_iff.mp hk
  simp [setStage, hlt]

@[simp] theorem makeRequest_screen (s : App) : s.makeRequest.screen = s.screen := rfl

@[simp] theorem handleSendMessage_screen (s : App) : s.handleSendMessage.screen = s.screen := rfl

theorem mount_screen (username contact : String) (page : Page) :
    (mount username contact page).screen.messages = some [] := by
  cases page <;> rfl

/-! The callbacks of a send. -/

theorem sent_of_list {s : App} {resJson : Response String} {messages : List (Entry String)}
    (hs : resJson.status = .SUCCESS) (hm : s.screen.messages = some messages) (now : Int) :
    s.sent now (some resJson) = s.appended messages now := by
  simp only [sent, if_pos hs, hm]

@[simp] theorem appended_screen (s : App) (messages : List (Entry String)) (now : Int) :
    (s.appended messages now).screen = s.screen.append messages now := by
  simp only [appended]
  split <;> rfl

theorem sent_undefined {s : App} (hm : s.screen.messages = none) (now : Int)
    (resJson : Option (Response String)) : s.sent now resJson = s := by
  cases resJson with
  | none => rfl
  | some resJson =>
    simp only [sent, hm]
    split <;> rfl

theorem sent_of_not {s : App} {resJson : Option (Response String)}
    (h : ∀ r, resJson = some r → r.status ≠ .SUCCESS) (now : Int) : s.sent now resJson = s := by
  cases resJson with
  | none => rfl
  | some r => simp only [sent, if_neg (h r rfl)]

theorem sent_page (s : App) (now : Int) (resJson : Option (Response String)) :
    (s.sent now resJson).page = s.page := by
  fun_cases sent s now resJson with
  | case3 resJson hs messages hm =>
    simp only [appended]
    split <;> rfl
  | _ => rfl

def Succeeded (s : App) (k : Nat) : Prop :=
  ∃ username contact newMessage resJson, resJson.status = .SUCCESS ∧
    s.fetches[k]? = some (.handleSendMessage username contact newMessage, .answered (some resJson))

end App
end ChatScreen
end RecoupChat
