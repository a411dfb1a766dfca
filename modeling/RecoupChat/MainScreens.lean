import RecoupChat.ChatOrder
import RecoupChat.ShownContact

/-! The app of a user who is signed in: the list of chats, the screen that is open over it,
and the server, which executes requests one at a time. -/
namespace RecoupChat
open Transition Promise Router Sorting
variable {M : Type}

def Response.chats? : Response M → Option (List (Row M))
  | .chats rows => some rows
  | _ => none

structure Box where
  backgroundColor : String
  alignSelf : String
  deriving DecidableEq

def SingleMessage (messageInfo : Entry M) (username : String) : Box :=
  let myMessage := messageInfo.sentBy = username
  ⟨if myMessage then "#ADD8E6" else "#FFCCD4", if myMessage then "flex-end" else "flex-start"⟩

theorem left_iff {e : Entry M} {username : String} :
    (SingleMessage e username).alignSelf = "flex-start" ↔ e.sentBy ≠ username := by
  by_cases hmine : e.sentBy = username <;> simp [SingleMessage, hmine]

namespace Main
open ChatScreen

/-- MessagesAll, with its requests: the name that each asks for, and how far it has come. -/
structure Chats where
  username : String
  chats : Option (List (Row String))
  refreshing : Bool
  fetches : List (String × Stage)

namespace Chats

def makeRequest (x : Chats) : Chats := { x with fetches := x.fetches ++ [(x.username, .out)] }

def handleRefresh (x : Chats) : Chats := makeRequest { x with refreshing := true }

def mount (displayName : String) : Chats := makeRequest ⟨displayName, some [], false, []⟩

def received (x : Chats) : Option (Response String) → Chats
  | some resJson => { x with chats := resJson.chats?, refreshing := false }
  | none => { x with refreshing := false }

def setStage (x : Chats) (k : Nat) (username : String) (stage : Stage) : Chats :=
  { x with fetches := x.fetches.set k (username, stage) }

end Chats

/-- The stack holds the list and at most one screen over it. What a screen asked for before it
was left may still reach the server, but changes no screen. -/
structure State where
  displayName : String
  list : Chats
  opened : Option App
  left : List (Page × Fetch)
  store : Store String

inductive Event where
  | refresh
  /-- the `k`-th row of the list is pressed -/
  | tap (k : Nat)
  | plus
  | back
  /-- request `k` of the list reaches the server -/
  | serve (k : Nat) (timeNow : Int) (fails : Nat → Bool)
  /-- the fetch of request `k` of the list fails -/
  | fail (k : Nat)
  /-- the callbacks of request `k` of the list run -/
  | handle (k : Nat)
  /-- the open screen takes a step, with the server if it is one of the server -/
  | screen (a : NetAct)
  /-- the `k`-th of the requests left over reaches the server -/
  | late (k : Nat) (timeNow : Int) (fails : Nat → Bool)
  /-- the server executes a request of another client -/
  | others (r : Request String) (fails : Nat → Bool)

def unserved (app : App) : List (Page × Fetch) :=
  (app.fetches.filter fun x => x.2 = .out).map fun x => (app.page, x.1)

def State.mount (displayName : String) (store : Store String) : State :=
  ⟨displayName, .mount displayName, none, [], store⟩

/-- The list can be used only while no screen is open over it. -/
def State.step (toLowerCase : String → String) (s : State) : Event → Option State
  | .refresh => match s.opened with
    | none => some { s with list := s.list.handleRefresh }
    | some _ => none
  | .tap k => match s.opened with
    | none => (s.list.chats.bind (·[k]?)).map fun row =>
        { s with opened := some (App.mount s.list.username row.toUsername .message) }
    | some _ => none
  | .plus => match s.opened with
    | none => some { s with opened := some (App.mount s.displayName "" .messageNew) }
    | some _ => none
  | .back => s.opened.map fun app => { s with opened := none, left := s.left ++ unserved app }
  | .serve k timeNow fails => match s.list.fetches[k]? with
    | some (username, .out) =>
      let ran := Store.execute toLowerCase s.store fails
        ((MessagesAll.makeRequest "" username).receive timeNow)
      some { s with list := s.list.setStage k username (.answered ran.2), store := ran.1 }
    | _ => none
  | .fail k => match s.list.fetches[k]? with
    | some (username, .out) =>
      some { s with list := s.list.setStage k username (.answered none) }
    | _ => none
  | .handle k => match s.list.fetches[k]? with
    | some (username, .answered resJson) =>
      some { s with list := (s.list.setStage k username .handled).received resJson }
    | _ => none
  | .screen a => s.opened.bind fun app =>
    (Net.step toLowerCase ⟨app, s.store⟩ a).map fun net =>
      { s with opened := some net.app, store := net.store }
  | .late k timeNow fails => s.left[k]?.map fun x =>
      { s with
        left := s.left.eraseIdx k
        store := (Store.execute toLowerCase s.store fails ((x.2.http x.1).receive timeNow)).1 }
  | .others r fails => some { s with store := (s.store.serve toLowerCase r fails).1 }

inductive Steps (toLowerCase : String → String) (s : State) : Event → State → Prop
  | refresh (ho : s.opened = none) :
      Steps toLowerCase s .refresh { s with list := s.list.handleRefresh }
  | tap (k : Nat) (chats : List (Row String)) (row : Row String) (ho : s.opened = none)
      (hc : s.list.chats = some chats) (hr : chats[k]? = some row) :
      Steps toLowerCase s (.tap k)
        { s with opened := some (App.mount s.list.username row.toUsername .message) }
  | plus (ho : s.opened = none) : Steps toLowerCase s .plus
      { s with opened := some (App.mount s.displayName "" .messageNew) }
  | back (app : App) (ho : s.opened = some app) :
      Steps toLowerCase s .back { s with opened := none, left := s.left ++ unserved app }
  | serve (k : Nat) (username : String) (timeNow : Int) (fails : Nat → Bool)
      (store : Store String) (resJson : Option (Response String))
      (hk : s.list.fetches[k]? = some (username, .out))
      (hran : Store.execute toLowerCase s.store fails
        ((MessagesAll.makeRequest "" username).receive timeNow) = (store, resJson)) :
      Steps toLowerCase s (.serve k timeNow fails)
        { s with list := s.list.setStage k username (.answered resJson), store }
  | fail (k : Nat) (username : String) (hk : s.list.fetches[k]? = some (username, .out)) :
      Steps toLowerCase s (.fail k)
        { s with list := s.list.setStage k username (.answered none) }
  | handle (k : Nat) (username : String) (resJson : Option (Response String))
      (hk : s.list.fetches[k]? = some (username, .answered resJson)) :
      Steps toLowerCase s (.handle k)
        { s with list := (s.list.setStage k username .handled).received resJson }
  | screen (a : NetAct) (app : App) (net : Net) (ho : s.opened = some app)
      (ha : Net.step toLowerCase ⟨app, s.store⟩ a = some net) :
      Steps toLowerCase s (.screen a) { s with opened := some net.app, store := net.store }
  | late (k : Nat) (x : Page × Fetch) (timeNow : Int) (fails : Nat → Bool) (store : Store String)
      (resJson : Option (Response String))
      (hran : Store.execute toLowerCase s.store fails ((x.2.http x.1).receive timeNow) =
        (store, resJson)) :
      Steps toLowerCase s (.late k timeNow fails) { s with left := s.left.eraseIdx k, store }
  | others (r : Request String) (fails : Nat → Bool) : Steps toLowerCase s (.others r fails)
      { s with store := (s.store.serve toLowerCase r fails).1 }

theorem steps {toLowerCase : String → String} {s s' : State} {e : Event}
    (h : s.step toLowerCase e = some s') : Steps toLowerCase s e s' := by
  cases e with
  | refresh =>
    simp only [State.step] at h
    split at h
    · rename_i ho
      obtain rfl := Option.some.inj h
      exact .refresh ho
    · cases h
  | tap k =>
    simp only [State.step] at h
    split at h
    · rename_i ho
      obtain ⟨row, hrow, rfl⟩ := Option.map_eq_some_iff.mp h
      obtain ⟨chats, hc, hr⟩ := Option.bind_eq_some_iff.mp hrow
      exact .tap k chats row ho hc hr
    · cases h
  | plus =>
    simp only [State.step] at h
    split at h
    · rename_i ho
      obtain rfl := Option.some.inj h
      exact .plus ho
    · cases h
  | back =>
    obtain ⟨app, ho, rfl⟩ := Option.map_eq_some_iff.mp h
    exact .back app ho
  | serve k timeNow fails =>
    simp only [State.step] at h
    split at h
    · rename_i username hk
      obtain rfl := Option.some.inj h
      exact .serve k username timeNow fails _ _ hk rfl
    · cases h
  | fail k =>
    simp only [State.step] at h
    split at h
    · rename_i username hk
      obtain rfl := Option.some.inj h
      exact .fail k username hk
    · cases h
  | handle k =>
    simp only [State.step] at h
    split at h
    · rename_i username resJson hk
      obtain rfl := Option.some.inj h
      exact .handle k username resJson hk
    · cases h
  | screen a =>
    obtain ⟨app, ho, h⟩ := Option.bind_eq_some_iff.mp h
    obtain ⟨net, ha, rfl⟩ := Option.map_eq_some_iff.mp h
    exact .screen a app net ho ha
  | late k timeNow fails =>
    obtain ⟨x, -, rfl⟩ := Option.map_eq_some_iff.mp h
    exact .late k x timeNow fails _ _ rfl
  | others r fails =>
    obtain rfl := Option.some.inj h
    exact .others r fails

end Main
end RecoupChat
