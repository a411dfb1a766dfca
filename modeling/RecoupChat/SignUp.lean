import RecoupChat.Addressing
import RecoupChat.Attribution

/-! Any number of SignUp screens, Firebase and the server, with their messages in any order. -/
namespace RecoupChat
open Promise Transition Collection Router
variable {M : Type}

namespace SignUp

structure Screen where
  username : String
  email : String
  password : String
  errorMessage : String
  existingUsernames : List String

def Screen.initial : Screen := ⟨"", "", "", " ", []⟩

inductive AuthError where
  | emailAlreadyInUse | weakPassword | invalidEmail | other
  deriving DecidableEq

def AuthError.message? : AuthError → Option String
  | .emailAlreadyInUse => some "This email is already being used."
  | .weakPassword => some "The entered password is not strong enough."
  | .invalidEmail => some "Please enter a valid email address."
  | .other => none

inductive Stage where
  | createUser (email password : String)
  | updateProfile (displayName : String)

inductive Fetch where
  | existing
  | addUser (username : String)

def Fetch.http (undefined : M) : Fetch → HttpRequest M
  | .existing => SignUp.makeRequest undefined
  | .addUser username => SignUp.addUserToDB undefined username

/-- A screen is named by its index. `origins` says for each request at the server which
screen waits for the answer. -/
structure App (M : Type) where
  screens : List Screen
  signUps : List (Nat × Stage)
  accounts : List String
  inFlight : List (Nat × Fetch)
  server : Sys M
  origins : List (Option Nat)

def App.init : App M := ⟨[], [], [], [], Sys.init Store.empty, []⟩

inductive Act where
  | mount
  | onFocus (i : Nat)
  | onUsername (i : Nat) (username : String)
  | onEmail (i : Nat) (email : String)
  | onPassword (i : Nat) (password : String)
  | press (i : Nat)
  /-- Firebase creates the account of sign-up `k`, or refuses -/
  | created (k : Nat)
  | refused (k : Nat) (code : AuthError)
  | updated (k : Nat)
  | updateFailed (k : Nat)
  /-- message `k` reaches the server -/
  | deliver (k : Nat) (timeNow : Int)
  | fulfil (i j : Nat)
  | reject (i j : Nat)
  /-- the answer to request `k` reaches its screen -/
  | respond (k : Nat)

def Screen.listed (toLowerCase : String → String) (x : Screen) : Bool :=
  x.existingUsernames.contains (toLowerCase x.username)

def Screen.refuse (code : AuthError) (x : Screen) : Screen :=
  match code.message? with
  | some message => { x with errorMessage := message }
  | none => x

/-- Only the answer to `makeRequest` changes the component; after the other one the app leaves
the screen. -/
def Screen.receive (toLowerCase : String → String) (resp : Response M) (x : Screen) : Screen :=
  match resp with
  | .usernames usernames => { x with existingUsernames := usernames.map toLowerCase }
  | _ => x

namespace App

def modify (s : App M) (i : Nat) (f : Screen → Screen) : App M :=
  { s with screens := s.screens.modify i f }

def mount (s : App M) : App M :=
  { s with
    screens := s.screens ++ [Screen.initial]
    inFlight := s.inFlight ++ [(s.screens.length, .existing)] }

/-- `checkUsername` and the first call of `handleSignUp` -/
def press (toLowerCase : String → String) (s : App M) (i : Nat) (x : Screen) : App M :=
  if x.listed toLowerCase then
    s.modify i fun x => { x with errorMessage := "This username already exists." }
  else { s with signUps := s.signUps ++ [(i, .createUser (trim x.email) (trim x.password))] }

/-- The display name is what the screen shows when the account has been created. -/
def created (s : App M) (k i : Nat) (email : String) (x : Screen) : App M :=
  { s with
    accounts := s.accounts ++ [email]
    signUps := s.signUps.set k (i, .updateProfile x.username) }

/-- `addUserToDB` posts what the screen shows by then. -/
def updated (s : App M) (k i : Nat) (x : Screen) : App M :=
  { s with
    signUps := s.signUps.eraseIdx k
    inFlight := s.inFlight ++ [(i, .addUser x.username)] }

def giveUp (s : App M) (k : Nat) : App M := { s with signUps := s.signUps.eraseIdx k }

/-- A request that no route takes is answered without a handler. -/
def deliver (toLowerCase : String → String) (s : App M) (k i : Nat) (r : Option (Request M)) :
    App M :=
  let s := { s with inFlight := s.inFlight.eraseIdx k }
  match r with
  | none => s
  | some r => { s with
    server.requests := s.server.requests ++ [(r, (r.handler toLowerCase).begin)]
    origins := s.origins ++ [some i] }

variable [DecidableEq M]

def step (toLowerCase : String → String) (undefined : M) (s : App M) : Act → Option (App M)
  | .mount => some s.mount
  | .onFocus i => some (s.modify i fun x => { x with errorMessage := " " })
  | .onUsername i username => some (s.modify i fun x => { x with username := username })
  | .onEmail i email => some (s.modify i fun x => { x with email := email })
  | .onPassword i password => some (s.modify i fun x => { x with password := password })
  | .press i => s.screens[i]?.map (s.press toLowerCase i)
  | .created k => match s.signUps[k]? with
    | some (i, .createUser email _) =>
      if email ∈ s.accounts then none else s.screens[i]?.map (s.created k i email)
    | _ => none
  | .refused k code => match s.signUps[k]? with
    | some (i, .createUser email _) =>
      if code = .emailAlreadyInUse ∧ email ∉ s.accounts then none
      else some ((s.giveUp k).modify i (Screen.refuse code))
    | _ => none
  | .updated k => match s.signUps[k]? with
    | some (i, .updateProfile _) => s.screens[i]?.map (s.updated k i)
    | _ => none
  | .updateFailed k => match s.signUps[k]? with
    | some (_, .updateProfile _) => some (s.giveUp k)
    | _ => none
  | .deliver k timeNow => s.inFlight[k]?.map fun (i, fetch) =>
      s.deliver toLowerCase k i ((fetch.http undefined).receive timeNow)
  | .fulfil i j => (s.server.step toLowerCase (.fulfil i j)).map fun server => { s with server }
  | .reject i j => (s.server.step toLowerCase (.reject i j)).map fun server => { s with server }
  | .respond k => match s.origins[k]?, (s.server.requests[k]?).bind (·.2.sent.head?) with
    | some (some i), some resp =>
      some { s.modify i (Screen.receive toLowerCase resp) with origins := s.origins.set k none }
    | _, _ => none

inductive Steps (toLowerCase : String → String) (undefined : M) (s : App M) : Act → App M → Prop
  | mount : Steps toLowerCase undefined s .mount s.mount
  | onFocus (i : Nat) : Steps toLowerCase undefined s (.onFocus i)
      (s.modify i fun x => { x with errorMessage := " " })
  | onUsername (i : Nat) (username : String) : Steps toLowerCase undefined s
      (.onUsername i username) (s.modify i fun x => { x with username := username })
  | onEmail (i : Nat) (email : String) : Steps toLowerCase undefined s (.onEmail i email)
      (s.modify i fun x => { x with email := email })
  | onPassword (i : Nat) (password : String) : Steps toLowerCase undefined s
      (.onPassword i password) (s.modify i fun x => { x with password := password })
  | press (i : Nat) (x : Screen) (hx : s.screens[i]? = some x) :
      Steps toLowerCase undefined s (.press i) (s.press toLowerCase i x)
  | created (k i : Nat) (email password : String) (x : Screen)
      (hz : s.signUps[k]? = some (i, .createUser email password)) (he : email ∉ s.accounts)
      (hx : s.screens[i]? = some x) :
      Steps toLowerCase undefined s (.created k) (s.created k i email x)
  | refused (k i : Nat) (code : AuthError) (email password : String)
      (hz : s.signUps[k]? = some (i, .createUser email password)) :
      Steps toLowerCase undefined s (.refused k code)
        ((s.giveUp k).modify i (Screen.refuse code))
  | updated (k i : Nat) (displayName : String) (x : Screen)
      (hz : s.signUps[k]? = some (i, .updateProfile displayName))
      (hx : s.screens[i]? = some x) :
      Steps toLowerCase undefined s (.updated k) (s.updated k i x)
  | updateFailed (k : Nat) : Steps toLowerCase undefined s (.updateFailed k) (s.giveUp k)
  | deliver (k i : Nat) (fetch : Fetch) (timeNow : Int) (hz : s.inFlight[k]? = some (i, fetch)) :
      Steps toLowerCase undefined s (.deliver k timeNow)
        (s.deliver toLowerCase k i ((fetch.http undefined).receive timeNow))
  | fulfil (i j : Nat) (server : Sys M)
      (hs : s.server.step toLowerCase (.fulfil i j) = some server) :
      Steps toLowerCase undefined s (.fulfil i j) { s with server }
  | reject (i j : Nat) (server : Sys M)
      (hs : s.server.step toLowerCase (.reject i j) = some server) :
      Steps toLowerCase undefined s (.reject i j) { s with server }
  | respond (k i : Nat) (resp : Response M) : Steps toLowerCase undefined s (.respond k)
      { s.modify i (Screen.receive toLowerCase resp) with origins := s.origins.set k none }

theorem steps {toLowerCase : String → String} {undefined : M} {s s' : App M} {a : Act}
    (h : s.step toLowerCase undefined a = some s') : s.Steps toLowerCase undefined a s' := by
  cases a with
  | mount =>
    obtain rfl := Option.some.inj h
    exact .mount
  | onFocus i =>
    obtain rfl := Option.some.inj h
    exact .onFocus i
  | onUsername i username =>
    obtain rfl := Option.some.inj h
    exact .onUsername i username
  | onEmail i email =>
    obtain rfl := Option.some.inj h
    exact .onEmail i email
  | onPassword i password =>
    obtain rfl := Option.some.inj h
    exact .onPassword i password
  | press i =>
    obtain ⟨x, hx, rfl⟩ := Option.map_eq_some_iff.mp h
    exact .press i x hx
  | created k =>
    simp only [step] at h
    split at h
    · rename_i i email password hz
      split at h
      · cases h
      · rename_i he
        obtain ⟨x, hx, rfl⟩ := Option.map_eq_some_iff.mp h
        exact .created k i email password x hz he hx
    · cases h
  | refused k code =>
    simp only [step] at h
    split at h
    · rename_i i email password hz
      split at h
      · cases h
      · obtain rfl := Option.some.inj h
        exact .refused k i code email password hz
    · cases h
  | updated k =>
    simp only [step] at h
    split at h
    · rename_i i displayName hz
      obtain ⟨x, hx, rfl⟩ := Option.map_eq_some_iff.mp h
      exact .updated k i displayName x hz hx
    · cases h
  | updateFailed k =>
    simp only [step] at h
    split at h
    · obtain rfl := Option.some.inj h
      exact .updateFailed k
    · cases h
  | deliver k timeNow =>
    obtain ⟨z, hz, rfl⟩ := Option.map_eq_some_iff.mp h
    exact .deliver k z.1 z.2 timeNow hz
  | fulfil i j =>
    obtain ⟨server, hs, rfl⟩ := Option.map_eq_some_iff.mp h
    exact .fulfil i j server hs
  | reject i j =>
    obtain ⟨server, hs, rfl⟩ := Option.map_eq_some_iff.mp h
    exact .reject i j server hs
  | respond k =>
    simp only [step] at h
    split at h
    · rename_i i resp _ _
      obtain rfl := Option.some.inj h
      exact .respond k i resp
    · cases h

end App
end SignUp
end RecoupChat
