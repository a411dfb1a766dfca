import RecoupChat.Usernames

/-! One device: the switch navigator with its screens, the observers that are registered with
Firebase, and the server, which other devices use too. -/
namespace RecoupChat
open Promise Transition Collection Router
variable {M : Type}

namespace Auth

structure FirebaseUser where
  email : String
  displayName : Option String
  deriving DecidableEq

structure Account where
  user : FirebaseUser
  password : String
  deriving DecidableEq

def FirebaseUser.updateProfile (email displayName : String) (user : FirebaseUser) : FirebaseUser :=
  if user.email = email then { user with displayName := some displayName } else user

/-- The two fields that the component Loading writes and reads; an observer is a number. -/
structure Loading where
  unsubscribeFromFirebaseAuth : Option Nat
  unsubscribeUserAuthStateChangedListener : Option Nat
  deriving DecidableEq

def Loading.componentDidMount (observer : Nat) : Loading := ⟨some observer, none⟩

/-- The observers that stay registered: the field that is tested is not the one that was
set. -/
def Loading.componentWillUnmount (x : Loading) (observers : List Nat) : List Nat :=
  match x.unsubscribeUserAuthStateChangedListener with
  | some observer => observers.filter (· ≠ observer)
  | none => observers

structure Login where
  email : String
  password : String
  errorMessage : Option String

def Login.initial : Login := ⟨"", "", none⟩

inductive LoginError where
  | wrongPassword | invalidEmail | userDisabled | userNotFound | other

/-- The second test assigns to `error.code`, so it takes every other error. -/
def LoginError.message : LoginError → String
  | .wrongPassword => "Incorrect email/password"
  | _ => "Email address is invalid"

inductive Route where
  | SignUp | Login | Main
  deriving DecidableEq

/-- The mounted screen. SignUp and Login screens are named by their index, and Main has the
name that MessagesAll took when it was mounted. After `threw` nothing is: the navigator had gone
to Main, whose `componentDidMount` threw, and React took the tree down. -/
inductive Mounted where
  | Loading (x : Loading)
  | SignUp (i : Nat)
  | Login (i : Nat)
  | Main (username : Option String)
  | threw
  deriving DecidableEq

def Mounted.route? : Mounted → Option Route
  | .Loading _ => none
  | .SignUp _ => some .SignUp
  | .Login _ => some .Login
  | .Main _ | .threw => some .Main

inductive Task where
  | createUser (i : Nat) (email password : String)
  | updateProfile (i : Nat) (email displayName : String)
  | signIn (i : Nat) (email password : String)
  | signedIn

/-- `due` says that the first call of the observer registered last is still to come. `origins`
says for each request at the server which SignUp screen of this device waits for the answer,
and to what. -/
structure App (M : Type) where
  mounted : Mounted
  signUps : List SignUp.Screen
  logins : List Login
  observers : List Nat
  due : Bool
  currentUser : Option FirebaseUser
  accounts : List Account
  tasks : List Task
  inFlight : List (Nat × SignUp.Fetch)
  server : Sys M
  origins : List (Option (Nat × SignUp.Fetch))

inductive Act (M : Type) where
  /-- the app is started anew; Firebase remembers the user -/
  | launch
  /-- the first call of Loading's observer -/
  | loaded
  | onFocus
  | onUsername (username : String)
  | onEmail (email : String)
  | onPassword (password : String)
  | pressSignUp
  | onLoginEmail (email : String)
  | onLoginPassword (password : String)
  | pressLogin
  /-- the button of SignUp or Login that leads to the other one -/
  | switch
  | signOut
  /-- Firebase creates the account of task `k`, or refuses -/
  | created (k : Nat)
  | refused (k : Nat) (code : SignUp.AuthError)
  | updated (k : Nat)
  | updateFailed (k : Nat)
  | signedIn (k : Nat)
  | loginFailed (k : Nat) (code : LoginError)
  /-- the callback of `signInWithEmailAndPassword` -/
  | entered (k : Nat)
  /-- message `k` reaches the server -/
  | deliver (k : Nat) (timeNow : Int)
  | fulfil (i j : Nat)
  | reject (i j : Nat)
  /-- the answer to request `k` reaches its screen -/
  | respond (k : Nat)
  /-- another device creates an account or changes it -/
  | account (x : Account)
  /-- a request of another device reaches the server -/
  | request (r : Request M)

def Act.edits : Act M → Prop
  | .onFocus | .onUsername _ | .onEmail _ | .onPassword _ | .onLoginEmail _
  | .onLoginPassword _ => True
  | _ => False

namespace App

def start (currentUser : Option FirebaseUser) (accounts : List Account) (server : Sys M) : App M :=
  { mounted := .Loading (Loading.componentDidMount 0)
    signUps := []
    logins := []
    observers := [0]
    due := true
    currentUser
    accounts
    tasks := []
    inFlight := []
    server
    origins := server.requests.map fun _ => none }

def unmount (s : App M) : App M :=
  match s.mounted with
  | .Loading x => { s with observers := x.componentWillUnmount s.observers }
  | _ => s

/-- A new SignUp screen fetches the usernames, and Main reads the name of the user, which throws
where `currentUser` is null. -/
def mount (s : App M) : Route → App M
  | .SignUp => { s with
      mounted := .SignUp s.signUps.length
      signUps := s.signUps ++ [SignUp.Screen.initial]
      inFlight := s.inFlight ++ [(s.signUps.length, .existing)] }
  | .Login => { s with
      mounted := .Login s.logins.length
      logins := s.logins ++ [Login.initial] }
  | .Main => { s with mounted := match s.currentUser with
      | some currentUser => .Main currentUser.displayName
      | none => .threw }

/-- The switch navigator unmounts the screen it leaves. -/
def navigate (s : App M) (route : Route) : App M :=
  if s.mounted = .threw ∨ s.mounted.route? = some route then s else s.unmount.mount route

/-- The observer that Loading registers. -/
def authStateChanged (s : App M) : App M :=
  s.navigate (if s.currentUser.isSome then .Main else .SignUp)

def notify (s : App M) : App M := s.observers.foldl (fun s _ => s.authStateChanged) s

def editSignUp (s : App M) (f : SignUp.Screen → SignUp.Screen) : Option (App M) :=
  match s.mounted with
  | .SignUp i => some { s with signUps := s.signUps.modify i f }
  | _ => none

def editLogin (s : App M) (f : Login → Login) : Option (App M) :=
  match s.mounted with
  | .Login i => some { s with logins := s.logins.modify i f }
  | _ => none

/-- `checkUsername` and the first call of `handleSignUp` -/
def pressSignUp (toLowerCase : String → String) (s : App M) (i : Nat) (x : SignUp.Screen) : App M :=
  if x.listed toLowerCase then
    { s with signUps := s.signUps.modify i fun x =>
        { x with errorMessage := "This username already exists." } }
  else { s with tasks := s.tasks ++ [.createUser i (trim x.email) (trim x.password)] }

def pressLogin (s : App M) (i : Nat) (x : Login) : App M :=
  { s with tasks := s.tasks ++ [.signIn i (trim x.email) (trim x.password)] }

/-- Firebase signs the new user in and calls the observers; then the callback asks for the
display name that the screen shows. -/
def created (s : App M) (k i : Nat) (email password : String) (x : SignUp.Screen) : App M :=
  let user : FirebaseUser := ⟨email, none⟩
  App.notify { s with
    accounts := s.accounts ++ [⟨user, password⟩]
    currentUser := some user
    tasks := s.tasks.set k (.updateProfile i email x.username) }

/-- `addUserToDB` posts what the screen shows by then. -/
def updated (s : App M) (k i : Nat) (email displayName : String) (x : SignUp.Screen) : App M :=
  { s with
    accounts := s.accounts.map fun a => { a with user := a.user.updateProfile email displayName }
    currentUser := s.currentUser.map (FirebaseUser.updateProfile email displayName)
    tasks := s.tasks.eraseIdx k
    inFlight := s.inFlight ++ [(i, .addUser x.username)] }

def giveUp (s : App M) (k : Nat) : App M := { s with tasks := s.tasks.eraseIdx k }

def signedIn (s : App M) (k : Nat) (x : Account) : App M :=
  App.notify { s with
    currentUser := some x.user
    tasks := s.tasks.set k .signedIn }

def accountOf (s : App M) (email password : String) : Option Account :=
  s.accounts.find? fun x => x.user.email = email ∧ x.password = password

def signOut (s : App M) : App M := App.notify { s with currentUser := none }

def deliver (toLowerCase : String → String) (s : App M) (k : Nat) (z : Nat × SignUp.Fetch)
    (r : Option (Request M)) : App M :=
  let s := { s with inFlight := s.inFlight.eraseIdx k }
  match r with
  | none => s
  | some r => { s with
    server.requests := s.server.requests ++ [(r, (r.handler toLowerCase).begin)]
    origins := s.origins ++ [some z] }

def request (toLowerCase : String → String) (s : App M) (r : Request M) : App M :=
  { s with
    server.requests := s.server.requests ++ [(r, (r.handler toLowerCase).begin)]
    origins := s.origins ++ [none] }

def receive (toLowerCase : String → String) (s : App M) (z : Nat × SignUp.Fetch)
    (resp : Response M) : App M :=
  match z.2 with
  | .existing => { s with signUps := s.signUps.modify z.1 (SignUp.Screen.receive toLowerCase resp) }
  | .addUser _ => if resp.status = .SUCCESS then s.navigate .Main else s

variable [DecidableEq M]

def step (toLowerCase : String → String) (undefined : M) (s : App M) : Act M → Option (App M)
  | .launch => some (App.start s.currentUser s.accounts s.server)
  | .loaded => if s.due then some (App.authStateChanged { s with due := false }) else none
  | .onFocus => s.editSignUp fun x => { x with errorMessage := " " }
  | .onUsername username => s.editSignUp fun x => { x with username := username }
  | .onEmail email => s.editSignUp fun x => { x with email := email }
  | .onPassword password => s.editSignUp fun x => { x with password := password }
  | .pressSignUp => match s.mounted with
    | .SignUp i => s.signUps[i]?.map (s.pressSignUp toLowerCase i)
    | _ => none
  | .onLoginEmail email => s.editLogin fun x => { x with email := email }
  | .onLoginPassword password => s.editLogin fun x => { x with password := password }
  | .pressLogin => match s.mounted with
    | .Login i => s.logins[i]?.map (s.pressLogin i)
    | _ => none
  | .switch => match s.mounted with
    | .SignUp _ => some (s.navigate .Login)
    | .Login _ => some (s.navigate .SignUp)
    | _ => none
  | .signOut => match s.mounted with
    | .Main _ => some s.signOut
    | _ => none
  | .created k => match s.tasks[k]? with
    | some (.createUser i email password) =>
      if email ∈ s.accounts.map (·.user.email) then none
      else s.signUps[i]?.map (s.created k i email password)
    | _ => none
  | .refused k code => match s.tasks[k]? with
    | some (.createUser i email _) =>
      if code = .emailAlreadyInUse ∧ email ∉ s.accounts.map (·.user.email) then none
      else some { s.giveUp k with signUps := s.signUps.modify i (SignUp.Screen.refuse code) }
    | _ => none
  | .updated k => match s.tasks[k]? with
    | some (.updateProfile i email displayName) =>
      s.signUps[i]?.map (s.updated k i email displayName)
    | _ => none
  | .updateFailed k => match s.tasks[k]? with
    | some (.updateProfile _ _ _) => some (s.giveUp k)
    | _ => none
  | .signedIn k => match s.tasks[k]? with
    | some (.signIn _ email password) =>
      (s.accountOf email password).map (s.signedIn k)
    | _ => none
  | .loginFailed k code => match s.tasks[k]? with
    | some (.signIn i _ _) => some { s.giveUp k with
        logins := s.logins.modify i fun x => { x with errorMessage := some code.message } }
    | _ => none
  | .entered k => match s.tasks[k]? with
    | some .signedIn => some ((s.giveUp k).navigate .Main)
    | _ => none
  | .deliver k timeNow => s.inFlight[k]?.map fun z =>
      s.deliver toLowerCase k z ((z.2.http undefined).receive timeNow)
  | .fulfil i j => (s.server.step toLowerCase (.fulfil i j)).map fun server => { s with server }
  | .reject i j => (s.server.step toLowerCase (.reject i j)).map fun server => { s with server }
  | .respond k => match s.origins[k]?, (s.server.requests[k]?).bind (·.2.sent.head?) with
    | some (some z), some resp =>
      some ({ s with origins := s.origins.set k none }.receive toLowerCase z resp)
    | _, _ => none
  | .account x => some { s with
      accounts := x :: s.accounts.filter fun a => a.user.email ≠ x.user.email }
  | .request r => some (s.request toLowerCase r)

inductive Steps (toLowerCase : String → String) (undefined : M) (s : App M) :
    Act M → App M → Prop
  | launch : Steps toLowerCase undefined s .launch (App.start s.currentUser s.accounts s.server)
  | loaded (hd : s.due = true) :
      Steps toLowerCase undefined s .loaded (App.authStateChanged { s with due := false })
  | edited (a : Act M) (ha : a.edits) (signUps : List SignUp.Screen) (logins : List Login) :
      Steps toLowerCase undefined s a { s with signUps, logins }
  | pressSignUp (i : Nat) (x : SignUp.Screen) (hm : s.mounted = .SignUp i)
      (hx : s.signUps[i]? = some x) :
      Steps toLowerCase undefined s .pressSignUp (s.pressSignUp toLowerCase i x)
  | pressLogin (i : Nat) (x : Login) (hm : s.mounted = .Login i) :
      Steps toLowerCase undefined s .pressLogin (s.pressLogin i x)
  | switch (route : Route) (hm : s.mounted.route? ≠ none) (hr : route ≠ .Main) :
      Steps toLowerCase undefined s .switch (s.navigate route)
  | signOut (hm : s.mounted.route? = some .Main) : Steps toLowerCase undefined s .signOut s.signOut
  | created (k i : Nat) (email password : String) (x : SignUp.Screen)
      (hz : s.tasks[k]? = some (.createUser i email password))
      (he : email ∉ s.accounts.map (·.user.email)) (hx : s.signUps[i]? = some x) :
      Steps toLowerCase undefined s (.created k) (s.created k i email password x)
  | refused (k : Nat) (code : SignUp.AuthError) (i : Nat) (email password : String)
      (hz : s.tasks[k]? = some (.createUser i email password))
      (he : ¬ (code = .emailAlreadyInUse ∧ email ∉ s.accounts.map (·.user.email))) :
      Steps toLowerCase undefined s (.refused k code)
        { s.giveUp k with signUps := s.signUps.modify i (SignUp.Screen.refuse code) }
  | updated (k i : Nat) (email displayName : String) (x : SignUp.Screen)
      (hz : s.tasks[k]? = some (.updateProfile i email displayName))
      (hx : s.signUps[i]? = some x) :
      Steps toLowerCase undefined s (.updated k) (s.updated k i email displayName x)
  | updateFailed (k i : Nat) (email displayName : String)
      (hz : s.tasks[k]? = some (.updateProfile i email displayName)) :
      Steps toLowerCase undefined s (.updateFailed k) (s.giveUp k)
  | signedIn (k i : Nat) (email password : String) (x : Account)
      (hz : s.tasks[k]? = some (.signIn i email password))
      (hx : s.accountOf email password = some x) :
      Steps toLowerCase undefined s (.signedIn k) (s.signedIn k x)
  | loginFailed (k : Nat) (code : LoginError) (logins : List Login) (i : Nat)
      (email password : String) (hz : s.tasks[k]? = some (.signIn i email password)) :
      Steps toLowerCase undefined s (.loginFailed k code) { s.giveUp k with logins }
  | entered (k : Nat) (hz : s.tasks[k]? = some .signedIn) :
      Steps toLowerCase undefined s (.entered k) ((s.giveUp k).navigate .Main)
  | deliver (k : Nat) (timeNow : Int) (z : Nat × SignUp.Fetch) (hz : s.inFlight[k]? = some z) :
      Steps toLowerCase undefined s (.deliver k timeNow)
        (s.deliver toLowerCase k z ((z.2.http undefined).receive timeNow))
  | fulfil (i j : Nat) (server : Sys M)
      (hs : s.server.step toLowerCase (.fulfil i j) = some server) :
      Steps toLowerCase undefined s (.fulfil i j) { s with server }
  | reject (i j : Nat) (server : Sys M)
      (hs : s.server.step toLowerCase (.reject i j) = some server) :
      Steps toLowerCase undefined s (.reject i j) { s with server }
  | respond (k : Nat) (z : Nat × SignUp.Fetch) (resp : Response M)
      (hz : s.origins[k]? = some (some z))
      (hresp : (s.server.requests[k]?).bind (·.2.sent.head?) = some resp) :
      Steps toLowerCase undefined s (.respond k)
        ({ s with origins := s.origins.set k none }.receive toLowerCase z resp)
  | account (x : Account) : Steps toLowerCase undefined s (.account x)
      { s with accounts := x :: s.accounts.filter fun a => a.user.email ≠ x.user.email }
  | request (r : Request M) :
      Steps toLowerCase undefined s (.request r) (s.request toLowerCase r)

omit [DecidableEq M] in
theorem edited_signUp {s s' : App M} {f : SignUp.Screen → SignUp.Screen}
    (h : s.editSignUp f = some s') :
    ∃ i, s.mounted = .SignUp i ∧ s' = { s with signUps := s.signUps.modify i f } := by
  simp only [editSignUp] at h
  split at h
  · rename_i i hm
    exact ⟨i, hm, (Option.some.inj h).symm⟩
  · cases h

omit [DecidableEq M] in
theorem edited_login {s s' : App M} {f : Login → Login} (h : s.editLogin f = some s') :
    ∃ logins, s' = { s with logins } := by
  simp only [editLogin] at h
  split at h
  · exact ⟨_, (Option.some.inj h).symm⟩
  · cases h

theorem steps {toLowerCase : String → String} {undefined : M} {s s' : App M} {a : Act M}
    (h : s.step toLowerCase undefined a = some s') : s.Steps toLowerCase undefined a s' := by
  cases a with
  | launch =>
    obtain rfl := Option.some.inj h
    exact .launch
  | loaded =>
    simp only [step] at h
    split at h
    · rename_i hd
      obtain rfl := Option.some.inj h
      exact .loaded hd
    · cases h
  | onFocus | onUsername | onEmail | onPassword =>
    obtain ⟨i, -, rfl⟩ := edited_signUp h
    exact .edited _ (by trivial) _ s.logins
  | onLoginEmail | onLoginPassword =>
    obtain ⟨logins, rfl⟩ := edited_login h
    exact .edited _ (by trivial) s.signUps logins
  | pressSignUp =>
    simp only [step] at h
    split at h
    · rename_i i hm
      obtain ⟨x, hx, rfl⟩ := Option.map_eq_some_iff.mp h
      exact .pressSignUp i x hm hx
    · cases h
  | pressLogin =>
    simp only [step] at h
    split at h
    · rename_i i hm
      obtain ⟨x, -, rfl⟩ := Option.map_eq_some_iff.mp h
      exact .pressLogin i x hm
    · cases h
  | switch =>
    simp only [step] at h
    split at h
    · rename_i i hm
      obtain rfl := Option.some.inj h
      exact .switch .Login (by simp [hm, Mounted.route?]) (by decide)
    · rename_i i hm
      obtain rfl := Option.some.inj h
      exact .switch .SignUp (by simp [hm, Mounted.route?]) (by decide)
    · cases h
  | signOut =>
    simp only [step] at h
    split at h
    · rename_i name hm
      obtain rfl := Option.some.inj h
      exact .signOut (by rw [hm]; rfl)
    · cases h
  | created k =>
    simp only [step] at h
    split at h
    · rename_i i email password hz
      split at h
      · cases h
      · rename_i he
        obtain ⟨x, hx, rfl⟩ := Option.map_eq_some_iff.mp h
        exact .created k i email password x hz he hx
    · cases h
  | refused k code =>
    simp only [step] at h
    split at h
    · rename_i i email password hz
      split at h
      · cases h
      · rename_i he
        obtain rfl := Option.some.inj h
        exact .refused k code i email password hz he
    · cases h
  | updated k =>
    simp only [step] at h
    split at h
    · rename_i i email displayName hz
      obtain ⟨x, hx, rfl⟩ := Option.map_eq_some_iff.mp h
      exact .updated k i email displayName x hz hx
    · cases h
  | updateFailed k =>
    simp only [step] at h
    split at h
    · rename_i i email displayName hz
      obtain rfl := Option.some.inj h
      exact .updateFailed k i email displayName hz
    · cases h
  | signedIn k =>
    simp only [step] at h
    split at h
    · rename_i i email password hz
      obtain ⟨x, hx, rfl⟩ := Option.map_eq_some_iff.mp h
      exact .signedIn k i email password x hz hx
    · cases h
  | loginFailed k code =>
    simp only [step] at h
    split at h
    · rename_i i email password hz
      obtain rfl := Option.some.inj h
      exact .loginFailed k code _ i email password hz
    · cases h
  | entered k =>
    simp only [step] at h
    split at h
    · rename_i hz
      obtain rfl := Option.some.inj h
      exact .entered k hz
    · cases h
  | deliver k timeNow =>
    obtain ⟨z, hz, rfl⟩ := Option.map_eq_some_iff.mp h
    exact .deliver k timeNow z hz
  | fulfil i j =>
    obtain ⟨server, hs, rfl⟩ := Option.map_eq_some_iff.mp h
    exact .fulfil i j server hs
  | reject i j =>
    obtain ⟨server, hs, rfl⟩ := Option.map_eq_some_iff.mp h
    exact .reject i j server hs
  | respond k =>
    simp only [step] at h
    split at h
    · rename_i z resp hz hresp
      obtain rfl := Option.some.inj h
      exact .respond k z resp hz hresp
    · cases h
  | account x =>
    obtain rfl := Option.some.inj h
    exact .account x
  | request r =>
    obtain rfl := Option.some.inj h
    exact .request r

end App
end Auth
end RecoupChat
