import RecoupChat.SignedIn

/-! The sign-ups of a device. The SignUp screens that a device mounts, their calls of Firebase and
their requests take the steps of the SignUp screens on their own, between steps of other devices
and restarts of the app. -/
namespace RecoupChat
open Promise Transition Collection
variable {M : Type}

namespace Auth

def Task.signUp? : Task → Option (Nat × SignUp.Stage)
  | .createUser i email password => some (i, .createUser email password)
  | .updateProfile i _ displayName => some (i, .updateProfile displayName)
  | _ => none

namespace App

/-- The SignUp screens of the device and what is under way for them. -/
def signUpApp (s : App M) : SignUp.App M where
  screens := s.signUps
  signUps := s.tasks.filterMap Task.signUp?
  accounts := s.accounts.map (·.user.email)
  inFlight := s.inFlight
  server := s.server
  origins := s.origins.map (·.map (·.1))

/-- What happens to the sign-ups besides their own steps: nothing, a new start of the app, accounts
and requests of other devices, and the answer to `addUserToDB`, which changes no SignUp screen. -/
inductive Aside (toLowerCase : String → String) (x : SignUp.App M) : SignUp.App M → Prop
  | nothing : Aside toLowerCase x x
  | launch : Aside toLowerCase x { x with
      screens := []
      signUps := []
      inFlight := []
      origins := x.server.requests.map fun _ => none }
  | accounts (emails : List String) : Aside toLowerCase x { x with accounts := emails }
  | request (r : Request M) : Aside toLowerCase x { x with
      server.requests := x.server.requests ++ [(r, (r.handler toLowerCase).begin)]
      origins := x.origins ++ [none] }
  | answered (k : Nat) : Aside toLowerCase x { x with origins := x.origins.set k none }

theorem signUpApp_mount (s : App M) (route : Route) :
    (s.mount route).signUpApp = if route = .SignUp then s.signUpApp.mount else s.signUpApp := by
  cases route <;> rfl

theorem signUpApp_unmount (s : App M) : s.unmount.signUpApp = s.signUpApp := by
  simp only [unmount]
  split <;> rfl

theorem signUpApp_navigate (s : App M) (route : Route) :
    (s.navigate route).signUpApp = s.signUpApp ∨
      route = .SignUp ∧ (s.navigate route).signUpApp = s.signUpApp.mount := by
  simp only [navigate]
  split
  · exact Or.inl rfl
  · rw [signUpApp_mount, signUpApp_unmount]
    by_cases hr : route = .SignUp
    · exact Or.inr ⟨hr, if_pos hr⟩
    · exact Or.inl (if_neg hr)

theorem notify_or (s : App M) : s.notify = s ∨ s.notify = s.authStateChanged := by
  by_cases ho : s.observers = []
  · left
    rw [notify, ho, List.foldl_nil]
  · exact Or.inr (notify_eq ho)

theorem signUpApp_notify_user {s : App M} (hu : s.currentUser.isSome) :
    s.notify.signUpApp = s.signUpApp := by
  cases s.notify_or with
  | inl h => rw [h]
  | inr h =>
    rw [h, authStateChanged, if_pos hu]
    exact (s.signUpApp_navigate .Main).resolve_right fun h => Route.noConfusion h.1

theorem signUpApp_deliver (toLowerCase : String → String) (s : App M) (k : Nat)
    (z : Nat × SignUp.Fetch) (r : Option (Request M)) :
    (s.deliver toLowerCase k z r).signUpApp = s.signUpApp.deliver toLowerCase k z.1 r := by
  cases r with
  | none => rfl
  | some r => simp [deliver, signUpApp, SignUp.App.deliver]

section Step
variable [DecidableEq M] {toLowerCase : String → String} {undefined : M}

def Follows (toLowerCase : String → String) (undefined : M) (x x' : SignUp.App M) : Prop :=
  (∃ a, x.step toLowerCase undefined a = some x') ∨ Aside toLowerCase x x'

theorem follows_navigate (s : App M) (route : Route) :
    Follows toLowerCase undefined s.signUpApp (s.navigate route).signUpApp := by
  cases s.signUpApp_navigate route with
  | inl h => exact Or.inr (h ▸ .nothing)
  | inr h => exact Or.inl ⟨.mount, congrArg some h.2.symm⟩

theorem follows_notify (s : App M) :
    Follows toLowerCase undefined s.signUpApp s.notify.signUpApp := by
  cases s.notify_or with
  | inl h =>
    rw [h]
    exact Or.inr .nothing
  | inr h =>
    rw [h]
    exact follows_navigate s _

theorem follows_edit {s s' : App M} {a : Act M} (ha : a.edits)
    (hs : s.step toLowerCase undefined a = some s') :
    Follows toLowerCase undefined s.signUpApp s'.signUpApp := by
  cases a with
  | onFocus =>
    obtain ⟨i, -, rfl⟩ := edited_signUp hs
    exact Or.inl ⟨.onFocus i, rfl⟩
  | onUsername username =>
    obtain ⟨i, -, rfl⟩ := edited_signUp hs
    exact Or.inl ⟨.onUsername i username, rfl⟩
  | onEmail email =>
    obtain ⟨i, -, rfl⟩ := edited_signUp hs
    exact Or.inl ⟨.onEmail i email, rfl⟩
  | onPassword password =>
    obtain ⟨i, -, rfl⟩ := edited_signUp hs
    exact Or.inl ⟨.onPassword i password, rfl⟩
  | onLoginEmail | onLoginPassword =>
    obtain ⟨logins, rfl⟩ := edited_login hs
    exact Or.inr .nothing
  | _ => exact absurd ha id

theorem follows_created {s : App M} {k i : Nat} {email password : String} {x : SignUp.Screen}
    (hz : s.tasks[k]? = some (.createUser i email password))
    (he : email ∉ s.accounts.map (·.user.email)) (hx : s.signUps[i]? = some x) :
    Follows toLowerCase undefined s.signUpApp (s.created k i email password x).signUpApp := by
  obtain ⟨n, hn, hset, -⟩ := filterMap_at (f := Task.signUp?) hz rfl
  refine Or.inl ⟨.created n, ?_⟩
  have hstep : s.signUpApp.step toLowerCase undefined (.created n) =
      some (s.signUpApp.created n i email x) := by
    simp only [SignUp.App.step, signUpApp, hn, if_neg he, hx, Option.map_some]
  have htasks := hset (.updateProfile i email x.username) _ rfl
  rw [hstep, created, signUpApp_notify_user rfl]
  simp [SignUp.App.created, signUpApp, htasks]

theorem follows_updated {s : App M} {k i : Nat} {email displayName : String} {x : SignUp.Screen}
    (hz : s.tasks[k]? = some (.updateProfile i email displayName)) (hx : s.signUps[i]? = some x) :
    Follows toLowerCase undefined s.signUpApp (s.updated k i email displayName x).signUpApp := by
  obtain ⟨n, hn, -, herase⟩ := filterMap_at (f := Task.signUp?) hz rfl
  refine Or.inl ⟨.updated n, ?_⟩
  have hstep : s.signUpApp.step toLowerCase undefined (.updated n) =
      some (s.signUpApp.updated n i x) := by
    simp only [SignUp.App.step, signUpApp, hn, hx, Option.map_some]
  have hemail (a : Account) : (a.user.updateProfile email displayName).email = a.user.email := by
    simp only [FirebaseUser.updateProfile]
    split <;> rfl
  rw [hstep]
  simp [SignUp.App.updated, updated, signUpApp, herase, hemail]

theorem follows_respond {s : App M} {k : Nat} {z : Nat × SignUp.Fetch} {resp : Response M}
    (hz : s.origins[k]? = some (some z))
    (hresp : (s.server.requests[k]?).bind (·.2.sent.head?) = some resp) :
    Follows toLowerCase undefined s.signUpApp
      ({ s with origins := s.origins.set k none }.receive toLowerCase z resp).signUpApp := by
  let t : App M := { s with origins := s.origins.set k none }
  have ht : t.signUpApp = { s.signUpApp with origins := s.signUpApp.origins.set k none } := by
    simp [t, signUpApp]
  obtain ⟨i, fetch⟩ := z
  cases fetch with
  | existing =>
    refine Or.inl ⟨.respond k, ?_⟩
    have horigin : s.signUpApp.origins[k]? = some (some i) := by simp [signUpApp, hz]
    have hserver : (s.signUpApp.server.requests[k]?).bind (·.2.sent.head?) = some resp := hresp
    simp only [SignUp.App.step, horigin, hserver]
    simp [receive, SignUp.App.modify, signUpApp]
  | addUser username =>
    have hanswered : Follows toLowerCase undefined s.signUpApp t.signUpApp :=
      Or.inr (ht ▸ .answered k)
    by_cases hok : resp.status = .SUCCESS
    · have hmain := (t.signUpApp_navigate .Main).resolve_right fun h => Route.noConfusion h.1
      simp only [receive, if_pos hok]
      exact hmain ▸ hanswered
    · simp only [receive, if_neg hok]
      exact hanswered

theorem follows_step {s s' : App M} {a : Act M} (hs : s.step toLowerCase undefined a = some s') :
    Follows toLowerCase undefined s.signUpApp s'.signUpApp := by
  have hsame {t : App M} (ht : t.signUpApp = s.signUpApp) :
      Follows toLowerCase undefined s.signUpApp t.signUpApp := Or.inr (ht ▸ .nothing)
  -- a task of a log-in is none of the sign-ups
  have hgiven {k : Nat} {t : Task} (hz : s.tasks[k]? = some t) (ht : t.signUp? = none) :
      (s.giveUp k).signUpApp = s.signUpApp := by
    simp [signUpApp, App.giveUp, filterMap_eraseIdx_none hz ht]
  cases steps hs with
  | launch =>
    have hstart : (App.start s.currentUser s.accounts s.server).signUpApp = { s.signUpApp with
        screens := []
        signUps := []
        inFlight := []
        origins := s.server.requests.map fun _ => none } := by
      simp [App.start, signUpApp]
    rw [hstart]
    exact Or.inr .launch
  | loaded hd => exact follows_navigate { s with due := false } _
  | edited a ha signUps logins => exact follows_edit ha hs
  | pressSignUp i x hm hx =>
    refine Or.inl ⟨.press i, ?_⟩
    simp only [SignUp.App.step, signUpApp, hx, Option.map_some, SignUp.App.press, App.pressSignUp]
    split <;> simp [SignUp.App.modify, Task.signUp?]
  | pressLogin i x hm => exact hsame (by simp [signUpApp, App.pressLogin, Task.signUp?])
  | switch route hm hr => exact follows_navigate s route
  | signOut hm => exact follows_notify { s with currentUser := none }
  | created k i email password x hz he hx => exact follows_created hz he hx
  | refused k code i email password hz he =>
    obtain ⟨n, hn, -, herase⟩ := filterMap_at (f := Task.signUp?) hz rfl
    refine Or.inl ⟨.refused n code, ?_⟩
    have hcall : s.signUpApp.signUps[n]? = some (i, .createUser email password) := hn
    have hfree : ¬ (code = .emailAlreadyInUse ∧ email ∉ s.signUpApp.accounts) := he
    simp only [SignUp.App.step, hcall, if_neg hfree]
    simp [signUpApp, SignUp.App.giveUp, SignUp.App.modify, App.giveUp, herase]
  | updated k i email displayName x hz hx => exact follows_updated hz hx
  | updateFailed k i email displayName hz =>
    obtain ⟨n, hn, -, herase⟩ := filterMap_at (f := Task.signUp?) hz rfl
    refine Or.inl ⟨.updateFailed n, ?_⟩
    simp only [SignUp.App.step, signUpApp, hn]
    simp [SignUp.App.giveUp, App.giveUp, herase]
  | signedIn k i email password x hz hx =>
    have htasks : (s.tasks.set k .signedIn).filterMap Task.signUp? =
        s.tasks.filterMap Task.signUp? :=
      filterMap_set_same hz rfl
    rw [App.signedIn, signUpApp_notify_user rfl]
    exact hsame (by simp [signUpApp, htasks])
  | loginFailed k code logins i email password hz => exact hsame (hgiven hz rfl)
  | entered k hz =>
    have h : Follows toLowerCase undefined (s.giveUp k).signUpApp
        ((s.giveUp k).navigate .Main).signUpApp := follows_navigate (s.giveUp k) .Main
    rwa [hgiven hz rfl] at h
  | deliver k timeNow z hz =>
    refine Or.inl ⟨.deliver k timeNow, ?_⟩
    have hfetch : s.signUpApp.inFlight[k]? = some z := hz
    rw [SignUp.App.step, hfetch, Option.map_some, signUpApp_deliver]
  | fulfil i j server hserver =>
    refine Or.inl ⟨.fulfil i j, ?_⟩
    have hstep : s.signUpApp.server.step toLowerCase (.fulfil i j) = some server := hserver
    rw [SignUp.App.step, hstep]
    rfl
  | reject i j server hserver =>
    refine Or.inl ⟨.reject i j, ?_⟩
    have hstep : s.signUpApp.server.step toLowerCase (.reject i j) = some server := hserver
    rw [SignUp.App.step, hstep]
    rfl
  | respond k z resp hz hresp => exact follows_respond hz hresp
  | account x => exact Or.inr (.accounts _)
  | request r =>
    have hrequest : (s.request toLowerCase r).signUpApp = { s.signUpApp with
        server.requests := s.server.requests ++ [(r, (r.handler toLowerCase).begin)]
        origins := s.signUpApp.origins ++ [none] } := by
      simp [App.request, signUpApp]
    rw [hrequest]
    exact Or.inr (.request r)

/-- The sign-ups of a run are a run of the SignUp screens, with what happens beside them. -/
theorem follows_run {s s' : App M} {as : List (Act M)}
    (h : after (App.step toLowerCase undefined) s as = some s') :
    Relation.ReflTransGen (Follows toLowerCase undefined) s.signUpApp s'.signUpApp :=
  after_invariant
    (I := fun x => Relation.ReflTransGen (Follows toLowerCase undefined) s.signUpApp x.signUpApp)
    h .refl fun _ _ _ hI hs => hI.tail (follows_step hs)

end Step
end App
end Auth
end RecoupChat
