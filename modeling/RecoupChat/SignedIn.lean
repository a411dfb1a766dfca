import RecoupChat.Auth
import Mathlib.Dynamics.FixedPoints.Basic

/-! Who is signed in while Main is mounted. -/
namespace RecoupChat
open Promise Transition Collection Router
variable {M : Type}

namespace Auth

/-- The display name is set, and both collections have a document with it. -/
def FirebaseUser.Registered (store : Store M) (user : FirebaseUser) : Prop :=
  ∃ name ∈ user.displayName, name ∈ store.userNames ∧ name ∈ store.docNames

instance (store : Store M) (user : FirebaseUser) : Decidable (user.Registered store) :=
  inferInstanceAs (Decidable (∃ name ∈ user.displayName, _))

def Task.early : Task → Prop
  | .updateProfile _ _ _ => False
  | _ => True

section Server
variable [DecidableEq M]

theorem names_run (c : Call M) (s : Store M) :
    s.userNames ⊆ (c.run s).1.userNames ∧ s.docNames ⊆ (c.run s).1.docNames := by
  cases c with
  | usersInsertOne doc =>
    refine ⟨?_, List.Subset.refl _⟩
    simp [Call.run, Store.userNames, Store.insertUser]
  | userMessagesInsertOne doc =>
    refine ⟨List.Subset.refl _, ?_⟩
    simp [Call.run, Store.docNames, Store.insertUserMessages]
  | userMessagesSet u rows =>
    refine ⟨List.Subset.refl _, ?_⟩
    have hdocs : (s.setRows u rows).docNames = s.docNames :=
      map_updateOne (f := fun d : UserMessages M => { d with messages := rows }) (fun _ _ => rfl) _
    simp [Call.run, hdocs]
  | _ => exact ⟨List.Subset.refl _, List.Subset.refl _⟩

theorem registered_step {toLowerCase : String → String} {s s' : Sys M} {a : Action M}
    (h : s.step toLowerCase a = some s') {user : FirebaseUser}
    (hu : user.Registered s.store) : user.Registered s'.store := by
  cases a with
  | issue r =>
    obtain rfl := Option.some.inj h
    exact hu
  | fulfil i j =>
    obtain ⟨⟨r, th, ch⟩, -, rfl⟩ := Option.map_eq_some_iff.mp h
    obtain ⟨name, hn, huser, hdoc⟩ := hu
    obtain ⟨husers, hdocs⟩ := names_run ch.call s.store
    exact ⟨name, hn, husers huser, hdocs hdoc⟩
  | reject i j =>
    obtain ⟨⟨r, th, ch⟩, -, rfl⟩ := Option.map_eq_some_iff.mp h
    exact hu

end Server

namespace App

theorem mount_route (s : App M) (route : Route) : (s.mount route).mounted.route? = some route := by
  cases route with
  | SignUp => rfl
  | Login => rfl
  | Main =>
    simp only [mount]
    split <;> rfl

theorem navigate_threw {s : App M} (h : s.mounted = .threw) (route : Route) :
    s.navigate route = s := if_pos (Or.inl h)

theorem navigate_user (s : App M) (route : Route) :
    (s.navigate route).currentUser = s.currentUser ∧ (s.navigate route).server = s.server := by
  simp only [navigate]
  split
  · exact ⟨rfl, rfl⟩
  · have hu : s.unmount.currentUser = s.currentUser ∧ s.unmount.server = s.server := by
      simp only [unmount]
      split <;> exact ⟨rfl, rfl⟩
    cases route <;> exact hu

theorem navigate_route (s : App M) {route : Route} (h : s.mounted = .threw → route = .Main) :
    (s.navigate route).mounted.route? = some route := by
  simp only [navigate]
  split
  · rename_i hs
    cases hs with
    | inl ht => rw [ht, h ht, Mounted.route?]
    | inr hr => exact hr
  · exact mount_route _ _

theorem authStateChanged_idem (s : App M) :
    s.authStateChanged.authStateChanged = s.authStateChanged := by
  by_cases ht : s.mounted = .threw
  · have hstill : s.authStateChanged = s := navigate_threw ht _
    rw [hstill, hstill]
  · have hr : s.authStateChanged.mounted.route? = _ := s.navigate_route fun h => absurd h ht
    have hu : s.authStateChanged.currentUser = s.currentUser := (navigate_user s _).1
    rw [authStateChanged, hu]
    exact if_pos (Or.inr hr)

theorem notify_eq {s : App M} (h : s.observers ≠ []) : s.notify = s.authStateChanged := by
  obtain ⟨observer, rest, ho⟩ := List.exists_cons_of_ne_nil h
  have hfix : Function.IsFixedPt App.authStateChanged s.authStateChanged := s.authStateChanged_idem
  rw [notify, ho, List.foldl_cons, List.foldl_const]
  exact hfix.iterate rest.length

/-- While Main is mounted the user is registered. -/
def Good (s : App M) : Prop :=
  s.mounted.route? = some .Main → ∃ user ∈ s.currentUser, user.Registered s.server.store

instance (s : App M) : Decidable s.Good := inferInstanceAs (Decidable (_ → _))

/-- No account is created while an observer is registered, who is signed in at the start or
logs in is registered, and no user has signed out when the callback of a log-in runs. -/
def Careful (s : App M) : Act M → Prop
  | .created _ => s.observers = []
  | .loaded => ∀ user ∈ s.currentUser, user.Registered s.server.store
  | .signedIn k => ∀ i email password, s.tasks[k]? = some (.signIn i email password) →
      ∀ x ∈ s.accountOf email password, x.user.Registered s.server.store
  | .entered _ => s.currentUser ≠ none
  | _ => True

structure Observed (s : App M) : Prop where
  observed : s.observers ≠ []
  loading : ∀ x, s.mounted = .Loading x → x.unsubscribeUserAuthStateChangedListener = none

/-- No sign-up gets past the creation of its account, and once the first observer has been
called the user is registered. -/
structure Sound (s : App M) : Prop extends Observed s where
  tree : s.mounted ≠ .threw
  due : s.due = true → s.mounted.route? = none ∧ s.tasks = []
  tasks : ∀ t ∈ s.tasks, t.early
  inFlight : ∀ z ∈ s.inFlight, z.2 = .existing
  origins : ∀ z, some z ∈ s.origins → z.2 = .existing
  known : s.due = false → ∀ user ∈ s.currentUser, user.Registered s.server.store

namespace Observed

theorem start (currentUser : Option FirebaseUser) (accounts : List Account) (server : Sys M) :
    Observed (App.start currentUser accounts server) where
  observed := List.cons_ne_nil _ _
  loading x hx := by
    cases hx
    rfl

theorem unmount_eq {s : App M} (h : Observed s) : s.unmount = s := by
  simp only [unmount]
  split
  · rename_i x hx
    rw [Loading.componentWillUnmount, h.loading x hx]
  · rfl

theorem navigate {s : App M} (h : Observed s) (route : Route) : Observed (s.navigate route) := by
  simp only [App.navigate]
  split
  · exact h
  · rw [h.unmount_eq]
    refine ⟨?_, fun x hx => ?_⟩
    · cases route <;> exact h.observed
    · have hr := s.mount_route route
      rw [hx] at hr
      cases hr

theorem notify {s : App M} (h : Observed s) : Observed s.notify := by
  rw [notify_eq h.observed]
  exact h.navigate _

variable [DecidableEq M] {toLowerCase : String → String} {undefined : M}

theorem step {s s' : App M} {a : Act M} (h : Observed s)
    (hs : s.step toLowerCase undefined a = some s') : Observed s' := by
  have hsame {t : App M} (ho : t.observers = s.observers) (hm : t.mounted = s.mounted) :
      Observed t := ⟨ho ▸ h.observed, hm ▸ h.loading⟩
  cases steps hs with
  | launch => exact start _ _ _
  | loaded hd =>
    apply navigate
    exact hsame rfl rfl
  | switch route hm hr => exact h.navigate route
  | signOut | created | signedIn =>
    apply notify
    exact hsame rfl rfl
  | entered k hz =>
    apply navigate
    exact hsame rfl rfl
  | pressSignUp i x hm =>
    simp only [App.pressSignUp]
    split <;> exact hsame rfl rfl
  | deliver k timeNow z hz =>
    simp only [App.deliver]
    split <;> exact hsame rfl rfl
  | respond k z resp hz =>
    simp only [App.receive]
    split
    · exact hsame rfl rfl
    · split
      · apply navigate
        exact hsame rfl rfl
      · exact hsame rfl rfl
  | _ => exact hsame rfl rfl

end Observed

/-- Loading's observer is never removed: `componentWillUnmount` tests another field than the
one that holds the subscription. -/
theorem observers_kept [DecidableEq M] {toLowerCase : String → String} {undefined : M}
    (currentUser : Option FirebaseUser) (accounts : List Account) (server : Sys M)
    {as : List (Act M)} {s : App M}
    (h : after (App.step toLowerCase undefined) (App.start currentUser accounts server) as =
      some s) : s.observers ≠ [] :=
  (after_invariant (I := Observed) h (Observed.start _ _ _) fun _ _ _ h hs => h.step hs).observed

structure SignedIn (s : App M) : Prop extends Sound s where
  main : s.mounted.route? = some .Main → s.currentUser ≠ none

theorem SignedIn.keep {s s' : App M} (h : SignedIn s) (h' : Sound s')
    (hm : s'.mounted = s.mounted) (hu : s'.currentUser = s.currentUser) : SignedIn s' where
  __ := h'
  main hr := by
    rw [hu]
    exact h.main (hm ▸ hr)

theorem SignedIn.good {s : App M} (h : SignedIn s) : s.Good := by
  intro hm
  cases hd : s.due with
  | true =>
    have hn := (h.due hd).1
    rw [hm] at hn
    cases hn
  | false =>
    obtain ⟨user, hu⟩ := Option.ne_none_iff_exists'.mp (h.main hm)
    exact ⟨user, hu, h.known hd user hu⟩

namespace Sound

theorem not_due {s : App M} (h : Sound s) (hm : s.mounted.route? ≠ none) : s.due = false := by
  cases hd : s.due with
  | true => exact absurd (h.due hd).1 hm
  | false => rfl

theorem not_due_of_task {s : App M} (h : Sound s) {t : Task} (ht : t ∈ s.tasks) :
    s.due = false := by
  cases hd : s.due with
  | true =>
    rw [(h.due hd).2] at ht
    cases ht
  | false => rfl

theorem start (currentUser : Option FirebaseUser) (accounts : List Account) (server : Sys M) :
    SignedIn (App.start currentUser accounts server) where
  __ := Observed.start currentUser accounts server
  tree := Mounted.noConfusion
  due _ := ⟨rfl, rfl⟩
  tasks t ht := by cases ht
  inFlight z hz := by cases hz
  origins z hz := by simp [App.start] at hz
  known hd := by cases hd
  main hm := by cases hm

theorem mount {s : App M} (h : Sound s) (hd : s.due = false) {route : Route}
    (hr : route = .Main → s.currentUser ≠ none) : SignedIn (s.mount route) := by
  have hdue : ¬ s.due = true := by simp [hd]
  cases route with
  | SignUp =>
    refine { h with
      loading := fun x hx => by cases hx
      tree := Mounted.noConfusion
      due := fun hd => absurd hd hdue
      inFlight := fun z hz => ?_
      main := fun hm => by cases hm }
    cases List.mem_append.mp hz with
    | inl hz => exact h.inFlight z hz
    | inr hz => rw [List.mem_singleton.mp hz]
  | Login =>
    exact { h with
      loading := fun x hx => by cases hx
      tree := Mounted.noConfusion
      due := fun hd => absurd hd hdue
      main := fun hm => by cases hm }
  | Main =>
    obtain ⟨user, hu⟩ := Option.ne_none_iff_exists'.mp (hr rfl)
    have hmain : (s.mount .Main).mounted = .Main user.displayName := by simp [App.mount, hu]
    exact { h with
      loading := fun x hx => by cases hmain.symm.trans hx
      tree := fun ht => by cases hmain.symm.trans ht
      due := fun hd => absurd hd hdue
      main := fun _ => hr rfl }

theorem navigate {s : App M} (h : Sound s) (hd : s.due = false) {route : Route}
    (hr : route = .Main → s.currentUser ≠ none) : SignedIn (s.navigate route) := by
  simp only [App.navigate]
  split
  · rename_i hs
    have hs := hs.resolve_left h.tree
    exact { h with main := fun hm => hr (Option.some.inj (hs.symm.trans hm)) }
  · rw [h.unmount_eq]
    exact h.mount hd hr

theorem authStateChanged {s : App M} (h : Sound s) (hd : s.due = false) :
    SignedIn s.authStateChanged := by
  refine h.navigate hd fun hr hn => ?_
  simp [hn] at hr

theorem notify {s : App M} (h : Sound s) (hd : s.due = false) : SignedIn s.notify := by
  rw [notify_eq h.observed]
  exact h.authStateChanged hd

theorem giveUp {s : App M} (h : Sound s) (k : Nat) : Sound (s.giveUp k) where
  __ := h
  due hd := by
    obtain ⟨hr, ht⟩ := h.due hd
    exact ⟨hr, by simp [App.giveUp, ht]⟩
  tasks t ht := h.tasks t (List.mem_of_mem_eraseIdx ht)

theorem press {s : App M} (h : Sound s) (hd : s.due = false) {t : Task} (ht : t.early) :
    Sound { s with tasks := s.tasks ++ [t] } where
  __ := h
  due hd' := absurd hd' (by simp [hd])
  tasks t' ht' := by
    cases List.mem_append.mp ht' with
    | inl hold => exact h.tasks t' hold
    | inr hnew =>
      rw [List.mem_singleton.mp hnew]
      exact ht

theorem deliver {toLowerCase : String → String} {s : App M} (h : Sound s) {k : Nat}
    {z : Nat × SignUp.Fetch} (hz : s.inFlight[k]? = some z) (r : Option (Request M)) :
    Sound (s.deliver toLowerCase k z r) := by
  have hrest : ∀ x ∈ s.inFlight.eraseIdx k, x.2 = .existing :=
    fun x hx => h.inFlight x (List.mem_of_mem_eraseIdx hx)
  cases r with
  | none => exact { h with inFlight := hrest }
  | some r =>
    refine { h with
      inFlight := hrest
      origins := fun x hx => ?_ }
    cases List.mem_append.mp hx with
    | inl hold => exact h.origins x hold
    | inr hnew =>
      obtain rfl := Option.some.inj (List.mem_singleton.mp hnew)
      exact h.inFlight x (List.mem_of_getElem? hz)

theorem request {toLowerCase : String → String} {s : App M} (h : Sound s) (r : Request M) :
    Sound (s.request toLowerCase r) where
  __ := h
  origins x hx := by
    cases List.mem_append.mp hx with
    | inl hold => exact h.origins x hold
    | inr hnew => cases List.mem_singleton.mp hnew

theorem respond (toLowerCase : String → String) {s : App M} (h : Sound s) {k : Nat}
    {z : Nat × SignUp.Fetch} (hz : s.origins[k]? = some (some z)) (resp : Response M) :
    Sound ({ s with origins := s.origins.set k none }.receive toLowerCase z resp) ∧
      ({ s with origins := s.origins.set k none }.receive toLowerCase z resp).mounted = s.mounted ∧
      ({ s with origins := s.origins.set k none }.receive toLowerCase z resp).currentUser =
        s.currentUser := by
  rw [App.receive, h.origins z (List.mem_of_getElem? hz)]
  refine ⟨{ h with origins := fun x hx => ?_ }, rfl, rfl⟩
  cases List.mem_or_eq_of_mem_set hx with
  | inl hold => exact h.origins x hold
  | inr hnew => cases hnew

theorem server [DecidableEq M] {toLowerCase : String → String} {s : App M} (h : Sound s)
    {a : Action M} {server : Sys M} (hs : s.server.step toLowerCase a = some server) :
    Sound { s with server } where
  __ := h
  known hd user hu := registered_step hs (h.known hd user hu)

theorem changeUser {s : App M} (h : Sound s) {user : Option FirebaseUser}
    (hu : ∀ x ∈ user, x.Registered s.server.store) : Sound { s with currentUser := user } where
  __ := h
  known _ := hu

theorem replace {s : App M} (h : Sound s) (hd : s.due = false) {k : Nat} {t : Task}
    (ht : t.early) : Sound { s with tasks := s.tasks.set k t } where
  __ := h
  due hd' := absurd hd' (by simp [hd])
  tasks x hx := by
    cases List.mem_or_eq_of_mem_set hx with
    | inl hold => exact h.tasks x hold
    | inr hnew =>
      rw [hnew]
      exact ht

end Sound
/-! Where a step goes wrong, Main is mounted at once. -/

theorem good_navigate {s : App M} (h : (s.navigate .Main).Good) :
    ∃ user ∈ s.currentUser, user.Registered s.server.store := by
  obtain ⟨hu, hs⟩ := s.navigate_user .Main
  rw [Good, hu, hs] at h
  exact h (s.navigate_route fun _ => rfl)

theorem good_authStateChanged {s : App M} (h : s.authStateChanged.Good) {user : FirebaseUser}
    (hu : s.currentUser = some user) : user.Registered s.server.store := by
  have hmain : s.authStateChanged = s.navigate .Main := by simp [authStateChanged, hu]
  rw [hmain] at h
  obtain ⟨x, hx, hreg⟩ := good_navigate h
  rw [hu] at hx
  exact Option.some.inj hx ▸ hreg

theorem good_notify {s : App M} (h : s.notify.Good) (ho : s.observers ≠ []) {user : FirebaseUser}
    (hu : s.currentUser = some user) : user.Registered s.server.store := by
  rw [notify_eq ho] at h
  exact good_authStateChanged h hu

theorem created_bad {s : App M} (ho : s.observers ≠ []) (k i : Nat) (email password : String)
    (x : SignUp.Screen) : ¬ (s.created k i email password x).Good := by
  intro h
  obtain ⟨name, hn, -⟩ := good_notify h ho rfl
  cases hn

section Step
variable [DecidableEq M] {toLowerCase : String → String} {undefined : M}

/-- A careful step keeps the invariant, and what is good after a step shows that it was
careful. -/
theorem signedIn_step {s s' : App M} {a : Act M} (h : SignedIn s)
    (hs : s.step toLowerCase undefined a = some s') :
    (s.Careful a → SignedIn s') ∧ (s'.Good → s.Careful a) := by
  cases steps hs with
  | launch => exact ⟨fun _ => Sound.start _ _ _, fun _ => trivial⟩
  | loaded hd =>
    refine ⟨fun hc => ?_, fun hg user hu => good_authStateChanged hg hu⟩
    have hsound : Sound { s with due := false } :=
      { h with
        due := fun hf => by cases hf
        known := fun _ => hc }
    exact hsound.authStateChanged rfl
  | edited a ha signUps logins =>
    refine ⟨fun _ => { h with }, fun _ => ?_⟩
    cases a <;> trivial
  | pressSignUp i x hm =>
    refine ⟨fun _ => ?_, fun _ => trivial⟩
    have hd : s.due = false := h.not_due (by simp [hm, Mounted.route?])
    simp only [App.pressSignUp]
    split
    · exact { h with }
    · exact h.keep (h.press hd trivial) rfl rfl
  | pressLogin i x hm =>
    have hd : s.due = false := h.not_due (by simp [hm, Mounted.route?])
    exact ⟨fun _ => h.keep (h.press hd trivial) rfl rfl, fun _ => trivial⟩
  | switch route hm hr =>
    exact ⟨fun _ => h.navigate (h.not_due hm) fun he => absurd he hr, fun _ => trivial⟩
  | signOut hm =>
    have hd : s.due = false := h.not_due (by simp [hm])
    have hnone : Sound { s with currentUser := none } := h.changeUser fun x hx => by cases hx
    exact ⟨fun _ => hnone.notify hd, fun _ => trivial⟩
  | created k i email password x hz =>
    exact ⟨fun hc => absurd hc h.observed, fun hg => absurd hg (created_bad h.observed _ _ _ _ _)⟩
  | refused k code => exact ⟨fun _ => h.keep { h.giveUp k with } rfl rfl, fun _ => trivial⟩
  | updated k i email displayName x hz => exact absurd (h.tasks _ (List.mem_of_getElem? hz)) id
  | updateFailed k => exact ⟨fun _ => h.keep (h.giveUp k) rfl rfl, fun _ => trivial⟩
  | signedIn k i email password x hz hx =>
    have hd : s.due = false := h.not_due_of_task (List.mem_of_getElem? hz)
    refine ⟨fun hc => ?_, fun hg i' email' password' hz' x' hx' => ?_⟩
    · have hreg : x.user.Registered s.server.store := hc i email password hz x hx
      have huser : Sound { s with currentUser := some x.user } :=
        h.changeUser fun y hy => Option.some.inj hy ▸ hreg
      exact (huser.replace hd (t := .signedIn) trivial).notify hd
    · obtain ⟨rfl, rfl, rfl⟩ : i' = i ∧ email' = email ∧ password' = password := by
        simpa using hz'.symm.trans hz
      obtain rfl : x' = x := Option.some.inj (hx'.symm.trans hx)
      exact good_notify hg h.observed rfl
  | loginFailed k code =>
    exact ⟨fun _ => h.keep { h.giveUp k with } rfl rfl, fun _ => trivial⟩
  | entered k hz =>
    have hd : s.due = false := h.not_due_of_task (List.mem_of_getElem? hz)
    refine ⟨fun hc => (h.giveUp k).navigate hd fun _ => hc, fun hg hn => ?_⟩
    obtain ⟨user, hu, -⟩ := good_navigate hg
    cases hn.symm.trans hu
  | deliver k timeNow z hz =>
    refine ⟨fun _ => h.keep (h.deliver hz _) ?_ ?_, fun _ => trivial⟩
    · simp only [App.deliver]
      split <;> rfl
    · simp only [App.deliver]
      split <;> rfl
  | fulfil i j server hserver =>
    exact ⟨fun _ => h.keep (h.server hserver) rfl rfl, fun _ => trivial⟩
  | reject i j server hserver =>
    exact ⟨fun _ => h.keep (h.server hserver) rfl rfl, fun _ => trivial⟩
  | respond k z resp hz =>
    obtain ⟨hsound, hm, hu⟩ := h.respond toLowerCase hz resp
    exact ⟨fun _ => h.keep hsound hm hu, fun _ => trivial⟩
  | account x => exact ⟨fun _ => { h with }, fun _ => trivial⟩
  | request r => exact ⟨fun _ => h.keep (h.request r) rfl rfl, fun _ => trivial⟩

/-- In every run from a start of the app, whatever accounts and documents there are, Main is
only ever mounted with a registered user exactly when every step is careful. -/
theorem registered_iff (toLowerCase : String → String) (undefined : M)
    (currentUser : Option FirebaseUser) (accounts : List Account) (server : Sys M)
    (as : List (Act M)) :
    Along (App.step toLowerCase undefined) (fun _ _ s' => s'.Good)
        (App.start currentUser accounts server) as ↔
      Along (App.step toLowerCase undefined) (fun s a _ => s.Careful a)
        (App.start currentUser accounts server) as := by
  refine along_iff (I := SignedIn) as (Sound.start _ _ _) (fun s a s' h hs => ?_)
    fun s a s' h hs hc => (signedIn_step h hs).1 hc
  obtain ⟨hkeep, hcareful⟩ := signedIn_step h hs
  exact ⟨hcareful, fun hc => (hkeep hc).good⟩

end Step

/-- "bob" signs up; then Main is mounted without a name before the profile is updated. -/
theorem main_without_name : ∃ s, after (App.step id "")
    (App.start none [] (Sys.init (Store.empty : Store String)))
      [.loaded, .onUsername "bob", .onEmail "bob@home", .onPassword "secret", .pressSignUp,
        .created 0] = some s ∧
      s.currentUser = some ⟨"bob@home", none⟩ ∧ s.mounted.route? = some .Main ∧ ¬ s.Good :=
  ⟨_, rfl, by decide, by decide, by decide⟩

end App
end Auth
end RecoupChat
