import RecoupChat.MainScreens
import RecoupChat.SignedIn

/-! Main is the screen of a device on which a user is signed in: the observer that Loading leaves
behind navigates there and back. -/
namespace RecoupChat
open Promise Transition Router
variable {M : Type}

namespace Auth
namespace App

/-- Once the observer has been called, Main is mounted while a user is signed in. -/
def Agrees (s : App M) : Prop :=
  s.due = false → (s.mounted.route? = some .Main ↔ s.currentUser ≠ none)

/-- The callbacks of a log-in and of a sign-up that succeeded run while a user is signed in. -/
def Prompt (s : App M) : Act M → Prop
  | .entered _ => s.currentUser ≠ none
  | .respond k => ∀ i username resp, s.origins[k]? = some (some (i, .addUser username)) →
      (s.server.requests[k]?).bind (·.2.sent.head?) = some resp → resp.status = .SUCCESS →
        s.currentUser ≠ none
  | _ => True

structure Idle (s : App M) : Prop where
  mounted : s.mounted.route? = none
  tasks : s.tasks = []
  inFlight : s.inFlight = []
  origins : ∀ z ∈ s.origins, z = none

structure Guided (s : App M) : Prop extends Observed s where
  tree : s.mounted ≠ .threw
  idle : s.due = true → Idle s
  agrees : Agrees s

@[simp] theorem navigate_due (s : App M) (route : Route) : (s.navigate route).due = s.due := by
  have hu : s.unmount.due = s.due := by
    simp only [unmount]
    split <;> rfl
  simp only [navigate]
  split
  · rfl
  · cases route <;> exact hu

theorem navigate_tree {s : App M} {route : Route} (ht : s.mounted ≠ .threw)
    (hr : route = .Main → s.currentUser ≠ none) : (s.navigate route).mounted ≠ .threw := by
  simp only [navigate]
  split
  · exact ht
  · cases route with
    | SignUp => exact Mounted.noConfusion
    | Login => exact Mounted.noConfusion
    | Main =>
      have hu : s.unmount.currentUser = s.currentUser := by
        simp only [unmount]
        split <;> rfl
      obtain ⟨user, huser⟩ := Option.ne_none_iff_exists'.mp (hr rfl)
      simp [mount, hu, huser]

theorem not_main_of_switch [DecidableEq M] {toLowerCase : String → String} {undefined : M}
    {s s' : App M} (h : s.step toLowerCase undefined .switch = some s') :
    s.mounted.route? ≠ some .Main := by
  simp only [step] at h
  split at h
  · rename_i i hm
    simp [hm, Mounted.route?]
  · rename_i i hm
    simp [hm, Mounted.route?]
  · cases h

namespace Guided

theorem start (currentUser : Option FirebaseUser) (accounts : List Account) (server : Sys M) :
    Guided (App.start currentUser accounts server) where
  __ := Observed.start currentUser accounts server
  tree := Mounted.noConfusion
  idle _ :=
    { mounted := rfl
      tasks := rfl
      inFlight := rfl
      origins := by simp [App.start] }
  agrees hd := by cases hd

theorem not_due {s : App M} (h : Guided s) (hbusy : ¬ Idle s) : s.due = false := by
  rw [Bool.eq_false_iff]
  exact fun hd => hbusy (h.idle hd)

theorem not_due_of_task {s : App M} (h : Guided s) {t : Task} (ht : t ∈ s.tasks) :
    s.due = false := by
  refine h.not_due fun hidle => ?_
  rw [hidle.tasks] at ht
  cases ht

theorem not_due_of_mounted {s : App M} (h : Guided s) (hm : s.mounted.route? ≠ none) :
    s.due = false := h.not_due fun hidle => hm hidle.mounted

theorem navigate {s : App M} (h : Observed s) (ht : s.mounted ≠ .threw) (hd : s.due = false)
    {route : Route} (hr : route = .Main ↔ s.currentUser ≠ none) : Guided (s.navigate route) where
  __ := h.navigate route
  tree := navigate_tree ht hr.mp
  idle hdue := by
    rw [navigate_due, hd] at hdue
    cases hdue
  agrees _ := by
    rw [s.navigate_route fun hthrew => absurd hthrew ht, (s.navigate_user route).1,
      Option.some.injEq]
    exact hr

theorem authStateChanged {s : App M} (h : Observed s) (ht : s.mounted ≠ .threw)
    (hd : s.due = false) : Guided s.authStateChanged := by
  refine navigate h ht hd ?_
  cases s.currentUser <;> simp

theorem notify {s : App M} (h : Observed s) (ht : s.mounted ≠ .threw) (hd : s.due = false) :
    Guided s.notify := by
  rw [notify_eq h.observed]
  exact authStateChanged h ht hd

theorem keep {s s' : App M} (h : Guided s) (ho : s'.observers = s.observers)
    (hm : s'.mounted = s.mounted) (hu : s'.currentUser = none ↔ s.currentUser = none)
    (hd : s'.due = s.due) (hidle : s.due = true → Idle s') : Guided s' where
  observed := ho ▸ h.observed
  loading := hm ▸ h.loading
  tree := hm ▸ h.tree
  idle hdue := hidle (hd ▸ hdue)
  agrees hdue := by
    rw [hm, ne_eq, hu]
    exact h.agrees (hd ▸ hdue)

theorem giveUp {s : App M} (h : Guided s) (k : Nat) : Guided (s.giveUp k) :=
  h.keep rfl rfl Iff.rfl rfl fun hd =>
    { h.idle hd with tasks := by rw [App.giveUp, (h.idle hd).tasks, List.eraseIdx_nil] }

end Guided

section Step
variable [DecidableEq M] {toLowerCase : String → String} {undefined : M}

theorem guided_respond {s s' : App M} {k : Nat} (h : Guided s)
    (hs : s.step toLowerCase undefined (.respond k) = some s') :
    (s.Prompt (.respond k) → Guided s') ∧ (s'.Agrees → s.Prompt (.respond k)) := by
  cases steps hs with
  | edited _ ha => cases ha
  | respond _ z resp hz hresp =>
  obtain ⟨i, f⟩ := z
  have hd : s.due = false := by
    refine h.not_due fun hidle => ?_
    cases hidle.origins _ (List.mem_of_getElem? hz)
  have hrest : Observed { s with origins := s.origins.set k none } :=
    ⟨h.observed, h.loading⟩
  have hsame : Guided { s with origins := s.origins.set k none } := by
    refine h.keep rfl rfl Iff.rfl rfl fun hdue => ?_
    rw [hd] at hdue
    cases hdue
  cases f with
  | existing =>
    refine ⟨fun _ => h.keep rfl rfl Iff.rfl rfl fun hdue => ?_, fun _ => ?_⟩
    · rw [hd] at hdue
      cases hdue
    · intro i' username resp' hz' _ _
      cases hz.symm.trans hz'
  | addUser username =>
    by_cases hok : resp.status = .SUCCESS
    · simp only [receive, if_pos hok]
      refine ⟨fun hc => Guided.navigate hrest h.tree hd ?_, fun ha => ?_⟩
      · exact iff_of_true rfl (hc i username resp hz hresp hok)
      · intro _ _ _ _ _ _
        have hmain := (ha (by rw [navigate_due]; exact hd)).mp (navigate_route _ fun _ => rfl)
        rw [(navigate_user _ _).1] at hmain
        exact hmain
    · simp only [receive, if_neg hok]
      refine ⟨fun _ => hsame, fun _ => ?_⟩
      intro i' username' resp' _ hresp' hok'
      obtain rfl := Option.some.inj (hresp.symm.trans hresp')
      exact absurd hok' hok

/-- A prompt step keeps the invariant, and where the screen agrees after a step, the step was
prompt. -/
theorem guided_step {s s' : App M} {a : Act M} (h : Guided s)
    (hs : s.step toLowerCase undefined a = some s') :
    (s.Prompt a → Guided s') ∧ (s'.Agrees → s.Prompt a) := by
  have hbusy {t : Task} {k : Nat} (hz : s.tasks[k]? = some t) : s.due = false :=
    h.not_due_of_task (List.mem_of_getElem? hz)
  have hmoved {t : App M} (ho : t.observers = s.observers) (hm : t.mounted = s.mounted) :
      Observed t := ⟨ho ▸ h.observed, hm ▸ h.loading⟩
  cases steps hs with
  | launch => exact ⟨fun _ => Guided.start _ _ _, fun _ => trivial⟩
  | loaded hd =>
    have hcalled : Observed { s with due := false } := hmoved rfl rfl
    exact ⟨fun _ => Guided.authStateChanged hcalled h.tree rfl, fun _ => trivial⟩
  | edited a ha signUps logins =>
    refine ⟨fun _ => h.keep rfl rfl Iff.rfl rfl fun hd => { h.idle hd with }, fun _ => ?_⟩
    cases a <;> trivial
  | pressSignUp i x hm =>
    have hd : s.due = false := h.not_due_of_mounted (by simp [hm, Mounted.route?])
    have hnot {t : App M} (hdue : s.due = true) : Idle t := absurd hdue (by simp [hd])
    refine ⟨fun _ => ?_, fun _ => trivial⟩
    simp only [App.pressSignUp]
    split
    · exact h.keep rfl rfl Iff.rfl rfl hnot
    · exact h.keep rfl rfl Iff.rfl rfl hnot
  | pressLogin i x hm =>
    have hd : s.due = false := h.not_due_of_mounted (by simp [hm, Mounted.route?])
    exact ⟨fun _ => h.keep rfl rfl Iff.rfl rfl fun hdue => absurd hdue (by simp [hd]),
      fun _ => trivial⟩
  | switch route hm hr =>
    have hd : s.due = false := h.not_due_of_mounted hm
    have hnone : s.currentUser = none :=
      not_not.mp fun huser => not_main_of_switch hs ((h.agrees hd).mpr huser)
    exact ⟨fun _ => Guided.navigate h.toObserved h.tree hd (iff_of_false hr (not_not.mpr hnone)),
      fun _ => trivial⟩
  | signOut hm =>
    have hd : s.due = false := h.not_due_of_mounted (by simp [hm])
    exact ⟨fun _ => Guided.notify (hmoved rfl rfl) h.tree hd, fun _ => trivial⟩
  | created k i email password x hz =>
    exact ⟨fun _ => Guided.notify (hmoved rfl rfl) h.tree (hbusy hz), fun _ => trivial⟩
  | refused k code =>
    exact ⟨fun _ => (h.giveUp k).keep rfl rfl Iff.rfl rfl fun hd => { (h.giveUp k).idle hd with },
      fun _ => trivial⟩
  | updated k i email displayName x hz =>
    have hd : s.due = false := hbusy hz
    exact ⟨fun _ => h.keep rfl rfl Option.map_eq_none_iff rfl
      fun hdue => absurd hdue (by simp [hd]), fun _ => trivial⟩
  | updateFailed k => exact ⟨fun _ => h.giveUp k, fun _ => trivial⟩
  | signedIn k i email password x hz hx =>
    exact ⟨fun _ => Guided.notify (hmoved rfl rfl) h.tree (hbusy hz), fun _ => trivial⟩
  | loginFailed k code =>
    exact ⟨fun _ => (h.giveUp k).keep rfl rfl Iff.rfl rfl fun hd => { (h.giveUp k).idle hd with },
      fun _ => trivial⟩
  | entered k hz =>
    have hd : s.due = false := hbusy hz
    have hgiven : Observed (s.giveUp k) := hmoved rfl rfl
    refine ⟨fun hc => Guided.navigate hgiven h.tree hd (iff_of_true rfl hc), fun ha => ?_⟩
    have hmain := (ha (by rw [navigate_due]; exact hd)).mp (navigate_route _ fun _ => rfl)
    rw [(navigate_user _ _).1] at hmain
    exact hmain
  | deliver k timeNow z hz =>
    have hd : s.due = false := by
      refine h.not_due fun hidle => ?_
      rw [hidle.inFlight] at hz
      cases hz
    have hnot {t : App M} (hdue : s.due = true) : Idle t := absurd hdue (by simp [hd])
    refine ⟨fun _ => ?_, fun _ => trivial⟩
    simp only [App.deliver]
    split
    · exact h.keep rfl rfl Iff.rfl rfl hnot
    · exact h.keep rfl rfl Iff.rfl rfl hnot
  | fulfil i j server hserver =>
    exact ⟨fun _ => h.keep rfl rfl Iff.rfl rfl fun hd => { h.idle hd with }, fun _ => trivial⟩
  | reject i j server hserver =>
    exact ⟨fun _ => h.keep rfl rfl Iff.rfl rfl fun hd => { h.idle hd with }, fun _ => trivial⟩
  | respond k z resp hz => exact guided_respond h hs
  | account x =>
    exact ⟨fun _ => h.keep rfl rfl Iff.rfl rfl fun hd => { h.idle hd with }, fun _ => trivial⟩
  | request r =>
    refine ⟨fun _ => h.keep rfl rfl Iff.rfl rfl fun hd => ?_, fun _ => trivial⟩
    refine { h.idle hd with origins := fun z hz => ?_ }
    cases List.mem_append.mp hz with
    | inl hold => exact (h.idle hd).origins z hold
    | inr hnew => exact List.mem_singleton.mp hnew

/-- In every run from a start of the app, Main is mounted exactly while a user is signed in, if
and only if no callback of a log-in or sign-up comes after the user has signed out. -/
theorem main_iff_signedIn (toLowerCase : String → String) (undefined : M)
    (currentUser : Option FirebaseUser) (accounts : List Account) (server : Sys M)
    (as : List (Act M)) :
    Along (App.step toLowerCase undefined) (fun _ _ s' => s'.Agrees)
        (App.start currentUser accounts server) as ↔
      Along (App.step toLowerCase undefined) (fun s a _ => s.Prompt a)
        (App.start currentUser accounts server) as := by
  refine along_iff (I := Guided) as (Guided.start _ _ _) (fun s a s' h hs => ?_)
    fun s a s' h hs hc => (guided_step h hs).1 hc
  obtain ⟨hkeep, hprompt⟩ := guided_step h hs
  exact ⟨hprompt, fun hc => (hkeep hc).agrees⟩

end Step

/-- The user signs out before the callback of the log-in: Main finds nobody and throws. -/
example : (after (App.step id "") (App.start none [⟨⟨"bob@home", some "bob"⟩, "secret"⟩]
    (Sys.init (Store.empty : Store String)))
      [.loaded, .switch, .onLoginEmail "bob@home", .onLoginPassword "secret", .pressLogin,
        .signedIn 0, .signOut, .entered 0]).map (fun s => (s.mounted, s.currentUser)) =
    some (.threw, none) := rfl

/-! The name that Main asks the server for. -/

/-- Main has the name of the user who is signed in, and has not thrown for want of one. -/
structure NameAgrees (s : App M) : Prop where
  tree : s.mounted ≠ .threw
  name : ∀ name, s.mounted = .Main name → ∃ user ∈ s.currentUser, name = user.displayName

/-- While Main is mounted, nobody is signed in and no profile is changed under another name than
the one that Main has; and no callback navigates to Main while nobody is signed in. -/
def KeepsName (s : App M) : Act M → Prop
  | .created _ => ∀ name, s.mounted = .Main name → name = none
  | .signedIn k => ∀ i email password x, s.tasks[k]? = some (.signIn i email password) →
      s.accountOf email password = some x → ∀ name, s.mounted = .Main name →
        name = x.user.displayName
  | .updated k => ∀ i email displayName, s.tasks[k]? = some (.updateProfile i email displayName) →
      ∀ user, s.currentUser = some user → user.email = email →
        ∀ name, s.mounted = .Main name → name = some displayName
  | a => s.Prompt a

theorem NameAgrees.start (currentUser : Option FirebaseUser) (accounts : List Account)
    (server : Sys M) : NameAgrees (App.start currentUser accounts server) :=
  ⟨Mounted.noConfusion, fun name hm => by cases hm⟩

theorem NameAgrees.navigate {s : App M} (h : NameAgrees s) {route : Route}
    (hr : route = .Main → s.currentUser ≠ none) : NameAgrees (s.navigate route) where
  tree := navigate_tree h.tree hr
  name := by
    simp only [App.navigate]
    split
    · exact h.name
    · have huser : s.unmount.currentUser = s.currentUser := by
        simp only [unmount]
        split <;> rfl
      cases route with
      | SignUp => exact fun name hm => by cases hm
      | Login => exact fun name hm => by cases hm
      | Main =>
        obtain ⟨user, hu⟩ := Option.ne_none_iff_exists'.mp (hr rfl)
        intro name hm
        simp only [mount, huser, hu, Mounted.Main.injEq] at hm
        exact ⟨user, huser.trans hu, hm.symm⟩

theorem nameAgrees_leave {s : App M} (ht : s.mounted ≠ .threw) {route : Route}
    (hr : route ≠ .Main) : NameAgrees (s.navigate route) where
  tree := navigate_tree ht fun he => absurd he hr
  name name hm := by
    have hroute := s.navigate_route (fun h => absurd h ht : s.mounted = .threw → route = .Main)
    rw [hm] at hroute
    exact absurd (Option.some.inj hroute).symm hr

theorem navigate_main {s : App M} {name : Option String} (hm : s.mounted = .Main name) :
    s.navigate .Main = s := by
  simp [App.navigate, hm, Mounted.route?]

theorem nameAgrees_main {s : App M} (h : NameAgrees s) :
    NameAgrees (s.navigate .Main) ↔ s.currentUser ≠ none := by
  refine ⟨fun h' hnone => ?_, fun hu => h.navigate fun _ => hu⟩
  obtain hm | ⟨name, hm⟩ : (s.navigate .Main).mounted = .threw ∨
      ∃ name, (s.navigate .Main).mounted = .Main name := by
    have hroute := s.navigate_route fun _ => (rfl : Route.Main = .Main)
    cases hm : (s.navigate .Main).mounted <;> simp_all [Mounted.route?]
  · exact h'.tree hm
  · obtain ⟨user, hu, -⟩ := h'.name name hm
    rw [(s.navigate_user .Main).1, hnone] at hu
    cases hu

theorem nameAgrees_notify {s : App M} (ho : s.observers ≠ []) (ht : s.mounted ≠ .threw)
    {user : FirebaseUser} (hu : s.currentUser = some user) :
    NameAgrees s.notify ↔ ∀ name, s.mounted = .Main name → name = user.displayName := by
  have hmain : s.authStateChanged = s.navigate .Main := by simp [authStateChanged, hu]
  rw [notify_eq ho, hmain]
  constructor
  · intro h name hm
    rw [navigate_main hm] at h
    obtain ⟨user', hu', hname⟩ := h.name name hm
    obtain rfl := Option.some.inj (hu.symm.trans hu')
    exact hname
  · intro h
    have hsame : NameAgrees s := ⟨ht, fun name hm => ⟨user, hu, h name hm⟩⟩
    exact hsame.navigate fun _ => by simp [hu]

theorem nameAgrees_updateProfile {s : App M} (h : NameAgrees s) (email displayName : String) :
    (∀ name, s.mounted = .Main name →
        ∃ user ∈ s.currentUser.map (FirebaseUser.updateProfile email displayName),
          name = user.displayName) ↔
      ∀ user, s.currentUser = some user → user.email = email →
        ∀ name, s.mounted = .Main name → name = some displayName := by
  constructor
  · intro hall user hu he name hm
    obtain ⟨user', hu', hname⟩ := hall name hm
    rw [hu, Option.map_some, FirebaseUser.updateProfile, if_pos he] at hu'
    obtain rfl := Option.some.inj hu'
    exact hname
  · intro hall name hm
    obtain ⟨user, hu, hname⟩ := h.name name hm
    refine ⟨user.updateProfile email displayName, Option.mem_map_of_mem _ hu, ?_⟩
    rw [FirebaseUser.updateProfile]
    split
    · rename_i he
      exact hall user hu he name hm
    · exact hname

section Step
variable [DecidableEq M] {toLowerCase : String → String} {undefined : M}

theorem nameAgrees_respond {s s' : App M} {k : Nat} (h : NameAgrees s)
    (hs : s.step toLowerCase undefined (.respond k) = some s') :
    NameAgrees s' ↔ s.Prompt (.respond k) := by
  cases steps hs with
  | edited _ ha => cases ha
  | respond _ z resp hz hresp =>
  obtain ⟨i, f⟩ := z
  let t : App M := { s with origins := s.origins.set k none }
  have hsame : NameAgrees t := ⟨h.tree, h.name⟩
  cases f with
  | existing =>
    refine iff_of_true ⟨h.tree, h.name⟩ ?_
    intro i' username resp' hz' _ _
    cases hz.symm.trans hz'
  | addUser username =>
    by_cases hok : resp.status = .SUCCESS
    · simp only [receive, if_pos hok]
      refine (nameAgrees_main hsame).trans ⟨fun hu => ?_, fun hp => ?_⟩
      · exact fun _ _ _ _ _ _ => hu
      · exact hp i username resp hz hresp hok
    · simp only [receive, if_neg hok]
      refine iff_of_true hsame ?_
      intro i' username' resp' _ hresp' hok'
      obtain rfl := Option.some.inj (hresp.symm.trans hresp')
      exact absurd hok' hok

theorem nameAgrees_step {s s' : App M} {a : Act M} (ho : Observed s) (h : NameAgrees s)
    (hs : s.step toLowerCase undefined a = some s') : NameAgrees s' ↔ s.KeepsName a := by
  have hkeep {t : App M} (hm : t.mounted = s.mounted) (hu : t.currentUser = s.currentUser) :
      NameAgrees t := ⟨hm ▸ h.tree, fun name hname => hu ▸ h.name name (hm ▸ hname)⟩
  cases steps hs with
  | launch => exact iff_of_true (NameAgrees.start _ _ _) trivial
  | loaded hd =>
    let t : App M := { s with due := false }
    have hsame : NameAgrees t := hkeep rfl rfl
    refine iff_of_true (hsame.navigate fun hr hnone => ?_) trivial
    have hnone : s.currentUser = none := hnone
    simp [hnone] at hr
  | edited a ha signUps logins =>
    refine iff_of_true (hkeep rfl rfl) ?_
    cases a <;> trivial
  | pressSignUp i x hm =>
    refine iff_of_true ?_ trivial
    simp only [App.pressSignUp]
    split <;> exact hkeep rfl rfl
  | switch route hm hr => exact iff_of_true (h.navigate fun he => absurd he hr) trivial
  | signOut hm =>
    refine iff_of_true ?_ trivial
    let t : App M := { s with currentUser := none }
    have hleft : t.notify = t.navigate .SignUp := notify_eq (s := t) ho.observed
    rw [signOut, hleft]
    have hroute : Route.SignUp ≠ .Main := by decide
    exact nameAgrees_leave (s := t) h.tree hroute
  | created k i email password x hz =>
    let t : App M := { s with
      accounts := s.accounts ++ [⟨⟨email, none⟩, password⟩]
      currentUser := some ⟨email, none⟩
      tasks := s.tasks.set k (.updateProfile i email x.username) }
    exact nameAgrees_notify (s := t) ho.observed h.tree rfl
  | updated k i email displayName x hz =>
    have hprofile := nameAgrees_updateProfile h email displayName
    constructor
    · intro h' i' email' displayName' hz'
      cases hz.symm.trans hz'
      exact hprofile.mp h'.name
    · exact fun hall => ⟨h.tree, hprofile.mpr (hall i email displayName hz)⟩
  | signedIn k i email password x hz hx =>
    let t : App M := { s with
      currentUser := some x.user
      tasks := s.tasks.set k .signedIn }
    refine (nameAgrees_notify (s := t) ho.observed h.tree rfl).trans ⟨?_, ?_⟩
    · intro hall i' email' password' x' hz' hx'
      cases hz.symm.trans hz'
      obtain rfl := Option.some.inj (hx.symm.trans hx')
      exact hall
    · exact fun hall => hall i email password x hz hx
  | entered k hz =>
    have hsame : NameAgrees (s.giveUp k) := hkeep rfl rfl
    exact nameAgrees_main hsame
  | deliver k timeNow z hz =>
    refine iff_of_true ?_ trivial
    simp only [App.deliver]
    split <;> exact hkeep rfl rfl
  | respond k z resp hz => exact nameAgrees_respond h hs
  | _ => exact iff_of_true (hkeep rfl rfl) trivial

/-- In every run from a start of the app, Main asks for the chats of the user who is signed in
exactly as long as nobody signs in under another name while Main is mounted, and no callback of a
log-in or sign-up comes after the user has signed out. -/
theorem main_name_iff (toLowerCase : String → String) (undefined : M)
    (currentUser : Option FirebaseUser) (accounts : List Account) (server : Sys M)
    (as : List (Act M)) :
    Along (App.step toLowerCase undefined) (fun _ _ s' => s'.NameAgrees)
        (App.start currentUser accounts server) as ↔
      Along (App.step toLowerCase undefined) (fun s a _ => s.KeepsName a)
        (App.start currentUser accounts server) as := by
  refine along_iff (I := fun s => Observed s ∧ NameAgrees s) as
    ⟨Observed.start _ _ _, NameAgrees.start _ _ _⟩
    (fun s a s' h hs => nameAgrees_step h.1 h.2 hs) fun s a s' h hs hc => ?_
  exact ⟨h.1.step hs, (nameAgrees_step h.1 h.2 hs).mpr hc⟩

end Step

/-! The screens of Main. -/

def screens? (s : App String) : Option Main.State :=
  match s.mounted with
  | .Main (some displayName) => some (.mount displayName s.server.store)
  | _ => none

/-- In a careful run that keeps names, Main starts with the screens of the user who is signed in,
under the name that is registered. -/
theorem screens_of_main {toLowerCase : String → String} {undefined : String}
    {currentUser : Option FirebaseUser} {accounts : List Account} {server : Sys String}
    {as : List (Act String)} {s : App String}
    (h : after (App.step toLowerCase undefined) (App.start currentUser accounts server) as = some s)
    (hcareful : Along (App.step toLowerCase undefined) (fun s a _ => s.Careful a)
      (App.start currentUser accounts server) as)
    (hkeeps : Along (App.step toLowerCase undefined) (fun s a _ => s.KeepsName a)
      (App.start currentUser accounts server) as) (hm : s.mounted.route? = some .Main) :
    ∃ user ∈ s.currentUser, ∃ displayName ∈ user.displayName,
      displayName ∈ s.server.store.userNames ∧
        s.screens? = some (.mount displayName s.server.store) := by
  have hsigned : SignedIn s := (Run.of_after h hcareful).invariant (Sound.start _ _ _)
    fun s a s' hI hc hs => (signedIn_step hI hs).1 hc
  have hname : Observed s ∧ NameAgrees s := (Run.of_after h hkeeps).invariant
    (I := fun x => Observed x ∧ NameAgrees x)
    ⟨Observed.start _ _ _, NameAgrees.start _ _ _⟩
    fun s a s' hI hk hs => ⟨hI.1.step hs, (nameAgrees_step hI.1 hI.2 hs).mpr hk⟩
  obtain ⟨user, hu, displayName, hd, huser, -⟩ := hsigned.good hm
  refine ⟨user, hu, displayName, hd, huser, ?_⟩
  obtain ⟨name, hmain⟩ : ∃ name, s.mounted = .Main name := by
    cases hmounted : s.mounted with
    | Main name => exact ⟨name, rfl⟩
    | threw => exact absurd hmounted hname.2.tree
    | _ => simp [hmounted, Mounted.route?] at hm
  obtain ⟨user', hu', rfl⟩ := hname.2.name name hmain
  obtain rfl := Option.some.inj (hu.symm.trans hu')
  have hsome : user.displayName = some displayName := hd
  simp [screens?, hmain, hsome]

/-- Two log-ins are under way: Main has the name of the first user when the second is signed in. -/
example : (after (App.step id "")
    (App.start none [⟨⟨"bob@home", some "bob"⟩, "secret"⟩, ⟨⟨"ann@home", some "ann"⟩, "hidden"⟩]
      (Sys.init (Store.empty : Store String)))
      [.loaded, .switch, .onLoginEmail "bob@home", .onLoginPassword "secret", .pressLogin,
        .onLoginEmail "ann@home", .onLoginPassword "hidden", .pressLogin, .signedIn 0,
        .signedIn 1]).map
      (fun s => (s.mounted, s.currentUser.bind (·.displayName))) =
    some (.Main (some "bob"), some "ann") := rfl

end App
end Auth
end RecoupChat
