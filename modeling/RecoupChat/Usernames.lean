import RecoupChat.SignUp

/-! When usernames stay unique. A name is in one place at a time: in a sign-up under way, on
its way to the server, in a pending insert, or registered. -/
namespace RecoupChat
open Promise Transition Collection Router
variable {M : Type}

/-! The names at the server. -/

def Call.user? : Call M → Option String
  | .usersInsertOne doc => some doc.username
  | _ => none

def Store.userNames (s : Store M) : List String := s.users.map (·.username)

def Store.docNames (s : Store M) : List String := s.userMessages.map (·.username)

def Sys.inserting (s : Sys M) : List String :=
  s.requests.flatMap fun x => (x.2.pending.map (·.call)).filterMap Call.user?

namespace Point

def user? : Point M → Option String
  | .insertUser u => some u
  | _ => none

def doc? : Point M → Option String
  | .insertUserMessages u => some u
  | _ => none

theorem user?_call (p : Point M) : p.call?.toList.filterMap Call.user? = p.user?.toList := by
  cases p <;> rfl

theorem doc?_start (r : Request M) : (start r).doc? = none := by
  cases r <;> rfl

section Next
variable [DecidableEq M] (toLowerCase : String → String)

theorem user?_next (p : Point M) (s : Store M) : (p.next toLowerCase s).2.user? = none := by
  have hg := goes toLowerCase p s
  generalize (p.next toLowerCase s).2 = q at hg ⊢
  cases hg <;> rfl

theorem doc?_next (p : Point M) (s : Store M) : (p.next toLowerCase s).2.doc? = p.user? := by
  cases hu : p.user? with
  | some u =>
    obtain rfl : p = .insertUser u := by
      cases p <;> cases hu
      rfl
    rfl
  | none =>
    have hg := goes toLowerCase p s
    generalize (p.next toLowerCase s).2 = q at hg ⊢
    cases hg with
    | userInserted u => cases hu
    | _ => rfl

theorem userNames_next (p : Point M) (s : Store M) :
    (p.next toLowerCase s).1.userNames = s.userNames ++ p.user?.toList := by
  cases p <;> simp [next, Store.userNames, user?, Store.insertUser, Store.insertUserMessages,
    Store.insertChat, Store.insertLog, Store.setRows, Store.push]

theorem docNames_next (p : Point M) (s : Store M) :
    (p.next toLowerCase s).1.docNames = s.docNames ++ p.doc?.toList := by
  have hset (u : String) (rows : List (Row M)) : (s.setRows u rows).docNames = s.docNames :=
    map_updateOne (f := fun d : UserMessages M => { d with messages := rows }) (fun _ _ => rfl) _
  cases p with
  | updateBy create d rows => simp [next, doc?, hset]
  | updateTo create d rows => simp [next, doc?, hset]
  | _ => simp [next, doc?, Store.docNames, Store.insertUser, Store.insertUserMessages,
      Store.insertChat, Store.insertLog, Store.push]

end Next
end Point

/-! The steps of the server. -/

namespace PSys

def userNames (ps : PSys M) : List String :=
  ps.store.userNames ++ ps.requests.filterMap fun x => x.2.user?

def docNames (ps : PSys M) : List String :=
  ps.store.docNames ++ ps.requests.filterMap fun x => x.2.doc?

def Documented (ps : PSys M) : Prop := ps.docNames.Subperm ps.store.userNames

variable {toLowerCase : String → String} {ps : PSys M} {i : Nat} {r : Request M} {p : Point M}

theorem userNames_issue (r : Request M) :
    (ps.issue r).userNames = ps.userNames ++ (Point.start r).user?.toList := by
  cases h : (Point.start r).user? <;> simp [userNames, issue, h]

theorem userNames_reject (hi : ps.requests[i]? = some (r, p)) :
    (ps.reject i r).userNames.Subperm ps.userNames := by
  have hset := filterMap_set (f := fun x : Request M × Point M => x.2.user?) hi (r, .failed)
  have hsub := (List.sublist_append_right p.user?.toList _).subperm.trans hset.subperm
  exact (List.subperm_append_left _).mpr hsub

theorem Documented.issue (h : ps.Documented) (r : Request M) : (ps.issue r).Documented := by
  have hdocs : (ps.issue r).docNames = ps.docNames := by
    simp [docNames, PSys.issue, Point.doc?_start]
  rw [Documented, hdocs]
  exact h

theorem Documented.reject (h : ps.Documented) (hi : ps.requests[i]? = some (r, p)) :
    (ps.reject i r).Documented := by
  have hset := filterMap_set (f := fun x : Request M × Point M => x.2.doc?) hi (r, .failed)
  have hsub := (List.sublist_append_right p.doc?.toList _).subperm.trans hset.subperm
  exact ((List.subperm_append_left _).mpr hsub).trans h

variable [DecidableEq M]

theorem inserting_sys (toLowerCase : String → String) (ps : PSys M) :
    (ps.sys toLowerCase).inserting = ps.requests.filterMap fun x => x.2.user? := by
  simp only [Sys.inserting, sys, List.flatMap_map, pending_calls, Point.user?_call]
  exact (List.filterMap_eq_flatMap_toList _ _).symm

theorem userNames_fulfil (hi : ps.requests[i]? = some (r, p)) :
    (ps.fulfil toLowerCase i r p).userNames.Perm ps.userNames := by
  have hset := filterMap_set (f := fun x : Request M × Point M => x.2.user?) hi
    (r, (p.next toLowerCase ps.store).2)
  simp only [Point.user?_next, Option.toList_none, List.nil_append] at hset
  simp only [userNames, fulfil, Point.userNames_next, List.append_assoc]
  exact hset.append_left _

theorem Documented.fulfil (h : ps.Documented) (hi : ps.requests[i]? = some (r, p)) :
    (ps.fulfil toLowerCase i r p).Documented := by
  have hset := filterMap_set (f := fun x : Request M × Point M => x.2.doc?) hi
    (r, (p.next toLowerCase ps.store).2)
  simp only [Point.doc?_next] at hset
  have hdocs : (ps.fulfil toLowerCase i r p).docNames.Perm (p.user?.toList ++ ps.docNames) := by
    simp only [docNames, PSys.fulfil, Point.docNames_next, List.append_assoc]
    exact (hset.append_left _).trans (List.perm_append_comm_assoc _ _ _)
  have husers : (ps.fulfil toLowerCase i r p).store.userNames.Perm
      (p.user?.toList ++ ps.store.userNames) := by
    simp only [PSys.fulfil, Point.userNames_next]
    exact List.perm_append_comm
  have hsub := (List.subperm_append_left p.user?.toList).mpr h
  exact hdocs.subperm.trans (hsub.trans husers.symm.subperm)

end PSys

/-! The names in the app. -/

def Request.registered? : Request M → Option String
  | .addNewUser v => some v
  | _ => none

theorem registered?_eq_some {r : Request M} {v : String} (h : r.registered? = some v) :
    r = .addNewUser v := by
  cases r <;> cases h
  rfl

theorem user?_start (r : Request M) : (Point.start r).user? = r.registered? := by
  cases r <;> rfl

namespace SignUp

/-- The name that the server reads from the URL of a sign-up, if it registers one. -/
def registers (username : String) : Option String :=
  ((SignUp.addUserToDB () username).receive 0).bind Request.registered?

theorem registers_of_receive {undefined : M} {u v : String} {timeNow : Int}
    (h : (SignUp.addUserToDB undefined u).receive timeNow = some (.addNewUser v)) :
    registers u = some v := by
  obtain ⟨pat, ps, hs, hr, hp, hnames⟩ := runs_of_receive h fun hl => by cases hl
  cases hs
  have hv : v = param ps "username" := List.singleton_inj.mp hnames
  have hsame : (SignUp.addUserToDB () u).receive 0 = some (.addNewUser v) := by
    have hreceive := @receive_addUser Unit (SignUp.addUserToDB () u) rfl (hr.first rfl) hr.accepts 0
    rw [hreceive, hv]
    exact congrArg (Option.bind · _) hp
  exact congrArg (Option.bind · Request.registered?) hsame

theorem registers_plain {u v : String} (hu : Plain u.toList) (h : registers u = some v) :
    v = u := by
  obtain ⟨r, hr, hv⟩ := Option.bind_eq_some_iff.mp h
  obtain rfl := registered?_eq_some hv
  obtain ⟨pat, ps, hs, hruns, hp, hnames⟩ := runs_of_receive hr fun hl => by cases hl
  have hkept : (Ask.addUserToDB u : Ask Unit).Kept pat := by
    intro x hx
    obtain rfl : x = (u, u) := List.mem_singleton.mp (List.mem_of_mem_take hx)
    exact ⟨rfl, hu⟩
  have hsame := (@names_iff Unit () (.addUserToDB u) pat hs hruns ps hp).mpr hkept
  rw [← hnames] at hsame
  exact hsame (u, v) List.mem_cons_self

def Fetch.registers? : Fetch → Option String
  | .existing => none
  | .addUser username => registers username

theorem user?_receive {undefined : M} {fetch : Fetch} {timeNow : Int} {r : Request M}
    (h : (fetch.http undefined).receive timeNow = some r) :
    (Point.start r).user?.toList.Subperm fetch.registers?.toList := by
  rw [user?_start]
  cases hu : r.registered? with
  | none => exact List.nil_subperm
  | some v =>
    obtain rfl := registered?_eq_some hu
    cases fetch with
    | existing =>
      rw [Fetch.http, receive_existing] at h
      cases h
    | addUser u =>
      rw [Fetch.registers?, registers_of_receive h]

namespace App

def shown (s : App M) (i : Nat) : Option String := s.screens[i]?.bind fun x => registers x.username

def accounted (s : App M) (z : Nat × Stage) : Option String :=
  match z.2 with
  | .createUser _ _ => none
  | .updateProfile _ => s.shown z.1

def attempt (s : App M) (z : Nat × Stage) : Option (String × String) :=
  match z.2 with
  | .createUser email _ =>
    if email ∈ s.accounts then none else (s.shown z.1).map fun v => (email, v)
  | .updateProfile _ => none

def posted (s : App M) : List String := s.inFlight.filterMap fun z => z.2.registers?

def underWay (s : App M) : List String := s.signUps.filterMap s.accounted

def attempts (s : App M) : List (String × String) := s.signUps.filterMap s.attempt

def names (s : App M) : List String :=
  s.server.store.userNames ++ s.server.inserting ++ (s.posted ++ s.underWay)

/-- The name is taken up to case, or another e-mail may still take it. -/
def Taken (toLowerCase : String → String) (s : App M) (email v : String) : Prop :=
  toLowerCase v ∈ s.names.map toLowerCase ∨
    ∃ y ∈ s.attempts, toLowerCase y.2 = toLowerCase v ∧ y.1 ≠ email

/-- No check passes for a taken name unless its e-mail is in use, and no name is edited between
its check and its post. -/
def Careful (toLowerCase : String → String) (s : App M) : Act → Prop
  | .press i => ∀ x ∈ s.screens[i]?, x.listed toLowerCase = false → trim x.email ∉ s.accounts →
      ∀ v ∈ registers x.username, ¬ s.Taken toLowerCase (trim x.email) v
  | .onUsername i _ => ∀ z ∈ s.signUps, z.1 ≠ i
  | _ => True

instance (toLowerCase : String → String) (s : App M) (email v : String) :
    Decidable (s.Taken toLowerCase email v) := inferInstanceAs (Decidable (_ ∨ _))

instance (toLowerCase : String → String) (s : App M) : DecidablePred (s.Careful toLowerCase)
  | .press i => inferInstanceAs (Decidable (∀ x ∈ s.screens[i]?, _))
  | .onUsername i _ => inferInstanceAs (Decidable (∀ z ∈ s.signUps, z.1 ≠ i))
  | .mount | .onFocus _ | .onEmail _ _ | .onPassword _ _ | .created _ | .refused _ _
  | .updated _ | .updateFailed _ | .deliver _ _ | .fulfil _ _ | .reject _ _ | .respond _ =>
    isTrue trivial

/-- No two users have names that are equal after lower-casing, and no two documents of
`user_messages` the same name. -/
def Unique (toLowerCase : String → String) (store : Store M) : Prop :=
  (store.userNames.map toLowerCase).Nodup ∧ store.docNames.Nodup

instance (toLowerCase : String → String) (store : Store M) : Decidable (Unique toLowerCase store) :=
  inferInstanceAs (Decidable (_ ∧ _))

structure Inv [DecidableEq M] (toLowerCase : String → String) (s : App M) : Prop where
  nodup : (s.names.map toLowerCase).Nodup
  free : ∀ y ∈ s.attempts, toLowerCase y.2 ∉ s.names.map toLowerCase
  apart : ∀ y ∈ s.attempts, ∀ y' ∈ s.attempts, toLowerCase y.2 = toLowerCase y'.2 → y.1 = y'.1
  server : ∃ ps : PSys M, s.server = ps.sys toLowerCase ∧ ps.Documented
  known : ∀ z ∈ s.signUps, z.1 < s.screens.length

variable {toLowerCase : String → String} {s s' : App M} {ps : PSys M}

/-! What a step does to the sign-ups under way. -/

theorem accounted_congr {z : Nat × Stage} (h : s'.shown z.1 = s.shown z.1) :
    s'.accounted z = s.accounted z := by
  obtain ⟨i, stage⟩ := z
  cases stage with
  | createUser email password => rfl
  | updateProfile displayName => exact h

theorem attempt_congr {z : Nat × Stage} (h : s'.shown z.1 = s.shown z.1)
    (ha : s'.accounts = s.accounts) : s'.attempt z = s.attempt z := by
  obtain ⟨i, stage⟩ := z
  cases stage with
  | createUser email password => simp only [attempt, ha, h]
  | updateProfile displayName => rfl

theorem shown_modify {f : Screen → Screen} (hf : ∀ x, (f x).username = x.username) (i j : Nat) :
    (s.modify i f).shown j = s.shown j := by
  by_cases hi : i = j
  · cases hx : s.screens[j]? <;> simp [shown, modify, hi, hx, hf]
  · simp [shown, modify, hi]

theorem waiting_updated {k i : Nat} {displayName : String} {x : Screen}
    (hz : s.signUps[k]? = some (i, .updateProfile displayName)) (hx : s.screens[i]? = some x) :
    ((s.updated k i x).posted ++ (s.updated k i x).underWay).Perm (s.posted ++ s.underWay) := by
  have herase := filterMap_eraseIdx (f := s.accounted) hz
  have hshown : s.accounted (i, .updateProfile displayName) = registers x.username := by
    simp [accounted, shown, hx]
  have hposted : (s.updated k i x).posted = s.posted ++ (registers x.username).toList := by
    cases hr : registers x.username <;> simp [posted, updated, Fetch.registers?, hr]
  rw [hshown] at herase
  rw [hposted, List.append_assoc]
  exact herase.append_left _

theorem attempts_created {k i : Nat} {email : String} {x : Screen} {y : String × String}
    (hy : y ∈ (s.created k i email x).attempts) : y ∈ s.attempts ∧ y.1 ≠ email := by
  obtain ⟨z, hz, hzy⟩ := List.mem_filterMap.mp hy
  obtain ⟨j, stage⟩ := z
  cases stage with
  | updateProfile displayName => cases hzy
  | createUser email' password =>
    have hold : (j, .createUser email' password) ∈ s.signUps := by
      cases List.mem_or_eq_of_mem_set hz with
      | inl hold => exact hold
      | inr hnew => cases hnew
    simp only [attempt, created, List.mem_append, List.mem_singleton] at hzy
    split at hzy
    · cases hzy
    · rename_i hacc
      obtain ⟨hunused, hne⟩ := not_or.mp hacc
      obtain ⟨v, hv, rfl⟩ := Option.map_eq_some_iff.mp hzy
      refine ⟨List.mem_filterMap.mpr ⟨_, hold, ?_⟩, hne⟩
      simp only [attempt, if_neg hunused]
      exact congrArg (Option.map _) hv

theorem underWay_created {k i : Nat} {email password : String} {x : Screen}
    (hz : s.signUps[k]? = some (i, .createUser email password)) :
    (s.created k i email x).underWay.Perm ((s.shown i).toList ++ s.underWay) :=
  filterMap_set (f := s.accounted) hz (i, .updateProfile x.username)

section Steps
variable [DecidableEq M]

theorem names_sys (h : s.server = ps.sys toLowerCase) :
    s.names = ps.userNames ++ (s.posted ++ s.underWay) := by
  rw [names, h, PSys.inserting_sys]
  rfl

theorem Inv.less (h : Inv toLowerCase s) (hnames : s'.names.Subperm s.names)
    (hattempts : ∀ y ∈ s'.attempts, y ∈ s.attempts)
    (hserver : ∃ ps : PSys M, s'.server = ps.sys toLowerCase ∧ ps.Documented)
    (hknown : ∀ z ∈ s'.signUps, z.1 < s'.screens.length) : Inv toLowerCase s' where
  nodup := nodup_of_subperm hnames h.nodup
  free y hy hm := h.free y (hattempts y hy) (List.map_subset _ hnames.subset hm)
  apart y hy y' hy' := h.apart y (hattempts y hy) y' (hattempts y' hy')
  server := hserver
  known := hknown

theorem Inv.client (h : Inv toLowerCase s) (hserver : s'.server = s.server)
    (hsub : (s'.posted ++ s'.underWay).Subperm (s.posted ++ s.underWay))
    (hattempts : ∀ y ∈ s'.attempts, y ∈ s.attempts)
    (hknown : ∀ z ∈ s'.signUps, z.1 < s'.screens.length) : Inv toLowerCase s' := by
  refine h.less ?_ hattempts (hserver ▸ h.server) hknown
  rw [names, hserver]
  exact (List.subperm_append_left _).mpr hsub

theorem Inv.serve (h : Inv toLowerCase s) {ps' : PSys M} (hserver : s.server = ps.sys toLowerCase)
    (hsub : ps'.userNames.Subperm ps.userNames) (hdoc : ps'.Documented) :
    Inv toLowerCase { s with server := ps'.sys toLowerCase } := by
  refine h.less ?_ (fun y hy => hy) ⟨ps', rfl, hdoc⟩ h.known
  have hnew : names { s with server := ps'.sys toLowerCase } =
      ps'.userNames ++ (s.posted ++ s.underWay) := names_sys rfl
  rw [hnew, names_sys hserver]
  exact (List.subperm_append_right _).mpr hsub

theorem Inv.fulfilOrReject (h : Inv toLowerCase s) {a : Action M} {server : Sys M}
    (hs : s.server.step toLowerCase a = some server) (ha : ∀ r, a ≠ .issue r) :
    Inv toLowerCase { s with server } := by
  obtain ⟨ps, hserver, hdoc⟩ := h.server
  rw [hserver, step_sys] at hs
  obtain ⟨ps', hps, rfl⟩ := Option.map_eq_some_iff.mp hs
  cases RecoupChat.steps hps with
  | issue r => exact absurd rfl (ha r)
  | fulfil i r p hi hc => exact h.serve hserver (PSys.userNames_fulfil hi).subperm (hdoc.fulfil hi)
  | reject i r p hi hc => exact h.serve hserver (PSys.userNames_reject hi) (hdoc.reject hi)

theorem Inv.same (h : Inv toLowerCase s) {screens : List Screen}
    (hlen : screens.length = s.screens.length)
    (hshown : ∀ z ∈ s.signUps, shown { s with screens } z.1 = s.shown z.1) :
    Inv toLowerCase { s with screens } := by
  have hunder : underWay { s with screens } = s.underWay :=
    List.filterMap_congr fun z hz => accounted_congr (hshown z hz)
  have hattempts : attempts { s with screens } = s.attempts :=
    List.filterMap_congr fun z hz => attempt_congr (hshown z hz) rfl
  refine h.client rfl ?_ (by simp [hattempts]) (hlen ▸ h.known)
  rw [hunder]
  exact List.Subperm.refl _

theorem Inv.modify (h : Inv toLowerCase s) {f : Screen → Screen}
    (hf : ∀ x, (f x).username = x.username) (i : Nat) : Inv toLowerCase (s.modify i f) :=
  h.same (List.length_modify _ _ _) fun z _ => shown_modify hf i z.1

theorem Inv.mount (h : Inv toLowerCase s) : Inv toLowerCase s.mount := by
  have hshown : ∀ z ∈ s.signUps, s.mount.shown z.1 = s.shown z.1 := fun z hz => by
    simp [shown, App.mount, List.getElem?_append_left (h.known z hz)]
  have hunder : s.mount.underWay = s.underWay :=
    List.filterMap_congr fun z hz => accounted_congr (hshown z hz)
  have hattempts : s.mount.attempts = s.attempts :=
    List.filterMap_congr fun z hz => attempt_congr (hshown z hz) rfl
  have hposted : s.mount.posted = s.posted := by simp [posted, App.mount, Fetch.registers?]
  refine h.client rfl ?_ (by simp [hattempts]) fun z hz => ?_
  · rw [hposted, hunder]
  · have hlt := h.known z hz
    simpa [App.mount] using Nat.lt_succ_of_lt hlt

theorem Inv.giveUp (h : Inv toLowerCase s) (k : Nat) : Inv toLowerCase (s.giveUp k) := by
  have hless := List.eraseIdx_sublist s.signUps k
  refine h.client rfl ((List.subperm_append_left _).mpr (hless.filterMap s.accounted).subperm)
    (fun y hy => (hless.filterMap s.attempt).subset hy) fun z hz => h.known z (hless.subset hz)

theorem Inv.updated (h : Inv toLowerCase s) {k i : Nat} {displayName : String} {x : Screen}
    (hz : s.signUps[k]? = some (i, .updateProfile displayName)) (hx : s.screens[i]? = some x) :
    Inv toLowerCase (s.updated k i x) := by
  have hless := List.eraseIdx_sublist s.signUps k
  exact h.client rfl (waiting_updated hz hx).subperm
    (fun y hy => (hless.filterMap s.attempt).subset hy) fun z hz => h.known z (hless.subset hz)

omit [DecidableEq M] in
theorem attempts_pressed {i : Nat} {x : Screen} (hx : s.screens[i]? = some x) {y : String × String}
    (hy : y ∈ attempts { s with signUps :=
      s.signUps ++ [(i, .createUser (trim x.email) (trim x.password))] }) :
    y ∈ s.attempts ∨ y.1 = trim x.email ∧ trim x.email ∉ s.accounts ∧
      registers x.username = some y.2 := by
  obtain ⟨z, hz, hy⟩ := List.mem_filterMap.mp hy
  cases List.mem_append.mp hz with
  | inl hz => exact Or.inl (List.mem_filterMap.mpr ⟨z, hz, hy⟩)
  | inr hz =>
    obtain rfl := List.mem_singleton.mp hz
    simp only [attempt] at hy
    split at hy
    · cases hy
    · rename_i hunused
      obtain ⟨v, hv, rfl⟩ := Option.map_eq_some_iff.mp hy
      exact Or.inr ⟨rfl, hunused, by simpa [shown, hx] using hv⟩

theorem Inv.press (h : Inv toLowerCase s) {i : Nat} {x : Screen} (hx : s.screens[i]? = some x)
    (hc : s.Careful toLowerCase (.press i)) : Inv toLowerCase (s.press toLowerCase i x) := by
  rw [App.press]
  split
  · refine h.modify ?_ i
    exact fun _ => rfl
  · rename_i hl
    let z : Nat × Stage := (i, .createUser (trim x.email) (trim x.password))
    let s1 : App M := { s with signUps := s.signUps ++ [z] }
    have hunder : s1.underWay = s.underWay := by
      change (s.signUps ++ [z]).filterMap s.accounted = s.underWay
      rw [List.filterMap_append]
      exact List.append_nil _
    have hnames : s1.names = s.names := congrArg
      (fun l => s.server.store.userNames ++ s.server.inserting ++ (s.posted ++ l)) hunder
    have hattempt : ∀ y ∈ s1.attempts, y ∈ s.attempts ∨
        y.1 = trim x.email ∧ ¬ s.Taken toLowerCase (trim x.email) y.2 := by
      intro y hy
      refine (attempts_pressed hx hy).imp_right fun hnew => ?_
      obtain ⟨he, hunused, hreg⟩ := hnew
      exact ⟨he, hc x hx (Bool.eq_false_iff.mpr hl) hunused y.2 hreg⟩
    refine ⟨hnames ▸ h.nodup, fun y hy hm => ?_, fun y hy y' hy' he => ?_, h.server, ?_⟩
    · rw [hnames] at hm
      cases hattempt y hy with
      | inl hold => exact h.free y hold hm
      | inr hnew => exact hnew.2 (Or.inl hm)
    · cases hattempt y hy with
      | inl hold =>
        cases hattempt y' hy' with
        | inl hold' => exact h.apart y hold y' hold' he
        | inr hnew' =>
          by_contra hne
          exact hnew'.2 (Or.inr ⟨y, hold, he, hnew'.1 ▸ hne⟩)
      | inr hnew =>
        cases hattempt y' hy' with
        | inl hold' =>
          by_contra hne
          exact hnew.2 (Or.inr ⟨y', hold', he.symm, hnew.1 ▸ Ne.symm hne⟩)
        | inr hnew' => exact hnew.1.trans hnew'.1.symm
    · intro y hy
      cases List.mem_append.mp hy with
      | inl hy => exact h.known y hy
      | inr hy =>
        obtain rfl := List.mem_singleton.mp hy
        exact (List.getElem?_eq_some_iff.mp hx).1

theorem Inv.created (h : Inv toLowerCase s) {k i : Nat} {email password : String} {x : Screen}
    (hz : s.signUps[k]? = some (i, .createUser email password)) (he : email ∉ s.accounts)
    (hx : s.screens[i]? = some x) : Inv toLowerCase (s.created k i email x) := by
  have hknown : ∀ z ∈ (s.created k i email x).signUps, z.1 < s.screens.length := by
    intro z hm
    cases List.mem_or_eq_of_mem_set hm with
    | inl hm => exact h.known z hm
    | inr hm =>
      subst hm
      exact (List.getElem?_eq_some_iff.mp hx).1
  have hnames : (s.created k i email x).names.Perm ((s.shown i).toList ++ s.names) := by
    have hunder := ((underWay_created (x := x) hz).append_left s.posted).trans
      (List.perm_append_comm_assoc _ _ _)
    exact (hunder.append_left _).trans (List.perm_append_comm_assoc _ _ _)
  cases hv : s.shown i with
  | none =>
    rw [hv] at hnames
    exact h.less hnames.subperm (fun y hy => (attempts_created hy).1) h.server hknown
  | some v =>
    rw [hv] at hnames
    have hattempt : (email, v) ∈ s.attempts :=
      List.mem_filterMap.mpr ⟨_, List.mem_of_getElem? hz, by simp [attempt, he, hv]⟩
    have hkeys := hnames.map toLowerCase
    refine ⟨hkeys.nodup_iff.mpr (List.nodup_cons.mpr ⟨h.free _ hattempt, h.nodup⟩), ?_, ?_,
      h.server, hknown⟩
    · intro y hy hm
      obtain ⟨hold, hne⟩ := attempts_created hy
      cases List.mem_cons.mp (hkeys.subset hm) with
      | inl hsame => exact hne (h.apart y hold _ hattempt hsame)
      | inr hm => exact h.free y hold hm
    · intro y hy y' hy'
      exact h.apart y (attempts_created hy).1 y' (attempts_created hy').1

theorem Inv.deliver (h : Inv toLowerCase s) {undefined : M} {k i : Nat} {fetch : Fetch}
    (hz : s.inFlight[k]? = some (i, fetch)) (timeNow : Int) :
    Inv toLowerCase (s.deliver toLowerCase k i ((fetch.http undefined).receive timeNow)) := by
  have hposted : (fetch.registers?.toList ++
      (s.inFlight.eraseIdx k).filterMap fun z => z.2.registers?).Perm s.posted :=
    filterMap_eraseIdx (f := fun z : Nat × Fetch => z.2.registers?) hz
  cases hr : (fetch.http undefined).receive timeNow with
  | none =>
    have hless := (List.eraseIdx_sublist s.inFlight k).filterMap fun z => z.2.registers?
    exact h.client rfl ((List.subperm_append_right _).mpr hless.subperm) (fun y hy => hy) h.known
  | some r =>
    obtain ⟨ps, hserver, hdoc⟩ := h.server
    have hissue : (s.deliver toLowerCase k i (some r)).server = (ps.issue r).sys toLowerCase := by
      simp [App.deliver, hserver, PSys.sys, PSys.issue, Point.thread_start]
    refine h.less ?_ (fun y hy => hy) ⟨ps.issue r, hissue, hdoc.issue r⟩ h.known
    rw [names_sys hissue, names_sys hserver, PSys.userNames_issue, List.append_assoc]
    refine (List.subperm_append_left _).mpr ?_
    have hmoved := ((List.subperm_append_right _).mpr (user?_receive hr)).trans hposted.subperm
    rw [← List.append_assoc]
    exact (List.subperm_append_right _).mpr hmoved

theorem inv_init : Inv toLowerCase (init : App M) where
  nodup := List.nodup_nil
  free y hy := by cases hy
  apart y hy := by cases hy
  server := ⟨⟨Store.empty, []⟩, rfl, List.Subperm.refl _⟩
  known z hz := by cases hz

theorem inv_step {undefined : M} {a : Act} (h : Inv toLowerCase s) (hc : s.Careful toLowerCase a)
    (hs : s.step toLowerCase undefined a = some s') : Inv toLowerCase s' := by
  cases steps hs with
  | mount => exact h.mount
  | onFocus i =>
    refine h.modify ?_ i
    exact fun _ => rfl
  | onUsername i username =>
    refine h.same (List.length_modify _ _ _) fun z hz => ?_
    simp [shown, Ne.symm (hc z hz)]
  | onEmail i email =>
    refine h.modify ?_ i
    exact fun _ => rfl
  | onPassword i password =>
    refine h.modify ?_ i
    exact fun _ => rfl
  | press i x hx => exact h.press hx hc
  | created k i email password x hz he hx => exact h.created hz he hx
  | refused k i code email password hz =>
    refine (h.giveUp k).modify (fun x => ?_) i
    cases code <;> rfl
  | updated k i displayName x hz hx => exact h.updated hz hx
  | updateFailed k => exact h.giveUp k
  | deliver k i fetch timeNow hz => exact h.deliver hz timeNow
  | fulfil i j server hserve => exact h.fulfilOrReject hserve fun r hr => by cases hr
  | reject i j server hserve => exact h.fulfilOrReject hserve fun r hr => by cases hr
  | respond k i resp =>
    have hf : ∀ x : Screen, (x.receive toLowerCase resp).username = x.username := by
      intro x
      cases resp <;> rfl
    obtain ⟨hnodup, hfree, hapart, hserver, hknown⟩ := h.modify hf i
    exact ⟨hnodup, hfree, hapart, hserver, hknown⟩

theorem Inv.unique (h : Inv toLowerCase s) : Unique toLowerCase s.server.store := by
  have husers : (s.server.store.userNames.map toLowerCase).Nodup := by
    have hsub : s.server.store.userNames.Subperm s.names := by
      rw [names, List.append_assoc]
      exact (List.sublist_append_left _ _).subperm
    exact nodup_of_subperm hsub h.nodup
  obtain ⟨ps, hserver, hdoc⟩ := h.server
  have hdocs : s.server.store.docNames.Subperm s.server.store.userNames := by
    rw [hserver]
    exact (List.sublist_append_left _ _).subperm.trans hdoc
  exact ⟨husers, (nodup_of_subperm hdocs husers).of_map⟩

/-- In every run of screens, Firebase and server in which each check that passes is for a name
still free, usernames stay unique. -/
theorem unique_of_careful {undefined : M}
    (hr : Run (App.step toLowerCase undefined) (Careful toLowerCase) init s) :
    Unique toLowerCase s.server.store :=
  (hr.invariant inv_init fun _ _ _ hI hc hs => inv_step hI hc hs).unique

end Steps
/-- The first screen is pressed twice; the second one finds "Bob" in its list and signs up as
"ann". -/
theorem unique_bobAndAnn : ∃ s : App String,
    Run (App.step String.toLower "") (Careful String.toLower) init s ∧
      s.server.store.userNames = ["bob", "ann"] ∧ Unique String.toLower s.server.store := by
  obtain ⟨s, hr, hn⟩ : ∃ s : App String,
      Run (App.step String.toLower "") (Careful String.toLower) init s ∧
        s.server.store.userNames = ["bob", "ann"] :=
    Run.exists_of_follow [.mount, .deliver 0 1, .fulfil 0 0, .respond 0, .onUsername 0 "bob",
      .onEmail 0 "bob@home", .press 0, .press 0, .created 0, .updated 0,
      .refused 0 .emailAlreadyInUse, .deliver 0 2, .fulfil 1 0, .fulfil 1 0, .mount, .deliver 0 3,
      .fulfil 2 0, .respond 2, .onUsername 1 "Bob", .onEmail 1 "ann@home", .press 1,
      .onUsername 1 "ann", .press 1, .created 0, .updated 0, .deliver 0 4, .fulfil 3 0,
      .fulfil 3 0] (by decide +kernel)
  exact ⟨s, hr, hn, unique_of_careful hr⟩

/-- Two screens fetch the empty list before either signs up. -/
theorem bob_twice : ∃ s : App String, Run (App.step String.toLower "") (fun _ _ => True) init s ∧
    s.server.store.userNames = ["bob", "bob"] ∧ s.server.store.docNames = ["bob", "bob"] ∧
      ¬ Unique String.toLower s.server.store :=
  Run.exists_of_follow [.mount, .mount, .deliver 0 1, .deliver 0 1, .fulfil 0 0, .fulfil 1 0,
    .respond 0, .respond 1, .onUsername 0 "bob", .onEmail 0 "bob@home", .onUsername 1 "bob",
    .onEmail 1 "bob@work", .press 0, .press 1, .created 0, .created 1, .updated 0, .updated 0,
    .deliver 0 2, .deliver 0 2, .fulfil 2 0, .fulfil 3 0, .fulfil 2 0, .fulfil 3 0]
    (by decide +kernel)

end App
end SignUp
end RecoupChat
