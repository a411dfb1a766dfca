import RecoupChat.ChatScreen
import RecoupChat.Footprint
import RecoupChat.MonotonicReads
import RecoupChat.Usernames

/-! A chat screen with the server. The server executes the requests one at a time, those of
the screen and those of other clients. -/
namespace RecoupChat
open Transition Promise Router
namespace ChatScreen

structure Net where
  app : App
  store : Store String
  deriving DecidableEq

inductive NetAct where
  | user (a : Act)
  /-- request `k` reaches the server, which executes it -/
  | serve (k : Nat) (timeNow : Int) (fails : Nat → Bool)
  /-- the fetch of request `k` fails -/
  | fail (k : Nat)
  /-- the server executes a request of another client -/
  | others (r : Request String) (fails : Nat → Bool)

def Act.own : Act → Bool
  | .answer _ _ => false
  | _ => true

/-- A URL that no route takes is not answered with JSON. -/
def Store.execute (toLowerCase : String → String) (s : Store String) (fails : Nat → Bool) :
    Option (Request String) → Store String × Option (Response String)
  | none => (s, none)
  | some r => ((s.serve toLowerCase r fails).1, (s.serve toLowerCase r fails).2.head?)

def Net.step (toLowerCase : String → String) (s : Net) : NetAct → Option Net
  | .user a => if a.own then (s.app.step a).map fun app => { s with app } else none
  | .serve k timeNow fails => match s.app.fetches[k]? with
    | some (f, .out) =>
      let ran := Store.execute toLowerCase s.store fails ((f.http s.app.page).receive timeNow)
      (s.app.step (.answer k ran.2)).map fun app => ⟨app, ran.1⟩
    | _ => none
  | .fail k => (s.app.step (.answer k none)).map fun app => { s with app }
  | .others r fails => some { s with store := (s.store.serve toLowerCase r fails).1 }

inductive NetSteps (toLowerCase : String → String) (s : Net) : NetAct → Net → Prop
  | user (a : Act) (app : App) (ho : a.own = true) (ha : s.app.step a = some app) :
      NetSteps toLowerCase s (.user a) { s with app }
  | serve (k : Nat) (f : Fetch) (timeNow : Int) (fails : Nat → Bool)
      (store : Store String) (resJson : Option (Response String))
      (hk : s.app.fetches[k]? = some (f, .out))
      (hran : Store.execute toLowerCase s.store fails ((f.http s.app.page).receive timeNow) =
        (store, resJson)) :
      NetSteps toLowerCase s (.serve k timeNow fails)
        ⟨s.app.setStage k f (.answered resJson), store⟩
  | fail (k : Nat) (f : Fetch) (hk : s.app.fetches[k]? = some (f, .out)) :
      NetSteps toLowerCase s (.fail k) { s with app := s.app.setStage k f (.answered none) }
  | others (r : Request String) (fails : Nat → Bool) : NetSteps toLowerCase s (.others r fails)
      { s with store := (s.store.serve toLowerCase r fails).1 }

theorem netSteps {toLowerCase : String → String} {s s' : Net} {a : NetAct}
    (h : s.step toLowerCase a = some s') : NetSteps toLowerCase s a s' := by
  cases a with
  | user a =>
    simp only [Net.step] at h
    split at h
    · rename_i ho
      obtain ⟨app, ha, rfl⟩ := Option.map_eq_some_iff.mp h
      exact .user a app ho ha
    · cases h
  | serve k timeNow fails =>
    simp only [Net.step] at h
    split at h
    · rename_i f hk
      obtain ⟨app, ha, rfl⟩ := Option.map_eq_some_iff.mp h
      cases App.steps ha with
      | answer _ f' _ hk' =>
        cases hk.symm.trans hk'
        exact .serve k f timeNow fails _ _ hk rfl
    · cases h
  | fail k =>
    obtain ⟨app, ha, rfl⟩ := Option.map_eq_some_iff.mp h
    cases App.steps ha with
    | answer _ f _ hk => exact .fail k f hk
  | others r fails =>
    obtain rfl := Option.some.inj h
    exact .others r fails

theorem step_serve {toLowerCase : String → String} {s : Net} {k : Nat} {f : Fetch}
    {timeNow : Int} {fails : Nat → Bool} {store : Store String}
    {resJson : Option (Response String)} (hk : s.app.fetches[k]? = some (f, .out))
    (hran : Store.execute toLowerCase s.store fails ((f.http s.app.page).receive timeNow) =
      (store, resJson)) :
    s.step toLowerCase (.serve k timeNow fails) =
      some ⟨s.app.setStage k f (.answered resJson), store⟩ := by
  simp [Net.step, App.step, hk, hran]

/-! The requests of a screen at the server. -/

theorem receive_messages {u v : String} (hu : Plain u.toList) (hune : u ≠ "")
    (hv : Plain v.toList) (hvne : v ≠ "") (page : Page) (timeNow : Int) :
    ((Fetch.makeRequest u v).http page).receive timeNow = some (.getUserChatMessages u v) := by
  have hread : ∀ name ∈ messagesPath.names,
      param [("owner", u), ("recipient", v)] name ≠ "" ∧
        Plain (param [("owner", u), ("recipient", v)] name).toList := by
    simp [hu, hune, hv, hvne]
  cases page <;> exact receive_template 3 rfl rfl rfl (messages_url "" u v) hread timeNow

theorem sendPath_filled {u v : String} (hu : Plain u.toList) (hune : u ≠ "")
    (hv : Plain v.toList) (hvne : v ≠ "") : ∀ name ∈ sendPath.names,
      param [("sentBy", u), ("sentTo", v)] name ≠ "" ∧
        Plain (param [("sentBy", u), ("sentTo", v)] name).toList := by
  simp [hu, hune, hv, hvne]

theorem receive_put {u v : String} (hu : Plain u.toList) (hune : u ≠ "") (hv : Plain v.toList)
    (hvne : v ≠ "") (m : String) (timeNow : Int) :
    ((Fetch.handleSendMessage u v m).http .message).receive timeNow =
      some (.sendMessage ⟨u, v, m, timeNow⟩) :=
  receive_template 4 rfl rfl rfl (send_url u v m) (sendPath_filled hu hune hv hvne) timeNow

theorem receive_post {u v : String} (hu : Plain u.toList) (hune : u ≠ "")
    (hv : Plain (trim v).toList) (hvne : trim v ≠ "") (m : String) (timeNow : Int) :
    ((Fetch.handleSendMessage u v m).http .messageNew).receive timeNow =
      some (.sendNewMessage ⟨u, trim v, m, timeNow⟩) :=
  receive_template 5 rfl rfl rfl (sendNew_url u v m) (sendPath_filled hu hune hv hvne) timeNow

theorem receive_blank {u v : String} (hu : Plain u.toList) (hv : trim v = "") (m : String)
    (timeNow : Int) :
    ((Fetch.handleSendMessage u v m).http .messageNew).receive timeNow = none := by
  rw [Option.eq_none_iff_forall_ne_some]
  intro x hx
  have hsegs : segments ((Fetch.handleSendMessage u v m).http .messageNew).url.toList =
      [u.toList, [], "message".toList] := by
    have hempty : Plain [] := by decide
    rw [Fetch.http, sendNew_url, hv, segments_url (by decide) (by simp [hu, hempty])]
    rfl
  obtain ⟨r, hr, hfit, -⟩ := receive_some hx
  obtain ⟨hm, hacc⟩ := Bool.and_eq_true_iff.mp hfit
  replace hm : r.method = .POST := of_decide_eq_true hm
  rw [hsegs] at hacc
  simp only [routes, List.mem_cons, List.not_mem_nil, or_false] at hr
  obtain rfl | rfl | rfl | rfl | rfl | rfl | rfl := hr
  · cases hm
  · cases hm
  · cases hm
  · cases hm
  · cases hm
  · simp [sendPath, Pattern.accepts, Segment.accepts] at hacc
  · simp [addUserPath, Pattern.accepts, Segment.accepts, sameText] at hacc

theorem plain_trim {s : String} (h : Plain s.toList) : Plain (trim s).toList := by
  rw [trim, String.toList_ofList]
  exact fun c hc => h c ((List.dropWhile_sublist _).subset ((List.rdropWhile_prefix _ _).subset hc))

theorem plain_of_registers {u : String} (h : SignUp.registers u = some u) :
    Plain u.toList ∧ u ≠ "" := by
  obtain ⟨r, hr, hv⟩ := Option.bind_eq_some_iff.mp h
  obtain rfl := registered?_eq_some hv
  obtain ⟨pat, ps, hs, hruns, hp, hnames⟩ := runs_of_receive hr fun hl => by cases hl
  have hkept := (@names_iff Unit () (.addUserToDB u) pat hs hruns ps hp).mp (by
    simp [← hnames, Ask.names, Request.names])
  cases hs
  have hplain : Plain u.toList := (hkept (u, u) (by simp [Ask.names, Ask.written])).2
  refine ⟨hplain, ?_⟩
  rintro rfl
  exact absurd h (by decide)

end ChatScreen
end RecoupChat
