import RecoupChat.History
import RecoupChat.SendLaws

/-! What MessageNew tells the user about a message that was refused. -/
namespace RecoupChat
open Promise Transition
variable {M : Type}

def Response.message? : Response M → Option String
  | .error message => some message
  | _ => none

/-- Title and text of the alert, which `handleSendMessage` shows for every answer but SUCCESS. -/
def MessageNew.alert (resJson : Response M) : Option (String × String) :=
  if resJson.status = .SUCCESS then none
  else if resJson.message? = some "USER DOES NOT EXIST" then
    some ("User does not exist", "Please make sure the recipent is entered correctly")
  else some ("Network Request Failed", "Please try again later")

theorem alert_unknown {resJson : Response M} {text : String}
    (h : MessageNew.alert resJson = some ("User does not exist", text)) :
    resJson = .error "USER DOES NOT EXIST" := by
  cases resJson with
  | error message =>
    by_cases hm : message = "USER DOES NOT EXIST"
    · rw [hm]
    · simp [MessageNew.alert, Response.status, Response.message?, hm] at h
  | _ => cases h

def Store.knows (toLowerCase : String → String) (s : Store M) (name : String) : Prop :=
  userExists toLowerCase name s.users = true

theorem Store.knows.extends {toLowerCase : String → String} {s s' : Store M} (h : Extends s s')
    {name : String} (hn : s.knows toLowerCase name) : s'.knows toLowerCase name := by
  rw [Store.knows, userExists, List.contains_iff_mem] at hn ⊢
  exact (h.users.map _).subset hn

def Point.Greets (r : Request M) (p : Point M) : Prop :=
  p.Of r ∧ p ≠ .answered (.error "USER DOES NOT EXIST")

section Step
variable [DecidableEq M] {toLowerCase : String → String}

theorem greets_next {s : Store M} {d : Send M} {p : Point M}
    (hknows : s.knows toLowerCase d.sentTo) (h : p.Greets (.sendNewMessage d)) :
    (p.next toLowerCase s).2.Greets (.sendNewMessage d) := by
  refine ⟨Point.of_next toLowerCase s h.1, fun hq => ?_⟩
  have hg := Point.goes toLowerCase p s
  generalize hp : (p.next toLowerCase s).2 = q at hg hq
  cases hg with
  | unknown d' =>
    obtain rfl : d = d' := Option.some.inj h.1
    have hfound : (Point.next toLowerCase (.usersFind d) s).2 = .findChat true d := by
      simp only [Point.next, if_pos (show userExists toLowerCase d.sentTo s.users = true from hknows)]
    rw [hfound] at hp
    cases hp
  | wroteTo create d' rows hm hr =>
    subst hr
    cases create <;> cases hq
  | stay resp => exact h.2 hq
  | failed => simp [Point.failed] at hq
  | _ => cases hq

structure Welcomes (toLowerCase : String → String) (ps ps' : PSys M) : Prop where
  store : Extends ps.store ps'.store
  greets : ps'.Each fun i r p => ps.requests.length ≤ i → ∀ d, r = .sendNewMessage d →
    ps.store.knows toLowerCase d.sentTo → p.Greets r

omit [DecidableEq M] in
theorem welcomes_refl (ps : PSys M) : Welcomes toLowerCase ps ps where
  store := .refl _
  greets i r p hi hlen := by
    have hlt := (List.getElem?_eq_some_iff.mp hi).1
    omega

theorem welcomes_step {ps ps1 ps' : PSys M} {a : Action M} (h : Welcomes toLowerCase ps ps1)
    (hs : ps1.step toLowerCase a = some ps') : Welcomes toLowerCase ps ps' where
  store := by
    have hsys : (ps1.sys toLowerCase).step toLowerCase a = some (ps'.sys toLowerCase) := by
      rw [step_sys, hs]
      rfl
    exact h.store.trans (extends_step hsys).1
  greets := by
    cases steps hs with
    | issue r =>
      refine each_issue h.greets ?_
      rintro - d rfl -
      exact ⟨Point.of_start _, by simp [Point.start]⟩
    | fulfil i r p hi hc =>
      refine each_fulfil (fun j r' q _ hj => h.greets j r' q hj) ?_
      rintro hlen d rfl hknows
      exact greets_next (hknows.extends h.store) (h.greets i _ p hi hlen d rfl hknows)
    | reject i r p hi hc =>
      refine each_reject h.greets ?_
      rintro hlen d rfl hknows
      exact ⟨trivial, by simp [Point.failed]⟩

/-- In every run, with any calls rejected: no send that is issued when a user has the name of its
recipient, in some letter case, is answered so that MessageNew says that the user does not exist. -/
theorem alert_truthful (s0 : Store M) {s s' : Sys M}
    (hr : Run (Sys.step toLowerCase) (fun _ _ => True) (Sys.init s0) s)
    (hr' : Run (Sys.step toLowerCase) (fun _ _ => True) s s') {i : Nat}
    (hi : s.requests.length ≤ i) {d : Send M} {resp : Response M}
    (hans : s'.answered i (.sendNewMessage d) resp)
    (huser : ∃ user ∈ s.store.users, toLowerCase user.username = toLowerCase d.sentTo) :
    ∀ text, MessageNew.alert resp ≠ some ("User does not exist", text) := by
  obtain ⟨ps, rfl, -⟩ := Run.lift (f := PSys.sys toLowerCase) step_sys (p := ⟨s0, []⟩) hr
  obtain ⟨ps', rfl, hrun⟩ := Run.lift (f := PSys.sys toLowerCase) step_sys hr'
  have hw : Welcomes toLowerCase ps ps' :=
    hrun.invariant (welcomes_refl ps) fun _ _ _ hI _ hs => welcomes_step hI hs
  have hlen : ps.requests.length ≤ i := by simpa [PSys.sys] using hi
  have hknows : ps.store.knows toLowerCase d.sentTo := userExists_iff.mpr huser
  intro text halert
  rw [alert_unknown halert] at hans
  exact (hw.greets i _ _ (answered_sys hans) hlen d rfl hknows).2 rfl

end Step

def rejectSend : List (Action String) :=
  [.issue (.sendNewMessage ⟨"ann", "bob", "hi", 1⟩), .reject 1 0]

theorem alert_truthful_bob : ∃ s' : Sys String,
    s'.answered 1 (.sendNewMessage ⟨"ann", "bob", "hi", 1⟩) (.error "DB_ERR") ∧
      ∀ text, MessageNew.alert (.error "DB_ERR" : Response String) ≠
        some ("User does not exist", text) := by
  obtain ⟨s, hr, hlen, husers, hlater⟩ : ∃ s, Run (Sys.step id) (fun _ _ => True)
      (Sys.init (Store.empty : Store String)) s ∧ s.requests.length = 1 ∧
        s.store.users = [⟨"bob"⟩] ∧
        (follow (Sys.step id) (fun _ _ => decide True) rejectSend s).any (fun s' =>
          decide (s'.answered 1 (.sendNewMessage ⟨"ann", "bob", "hi", 1⟩) (.error "DB_ERR"))) =
            true :=
    Run.exists_of_follow ([.issue (.addNewUser "bob")] ++ calls 0 2) (by decide)
  obtain ⟨s', hr', hans⟩ := Run.exists_of_follow rejectSend hlater
  exact ⟨s', hans, alert_truthful Store.empty hr hr' hlen.le hans
    ⟨⟨"bob"⟩, by rw [husers]; exact List.mem_singleton_self _, rfl⟩⟩

end RecoupChat
