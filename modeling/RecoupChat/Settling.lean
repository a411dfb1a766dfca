import RecoupChat.Pending
import Mathlib.Algebra.GroupWithZero.Nat

/-! The app comes to rest: requests do not go round, so when the user asks for nothing more there
are only so many answers and callbacks to come. -/
namespace RecoupChat
open Transition Promise Router

theorem sum_map_set {α : Type} (f : α → Nat) {xs : List α} {k : Nat} {x : α}
    (hk : xs[k]? = some x) (y : α) : ((xs.set k y).map f).sum + f x = (xs.map f).sum + f y := by
  induction xs generalizing k with
  | nil => cases hk
  | cons z xs ih =>
    cases k with
    | zero =>
      obtain rfl : z = x := by simpa using hk
      simp only [List.set_cons_zero, List.map_cons, List.sum_cons]
      omega
    | succ k =>
      have hrest := ih (by simpa using hk)
      simp only [List.set_cons_succ, List.map_cons, List.sum_cons]
      omega

theorem of_sum_map_eq_zero {α : Type} {f : α → Nat} {xs : List α} (h : (xs.map f).sum = 0) :
    ∀ x ∈ xs, f x = 0 := by
  intro x hx
  exact List.sum_eq_zero_iff_forall_eq_nat.mp h _ (List.mem_map_of_mem hx)

theorem exists_of_sum_map_ne_zero {α : Type} {f : α → Nat} {xs : List α}
    (h : (xs.map f).sum ≠ 0) : ∃ x ∈ xs, f x ≠ 0 := by
  by_contra hnone
  apply h
  rw [List.sum_eq_zero_iff_forall_eq_nat]
  intro n hn
  obtain ⟨x, hx, rfl⟩ := List.mem_map.mp hn
  by_contra hne
  exact hnone ⟨x, hx, hne⟩

namespace ChatScreen

/-- What is still to come for a request: it is answered, or fails, and the callbacks run. -/
def Stage.due : Stage → Nat
  | .out => 2
  | .answered _ => 1
  | .handled => 0

theorem Stage.due_eq_zero {stage : Stage} (h : stage.due = 0) : stage = .handled := by
  cases stage with
  | handled => rfl
  | _ => cases h

/-- The callbacks of a send may ask for the messages. -/
def due : Fetch × Stage → Nat
  | (.makeRequest _ _, stage) => stage.due
  | (.handleSendMessage _ _ _, .handled) => 0
  | (.handleSendMessage _ _ _, stage) => stage.due + 2

theorem due_handled (f : Fetch) : due (f, .handled) = 0 := by
  cases f <;> rfl

theorem due_answered (f : Fetch) (resJson : Option (Response String)) :
    due (f, .answered resJson) + 1 = due (f, .out) := by
  cases f <;> rfl

theorem due_eq_zero {x : Fetch × Stage} (h : due x = 0) : x.2 = .handled := by
  obtain ⟨f, stage⟩ := x
  cases f with
  | makeRequest u v => exact Stage.due_eq_zero h
  | handleSendMessage u v m => cases stage with
    | handled => rfl
    | _ => cases h

def App.due (s : App) : Nat := (s.fetches.map ChatScreen.due).sum

theorem App.due_fetch (s : App) (f : Fetch) : (s.fetch f).due = s.due + ChatScreen.due (f, .out) := by
  simp [App.due, App.fetch]

theorem App.due_setStage {s : App} {k : Nat} {f : Fetch} {stage : Stage}
    (hk : s.fetches[k]? = some (f, stage)) (stage' : Stage) :
    (s.setStage k f stage').due + ChatScreen.due (f, stage) =
      s.due + ChatScreen.due (f, stage') := sum_map_set _ hk _

theorem App.due_sent (s : App) (now : Int) (resJson : Option (Response String)) :
    (s.sent now resJson).due ≤ s.due + 2 := by
  fun_cases App.sent s now resJson with
  | case3 resJson hs messages hm =>
    simp only [App.appended]
    split
    · exact Nat.le_add_right _ _
    · exact (App.due_fetch _ _).le
  | _ => exact Nat.le_add_right _ _

def NetAct.asks : NetAct → Bool
  | .user .press | .user .refresh => true
  | _ => false

def NetAct.settles : NetAct → Bool
  | .serve _ _ _ | .fail _ | .user (.handle _ _) => true
  | _ => false

theorem due_net {toLowerCase : String → String} {s s' : Net} {a : NetAct} (hasks : a.asks = false)
    (ha : s.step toLowerCase a = some s') : a.settles.toNat + s'.app.due ≤ s.app.due := by
  have hanswer {k : Nat} {f : Fetch} (resJson : Option (Response String))
      (hk : s.app.fetches[k]? = some (f, .out)) :
      1 + (s.app.setStage k f (.answered resJson)).due ≤ s.app.due := by
    have hset := App.due_setStage hk (.answered resJson)
    have hone := due_answered f resJson
    omega
  cases netSteps ha with
  | user a app ho happ =>
    cases App.steps happ with
    | onNewMessage newMessage => exact (Nat.zero_add _).le
    | onFocus hp => exact (Nat.zero_add _).le
    | onContact contact hp => exact (Nat.zero_add _).le
    | press hd => cases hasks
    | refresh => cases hasks
    | answer k f resJson hk => cases ho
    | handle k f resJson now hk =>
      have hset := App.due_setStage hk .handled
      rw [due_handled] at hset
      cases f with
      | makeRequest u v =>
        have hsame : ((s.app.setStage k (.makeRequest u v) .handled).received resJson).due =
            (s.app.setStage k (.makeRequest u v) .handled).due := by
          cases resJson <;> rfl
        change 1 + (App.received _ resJson).due ≤ _
        rw [hsame]
        simp only [due, Stage.due] at hset
        omega
      | handleSendMessage u v m =>
        have hsent := App.due_sent (s.app.setStage k (.handleSendMessage u v m) .handled) now resJson
        change 1 + (App.sent _ now resJson).due ≤ _
        simp only [due, Stage.due] at hset
        omega
  | serve k f timeNow fails store resJson hk hran => exact hanswer resJson hk
  | fail k f hk => exact hanswer none hk
  | others r fails => exact (Nat.zero_add _).le

end ChatScreen

namespace Main
open ChatScreen

def Chats.due (x : Chats) : Nat := (x.fetches.map fun y => y.2.due).sum

def State.due (s : State) : Nat := s.list.due + s.opened.elim 0 App.due + s.left.length

/-- The user asks for something: what the screen that is left had asked for goes on. -/
def Event.asks : Event → Bool
  | .refresh | .tap _ => true
  | .screen a => a.asks
  | _ => false

def Event.settles : Event → Bool
  | .serve _ _ _ | .fail _ | .handle _ | .late _ _ _ => true
  | .screen a => a.settles
  | _ => false

theorem Chats.due_setStage {x : Chats} {k : Nat} {w : String} {stage : Stage}
    (hk : x.fetches[k]? = some (w, stage)) (stage' : Stage) :
    (x.setStage k w stage').due + stage.due = x.due + stage'.due :=
  sum_map_set (fun y : String × Stage => y.2.due) hk (w, stage')

theorem length_unserved (app : App) : (unserved app).length ≤ app.due := by
  rw [unserved, List.length_map, App.due]
  induction app.fetches with
  | nil => exact Nat.zero_le _
  | cons x xs ih =>
    obtain ⟨f, stage⟩ := x
    cases stage with
    | out =>
      have hout : 1 ≤ ChatScreen.due (f, .out) := by
        rw [← due_answered f none]
        exact Nat.le_add_left 1 _
      rw [List.filter_cons_of_pos (by rfl), List.length_cons, List.map_cons, List.sum_cons]
      omega
    | _ =>
      rw [List.filter_cons_of_neg (by simp), List.map_cons, List.sum_cons]
      omega

/-- The step lemma: what happens was due, and nothing new becomes due. -/
theorem due_step {toLowerCase : String → String} {s s' : State} {e : Event}
    (hasks : e.asks = false) (hs : s.step toLowerCase e = some s') :
    e.settles.toNat + s'.due ≤ s.due := by
  cases steps hs with
  | refresh ho => cases hasks
  | tap k chats row ho hc hr => cases hasks
  | plus ho =>
    simp only [State.due, ho, Event.settles, Bool.toNat_false]
    exact (Nat.zero_add _).le
  | back app ho =>
    have hleft := length_unserved app
    simp only [State.due, ho, Event.settles, Bool.toNat_false, Option.elim_none, Option.elim_some,
      List.length_append]
    omega
  | serve k w timeNow fails store resJson hk hran =>
    have hset := Chats.due_setStage hk (.answered resJson)
    simp only [State.due, Event.settles, Bool.toNat_true, Stage.due] at hset ⊢
    omega
  | fail k w hk =>
    have hset := Chats.due_setStage hk (.answered none)
    simp only [State.due, Event.settles, Bool.toNat_true, Stage.due] at hset ⊢
    omega
  | handle k w resJson hk =>
    have hset := Chats.due_setStage hk .handled
    have hsame : ((s.list.setStage k w .handled).received resJson).due =
        (s.list.setStage k w .handled).due := by
      cases resJson <;> rfl
    simp only [State.due, Event.settles, Bool.toNat_true, Stage.due, hsame] at hset ⊢
    omega
  | screen a app net ho ha =>
    have hnet := due_net hasks ha
    simp only [State.due, ho, Event.settles, Option.elim_some] at hnet ⊢
    omega
  | late k x timeNow fails store resJson hran =>
    obtain ⟨y, hy, -⟩ := Option.map_eq_some_iff.mp hs
    have hlt := (List.getElem?_eq_some_iff.mp hy).1
    simp only [State.due, Event.settles, Bool.toNat_true, List.length_eraseIdx, if_pos hlt]
    omega
  | others r fails => exact (Nat.zero_add _).le

/-- The run lemma. -/
theorem due_after {toLowerCase : String → String} {s s' : State} {es : List Event}
    (hasks : ∀ e ∈ es, e.asks = false) (hr : after (State.step toLowerCase) s es = some s') :
    es.countP Event.settles + s'.due ≤ s.due := by
  induction es generalizing s with
  | nil =>
    obtain rfl := Option.some.inj hr
    exact (Nat.zero_add _).le
  | cons e es ih =>
    obtain ⟨s1, hs, hr1⟩ := Option.bind_eq_some_iff.mp hr
    have hstep := due_step (hasks e List.mem_cons_self) hs
    have hrest := ih (fun x hx => hasks x (List.mem_cons_of_mem e hx)) hr1
    have hcount : (e :: es).countP Event.settles = e.settles.toNat + es.countP Event.settles := by
      cases he : e.settles <;> simp [he, Nat.add_comm]
    omega

/-- All requests have been handled, and no spinner turns. -/
structure State.Rests (s : State) : Prop where
  list : ∀ y ∈ s.list.fetches, y.2 = .handled
  refreshing : s.list.refreshing = false
  opened : ∀ app, s.opened = some app →
    (∀ x ∈ app.fetches, x.2 = .handled) ∧ app.screen.refreshing = false
  left : s.left = []

theorem rests_of_due {s : State} (h : Turns s) (hdue : s.due = 0) : s.Rests := by
  have hlist : s.list.due = 0 := by
    rw [State.due] at hdue
    omega
  have hleft : s.left.length = 0 := by
    rw [State.due] at hdue
    omega
  have hall : ∀ y ∈ s.list.fetches, y.2 = .handled := fun y hy =>
    Stage.due_eq_zero (of_sum_map_eq_zero hlist y hy)
  refine ⟨hall, h.list.gone hall, fun app ho => ?_, List.length_eq_zero_iff.mp hleft⟩
  have happ : app.due = 0 := by
    rw [State.due, ho, Option.elim_some] at hdue
    omega
  have hdone : ∀ x ∈ app.fetches, x.2 = .handled := fun x hx =>
    due_eq_zero (of_sum_map_eq_zero happ x hx)
  exact ⟨hdone, (h.opened app ho).gone fun u v stage hx => hdone _ hx⟩

theorem settles_list (toLowerCase : String → String) {s : State} (hdue : s.list.due ≠ 0) :
    ∃ e : Event, e.settles = true ∧ (s.step toLowerCase e).isSome := by
  obtain ⟨⟨w, stage⟩, hy, hpos⟩ := exists_of_sum_map_ne_zero hdue
  obtain ⟨k, hk⟩ := List.mem_iff_getElem?.mp hy
  cases stage with
  | out => exact ⟨.fail k, rfl, by simp [State.step, hk]⟩
  | answered resJson => exact ⟨.handle k, rfl, by simp [State.step, hk]⟩
  | handled => exact absurd rfl hpos

theorem settles_opened (toLowerCase : String → String) {s : State} {app : App}
    (ho : s.opened = some app) (hdue : app.due ≠ 0) :
    ∃ e : Event, e.settles = true ∧ (s.step toLowerCase e).isSome := by
  obtain ⟨⟨f, stage⟩, hx, hpos⟩ := exists_of_sum_map_ne_zero hdue
  obtain ⟨k, hk⟩ := List.mem_iff_getElem?.mp hx
  cases stage with
  | out => exact ⟨.screen (.fail k), rfl, by simp [State.step, ho, Net.step, App.step, hk]⟩
  | answered resJson =>
    refine ⟨.screen (.user (.handle k 0)), rfl, ?_⟩
    simp [State.step, ho, Net.step, Act.own, App.step, hk]
  | handled => exact absurd (due_handled f) hpos

theorem settles_of_due (toLowerCase : String → String) {s : State} (hdue : s.due ≠ 0) :
    ∃ e : Event, e.settles = true ∧ (s.step toLowerCase e).isSome := by
  by_cases hlist : s.list.due = 0
  · cases hleft : s.left with
    | nil =>
      rw [State.due, hlist, hleft] at hdue
      cases ho : s.opened with
      | none =>
        rw [ho] at hdue
        exact absurd rfl hdue
      | some app =>
        rw [ho] at hdue
        refine settles_opened toLowerCase ho fun hzero => hdue ?_
        rw [Option.elim_some, hzero, List.length_nil]
    | cons x left => exact ⟨.late 0 0 noFault, rfl, by simp [State.step, hleft]⟩
  · exact settles_list toLowerCase hlist

/-- In every run of the app, whatever the server answers: from a state on, as long as the user
asks for nothing more, no more happens to the requests than is due in that state, whatever is
typed, left or written by others; and until all of them are handled and no spinner turns,
something that is due can happen. -/
theorem comes_to_rest (toLowerCase : String → String) (displayName : String) (store : Store String)
    {es es' : List Event} {s s' : State}
    (hr : after (State.step toLowerCase) (State.mount displayName store) es = some s)
    (hr' : after (State.step toLowerCase) s es' = some s') (hasks : ∀ e ∈ es', e.asks = false) :
    es'.countP Event.settles ≤ s.due ∧
      (s'.Rests ∨ ∃ e : Event, e.settles = true ∧ (s'.step toLowerCase e).isSome) := by
  have hcount := due_after hasks hr'
  refine ⟨by omega, ?_⟩
  by_cases hdue : s'.due = 0
  · left
    have hall : after (State.step toLowerCase) (State.mount displayName store) (es ++ es') =
        some s' := by rw [after_append hr, hr']
    exact rests_of_due (turns_after hall) hdue
  · exact Or.inr (settles_of_due toLowerCase hdue)

def annWritesNew : List Event :=
  [.serve 0 2 noFault, .handle 0, .plus, .screen (.user (.onContact "bob")),
    .screen (.user (.onNewMessage "hey")), .screen (.user .press)]

def annWaits : List Event :=
  [.screen (.serve 0 3 noFault), .screen (.user (.handle 0 4)), .screen (.serve 1 5 noFault),
    .screen (.user (.handle 1 6))]

theorem after_annWaits : ((after (State.step id)
    (State.mount "ann" (Store.empty.serveAll id bobWrote)) annWritesNew).bind fun s =>
      (after (State.step id) s annWaits).map fun s' =>
        (s.due, s'.opened.map fun app => app.screen.messages)) =
    some (4, some (some [⟨"bob", "hi", 1⟩, ⟨"ann", "hey", 3⟩])) := by
  decide +kernel

theorem comes_to_rest_ann : ∃ s s' : State, s.due = 4 ∧
    after (State.step id) s annWaits = some s' ∧ annWaits.countP Event.settles ≤ s.due ∧
      (s'.Rests ∨ ∃ e : Event, e.settles = true ∧ (s'.step id e).isSome) := by
  obtain ⟨s, hs, hrest⟩ := Option.bind_eq_some_iff.mp after_annWaits
  obtain ⟨s', hs', hshown⟩ := Option.map_eq_some_iff.mp hrest
  exact ⟨s, s', congrArg Prod.fst hshown, hs', comes_to_rest id "ann" _ hs hs' (by decide)⟩

end Main
end RecoupChat
