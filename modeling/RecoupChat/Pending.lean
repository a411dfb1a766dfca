import RecoupChat.Browsing

/-! What the requests of the screens come to: a spinner turns only while one is under way, and an
opened chat keeps its list. -/
namespace RecoupChat
open Transition Promise Router

theorem mem_set_or {α : Type} {xs : List α} {x : α} (hx : x ∈ xs) (k : Nat) (y : α) :
    x ∈ xs.set k y ∨ xs[k]? = some x := by
  obtain ⟨j, hj⟩ := List.mem_iff_getElem?.mp hx
  by_cases hk : k = j
  · exact Or.inr (hk ▸ hj)
  · left
    apply List.mem_iff_getElem?.mpr
    exact ⟨j, by rw [List.getElem?_set_ne hk, hj]⟩

namespace ChatScreen

def Fetch.Reading : Fetch × Stage → Prop
  | (.makeRequest _ _, stage) => stage ≠ .handled
  | _ => False

def App.Turns (s : App) : Prop :=
  s.screen.refreshing = true → ∃ x ∈ s.fetches, Fetch.Reading x

theorem App.Turns.fetch {s : App} (h : s.Turns) (f : Fetch) : (s.fetch f).Turns := by
  intro hr
  obtain ⟨x, hx, hreading⟩ := h hr
  exact ⟨x, List.mem_append_left _ hx, hreading⟩

theorem App.Turns.setStage {s : App} (h : s.Turns) {k : Nat} {f : Fetch} {stage stage' : Stage}
    (hk : s.fetches[k]? = some (f, stage))
    (hkeep : Fetch.Reading (f, stage) → Fetch.Reading (f, stage')) :
    (s.setStage k f stage').Turns := by
  intro hr
  obtain ⟨x, hx, hreading⟩ := h hr
  cases mem_set_or hx k (f, stage') with
  | inl hx => exact ⟨x, hx, hreading⟩
  | inr hx =>
    obtain rfl := Option.some.inj (hk.symm.trans hx)
    have hlt := (List.getElem?_eq_some_iff.mp hk).1
    exact ⟨(f, stage'), List.mem_iff_getElem?.mpr ⟨k, by simp [App.setStage, hlt]⟩,
      hkeep hreading⟩

theorem App.Turns.sent {s : App} (h : s.Turns) (now : Int) (resJson : Option (Response String)) :
    (s.sent now resJson).Turns := by
  fun_cases App.sent s now resJson with
  | case3 resJson hs messages hm =>
    have hset : ({ s with screen := s.screen.append messages now } : App).Turns := h
    simp only [App.appended]
    split
    · exact hset
    · exact hset.fetch _
  | _ => exact h

theorem turns_mount (username contact : String) (page : Page) :
    (App.mount username contact page).Turns := by
  intro hr
  cases page <;> cases hr

theorem turns_step {s s' : App} {a : Act} (h : s.Turns) (ha : s.step a = some s') : s'.Turns := by
  cases App.steps ha with
  | onNewMessage newMessage => exact h
  | onFocus hp => exact h
  | onContact contact hp => exact h
  | press hd => exact h.fetch _
  | refresh =>
    intro _
    exact ⟨_, List.mem_append_right _ (List.mem_singleton_self _), Stage.noConfusion⟩
  | answer k f resJson hk =>
    refine h.setStage hk fun hreading => ?_
    cases f with
    | makeRequest u v => exact Stage.noConfusion
    | handleSendMessage u v m => exact hreading
  | handle k f resJson now hk =>
    cases f with
    | makeRequest u v =>
      cases resJson with
      | none => intro hr; cases hr
      | some r => intro hr; cases hr
    | handleSendMessage u v m =>
      have hset : (s.setStage k (.handleSendMessage u v m) .handled).Turns :=
        h.setStage hk fun hreading => hreading
      exact hset.sent now resJson

theorem turns_net {toLowerCase : String → String} {s s' : Net} {a : NetAct} (h : s.app.Turns)
    (ha : s.step toLowerCase a = some s') : s'.app.Turns := by
  have hanswer {k : Nat} {f : Fetch} {resJson : Option (Response String)}
      (hk : s.app.fetches[k]? = some (f, .out)) : (s.app.setStage k f (.answered resJson)).Turns :=
    turns_step (a := .answer k resJson) h (by simp only [App.step, hk])
  cases netSteps ha with
  | user a app ho happ => exact turns_step h happ
  | serve k f timeNow fails store resJson hk hran => exact hanswer hk
  | fail k f hk => exact hanswer hk
  | others r fails => exact h

theorem App.Turns.gone {s : App} (h : s.Turns)
    (hall : ∀ u v stage, (.makeRequest u v, stage) ∈ s.fetches → stage = .handled) :
    s.screen.refreshing = false := by
  rw [Bool.eq_false_iff]
  intro hrefresh
  obtain ⟨⟨f, stage⟩, hx, hreading⟩ := h hrefresh
  cases f with
  | makeRequest u v => exact hreading (hall u v stage hx)
  | handleSendMessage u v m => exact hreading

/-! The messages of a chat that has a log. -/

structure Lists (s : Net) : Prop where
  list : s.app.screen.messages.isSome
  answers : ∀ (k : Nat) (u v : String) (resJson : Response String),
    s.app.fetches[k]? = some (.makeRequest u v, .answered (some resJson)) →
      resJson.messages?.isSome

theorem lists_mount (u v : String) (page : Page) (store : Store String) :
    Lists ⟨App.mount u v page, store⟩ where
  list := by rw [App.mount_screen]; rfl
  answers k u v resJson hk := by
    have hm := List.mem_of_getElem? hk
    cases page <;> simp [App.mount, App.makeRequest, App.fetch] at hm

theorem Lists.setStage {s : Net} (h : Lists s) (store : Store String) {k : Nat} {f : Fetch}
    {resJson : Option (Response String)}
    (hres : ∀ u v r, f = .makeRequest u v → resJson = some r → r.messages?.isSome) :
    Lists ⟨s.app.setStage k f (.answered resJson), store⟩ where
  list := h.list
  answers j u v r hj := by
    cases answered_setStage hj with
    | inl hsame => exact hres u v r hsame.1.symm hsame.2.symm
    | inr hold => exact h.answers j u v r hold

def Reads (s : App) : NetAct → Prop
  | .serve k _ fails => ∀ u v, s.fetches[k]? = some (.makeRequest u v, .out) → fails = noFault
  | _ => True

theorem lists_step {toLowerCase : String → String} {u : String} {s s' : Net} {a : NetAct}
    (ho : Opened u s) (hu : Plain u.toList) (hune : u ≠ "")
    (hv : Plain s.app.screen.contact.toList) (hvne : s.app.screen.contact ≠ "") (h : Lists s)
    (hok : Reads s.app a) (ha : s.step toLowerCase a = some s') : Lists s' := by
  cases netSteps ha with
  | user a app hown happ =>
    refine ⟨(isSome_step h.list happ).mpr ?_, fun k u v r hk => ?_⟩
    · rintro k now u v r rfl hk
      exact h.answers k u v r hk
    · exact h.answers k u v r (answered_own hown happ hk)
  | serve k f timeNow fails store resJson hk hran =>
    refine h.setStage store ?_
    rintro u' v' r rfl rfl
    have hfree : fails = noFault := hok u' v' hk
    obtain ⟨rfl, rfl⟩ := Prod.mk.inj (ho.between.names hk)
    rw [receive_messages hu hune hv hvne, hfree] at hran
    obtain ⟨-, hnone⟩ | ⟨x, resp, hx, hresp, hserve⟩ := execute_cases hran
    · cases hnone
    · cases hx
      cases hresp
      rw [reads_of_conversation ho.written] at hserve
      obtain rfl := List.singleton_inj.mp (Prod.mk.inj hserve).2
      rfl
  | fail k f hk => exact h.setStage s.store fun u v r _ hr => by cases hr
  | others r fails => exact ⟨h.list, h.answers⟩

end ChatScreen

namespace Main
open ChatScreen

def Chats.Turns (x : Chats) : Prop := x.refreshing = true → ∃ y ∈ x.fetches, y.2 ≠ .handled

theorem Chats.Turns.setStage {x : Chats} (h : x.Turns) {k : Nat} {username : String}
    {stage : Stage} (hstage : stage ≠ .handled) : (x.setStage k username stage).Turns := by
  intro hr
  obtain ⟨y, hy, hpending⟩ := h hr
  cases mem_set_or hy k (username, stage) with
  | inl hy => exact ⟨y, hy, hpending⟩
  | inr hy =>
    have hlt := (List.getElem?_eq_some_iff.mp hy).1
    exact ⟨(username, stage), List.mem_iff_getElem?.mpr ⟨k, by simp [Chats.setStage, hlt]⟩, hstage⟩

structure Turns (s : State) : Prop where
  list : s.list.Turns
  opened : ∀ app, s.opened = some app → app.Turns

theorem turns_step {toLowerCase : String → String} {s s' : State} {e : Event} (h : Turns s)
    (hs : s.step toLowerCase e = some s') : Turns s' := by
  cases steps hs with
  | refresh ho =>
    refine ⟨fun _ => ?_, h.opened⟩
    exact ⟨_, List.mem_append_right _ (List.mem_singleton_self _), Stage.noConfusion⟩
  | tap k chats row ho hc hr =>
    refine ⟨h.list, ?_⟩
    rintro _ ⟨⟩
    exact turns_mount _ _ _
  | plus ho =>
    refine ⟨h.list, ?_⟩
    rintro _ ⟨⟩
    exact turns_mount _ _ _
  | back app ho =>
    refine ⟨h.list, ?_⟩
    intro app' ho'
    cases ho'
  | serve k username timeNow fails store resJson hk hran =>
    exact ⟨h.list.setStage Stage.noConfusion, h.opened⟩
  | fail k username hk => exact ⟨h.list.setStage Stage.noConfusion, h.opened⟩
  | handle k username resJson hk =>
    refine ⟨?_, h.opened⟩
    intro hr
    cases resJson <;> cases hr
  | screen a app net ho ha =>
    refine ⟨h.list, ?_⟩
    rintro _ ⟨⟩
    exact turns_net (s := ⟨app, s.store⟩) (h.opened app ho) ha
  | late k x timeNow fails store resJson hran => exact ⟨h.list, h.opened⟩
  | others r fails => exact ⟨h.list, h.opened⟩

theorem turns_after {toLowerCase : String → String} {displayName : String} {store : Store String}
    {es : List Event} {s : State}
    (hr : after (State.step toLowerCase) (State.mount displayName store) es = some s) :
    Turns s := by
  refine after_invariant (I := Turns) hr ⟨fun hr => ?_, fun app ho => ?_⟩
    fun _ _ _ hI hs => turns_step hI hs
  · cases hr
  · cases ho

theorem Chats.Turns.gone {x : Chats} (h : x.Turns) (hall : ∀ y ∈ x.fetches, y.2 = .handled) :
    x.refreshing = false := by
  rw [Bool.eq_false_iff]
  intro hrefresh
  obtain ⟨y, hy, hpending⟩ := h hrefresh
  exact hpending (hall y hy)

/-- In every run of the app, whatever the server answers: when all requests of the list have been
handled its spinner is gone, and so is that of an open screen with its requests for messages. -/
theorem spinner_gone (toLowerCase : String → String) (displayName : String) (store : Store String)
    {es : List Event} {s : State}
    (hr : after (State.step toLowerCase) (State.mount displayName store) es = some s) :
    ((∀ y ∈ s.list.fetches, y.2 = .handled) → s.list.refreshing = false) ∧
      ∀ app, s.opened = some app →
        (∀ u v stage, (.makeRequest u v, stage) ∈ app.fetches → stage = .handled) →
          app.screen.refreshing = false := by
  have hturns := turns_after hr
  exact ⟨hturns.list.gone, fun app ho hall => (hturns.opened app ho).gone hall⟩

theorem after_annPulls : (after (State.step id)
    (State.mount "ann" (Store.empty.serveAll id bobWrote))
      [.serve 0 2 noFault, .handle 0, .refresh, .serve 1 3 fun _ => true, .handle 1]).map
        (fun s => s.list.fetches.map (·.2)) = some [.handled, .handled] := by
  decide +kernel

theorem spinner_gone_ann : ∃ s : State, s.list.fetches.map (·.2) = [.handled, .handled] ∧
    s.list.refreshing = false := by
  obtain ⟨s, hs, hfetches⟩ := Option.map_eq_some_iff.mp after_annPulls
  refine ⟨s, hfetches, (spinner_gone id "ann" _ hs).1 fun y hy => ?_⟩
  have hy' : y.2 ∈ s.list.fetches.map (·.2) := List.mem_map_of_mem hy
  rw [hfetches] at hy'
  simpa using hy'

/-- No call of a request for the messages of the open screen is rejected. -/
def ReadsSettle (s : State) : Event → Prop
  | .screen a => ∀ app, s.opened = some app → Reads app a
  | _ => True

def OpenLists (s : State) : Prop :=
  ∀ app, s.opened = some app → app.page = .message → Plain app.screen.contact.toList →
    app.screen.contact ≠ "" → Lists ⟨app, s.store⟩

theorem openLists_step {toLowerCase : String → String} {s s' : State} {e : Event} (hs : Sound s)
    (h : OpenLists s) (hu : Plain s.displayName.toList) (hune : s.displayName ≠ "")
    (hok : ReadsSettle s e) (hstep : s.step toLowerCase e = some s') : OpenLists s' := by
  have hkeep (store : Store String) : OpenLists { s with store } := by
    intro app ho hp hv hvne
    have hold := h app ho hp hv hvne
    exact ⟨hold.list, hold.answers⟩
  cases steps hstep with
  | tap k chats row ho hc hr =>
    rintro _ ⟨⟩ - - -
    exact lists_mount _ _ _ _
  | plus ho =>
    rintro _ ⟨⟩ hp - -
    cases hp
  | back app ho =>
    intro app' ho'
    cases ho'
  | screen a app net ho ha =>
    rintro _ ⟨⟩ hp hv hvne
    have hpage : app.page = .message := (names_net ha).page.symm.trans hp
    have hopen := hs.opened app ho hpage
    have hcontact : net.app.screen.contact = app.screen.contact := (names_net ha).contact hpage
    rw [hcontact] at hv hvne
    exact lists_step hopen hu hune hv hvne (h app ho hpage hv hvne) (hok app ho) ha
  | serve k username timeNow fails store resJson hk hran => exact hkeep store
  | late k x timeNow fails store resJson hran => exact hkeep store
  | others r fails => exact hkeep _
  | refresh ho => exact h
  | fail k username hk => exact h
  | handle k username resJson hk => exact h

/-- In every run in which no call of a request for messages is rejected, whatever becomes of all
other requests: the messages of each open chat with a plain name are a list. -/
theorem opened_listed (toLowerCase : String → String) (rs : List (Request String × (Nat → Bool)))
    {displayName : String} (hu : Plain displayName.toList) (hune : displayName ≠ "") {s : State}
    (hr : Run (State.step toLowerCase) ReadsSettle
      (State.mount displayName (Store.empty.serveAll toLowerCase rs)) s)
    {app : App} (ho : s.opened = some app) (hp : app.page = .message)
    (hv : Plain app.screen.contact.toList) (hvne : app.screen.contact ≠ "") :
    app.screen.messages.isSome := by
  have hall : (Sound s ∧ s.displayName = displayName) ∧ OpenLists s := by
    refine hr.invariant (I := fun x => (Sound x ∧ x.displayName = displayName) ∧ OpenLists x)
      ⟨⟨sound_mount toLowerCase rs displayName, rfl⟩, fun app ho => by cases ho⟩ ?_
    rintro x e x' ⟨⟨hx, rfl⟩, hl⟩ hok hs
    exact ⟨sound_step hx hu hune hs, openLists_step hx hl hu hune hok hs⟩
  exact (hall.2 app ho hp hv hvne).list

theorem opened_listed_ann : ∃ s : State, ∃ app, s.opened = some app ∧
    app.screen.contact = "bob" ∧ app.screen.messages.isSome := by
  obtain ⟨s, hs, hshown⟩ := Option.map_eq_some_iff.mp after_annOpens
  have hrun : Run (State.step id) ReadsSettle
      (State.mount "ann" (Store.empty.serveAll id bobWrote)) s := by
    refine Run.of_after hs fun _ _ => ⟨trivial, fun _ _ => ⟨trivial, fun _ _ => ⟨trivial, ?_⟩⟩⟩
    exact fun _ _ => ⟨fun _ _ _ _ _ => rfl, fun _ _ => ⟨fun _ _ => trivial, trivial⟩⟩
  obtain ⟨app, ho, hscreen⟩ := Option.map_eq_some_iff.mp (congrArg Prod.snd hshown)
  obtain ⟨hp, hscreen⟩ := Prod.mk.inj hscreen
  have hcontact : app.screen.contact = "bob" := congrArg (·.contact) hscreen
  exact ⟨s, app, ho, hcontact, opened_listed id bobWrote (by decide) (by decide) hrun ho hp
    (hcontact ▸ by decide) (hcontact ▸ by decide)⟩

end Main
end RecoupChat
