import RecoupChat.ChatList
import RecoupChat.MainScreens

/-! What a signed-in user sees in the list of chats and in the chats opened from it, whatever the
order of the steps of the user, the server and the other clients. -/
namespace RecoupChat
open Transition Promise Router Sorting
variable {M : Type}

/-- The rows of `u`, as the list can show them: the partners are keys, the newest row is first if
all times are dates, and each row repeats an entry of its conversation. -/
structure Store.Lists (s : Store M) (u : String) (rows : List (Row M)) : Prop where
  keys : (names rows).Nodup
  newestFirst : (∀ r ∈ rows, IsDate r.lastMessageTime) →
    rows.Pairwise fun r r' => r'.lastMessageTime ≤ r.lastMessageTime
  recorded : ∀ r ∈ rows, ∃ e ∈ s.conversation u r.toUsername,
    e.message = r.lastMessage ∧ e.time = r.lastMessageTime

theorem Logged.conversation {s : Store M} (hs : Structural s) {u v : String} {m : M} {t : Int}
    (h : Logged s u v m t) : ∃ e ∈ s.conversation u v, e.message = m ∧ e.time = t := by
  obtain ⟨doc, hd, hp, es, hes, e, he, hsame⟩ := h
  exact ⟨e, mem_conversation.mpr ⟨es, ⟨doc, hs.chat_of_mem hd hp, hes⟩, he⟩, hsame⟩

theorem Store.Lists.nil (s : Store M) (u : String) : s.Lists u [] where
  keys := List.nodup_nil
  newestFirst _ := List.Pairwise.nil
  recorded r hr := by cases hr

theorem Store.Lists.grows {s s' : Store M} (hg : Grows s s') {u : String} {rows : List (Row M)}
    (h : s.Lists u rows) : s'.Lists u rows where
  keys := h.keys
  newestFirst := h.newestFirst
  recorded r hr := by
    obtain ⟨e, he, hsame⟩ := h.recorded r hr
    exact ⟨e, hg.conversation he, hsame⟩

def Store.chats (s : Store M) (u : String) : List (Row M) :=
  jsSort newestFirst ((s.rows u).getD [])

theorem lists_rows {s : Store M} (hs : Structural s) (u : String) : s.Lists u (s.chats u) := by
  have hsort := (SignSort.merge (newestFirst (M := M))).sorts ((s.rows u).getD [])
  have hperm : (s.chats u).Perm ((s.rows u).getD []) := hsort.perm
  refine ⟨(hperm.map _).nodup_iff.mpr ?_, ?_, fun r hr => ?_⟩
  · cases hr : s.rows u with
    | none => exact List.nodup_nil
    | some rows => exact hs.nodup_rows hr
  · intro hdates
    exact newest_first_of_sorts hsort fun r hr => hdates r (hperm.mem_iff.mpr hr)
  · have hmem := hperm.subset hr
    cases hrows : s.rows u with
    | none =>
      rw [hrows] at hmem
      cases hmem
    | some rows =>
      rw [hrows] at hmem
      exact (hs.logged_rows hrows r hmem).conversation hs

theorem chats_of_serve [DecidableEq M] {toLowerCase : String → String} {s s' : Store M} {u : String}
    {fails : Nat → Bool} {rows : List (Row M)}
    (h : s.serve toLowerCase (.getUserChats u) fails = (s', [.chats rows])) :
    s' = s ∧ rows = s.chats u := by
  have hsame : s.serve toLowerCase (.getUserChats u) fails =
      s.serve toLowerCase (.getUserChats u) noFault := by
    rw [Point.serve_eq_alone] at h ⊢
    rw [Point.serve_eq_alone]
    exact Point.alone_of_success toLowerCase (congrArg Prod.snd h) rfl
  rw [hsame, serve_getUserChats] at h
  obtain ⟨rfl, hresp⟩ := Prod.mk.inj h
  exact ⟨rfl, by simpa [Store.chats] using hresp.symm⟩

theorem lists_serve [DecidableEq M] {toLowerCase : String → String} {s s' : Store M}
    (hs : Structural s) {u : String} {fails : Nat → Bool} {rows : List (Row M)}
    (h : s.serve toLowerCase (.getUserChats u) fails = (s', [.chats rows])) : s'.Lists u rows := by
  obtain ⟨rfl, rfl⟩ := chats_of_serve h
  exact lists_rows hs u

theorem reads_of_conversation [DecidableEq M] {toLowerCase : String → String} {s : Store M}
    {u v : String} (h : s.conversation u v ≠ []) :
    s.serve toLowerCase (.getUserChatMessages u v) noFault =
      (s, [.messages (s.conversation u v)]) := by
  have hl := holds_iff.mp (holds_of_conversation rfl h)
  rw [serve_getUserChatMessages, hl]

theorem sender_of_conversation {s : Store M} (hs : Structural s) {u v : String} {e : Entry M}
    (he : e ∈ s.conversation u v) : e.sentBy = u ∨ e.sentBy = v := by
  obtain ⟨es, ⟨doc, hc, hl⟩, hm⟩ := mem_conversation.mp he
  obtain ⟨lg, hlg, hid, rfl⟩ := log_mem hl
  have hsent := hs.logSender lg hlg doc (chat_mem hc) hid.symm e hm
  have hpair : e.sentBy ∈ doc.pair := Sym2.mem_iff.mpr hsent
  rw [chat_pair hc] at hpair
  exact Sym2.mem_iff.mp hpair

theorem execute_keeps {toLowerCase : String → String} {s s' : Store String} {fails : Nat → Bool}
    {x : Option (Request String)} {resJson : Option (Response String)} (hs : Structural s)
    (h : ChatScreen.Store.execute toLowerCase s fails x = (s', resJson)) :
    Structural s' ∧ Grows s s' := by
  obtain ⟨rfl, -⟩ | ⟨r, resp, -, -, hserve⟩ := ChatScreen.execute_cases h
  · exact ⟨hs, .refl _⟩
  · have hst : Structural (s.serve toLowerCase r fails).1 := structural_serve hs r fails
    have hg := grows_serve toLowerCase s r fails
    rw [hserve] at hst hg
    exact ⟨hst, hg⟩

namespace ChatScreen

theorem names_net {toLowerCase : String → String} {s s' : Net} {a : NetAct}
    (ha : s.step toLowerCase a = some s') : s.app.Names s'.app := by
  cases netSteps ha with
  | user a app ho happ => exact names_step happ
  | serve k f timeNow fails store resJson hk hran =>
    exact names_same rfl rfl rfl (asked_setStage hk _)
  | fail k f hk => exact names_same rfl rfl rfl (asked_setStage hk _)
  | others r fails => exact names_same rfl rfl rfl rfl

structure App.Between (s : App) (u v : String) : Prop where
  page : s.page = .message
  username : s.screen.username = u
  contact : s.screen.contact = v
  asked : ∀ f ∈ s.asked, f.names = (u, v)

theorem between_mount (u v : String) : (App.mount u v .message).Between u v where
  page := rfl
  username := rfl
  contact := rfl
  asked f hf := by
    obtain rfl := List.mem_singleton.mp hf
    rfl

theorem App.Between.names {s : App} {u v : String} (h : s.Between u v) {k : Nat} {f : Fetch}
    {stage : Stage} (hk : s.fetches[k]? = some (f, stage)) : f.names = (u, v) :=
  h.asked f (List.mem_of_getElem? (asked_of_get hk))

theorem App.Between.step {s s' : App} {u v : String} (h : s.Between u v) (hn : s.Names s') :
    s'.Between u v where
  page := hn.page.trans h.page
  username := hn.username.trans h.username
  contact := (hn.contact h.page).trans h.contact
  asked f hf := (hn.asked f hf).elim (h.asked f) fun hnew =>
    hnew.trans (Prod.ext h.username h.contact)

def Recorded (s : Net) : Prop :=
  ∀ (k : Nat) (f : Fetch) (resJson : Response String),
    s.app.fetches[k]? = some (f, .answered (some resJson)) →
      ∃ t r, (f.http s.app.page).receive t = some r ∧ s.store.Records r resJson

theorem Recorded.grow {s : Net} (h : Recorded s) {store : Store String} (hg : Grows s.store store)
    {k : Nat} {f : Fetch} {resJson : Option (Response String)}
    (hr : ∀ r, resJson = some r →
      ∃ t x, (f.http s.app.page).receive t = some x ∧ store.Records x r) :
    Recorded ⟨s.app.setStage k f (.answered resJson), store⟩ := by
  intro j f' r hj
  cases answered_setStage hj with
  | inl hsame =>
    obtain ⟨rfl, hres⟩ := hsame
    exact hr r hres.symm
  | inr hold =>
    obtain ⟨t, x, hx, hrec⟩ := h j f' r hold
    exact ⟨t, x, hx, hg.records hrec⟩

theorem recorded_step {toLowerCase : String → String} {s s' : Net} {a : NetAct}
    (hs : Structural s.store) (h : Recorded s) (hstep : s.step toLowerCase a = some s') :
    Recorded s' := by
  cases netSteps hstep with
  | user a app ho ha =>
    intro j f r hj
    obtain ⟨t, x, hx, hrec⟩ := h j f r (answered_own ho ha hj)
    exact ⟨t, x, by rw [(asked_step ha).2]; exact hx, hrec⟩
  | serve k f timeNow fails store resJson hf hran =>
    refine h.grow (execute_keeps hs hran).2 ?_
    rintro r rfl
    obtain ⟨-, hnone⟩ | ⟨x, resp, hx, hresp, hserve⟩ := execute_cases hran
    · cases hnone
    · cases hresp
      exact ⟨timeNow, x, hx, records_serve toLowerCase hs hserve⟩
  | fail k f hf => exact h.grow (.refl _) fun r hr => by cases hr
  | others r fails =>
    intro j f resJson hj
    obtain ⟨t, x, hx, hrec⟩ := h j f resJson hj
    exact ⟨t, x, hx, (grows_serve toLowerCase s.store r fails).records hrec⟩

theorem store_step {toLowerCase : String → String} {s s' : Net} {a : NetAct}
    (hs : Structural s.store) (ha : s.step toLowerCase a = some s') :
    Structural s'.store ∧ Grows s.store s'.store := by
  cases netSteps ha with
  | user a app ho ha => exact ⟨hs, .refl _⟩
  | serve k f timeNow fails store resJson hf hran => exact execute_keeps hs hran
  | fail k f hf => exact ⟨hs, .refl _⟩
  | others r fails => exact ⟨structural_serve hs r fails, grows_serve toLowerCase s.store r fails⟩

/-- Each entry shown was sent by `u`, or is an entry of `v` in their conversation. -/
def Shows (s : Net) (u v : String) : Prop :=
  ∀ messages, s.app.screen.messages = some messages →
    ∀ e ∈ messages, e.sentBy = u ∨ e.sentBy = v ∧ e ∈ s.store.conversation u v

theorem Shows.grows {s : Net} {u v : String} (h : Shows s u v) {store : Store String}
    (hg : Grows s.store store) : Shows { s with store } u v :=
  fun messages hm e he => (h messages hm e he).imp_right fun hv => ⟨hv.1, hg.conversation hv.2⟩

theorem Shows.sent {s : Net} {u v : String} (h : Shows s u v) (hu : s.app.screen.username = u)
    (now : Int) (resJson : Option (Response String)) :
    Shows { s with app := s.app.sent now resJson } u v := by
  by_cases hok : ∃ r, resJson = some r ∧ r.status = .SUCCESS
  · obtain ⟨r, rfl, hok⟩ := hok
    cases hm : s.app.screen.messages with
    | none =>
      rw [App.sent_undefined hm]
      exact h
    | some messages =>
      rw [App.sent_of_list hok hm]
      intro messages' hm' e he
      simp only [App.appended_screen, Screen.append, Option.some.injEq] at hm'
      subst hm'
      cases List.mem_append.mp he with
      | inl he => exact h messages hm e he
      | inr he =>
        obtain rfl := List.mem_singleton.mp he
        exact Or.inl hu
  · rw [App.sent_of_not fun r hr hrs => hok ⟨r, hr, hrs⟩]
    exact h

theorem shows_own {s : Net} {app : App} {a : Act} {u v : String} (hs : Structural s.store)
    (hb : s.app.Between u v) (hrec : Recorded s) (h : Shows s u v) (hu : Plain u.toList)
    (hune : u ≠ "") (hv : Plain v.toList) (hvne : v ≠ "") (ho : a.own = true)
    (ha : s.app.step a = some app) : Shows { s with app } u v := by
  cases App.steps ha with
  | onNewMessage newMessage => exact h
  | onFocus hp => exact absurd (hb.page.symm.trans hp) Page.noConfusion
  | onContact contact hp => exact absurd (hb.page.symm.trans hp) Page.noConfusion
  | press hd => exact h
  | refresh => exact h
  | answer k f resJson hk => cases ho
  | handle k f resJson now hk =>
    cases f with
    | makeRequest u' v' =>
      cases resJson with
      | none => exact h
      | some r =>
        intro messages hm e he
        obtain ⟨rfl, rfl⟩ := Prod.mk.inj (hb.names hk)
        obtain ⟨t, x, hx, hread⟩ := hrec k _ r hk
        rw [receive_messages hu hune hv hvne] at hx
        obtain rfl := Option.some.inj hx
        have hmem := hread messages hm e he
        exact (sender_of_conversation hs hmem).imp_right fun hby => ⟨hby, hmem⟩
    | handleSendMessage u' v' m =>
      have hset : Shows { s with app := s.app.setStage k (.handleSendMessage u' v' m) .handled } u v :=
        h
      exact hset.sent hb.username now resJson

/-- A Message screen that `u` has opened from the list: its chat has been written. -/
structure Opened (u : String) (s : Net) : Prop where
  between : s.app.Between u s.app.screen.contact
  recorded : Recorded s
  written : s.store.conversation u s.app.screen.contact ≠ []
  shows : Plain u.toList → u ≠ "" → Plain s.app.screen.contact.toList →
    s.app.screen.contact ≠ "" → Shows s u s.app.screen.contact

theorem opened_mount {s : Store String} {u v : String} (h : s.conversation u v ≠ []) :
    Opened u ⟨App.mount u v .message, s⟩ where
  between := between_mount u v
  recorded k f resJson hk := by
    cases k with
    | zero => cases hk
    | succ k => cases hk
  written := h
  shows _ _ _ _ messages hm e he := by
    obtain rfl := Option.some.inj hm
    cases he

theorem conversation_ne_nil {s s' : Store M} (hg : Grows s s') {u v : String}
    (h : s.conversation u v ≠ []) : s'.conversation u v ≠ [] := by
  obtain ⟨e, he⟩ := List.exists_mem_of_ne_nil _ h
  exact List.ne_nil_of_mem (hg.conversation he)

theorem Opened.grows {u : String} {s : Net} (h : Opened u s) {store : Store String}
    (hg : Grows s.store store) : Opened u { s with store } where
  between := h.between
  recorded k f resJson hk := by
    obtain ⟨t, x, hx, hrec⟩ := h.recorded k f resJson hk
    exact ⟨t, x, hx, hg.records hrec⟩
  written := conversation_ne_nil hg h.written
  shows hu hune hv hvne := (h.shows hu hune hv hvne).grows hg

theorem opened_step {toLowerCase : String → String} {u : String} {s s' : Net} {a : NetAct}
    (hs : Structural s.store) (h : Opened u s) (ha : s.step toLowerCase a = some s') :
    Opened u s' := by
  have hrec : Recorded s' := recorded_step hs h.recorded ha
  have hb := h.between.step (names_net ha)
  have hcontact : s'.app.screen.contact = s.app.screen.contact := hb.contact
  refine ⟨hcontact ▸ hb, hrec, hcontact ▸ conversation_ne_nil (store_step hs ha).2 h.written, ?_⟩
  rw [hcontact]
  intro hu hune hv hvne
  have hshows := h.shows hu hune hv hvne
  cases netSteps ha with
  | user a app ho happ => exact shows_own hs h.between h.recorded hshows hu hune hv hvne ho happ
  | serve k f timeNow fails store resJson hk hran => exact hshows.grows (execute_keeps hs hran).2
  | fail k f hk => exact hshows
  | others r fails => exact hshows.grows (grows_serve toLowerCase s.store r fails)

end ChatScreen

namespace Main
open ChatScreen

namespace Chats

structure Own (u : String) (x : Chats) : Prop where
  username : x.username = u
  asked : ∀ y ∈ x.fetches, y.1 = u

theorem Own.makeRequest {u : String} {x : Chats} (h : x.Own u) : x.makeRequest.Own u where
  username := h.username
  asked y hy := by
    cases List.mem_append.mp hy with
    | inl hy => exact h.asked y hy
    | inr hy =>
      obtain rfl := List.mem_singleton.mp hy
      exact h.username

theorem Own.handleRefresh {u : String} {x : Chats} (h : x.Own u) : x.handleRefresh.Own u := by
  have hset : ({ x with refreshing := true } : Chats).Own u := ⟨h.username, h.asked⟩
  exact hset.makeRequest

theorem own_mount (u : String) : (mount u).Own u := by
  have hempty : (⟨u, some [], false, []⟩ : Chats).Own u := by
    refine ⟨rfl, fun y hy => ?_⟩
    cases hy
  exact hempty.makeRequest

theorem Own.setStage {u : String} {x : Chats} (h : x.Own u) (k : Nat) (stage : Stage) :
    (x.setStage k u stage).Own u where
  username := h.username
  asked y hy := by
    cases List.mem_or_eq_of_mem_set hy with
    | inl hy => exact h.asked y hy
    | inr hy => rw [hy]

theorem Own.received {u : String} {x : Chats} (h : x.Own u)
    (resJson : Option (Response String)) : (x.received resJson).Own u := by
  cases resJson <;> exact ⟨h.username, h.asked⟩

/-- The answers and the rows shown are those of `u`. -/
structure Sound (u : String) (s : Store String) (x : Chats) : Prop extends Own u x where
  answers : ∀ y ∈ x.fetches, ∀ resJson, y.2 = .answered (some resJson) →
    ∀ rows, resJson.chats? = some rows → s.Lists u rows
  shown : ∀ rows, x.chats = some rows → s.Lists u rows

theorem Sound.grows {u : String} {s s' : Store String} (hg : Grows s s') {x : Chats}
    (h : x.Sound u s) : x.Sound u s' where
  __ := h.toOwn
  answers y hy resJson hres rows hrows := (h.answers y hy resJson hres rows hrows).grows hg
  shown rows hrows := (h.shown rows hrows).grows hg

theorem Sound.makeRequest {u : String} {s : Store String} {x : Chats} (h : x.Sound u s) :
    x.makeRequest.Sound u s where
  __ := h.toOwn.makeRequest
  answers y hy := by
    cases List.mem_append.mp hy with
    | inl hy => exact h.answers y hy
    | inr hy =>
      obtain rfl := List.mem_singleton.mp hy
      intro resJson hres
      cases hres
  shown := h.shown

theorem sound_mount (u : String) (s : Store String) : (mount u).Sound u s where
  __ := own_mount u
  answers y hy resJson hres := by
    obtain rfl := List.mem_singleton.mp hy
    cases hres
  shown rows hrows := by
    obtain rfl := Option.some.inj hrows
    exact Store.Lists.nil s u

theorem Sound.handleRefresh {u : String} {s : Store String} {x : Chats} (h : x.Sound u s) :
    x.handleRefresh.Sound u s := by
  have hset : ({ x with refreshing := true } : Chats).Sound u s := { h with }
  exact hset.makeRequest

theorem Sound.setStage {u : String} {s : Store String} {x : Chats} (h : x.Sound u s) (k : Nat)
    {stage : Stage} (hstage : ∀ resJson, stage = .answered (some resJson) →
      ∀ rows, resJson.chats? = some rows → s.Lists u rows) : (x.setStage k u stage).Sound u s where
  __ := h.toOwn.setStage k stage
  answers y hy := by
    cases List.mem_or_eq_of_mem_set hy with
    | inl hy => exact h.answers y hy
    | inr hy =>
      rw [hy]
      exact hstage
  shown := h.shown

theorem Sound.received {u : String} {s : Store String} {x : Chats} (h : x.Sound u s)
    {resJson : Option (Response String)} (hres : ∀ r, resJson = some r →
      ∀ rows, r.chats? = some rows → s.Lists u rows) : (x.received resJson).Sound u s := by
  cases resJson with
  | none => exact { h with }
  | some r => exact { h with shown := hres r rfl }

end Chats

/-- What holds of the app and the store together. -/
structure Sound (s : State) : Prop where
  structural : Structural s.store
  list : s.list.Sound s.displayName s.store
  opened : ∀ app, s.opened = some app → app.page = .message → Opened s.displayName ⟨app, s.store⟩

theorem receive_chats {u : String} (hu : Plain u.toList) (hune : u ≠ "") (timeNow : Int) :
    (MessagesAll.makeRequest "" u).receive timeNow = some (.getUserChats u) :=
  receive_template 2 rfl rfl rfl (chats_url "" u) (by simp [hu, hune]) timeNow

theorem lists_execute {toLowerCase : String → String} {s s' : Store String} (hs : Structural s)
    {u : String} (hu : Plain u.toList) (hune : u ≠ "") {timeNow : Int} {fails : Nat → Bool}
    {resJson : Option (Response String)}
    (hran : Store.execute toLowerCase s fails ((MessagesAll.makeRequest "" u).receive timeNow) =
      (s', resJson)) :
    ∀ r, resJson = some r → ∀ rows, r.chats? = some rows → s'.Lists u rows := by
  rintro r rfl rows hrows
  rw [receive_chats hu hune] at hran
  obtain ⟨-, hnone⟩ | ⟨x, resp, hx, hresp, hserve⟩ := execute_cases hran
  · cases hnone
  · cases hx
    cases hresp
    cases r <;> cases hrows
    exact lists_serve hs hserve

theorem Sound.grow {s : State} (h : Sound s) {store : Store String} (hs : Structural store)
    (hg : Grows s.store store) : Sound { s with store } where
  structural := hs
  list := h.list.grows hg
  opened app ho hp := (h.opened app ho hp).grows hg

theorem sound_step {toLowerCase : String → String} {s s' : State} {e : Event} (h : Sound s)
    (hu : Plain s.displayName.toList) (hune : s.displayName ≠ "")
    (hs : s.step toLowerCase e = some s') : Sound s' ∧ s'.displayName = s.displayName := by
  cases steps hs with
  | refresh ho => exact ⟨⟨h.structural, h.list.handleRefresh, h.opened⟩, rfl⟩
  | tap k chats row ho hc hr =>
    refine ⟨⟨h.structural, h.list, ?_⟩, rfl⟩
    rintro _ ⟨⟩ -
    obtain ⟨e, he, -⟩ := (h.list.shown chats hc).recorded row (List.mem_of_getElem? hr)
    rw [h.list.username]
    exact opened_mount (List.ne_nil_of_mem he)
  | plus ho =>
    refine ⟨⟨h.structural, h.list, ?_⟩, rfl⟩
    rintro _ ⟨⟩ hp
    cases hp
  | back app ho =>
    refine ⟨⟨h.structural, h.list, ?_⟩, rfl⟩
    intro app' ho'
    cases ho'
  | serve k username timeNow fails store resJson hk hran =>
    obtain rfl := h.list.asked _ (List.mem_of_getElem? hk)
    obtain ⟨hst, hg⟩ := execute_keeps h.structural hran
    have hgrown := h.grow hst hg
    refine ⟨⟨hst, hgrown.list.setStage k ?_, hgrown.opened⟩, rfl⟩
    rintro r ⟨⟩
    exact lists_execute h.structural hu hune hran r rfl
  | fail k username hk =>
    obtain rfl := h.list.asked _ (List.mem_of_getElem? hk)
    refine ⟨⟨h.structural, h.list.setStage k ?_, h.opened⟩, rfl⟩
    rintro r ⟨⟩
  | handle k username resJson hk =>
    have hmem := List.mem_of_getElem? hk
    obtain rfl := h.list.asked _ hmem
    refine ⟨⟨h.structural, (h.list.setStage k ?_).received ?_, h.opened⟩, rfl⟩
    · rintro r ⟨⟩
    · rintro r rfl
      exact h.list.answers _ hmem r rfl
  | screen a app net ho ha =>
    obtain ⟨hst, hg⟩ := store_step (s := ⟨app, s.store⟩) h.structural ha
    refine ⟨⟨hst, h.list.grows hg, ?_⟩, rfl⟩
    rintro _ ⟨⟩ hp
    have hpage : net.app.page = app.page := (names_net ha).page
    exact opened_step h.structural (h.opened app ho (hpage ▸ hp)) ha
  | late k x timeNow fails store resJson hran =>
    obtain ⟨hst, hg⟩ := execute_keeps h.structural hran
    have hgrown := h.grow hst hg
    exact ⟨⟨hst, hgrown.list, hgrown.opened⟩, rfl⟩
  | others r fails =>
    exact ⟨h.grow (structural_serve h.structural r fails) (grows_serve toLowerCase s.store r fails),
      rfl⟩

theorem sound_mount (toLowerCase : String → String) (rs : List (Request String × (Nat → Bool)))
    (displayName : String) :
    Sound (State.mount displayName (Store.empty.serveAll toLowerCase rs)) where
  structural := structural_serveAll structural_empty rs
  list := Chats.sound_mount displayName _
  opened app ho := by cases ho

theorem sound_after {toLowerCase : String → String} {s s' : State} {es : List Event}
    (h : Sound s) (hu : Plain s.displayName.toList) (hune : s.displayName ≠ "")
    (hr : after (State.step toLowerCase) s es = some s') :
    Sound s' ∧ s'.displayName = s.displayName := by
  refine after_invariant (I := fun x => Sound x ∧ x.displayName = s.displayName) hr ⟨h, rfl⟩ ?_
  rintro x e x' ⟨hx, hname⟩ hs
  obtain ⟨hx', hname'⟩ := sound_step hx (hname ▸ hu) (hname ▸ hune) hs
  exact ⟨hx', hname'.trans hname⟩

/-- In every run of the app from a store that the server can have reached, the rows listed have
the partners as keys, the newest row is first, and each repeats an entry of its conversation. -/
theorem chats_listed (toLowerCase : String → String) (rs : List (Request String × (Nat → Bool)))
    {displayName : String} (hu : Plain displayName.toList) (hune : displayName ≠ "")
    {es : List Event} {s : State}
    (hr : after (State.step toLowerCase)
      (State.mount displayName (Store.empty.serveAll toLowerCase rs)) es = some s) :
    ∀ rows, s.list.chats = some rows → s.store.Lists displayName rows := by
  obtain ⟨hs, hname⟩ := sound_after (sound_mount toLowerCase rs displayName) hu hune hr
  rw [show displayName = s.displayName from hname.symm]
  exact hs.list.shown

/-- In every such run an open Message screen is one of the user, its chat has been written, and
what stands on the left was sent by the contact in this conversation. -/
theorem opened_written (toLowerCase : String → String) (rs : List (Request String × (Nat → Bool)))
    {displayName : String} (hu : Plain displayName.toList) (hune : displayName ≠ "")
    {es : List Event} {s : State}
    (hr : after (State.step toLowerCase)
      (State.mount displayName (Store.empty.serveAll toLowerCase rs)) es = some s)
    {app : App} (ho : s.opened = some app) (hp : app.page = .message) :
    app.screen.username = displayName ∧
      s.store.conversation displayName app.screen.contact ≠ [] ∧
      (Plain app.screen.contact.toList → app.screen.contact ≠ "" →
        ∀ messages, app.screen.messages = some messages → ∀ e ∈ messages,
          (SingleMessage e app.screen.username).alignSelf = "flex-start" →
            e.sentBy = app.screen.contact ∧
              e ∈ s.store.conversation displayName app.screen.contact) := by
  obtain ⟨hs, hname⟩ := sound_after (sound_mount toLowerCase rs displayName) hu hune hr
  obtain rfl : displayName = s.displayName := hname.symm
  have hopen := hs.opened app ho hp
  refine ⟨hopen.between.username, hopen.written, fun hv hvne messages hm e he hleft => ?_⟩
  have hother : e.sentBy ≠ s.displayName := by
    rw [hopen.between.username] at hleft
    exact left_iff.mp hleft
  exact (hopen.shows hu hune hv hvne messages hm e he).resolve_left hother

def bobWrote : List (Request String × (Nat → Bool)) :=
  [(.addNewUser "ann", noFault), (.addNewUser "bob", noFault),
    (.sendNewMessage ⟨"bob", "ann", "hi", 1⟩, noFault)]

def annOpens : List Event :=
  [.serve 0 2 noFault, .handle 0, .tap 0, .screen (.serve 0 3 noFault),
    .screen (.user (.handle 0 4))]

theorem after_annOpens : (after (State.step id)
    (State.mount "ann" (Store.empty.serveAll id bobWrote)) annOpens).map
      (fun s => (s.list.chats, s.opened.map fun app => (app.page, app.screen))) =
    some (some [⟨"bob", "hi", 1⟩],
      some (.message, ⟨"ann", "bob", some [⟨"bob", "hi", 1⟩], "", false⟩)) := by
  decide +kernel

theorem chats_listed_ann : ∃ s : State, s.list.chats = some [⟨"bob", "hi", 1⟩] ∧
    s.store.Lists "ann" [⟨"bob", "hi", 1⟩] := by
  obtain ⟨s, hs, hshown⟩ := Option.map_eq_some_iff.mp after_annOpens
  have hchats := congrArg Prod.fst hshown
  exact ⟨s, hchats, chats_listed id bobWrote (by decide) (by decide) hs _ hchats⟩

theorem opened_written_ann : ∃ s : State, ∃ app, s.opened = some app ∧
    app.screen.messages = some [⟨"bob", "hi", 1⟩] ∧
    (⟨"bob", "hi", 1⟩ : Entry String) ∈ s.store.conversation "ann" "bob" := by
  obtain ⟨s, hs, hshown⟩ := Option.map_eq_some_iff.mp after_annOpens
  obtain ⟨app, ho, hscreen⟩ := Option.map_eq_some_iff.mp (congrArg Prod.snd hshown)
  obtain ⟨hp, hscreen⟩ := Prod.mk.inj hscreen
  obtain ⟨-, -, hleft⟩ := opened_written id bobWrote (by decide) (by decide) hs ho hp
  rw [hscreen] at hleft
  have hbob := hleft (by decide) (by decide) _ rfl _ (List.mem_singleton_self _) (by decide)
  exact ⟨s, app, ho, congrArg (·.messages) hscreen, hbob.2⟩

end Main
end RecoupChat
