import RecoupChat.ScreenServer

/-! The contact field of MessageNew: a send trims it, a request for the messages does not, and
both read it when they are made. -/
namespace RecoupChat
open Transition Promise Router
variable {M : Type}

theorem holds_iff {s : Store M} {a b : String} {es : List (Entry M)} :
    s.holds a b es ↔ ((s.chat a b).bind fun doc => s.log doc.chatId) = some es := by
  rw [Store.holds, Option.bind_eq_some_iff]

theorem holds_of_conversation {s : Store M} {a b : String} {es : List (Entry M)}
    (h : s.conversation a b = es) (hne : es ≠ []) : s.holds a b es := by
  rw [holds_iff]
  rw [Store.conversation] at h
  cases hl : (s.chat a b).bind fun doc => s.log doc.chatId with
  | none =>
    rw [hl] at h
    exact absurd h.symm hne
  | some es' =>
    rw [hl] at h
    exact congrArg some h

theorem OnlyPair.holds_iff {P : Sym2 String} {s s' : Store M} (h : OnlyPair P s s') {a b : String}
    (hne : s(a, b) ≠ P) {es : List (Entry M)} : s'.holds a b es ↔ s.holds a b es := by
  simp only [Store.holds, h.chat a b hne]
  refine exists_congr fun doc => and_congr_right fun hd => ?_
  rw [h.log a b doc hne hd]

namespace ChatScreen
variable (toLowerCase : String → String)

theorem execute_messages (s : Store String) (u v : String) :
    ∃ resJson, Store.execute toLowerCase s noFault (some (.getUserChatMessages u v)) =
      (s, some resJson) ∧ ∀ es, resJson.messages? = some es ↔ s.holds u v es := by
  rw [Store.execute, serve_getUserChatMessages]
  refine ⟨_, rfl, fun es => ?_⟩
  rw [holds_iff]
  cases (s.chat u v).bind fun doc => s.log doc.chatId with
  | none => simp [Response.messages?]
  | some es' => simp [Response.messages?]

theorem execute_post {s s' : Store String} (hs : Structural s) {u v m : String} {timeNow : Int}
    {fails : Nat → Bool} (hu : Plain u.toList) (hune : u ≠ "") (hv : Plain v.toList)
    {resJson : Response String} (hok : resJson.status = .SUCCESS)
    (h : Store.execute toLowerCase s fails
      (((Fetch.handleSendMessage u v m).http .messageNew).receive timeNow) =
        (s', some resJson)) :
    OnlyPair s(u, trim v) s s' ∧ AllDone ⟨u, trim v, m, timeNow⟩ s s' := by
  by_cases hblank : trim v = ""
  · rw [receive_blank hu hblank] at h
    cases h
  · rw [receive_post hu hune (plain_trim hv) hblank] at h
    obtain ⟨s1, resp, he, hpair⟩ := onlyPair_serve toLowerCase hs
      (r := .sendNewMessage ⟨u, trim v, m, timeNow⟩) rfl fails
    simp only [Store.execute, he, List.head?_cons, Prod.mk.injEq, Option.some.injEq] at h
    obtain ⟨rfl, rfl⟩ := h
    exact ⟨hpair, allDone_serve toLowerCase hs rfl he hok⟩

theorem step_handle {s : Net} {k : Nat} {f : Fetch} {resJson : Option (Response String)}
    (hk : s.app.fetches[k]? = some (f, .answered resJson)) (now : Int) :
    s.step toLowerCase (.user (.handle k now)) =
      some { s with app := (s.app.setStage k f .handled).receive now f resJson } := by
  simp [Net.step, Act.own, App.step, hk]

/-- Where messages is an array, the answer to a send makes the next request, with the contact as
it stands, and what the server reads for it is what the screen shows. -/
theorem follow_up {s : Net} {k : Nat} {messages : List (Entry String)}
    (hpage : s.app.page = .messageNew) (hk : s.app.fetches.length = k + 1)
    (hs : s.app.Succeeded k) (hm : s.app.screen.messages = some messages)
    (hu : Plain s.app.screen.username.toList) (hune : s.app.screen.username ≠ "")
    (hc : Plain s.app.screen.contact.toList) (hcne : s.app.screen.contact ≠ "")
    (t now now' : Int) :
    ∃ s', after (Net.step toLowerCase) s
        [.user (.handle k now), .serve (k + 1) t noFault, .user (.handle (k + 1) now')] =
          some s' ∧ s'.store = s.store ∧ ∀ es, s'.app.screen.messages = some es ↔
            s.store.holds s.app.screen.username s.app.screen.contact es := by
  obtain ⟨username, contact, newMessage, resJson, hok, hsent⟩ := hs
  let sent := s.app.setStage k (.handleSendMessage username contact newMessage) .handled
  let app := sent.appended messages now
  let f := Fetch.makeRequest s.app.screen.username s.app.screen.contact
  have hhandle : s.step toLowerCase (.user (.handle k now)) = some ⟨app, s.store⟩ := by
    rw [step_handle toLowerCase hsent, App.receive, App.sent_of_list (s := sent) hok hm]
  have hasked : app.fetches[k + 1]? = some (f, .out) := by
    simp [app, sent, f, App.appended, hpage, App.makeRequest, App.fetch, App.setStage, hk,
      Screen.append]
  obtain ⟨resJson', hread, hes⟩ := execute_messages toLowerCase s.store s.app.screen.username
    s.app.screen.contact
  rw [← receive_messages hu hune hc hcne app.page t] at hread
  let answered := app.setStage (k + 1) f (.answered (some resJson'))
  have hserve : Net.step toLowerCase ⟨app, s.store⟩ (.serve (k + 1) t noFault) =
      some ⟨answered, s.store⟩ := step_serve hasked hread
  have hlast := step_handle (s := ⟨answered, s.store⟩) toLowerCase
    (App.setStage_get hasked (.answered (some resJson'))) now'
  refine ⟨⟨(answered.setStage (k + 1) f .handled).received (some resJson'), s.store⟩, ?_, rfl, hes⟩
  rw [after_cons, hhandle, Option.bind_some, after_cons, hserve, Option.bind_some, after_cons,
    hlast]
  rfl

/-- Where messages is undefined, to spread them throws and no request follows. -/
theorem no_follow_up {s : Net} {k : Nat} (hk : s.app.fetches.length = k + 1)
    (hs : s.app.Succeeded k) (hm : s.app.screen.messages = none) (t now : Int)
    (acts : List NetAct) :
    after (Net.step toLowerCase) s (.user (.handle k now) :: .serve (k + 1) t noFault :: acts) =
      none := by
  obtain ⟨username, contact, newMessage, resJson, -, hsent⟩ := hs
  have hnone : (s.app.setStage k (.handleSendMessage username contact newMessage)
      .handled).fetches[k + 1]? = none := by
    simp [App.setStage, hk]
  rw [after_cons, step_handle toLowerCase hsent, App.receive,
    App.sent_undefined (s := s.app.setStage k _ .handled) hm, Option.bind_some, after_cons,
    Net.step, hnone]
  rfl

/-- The screen shows the log of the pair, which ends with a message. -/
def ShowsLog (s : Net) (u v : String) (message : String) : Prop :=
  ∃ es, s.app.screen.messages = some es ∧ s.store.holds u v es ∧
    ∃ e, es.getLast? = some e ∧ e.message = message

theorem press_serve {s s1 : Net} {t : Int} {fails : Nat → Bool}
    (h : after (Net.step toLowerCase) s
      [.user .press, .serve s.app.fetches.length t fails] = some s1) :
    let f := Fetch.handleSendMessage s.app.screen.username s.app.screen.contact
      s.app.screen.newMessage
    s.app.screen.disabled s.app.page = false ∧ ∃ store resJson,
      s.app.handleSendMessage.fetches[s.app.fetches.length]? = some (f, .out) ∧
      Store.execute toLowerCase s.store fails ((f.http s.app.page).receive t) = (store, resJson) ∧
      s1 = ⟨s.app.handleSendMessage.setStage s.app.fetches.length f (.answered resJson), store⟩ := by
  intro f
  obtain ⟨sp, hp, h⟩ := Option.bind_eq_some_iff.mp h
  obtain ⟨ss, hv, h⟩ := Option.bind_eq_some_iff.mp h
  obtain rfl := Option.some.inj h
  cases netSteps hp with
  | user _ app1 _ ha1 =>
  cases App.steps ha1 with
  | press hd =>
  cases netSteps hv with
  | serve _ f' _ _ store resJson hk hran =>
  have hf : f' = f := by simpa [App.handleSendMessage, App.fetch] using hk.symm
  subst hf
  exact ⟨hd, store, resJson, hk, hran, rfl⟩

theorem showsLog_iff {s : Net} {u v contact : String} {es : List (Entry String)}
    {e : Entry String} (hv : s.store.holds u v (es ++ [e]))
    (hread : ∀ es, s.app.screen.messages = some es ↔ s.store.holds u contact es) :
    ShowsLog s u v e.message ↔ s.store.holds u contact (es ++ [e]) := by
  constructor
  · rintro ⟨es', hes, hholds, -⟩
    obtain rfl := holds_inj hholds hv
    exact (hread _).mp hes
  · intro hholds
    exact ⟨_, (hread _).mpr hholds, hv, e, List.getLast?_concat, rfl⟩

/-- A user whose own name is registered sends a message in MessageNew, which is answered
SUCCESS, and nothing else happens. Then the follow-up request is made, and when its answer is
handled the screen shows the log just written, if and only if messages was an array and the contact
has no white space around it, or there is another chat, with the contact as it was typed, whose
log is the same. -/
theorem refresh_reads_chat (rs : List (Request String × (Nat → Bool))) {s s1 : Net}
    {t : Int} {fails : Nat → Bool} (hs : s.store = Store.empty.serveAll toLowerCase rs)
    (hpage : s.app.page = .messageNew)
    (ha : SignUp.registers s.app.screen.username = some s.app.screen.username)
    (hc : Plain s.app.screen.contact.toList)
    (h1 : after (Net.step toLowerCase) s
      [.user .press, .serve s.app.fetches.length t fails] = some s1)
    (hok : s1.app.Succeeded s.app.fetches.length) (t' now now' : Int) :
    let x := s.app.screen
    (∃ s2, after (Net.step toLowerCase) s1 [.user (.handle s.app.fetches.length now),
        .serve (s.app.fetches.length + 1) t' noFault,
        .user (.handle (s.app.fetches.length + 1) now')] = some s2 ∧
      ShowsLog s2 x.username (trim x.contact) x.newMessage) ↔
    x.messages.isSome ∧ (trim x.contact = x.contact ∨
      s.store.holds x.username x.contact
        (s.store.conversation x.username (trim x.contact) ++ [⟨x.username, x.newMessage, t⟩])) := by
  intro x
  obtain ⟨hu, hune⟩ := plain_of_registers ha
  have hst : Structural s.store := hs ▸ structural_serveAll structural_empty rs
  obtain ⟨hd, store, resJson, hk, hran, rfl⟩ := press_serve toLowerCase h1
  have hcne : x.contact ≠ "" := by
    intro he
    simp [Screen.disabled, hpage, x, he] at hd
  have hlen : (s.app.handleSendMessage.setStage s.app.fetches.length
      (.handleSendMessage x.username x.contact x.newMessage)
      (.answered resJson)).fetches.length = s.app.fetches.length + 1 := by
    simp [App.setStage, App.handleSendMessage, App.fetch]
  cases hm : x.messages with
  | none =>
    refine iff_of_false ?_ fun h => Bool.noConfusion h.1
    rintro ⟨s2, h2, -⟩
    rw [no_follow_up toLowerCase hlen hok hm] at h2
    cases h2
  | some messages =>
    -- the POST was done
    obtain ⟨_, _, _, r, hr, hans⟩ := id hok
    cases (App.setStage_get hk _).symm.trans hans
    rw [hpage] at hran
    obtain ⟨hpair, hdone⟩ := execute_post toLowerCase hst hu hune hc hr hran
    obtain ⟨s2, h2, rfl, hread⟩ := follow_up toLowerCase
      (s := ⟨s.app.handleSendMessage.setStage s.app.fetches.length _ _, store⟩) hpage hlen hok hm
      hu hune hc hcne t' now now'
    have hwritten : s2.store.holds x.username (trim x.contact)
        (s.store.conversation x.username (trim x.contact) ++
          [⟨x.username, x.newMessage, t⟩]) := holds_of_conversation hdone.conversation (by simp)
    have hshows : ShowsLog s2 x.username (trim x.contact) x.newMessage ↔
        s2.store.holds x.username x.contact (s.store.conversation x.username (trim x.contact) ++
          [⟨x.username, x.newMessage, t⟩]) := showsLog_iff hwritten hread
    rw [h2]
    simp only [Option.some.injEq, exists_eq_left', hshows, Option.isSome_some, true_and]
    by_cases htrim : trim x.contact = x.contact
    · simp only [htrim, true_or, iff_true]
      exact htrim ▸ hwritten
    · have hne : s(x.username, x.contact) ≠ s(x.username, trim x.contact) :=
        fun he => htrim (Sym2.congr_right.mp he).symm
      rw [hpair.holds_iff hne]
      simp [htrim]

def twoUsers : Store String := ⟨[⟨"ann"⟩, ⟨"bob"⟩], [⟨"ann", []⟩, ⟨"bob", []⟩], [], []⟩

theorem twoUsers_reached : twoUsers =
    Store.empty.serveAll id [(.addNewUser "ann", noFault), (.addNewUser "bob", noFault)] := by
  decide

def written : Store String :=
  ⟨[⟨"ann"⟩, ⟨"bob"⟩], [⟨"ann", [⟨"bob", "hi", 5⟩]⟩, ⟨"bob", [⟨"ann", "hi", 5⟩]⟩],
    [⟨0, "ann", "bob"⟩], [⟨0, [⟨"ann", "hi", 5⟩]⟩]⟩

def newScreen (contact : String) : Net :=
  ⟨⟨.messageNew, ⟨"ann", contact, some [], "hi", false⟩, []⟩, twoUsers⟩

def posted (contact : String) : Net :=
  ⟨⟨.messageNew, ⟨"ann", contact, some [], "hi", false⟩,
      [(.handleSendMessage "ann" contact "hi", .answered (some .success))]⟩, written⟩

def refreshed (contact : String) (resJson : Response String) : Net :=
  ⟨⟨.messageNew, ⟨"ann", contact, resJson.messages?, "", false⟩,
      [(.handleSendMessage "ann" contact "hi", .handled), (.makeRequest "ann" contact, .handled)]⟩,
    written⟩

theorem after_post {contact : String} (hne : contact ≠ "") (hplain : Plain contact.toList)
    (htrim : trim contact = "bob") :
    after (Net.step id) (newScreen contact) [.user .press, .serve 0 5 noFault] =
      some (posted contact) := by
  have hpress : (newScreen contact).step id (.user .press) =
      some ⟨(newScreen contact).app.handleSendMessage, twoUsers⟩ := by
    simp [Net.step, Act.own, App.step, Screen.disabled, newScreen, hne]
  have hran : Store.execute id twoUsers noFault
      (((Fetch.handleSendMessage "ann" contact "hi").http .messageNew).receive 5) =
        (written, some .success) := by
    rw [receive_post (by decide) (by decide) (plain_trim hplain) (by rw [htrim]; decide), htrim]
    decide
  have hserve := step_serve (s := ⟨(newScreen contact).app.handleSendMessage, twoUsers⟩)
    (k := 0) (f := .handleSendMessage "ann" contact "hi") rfl hran
  rw [after_cons, hpress, Option.bind_some, after_cons, hserve]
  rfl

theorem after_refresh {contact : String} (hne : contact ≠ "") (hplain : Plain contact.toList)
    {resJson : Response String}
    (hget : Store.execute id written noFault (some (.getUserChatMessages "ann" contact)) =
      (written, some resJson)) :
    after (Net.step id) (posted contact)
      [.user (.handle 0 6), .serve 1 7 noFault, .user (.handle 1 8)] =
        some (refreshed contact resJson) := by
  have hran : Store.execute id written noFault
      (((Fetch.makeRequest "ann" contact).http .messageNew).receive 7) =
        (written, some resJson) := by
    rw [receive_messages (by decide) (by decide) hplain hne, hget]
  let app := ((posted contact).app.setStage 0 (.handleSendMessage "ann" contact "hi")
    .handled).appended [] 6
  have hhandle : (posted contact).step id (.user (.handle 0 6)) = some ⟨app, written⟩ := rfl
  have hserve := step_serve (s := ⟨app, written⟩) (k := 1) (f := .makeRequest "ann" contact)
    rfl hran
  rw [after_cons, hhandle, Option.bind_some, after_cons, hserve]
  rfl

theorem refresh_reads_chat_bob : ∃ s1 s2 : Net,
    after (Net.step id) (newScreen "bob") [.user .press, .serve 0 5 noFault] = some s1 ∧
      after (Net.step id) s1 [.user (.handle 0 6), .serve 1 7 noFault, .user (.handle 1 8)] =
        some s2 ∧ ShowsLog s2 "ann" "bob" "hi" := by
  have hplain : Plain "bob".toList := by decide
  have htrim : trim "bob" = "bob" := by decide
  have hann : SignUp.registers "ann" = some "ann" :=
    SignUp.registers_of_receive (receive_signUp (by decide) (by decide) (by decide) () 0)
  have h1 := after_post (by decide) hplain htrim
  have hsent : (posted "bob").app.Succeeded 0 := ⟨"ann", "bob", "hi", .success, rfl, rfl⟩
  obtain ⟨s2, h2, hshows⟩ := (refresh_reads_chat id
    [(.addNewUser "ann", noFault), (.addNewUser "bob", noFault)] (s := newScreen "bob")
    twoUsers_reached rfl hann hplain h1 hsent 7 6 8).mpr ⟨rfl, Or.inl htrim⟩
  rw [show trim (newScreen "bob").app.screen.contact = "bob" from htrim] at hshows
  exact ⟨_, s2, h1, h2, hshows⟩

/-- With a space after the contact the follow-up request finds no chat. -/
theorem refresh_loses_chat : ∃ s1 s2 : Net,
    after (Net.step id) (newScreen "bob ") [.user .press, .serve 0 5 noFault] = some s1 ∧
      s1.app.Succeeded 0 ∧
      after (Net.step id) s1 [.user (.handle 0 6), .serve 1 7 noFault, .user (.handle 1 8)] =
        some s2 ∧ s2.app.screen.messages = none ∧ ¬ ShowsLog s2 "ann" "bob" "hi" := by
  have hplain : Plain "bob ".toList := by decide
  have h1 := after_post (by decide) hplain (by decide)
  have h2 := after_refresh (by decide) hplain
    (show Store.execute id written noFault (some (.getUserChatMessages "ann" "bob ")) =
      (written, some (.error "DB_ERR")) by decide)
  refine ⟨posted "bob ", _, h1, ⟨"ann", "bob ", "hi", .success, rfl, rfl⟩, h2, rfl, ?_⟩
  rintro ⟨es, hes, -⟩
  cases hes

end ChatScreen
end RecoupChat
