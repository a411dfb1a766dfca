import RecoupChat.ContactField
import RecoupChat.MessageList

/-! Whose messages MessageNew shows: answers write into the list whatever the contact is by the
time they are handled. -/
namespace RecoupChat
open Transition Promise Router
variable {M : Type}

/-! What was read or written stays in the conversation. -/

theorem grows_serve [DecidableEq M] (toLowerCase : String → String) (s : Store M) (r : Request M)
    (fails : Nat → Bool) : Grows s (s.serve toLowerCase r fails).1 := by
  rw [Point.serve_eq_alone]
  obtain ⟨resp, -, h⟩ := Point.alone_invariant toLowerCase fails (I := fun _ s' => Grows s s')
    (fun p s' _ h => h.trans (grows_next p s')) (fun _ _ _ _ h => h) (p := .start r) (.refl s)
  exact h

theorem mem_conversation {s : Store M} {a b : String} {e : Entry M} :
    e ∈ s.conversation a b ↔ ∃ es, s.holds a b es ∧ e ∈ es := by
  simp only [holds_iff, Store.conversation]
  cases (s.chat a b).bind fun doc => s.log doc.chatId <;> simp

theorem Grows.conversation {s s' : Store M} (h : Grows s s') {a b : String} {e : Entry M}
    (he : e ∈ s.conversation a b) : e ∈ s'.conversation a b := by
  obtain ⟨es, hes, hm⟩ := mem_conversation.mp he
  obtain ⟨es', hes', hp⟩ := h.holds hes
  exact mem_conversation.mpr ⟨es', hes', hp.subset hm⟩

theorem conversation_of_pair (s : Store M) {a b a' b' : String} (hp : s(a', b') = s(a, b)) :
    s.conversation a' b' = s.conversation a b := by
  rw [Store.conversation, Store.conversation, chat_of_pair s hp]

/-- What the answer to a request tells about the conversations in the store: the messages read
are in one, and so is the message sent. -/
def Store.Records (s : Store M) : Request M → Response M → Prop
  | .getUserChatMessages owner recipient, resJson =>
    ∀ es, resJson.messages? = some es → ∀ e ∈ es, e ∈ s.conversation owner recipient
  | .sendNewMessage d, resJson =>
    resJson.status = .SUCCESS → d.entry ∈ s.conversation d.sentBy d.sentTo
  | _, _ => True

theorem Grows.records {s s' : Store M} (h : Grows s s') {r : Request M} {resJson : Response M}
    (hr : s.Records r resJson) : s'.Records r resJson := by
  cases r with
  | getUserChatMessages owner recipient =>
    exact fun es hes e he => h.conversation (hr es hes e he)
  | sendNewMessage d => exact fun hok => h.conversation (hr hok)
  | _ => trivial

theorem records_serve [DecidableEq M] (toLowerCase : String → String) {s s' : Store M}
    (hs : Structural s) {r : Request M} {fails : Nat → Bool} {resJson : Response M}
    (h : s.serve toLowerCase r fails = (s', [resJson])) : s'.Records r resJson := by
  cases r with
  | getUserChatMessages owner recipient =>
    intro es hes e he
    have hok : resJson.status = .SUCCESS := by
      cases resJson <;> first | rfl | cases hes
    have hsame : s.serve toLowerCase (.getUserChatMessages owner recipient) fails =
        s.serve toLowerCase (.getUserChatMessages owner recipient) noFault := by
      rw [Point.serve_eq_alone] at h ⊢
      rw [Point.serve_eq_alone]
      exact Point.alone_of_success toLowerCase (congrArg Prod.snd h) hok
    rw [hsame, serve_getUserChatMessages] at h
    obtain ⟨rfl, hresp⟩ := Prod.mk.inj h
    cases hl : (s.chat owner recipient).bind fun doc => s.log doc.chatId with
    | none =>
      rw [hl] at hresp
      obtain rfl := List.singleton_inj.mp hresp
      cases hes
    | some es' =>
      rw [hl] at hresp
      obtain rfl := List.singleton_inj.mp hresp
      obtain rfl := Option.some.inj hes
      exact mem_conversation.mpr ⟨es', holds_iff.mpr hl, he⟩
  | sendNewMessage d =>
    intro hok
    rw [(allDone_serve toLowerCase hs rfl h hok).conversation]
    exact List.mem_append_right _ (List.mem_singleton_self _)
  | _ => trivial

namespace ChatScreen

def Fetch.Reads (f : Fetch) (page : Page) (u v : String) : Prop :=
  ∀ t r, (f.http page).receive t = some r →
    ∃ owner recipient, r = .getUserChatMessages owner recipient ∧ s(owner, recipient) = s(u, v)

def Fetch.Sends (f : Fetch) (page : Page) (u v m : String) : Prop :=
  ∀ t r, (f.http page).receive t = some r → r = .sendNewMessage ⟨u, v, m, t⟩

def Belongs (s : Store String) (u v : String) (e : Entry String) : Prop :=
  ∃ e' ∈ s.conversation u v, e'.sentBy = e.sentBy ∧ e'.message = e.message

/-- Every entry that is shown belongs to the conversation with the trimmed contact. -/
def OnlyContact (s : Net) : Prop :=
  ∀ messages, s.app.screen.messages = some messages →
    ∀ e ∈ messages, Belongs s.store s.app.screen.username (trim s.app.screen.contact) e

/-- When a step keeps to the contact. The contact is edited only while no message is shown, or
to the same trimmed value; messages are received only for the contact as it is then, and a
SUCCESS answer is handled only if its message went to that contact and is still the draft. -/
def KeepsContact (s : Net) : NetAct → Prop
  | .user (.onContact contact) =>
    (∀ messages, s.app.screen.messages = some messages → messages = []) ∨
      trim contact = trim s.app.screen.contact
  | .user (.handle k _) =>
    (∀ u v resJson e es, s.app.fetches[k]? = some (.makeRequest u v, .answered (some resJson)) →
      resJson.messages? = some (e :: es) →
      (Fetch.makeRequest u v).Reads s.app.page s.app.screen.username (trim s.app.screen.contact)) ∧
    (∀ u v m resJson,
      s.app.fetches[k]? = some (.handleSendMessage u v m, .answered (some resJson)) →
      resJson.status = .SUCCESS → s.app.screen.messages.isSome →
      (Fetch.handleSendMessage u v m).Sends s.app.page s.app.screen.username
        (trim s.app.screen.contact) s.app.screen.newMessage)
  | _ => True

structure Tracks (s : Net) : Prop where
  structural : Structural s.store
  recorded : ∀ (k : Nat) (f : Fetch) (resJson : Response String),
    s.app.fetches[k]? = some (f, .answered (some resJson)) →
      ∃ t r, (f.http s.app.page).receive t = some r ∧ s.store.Records r resJson
  shown : OnlyContact s

theorem reads_iff {u c v : String} (hu : Plain u.toList) (hune : u ≠ "") (hc : Plain c.toList)
    (hcne : c ≠ "") (page : Page) : (Fetch.makeRequest u c).Reads page u v ↔ c = v := by
  constructor
  · intro h
    obtain ⟨owner, recipient, he, hp⟩ := h 0 _ (receive_messages hu hune hc hcne page 0)
    cases he
    exact Sym2.congr_right.mp hp
  · rintro rfl t r hr
    rw [receive_messages hu hune hc hcne] at hr
    exact ⟨u, c, (Option.some.inj hr).symm, rfl⟩

theorem sends_iff {u c v m m' : String} (hu : Plain u.toList) (hune : u ≠ "")
    (hc : Plain c.toList) (hcne : trim c ≠ "") :
    (Fetch.handleSendMessage u c m).Sends .messageNew u v m' ↔ trim c = v ∧ m = m' := by
  have hr (t : Int) := receive_post hu hune (plain_trim hc) hcne m t
  constructor
  · intro h
    have hsame := h 0 _ (hr 0)
    simp only [Request.sendNewMessage.injEq, Send.mk.injEq, true_and, and_true] at hsame
    exact hsame
  · rintro ⟨rfl, rfl⟩ t r hr'
    rw [hr] at hr'
    exact (Option.some.inj hr').symm

/-! A step of the screen answers no request. -/

theorem answered_fetch {s : App} {f f' : Fetch} {k : Nat} {resJson : Option (Response String)}
    (h : (s.fetch f').fetches[k]? = some (f, .answered resJson)) :
    s.fetches[k]? = some (f, .answered resJson) := by
  rw [App.fetch, List.getElem?_append] at h
  split at h
  · exact h
  · have hm := List.mem_of_getElem? h
    simp at hm

theorem answered_handled {s : App} {f f' : Fetch} {j k : Nat} {resJson : Option (Response String)}
    (h : (s.setStage j f' .handled).fetches[k]? = some (f, .answered resJson)) :
    s.fetches[k]? = some (f, .answered resJson) := by
  rw [App.setStage, List.getElem?_set] at h
  split at h
  · split at h <;> simp at h
  · exact h

theorem answered_sent {s : App} {f : Fetch} {k : Nat} {now : Int}
    {resJson resJson' : Option (Response String)}
    (h : (s.sent now resJson').fetches[k]? = some (f, .answered resJson)) :
    s.fetches[k]? = some (f, .answered resJson) := by
  cases hx : resJson' with
  | none =>
    rw [hx] at h
    exact h
  | some r =>
    rw [hx, App.sent] at h
    split at h
    · split at h
      · exact h
      · rw [App.appended] at h
        simp only at h
        split at h
        · exact h
        · exact answered_fetch h
    · exact h

theorem answered_own {s s' : App} {a : Act} (ho : a.own = true) (h : s.step a = some s')
    {k : Nat} {f : Fetch} {resJson : Option (Response String)}
    (hk : s'.fetches[k]? = some (f, .answered resJson)) :
    s.fetches[k]? = some (f, .answered resJson) := by
  cases App.steps h with
  | onNewMessage newMessage => exact hk
  | onFocus hp => exact hk
  | onContact contact hp => exact hk
  | press hd => exact answered_fetch hk
  | refresh => exact answered_fetch hk
  | answer j f' resJson' hj => cases ho
  | handle j f' resJson' now hj =>
    cases f' with
    | makeRequest u v => cases resJson' <;> exact answered_handled hk
    | handleSendMessage u v m => exact answered_handled (answered_sent hk)

theorem Belongs.grows {s s' : Store String} (h : Grows s s') {u v : String} {e : Entry String}
    (he : Belongs s u v e) : Belongs s' u v e := by
  obtain ⟨e', hm, hsame⟩ := he
  exact ⟨e', h.conversation hm, hsame⟩

theorem received_own {s : Net} (hI : Tracks s) {k : Nat} {u v : String}
    {resJson : Option (Response String)}
    (hf : s.app.fetches[k]? = some (.makeRequest u v, .answered resJson))
    (hreads : ∀ r e es, resJson = some r → r.messages? = some (e :: es) →
      (Fetch.makeRequest u v).Reads s.app.page s.app.screen.username
        (trim s.app.screen.contact)) :
    OnlyContact { s with app := (s.app.setStage k (.makeRequest u v) .handled).received resJson } := by
  cases resJson with
  | none => exact hI.shown
  | some r =>
    intro messages hm e he
    obtain ⟨t, x, hx, hrec⟩ := hI.recorded k _ r hf
    cases messages with
    | nil => cases he
    | cons e0 es =>
      obtain ⟨owner, recipient, rfl, hpair⟩ := hreads r e0 es rfl hm t x hx
      have hmem := hrec _ hm e he
      rw [conversation_of_pair s.store hpair] at hmem
      exact ⟨e, hmem, rfl, rfl⟩

theorem sent_own {s : Net} (hI : Tracks s) {k : Nat} {u v m : String} {now : Int}
    {resJson : Option (Response String)}
    (hf : s.app.fetches[k]? = some (.handleSendMessage u v m, .answered resJson))
    (hsends : ∀ r, resJson = some r → r.status = .SUCCESS → s.app.screen.messages.isSome →
      (Fetch.handleSendMessage u v m).Sends s.app.page s.app.screen.username
        (trim s.app.screen.contact) s.app.screen.newMessage) :
    OnlyContact { s with
      app := (s.app.setStage k (.handleSendMessage u v m) .handled).sent now resJson } := by
  by_cases hok : ∃ r, resJson = some r ∧ r.status = .SUCCESS
  · obtain ⟨r, rfl, hok⟩ := hok
    cases hm : s.app.screen.messages with
    | none =>
      rw [App.sent_undefined (s := s.app.setStage k _ .handled) hm]
      exact hI.shown
    | some messages =>
      rw [App.sent_of_list (s := s.app.setStage k _ .handled) hok hm]
      obtain ⟨t, x, hx, hrec⟩ := hI.recorded k _ r hf
      obtain rfl := hsends r rfl hok (by rw [hm]; rfl) t x hx
      intro messages' hm' e he
      simp only [App.appended_screen, Screen.append, Option.some.injEq] at hm'
      subst hm'
      simp only [App.appended_screen, Screen.append]
      cases List.mem_append.mp he with
      | inl he => exact hI.shown messages hm e he
      | inr he =>
        obtain rfl := List.mem_singleton.mp he
        exact ⟨_, hrec hok, rfl, rfl⟩
  · rw [App.sent_of_not fun r hr hrs => hok ⟨r, hr, hrs⟩]
    exact hI.shown

theorem shown_own {s : Net} {app : App} {a : Act} (hI : Tracks s) (ho : a.own = true)
    (hk : KeepsContact s (.user a)) (h : s.app.step a = some app) :
    OnlyContact { s with app } := by
  cases App.steps h with
  | onNewMessage newMessage => exact hI.shown
  | onFocus hp =>
    intro messages hm e he
    obtain rfl := Option.some.inj hm
    cases he
  | onContact contact hp =>
    intro messages hm e he
    cases hk with
    | inl hnone =>
      rw [hnone messages hm] at he
      cases he
    | inr hsame =>
      rw [show trim _ = trim s.app.screen.contact from hsame]
      exact hI.shown messages hm e he
  | press hd => exact hI.shown
  | refresh => exact hI.shown
  | answer j f resJson hj => cases ho
  | handle k f resJson now hf =>
    obtain ⟨hreads, hsends⟩ := hk
    cases f with
    | makeRequest u v =>
      apply received_own hI hf
      rintro r e es rfl
      exact hreads u v r e es hf
    | handleSendMessage u v m =>
      apply sent_own hI hf
      rintro r rfl
      exact hsends u v m r hf

theorem execute_cases {toLowerCase : String → String} {s s' : Store String} {fails : Nat → Bool}
    {x : Option (Request String)} {resJson : Option (Response String)}
    (h : Store.execute toLowerCase s fails x = (s', resJson)) :
    (s' = s ∧ resJson = none) ∨ ∃ r resp, x = some r ∧ resJson = some resp ∧
      s.serve toLowerCase r fails = (s', [resp]) := by
  cases x with
  | none =>
    obtain ⟨rfl, rfl⟩ := Prod.mk.inj h
    exact Or.inl ⟨rfl, rfl⟩
  | some r =>
    obtain ⟨resp, hresp, -⟩ := Point.alone_invariant toLowerCase fails (I := fun _ _ => True)
      (fun _ _ _ _ => trivial) (fun _ _ _ _ _ => trivial) (p := .start r) (s := s) trivial
    rw [← Point.serve_eq_alone] at hresp
    obtain ⟨rfl, hj⟩ := Prod.mk.inj h
    rw [hresp] at hj
    exact Or.inr ⟨r, resp, rfl, hj.symm, Prod.ext rfl hresp⟩

theorem answered_setStage {s : App} {f f' : Fetch} {j k : Nat}
    {resJson resJson' : Option (Response String)}
    (h : (s.setStage j f' (.answered resJson')).fetches[k]? = some (f, .answered resJson)) :
    (f = f' ∧ resJson = resJson') ∨ s.fetches[k]? = some (f, .answered resJson) := by
  rw [App.setStage, List.getElem?_set] at h
  split at h
  · split at h
    · cases h
      exact Or.inl ⟨rfl, rfl⟩
    · cases h
  · exact Or.inr h

theorem Tracks.grow {s : Net} (h : Tracks s) {store : Store String} (hs : Structural store)
    (hg : Grows s.store store) {k : Nat} {f : Fetch} {resJson : Option (Response String)}
    (hr : ∀ r, resJson = some r →
      ∃ t x, (f.http s.app.page).receive t = some x ∧ store.Records x r) :
    Tracks ⟨s.app.setStage k f (.answered resJson), store⟩ where
  structural := hs
  recorded j f' r hj := by
    cases answered_setStage hj with
    | inl hsame =>
      obtain ⟨rfl, hres⟩ := hsame
      exact hr r hres.symm
    | inr hold =>
      obtain ⟨t, x, hx, hrec⟩ := h.recorded j f' r hold
      exact ⟨t, x, hx, hg.records hrec⟩
  shown messages hm e he := (h.shown messages hm e he).grows hg

theorem tracks_step {toLowerCase : String → String} {s s' : Net} {a : NetAct} (h : Tracks s)
    (hk : KeepsContact s a) (hs : s.step toLowerCase a = some s') : Tracks s' := by
  cases netSteps hs with
  | user a app ho ha =>
    refine ⟨h.structural, ?_, shown_own h ho hk ha⟩
    intro j f r hj
    obtain ⟨t, x, hx, hrec⟩ := h.recorded j f r (answered_own ho ha hj)
    exact ⟨t, x, by rw [(asked_step ha).2]; exact hx, hrec⟩
  | serve k f timeNow fails store resJson hf hran =>
    cases execute_cases hran with
    | inl hnone =>
      obtain ⟨rfl, rfl⟩ := hnone
      exact h.grow h.structural (.refl _) (fun r hr => by cases hr)
    | inr hsome =>
      obtain ⟨x, resp, hx, rfl, hserve⟩ := hsome
      have hst : Structural store := by
        have hall : Structural (s.store.serve toLowerCase x fails).1 :=
          structural_serve h.structural x fails
        rwa [hserve] at hall
      have hg : Grows s.store store := by
        have hall := grows_serve toLowerCase s.store x fails
        rwa [hserve] at hall
      refine h.grow hst hg ?_
      rintro r ⟨⟩
      exact ⟨timeNow, x, hx, records_serve toLowerCase h.structural hserve⟩
  | fail k f hf => exact h.grow h.structural (.refl _) (fun r hr => by cases hr)
  | others r fails =>
    have hg := grows_serve toLowerCase s.store r fails
    refine ⟨structural_serve h.structural r fails, ?_, ?_⟩
    · intro j f resJson hj
      obtain ⟨t, x, hx, hrec⟩ := h.recorded j f resJson hj
      exact ⟨t, x, hx, hg.records hrec⟩
    · exact fun messages hm e he => (h.shown messages hm e he).grows hg

/-- The screen as it is mounted, with any store that the server can have reached. -/
def Net.mount (toLowerCase : String → String) (rs : List (Request String × (Nat → Bool)))
    (username contact : String) (page : Page) : Net :=
  ⟨App.mount username contact page, Store.empty.serveAll toLowerCase rs⟩

theorem tracks_mount (toLowerCase : String → String) (rs : List (Request String × (Nat → Bool)))
    (username : String) : Tracks (Net.mount toLowerCase rs username "" .messageNew) where
  structural := structural_serveAll structural_empty rs
  recorded k f resJson hk := by simp [Net.mount, App.mount] at hk
  shown messages hm e he := by
    obtain rfl : [] = messages := Option.some.inj hm
    cases he

/-- In every run of MessageNew with the server, other clients and failing calls, whose steps all
keep to the contact, every entry that is shown belongs to the conversation of the user with the
trimmed contact. -/
theorem only_contact (toLowerCase : String → String) (rs : List (Request String × (Nat → Bool)))
    (username : String) {s : Net}
    (hr : Run (Net.step toLowerCase) KeepsContact
      (Net.mount toLowerCase rs username "" .messageNew) s) : OnlyContact s := by
  have hI : Tracks s := hr.invariant (tracks_mount toLowerCase rs username)
    fun _ _ _ hI hk hs => tracks_step hI hk hs
  exact hI.shown

def joinBoth : List (Request String × (Nat → Bool)) :=
  [(.addNewUser "ann", noFault), (.addNewUser "bob", noFault)]

theorem mount_drafted : after (Net.step id) (Net.mount id joinBoth "ann" "" .messageNew)
    [.user .onFocus, .user (.onContact "bob"), .user (.onNewMessage "hi")] =
      some (newScreen "bob") := by
  rw [newScreen, twoUsers_reached]
  rfl

/-- The POST of "ann" to "bob" is answered while nothing else changes. -/
theorem only_contact_bob : ∃ s, Run (Net.step id) KeepsContact
    (Net.mount id joinBoth "ann" "" .messageNew) s ∧
      s.app.screen.messages = some [⟨"ann", "hi", 6⟩] ∧ OnlyContact s := by
  have hplain : Plain "bob".toList := by decide
  have htrim : trim "bob" ≠ "" := by decide
  have hdraft : Run (Net.step id) KeepsContact (Net.mount id joinBoth "ann" "" .messageNew)
      (newScreen "bob") := by
    refine Run.of_after mount_drafted ?_
    refine fun s hs => ⟨trivial, fun s' _ => ⟨Or.inl ?_, fun _ _ => ⟨trivial, trivial⟩⟩⟩
    intro messages hm
    obtain rfl := Option.some.inj hs
    exact (Option.some.inj hm).symm
  have hsent : Run (Net.step id) KeepsContact (newScreen "bob") (posted "bob") :=
    Run.of_after (after_post (by decide) hplain (by decide))
      fun _ _ => ⟨trivial, fun _ _ => ⟨trivial, trivial⟩⟩
  have hkeeps : KeepsContact (posted "bob") (.user (.handle 0 6)) := by
    constructor
    · intro u v r e es hf
      cases hf
    · intro u v m r hf _ _
      cases hf
      exact (sends_iff (by decide) (by decide) hplain htrim).mpr ⟨rfl, rfl⟩
  have hrun := (hdraft.trans hsent).tail hkeeps rfl
  exact ⟨_, hrun, rfl, only_contact id joinBoth "ann" hrun⟩

/-- The contact is changed while a send is under way: the message to "bob" is shown as one to
"cat". -/
theorem wrong_contact : ∃ s : Net,
    after (Net.step id) (Net.mount id joinBoth "ann" "" .messageNew)
      ([.user .onFocus, .user (.onContact "bob"), .user (.onNewMessage "hi")] ++
        ([.user .press, .serve 0 5 noFault] ++
          [.user .onFocus, .user (.onContact "cat"), .user (.handle 0 6)])) = some s ∧
    s.app.screen.contact = "cat" ∧ s.app.screen.messages = some [⟨"ann", "hi", 6⟩] ∧
    ¬ OnlyContact s := by
  have hpost : after (Net.step id) (newScreen "bob") _ = some _ :=
    after_post (by decide) (by decide) (by decide)
  rw [after_append mount_drafted, after_append hpost]
  refine ⟨_, rfl, rfl, rfl, fun h => ?_⟩
  obtain ⟨e, he, -⟩ := h _ rfl ⟨"ann", "hi", 6⟩ (List.mem_singleton_self _)
  have hcat : e ∈ written.conversation "ann" (trim "cat") := he
  have hnone : written.conversation "ann" (trim "cat") = [] := by decide
  rw [hnone] at hcat
  cases hcat

end ChatScreen
end RecoupChat
