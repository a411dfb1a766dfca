import RecoupChat.ChatScreen
import RecoupChat.Refinement

/-! The list that a chat screen shows, and what a send that succeeds adds to it. -/
namespace RecoupChat
open Transition Promise
namespace ChatScreen
namespace App

theorem sent_fetches (s : App) (now : Int) (resJson : Option (Response String)) :
    ∃ fs, (s.sent now resJson).fetches = s.fetches ++ fs := by
  fun_cases sent s now resJson with
  | case3 resJson hs messages hm =>
    simp only [appended]
    split
    · exact ⟨[], (List.append_nil _).symm⟩
    · exact ⟨_, rfl⟩
  | _ => exact ⟨[], (List.append_nil _).symm⟩

theorem handle_succeeded {s s' : App} {k : Nat} {now : Int} (hk : s.Succeeded k)
    (h : s.step (.handle k now) = some s') :
    s'.screen = match s.screen.messages with
      | none => s.screen
      | some messages => s.screen.append messages now := by
  obtain ⟨username, contact, newMessage, resJson, hs, hf⟩ := hk
  cases steps h with
  | handle _ f res _ hf' =>
    obtain ⟨rfl, hres⟩ := Prod.mk.inj (Option.some.inj (hf.symm.trans hf'))
    obtain rfl := Stage.answered.inj hres
    cases hm : s.screen.messages with
    | none =>
      rw [receive, sent_undefined (s := s.setStage k _ .handled) hm]
      rfl
    | some messages =>
      rw [receive, sent_of_list (s := s.setStage k _ .handled) hs hm, appended_screen]
      rfl

end App

/-! The names of the screen and of its requests. -/

def App.asked (s : App) : List Fetch := s.fetches.map (·.1)

theorem asked_of_get {s : App} {k : Nat} {f : Fetch} {stage : Stage}
    (hk : s.fetches[k]? = some (f, stage)) : s.asked[k]? = some f := by
  rw [App.asked, List.getElem?_map, hk]
  rfl

theorem asked_setStage {s : App} {k : Nat} {f : Fetch} {stage : Stage}
    (hk : s.fetches[k]? = some (f, stage)) (stage' : Stage) :
    (s.setStage k f stage').asked = s.asked := by
  obtain ⟨hlt, hget⟩ := List.getElem?_eq_some_iff.mp (asked_of_get hk)
  rw [App.asked, App.setStage, List.map_set]
  exact hget ▸ List.set_getElem_self hlt

theorem asked_fetch (s : App) (f : Fetch) : (s.fetch f).asked = s.asked ++ [f] := by
  rw [App.asked, App.fetch, List.map_append]
  rfl

def Fetch.names : Fetch → String × String
  | .makeRequest username contact | .handleSendMessage username contact _ => (username, contact)

structure App.Names (s s' : App) : Prop where
  page : s'.page = s.page
  username : s'.screen.username = s.screen.username
  contact : s.page = .message → s'.screen.contact = s.screen.contact
  asked : ∀ f ∈ s'.asked, f ∈ s.asked ∨ f.names = (s.screen.username, s.screen.contact)

theorem names_same {s s' : App} (hp : s'.page = s.page)
    (hu : s'.screen.username = s.screen.username) (hc : s'.screen.contact = s.screen.contact)
    (hf : s'.asked = s.asked) : s.Names s' :=
  ⟨hp, hu, fun _ => hc, fun _ hm => Or.inl (hf ▸ hm)⟩

theorem names_fetch {s s' : App} {f : Fetch} (hp : s'.page = s.page)
    (hu : s'.screen.username = s.screen.username) (hc : s'.screen.contact = s.screen.contact)
    (hfetch : s'.asked = s.asked ++ [f]) (hf : f.names = (s.screen.username, s.screen.contact)) :
    s.Names s' := by
  refine ⟨hp, hu, fun _ => hc, fun g hg => ?_⟩
  rw [hfetch] at hg
  cases List.mem_append.mp hg with
  | inl hg => exact Or.inl hg
  | inr hg =>
    obtain rfl := List.mem_singleton.mp hg
    exact Or.inr hf

theorem names_sent (s : App) (now : Int) (resJson : Option (Response String)) :
    s.Names (s.sent now resJson) := by
  fun_cases App.sent s now resJson with
  | case3 resJson hs messages hm =>
    simp only [App.appended]
    split
    · exact names_same rfl rfl rfl rfl
    · exact names_fetch rfl rfl rfl (asked_fetch _ _) rfl
  | _ => exact names_same rfl rfl rfl rfl

theorem names_step {s s' : App} {a : Act} (ha : s.step a = some s') : s.Names s' := by
  cases App.steps ha with
  | onNewMessage newMessage => exact names_same rfl rfl rfl rfl
  | onFocus hp => exact names_same rfl rfl rfl rfl
  | onContact contact hp =>
    exact ⟨rfl, rfl, fun hm => absurd (hp.symm.trans hm) Page.noConfusion, fun _ hf => Or.inl hf⟩
  | press hd => exact names_fetch rfl rfl rfl (asked_fetch s _) rfl
  | refresh => exact names_fetch rfl rfl rfl (asked_fetch _ _) rfl
  | answer k f resJson hk => exact names_same rfl rfl rfl (asked_setStage hk _)
  | handle k f resJson now hk =>
    have hset := asked_setStage hk .handled
    cases f with
    | makeRequest u v => cases resJson <;> exact names_same rfl rfl rfl hset
    | handleSendMessage u v m =>
      have hsent := names_sent (s.setStage k (.handleSendMessage u v m) .handled) now resJson
      exact ⟨hsent.page, hsent.username, hsent.contact, hset ▸ hsent.asked⟩

def App.OwnRequests (s : App) : Prop := ∀ f ∈ s.asked, f.names.1 = s.screen.username

theorem ownRequests_mount (username contact : String) (page : Page) :
    (App.mount username contact page).OwnRequests := by
  intro f hf
  cases page with
  | message =>
    obtain rfl := List.mem_singleton.mp hf
    rfl
  | messageNew => cases hf

theorem App.OwnRequests.names {s s' : App} (h : s.OwnRequests) (hn : s.Names s') :
    s'.OwnRequests := by
  intro f hf
  rw [hn.username]
  cases hn.asked f hf with
  | inl hold => exact h f hold
  | inr hnew => exact congrArg Prod.fst hnew

/-! The list stays a list. -/

def App.SentOf (s : App) (k : Nat) (username contact newMessage : String) : Prop :=
  ∃ resJson, resJson.status = .SUCCESS ∧
    s.fetches[k]? = some (.handleSendMessage username contact newMessage, .answered (some resJson))

/-- After the step `messages` is an array, and if the step handles the SUCCESS answer to a
send it appends the entry that was sent and clears the draft. -/
structure Listed (s : App) (a : Act) (s' : App) : Prop where
  list : s'.screen.messages.isSome
  appends : ∀ k now username contact newMessage, a = .handle k now →
    s.SentOf k username contact newMessage →
      ∃ messages, s.screen.messages = some messages ∧
        s'.screen.messages = some (messages ++ [⟨username, newMessage, now⟩]) ∧
        s'.screen.newMessage = ""

/-- An answer to `makeRequest` that the step handles has messages. -/
def App.Lists (s : App) (a : Act) : Prop :=
  ∀ k now username contact resJson, a = .handle k now →
    s.fetches[k]? = some (.makeRequest username contact, .answered (some resJson)) →
    resJson.messages?.isSome

theorem isSome_sent {s : App} (h : s.screen.messages.isSome) (now : Int)
    (resJson : Option (Response String)) : (s.sent now resJson).screen.messages.isSome := by
  obtain ⟨messages, hm⟩ := Option.isSome_iff_exists.mp h
  by_cases hs : ∃ r, resJson = some r ∧ r.status = .SUCCESS
  · obtain ⟨r, rfl, hs⟩ := hs
    simp [App.sent_of_list hs hm, Screen.append]
  · rw [App.sent_of_not fun r hr hrs => hs ⟨r, hr, hrs⟩]
    exact h

/-- A step keeps the list unless it stores the messages of an answer that has none. -/
theorem isSome_step {s s' : App} {a : Act} (hI : s.screen.messages.isSome)
    (h : s.step a = some s') : s'.screen.messages.isSome ↔ s.Lists a := by
  have hother (hno : ∀ k now, a ≠ .handle k now) : s.Lists a :=
    fun k now _ _ _ ha => absurd ha (hno k now)
  cases App.steps h with
  | onNewMessage newMessage => exact iff_of_true hI (hother fun _ _ => Act.noConfusion)
  | onFocus hp => exact iff_of_true rfl (hother fun _ _ => Act.noConfusion)
  | onContact contact hp => exact iff_of_true hI (hother fun _ _ => Act.noConfusion)
  | press hd => exact iff_of_true hI (hother fun _ _ => Act.noConfusion)
  | refresh => exact iff_of_true hI (hother fun _ _ => Act.noConfusion)
  | answer k f resJson hk => exact iff_of_true hI (hother fun _ _ => Act.noConfusion)
  | handle k f resJson now hk =>
    cases f with
    | handleSendMessage username contact newMessage =>
      refine iff_of_true (isSome_sent (s := s.setStage k _ .handled) hI now resJson) ?_
      rintro _ _ _ _ _ ⟨⟩ hk'
      cases hk.symm.trans hk'
    | makeRequest username contact =>
      cases resJson with
      | none =>
        refine iff_of_true hI ?_
        rintro _ _ _ _ _ ⟨⟩ hk'
        cases hk.symm.trans hk'
      | some r =>
        constructor
        · rintro hr _ _ _ _ r' ⟨⟩ hk'
          cases hk.symm.trans hk'
          exact hr
        · exact fun hl => hl k now username contact r rfl hk

/-- Where the step handles a SUCCESS answer to a send, the draft is the text that was sent. -/
def App.DraftKept (s : App) (a : Act) : Prop :=
  ∀ k now username contact newMessage, a = .handle k now →
    s.SentOf k username contact newMessage → s.screen.newMessage = newMessage

theorem appends_iff {s s' : App} {k : Nat} {now : Int} {username contact newMessage : String}
    {messages : List (Entry String)} (hown : s.OwnRequests) (hm : s.screen.messages = some messages)
    (hsent : s.SentOf k username contact newMessage) (h : s.step (.handle k now) = some s') :
    s'.screen.messages = some (messages ++ [⟨username, newMessage, now⟩]) ∧
        s'.screen.newMessage = "" ↔ s.screen.newMessage = newMessage := by
  obtain ⟨resJson, hs, hk⟩ := hsent
  have hx := App.handle_succeeded ⟨_, _, _, _, hs, hk⟩ h
  rw [hm] at hx
  have hasked : Fetch.handleSendMessage username contact newMessage ∈ s.asked :=
    List.mem_of_getElem? (asked_of_get hk)
  obtain rfl : username = s.screen.username := hown _ hasked
  simp [hx, Screen.append]

theorem listed_step {s s' : App} {a : Act} (hI : s.screen.messages.isSome) (hown : s.OwnRequests)
    (h : s.step a = some s') : Listed s a s' ↔ s.Lists a ∧ s.DraftKept a := by
  obtain ⟨messages, hm⟩ := Option.isSome_iff_exists.mp hI
  constructor
  · intro hl
    refine ⟨(isSome_step hI h).mp hl.list, ?_⟩
    rintro k now username contact newMessage rfl hsent
    obtain ⟨messages', hm', happ⟩ := hl.appends k now username contact newMessage rfl hsent
    obtain rfl := Option.some.inj (hm.symm.trans hm')
    exact (appends_iff hown hm hsent h).mp happ
  · rintro ⟨hl, hd⟩
    refine ⟨(isSome_step hI h).mpr hl, ?_⟩
    rintro k now username contact newMessage rfl hsent
    have hdraft := hd k now username contact newMessage rfl hsent
    exact ⟨messages, hm, (appends_iff hown hm hsent h).mpr hdraft⟩

/-- Along a run the list stays a list, and every send that succeeds appends its entry, exactly if
each answer to `makeRequest` that the run handles has messages, and each SUCCESS answer to a send
finds the draft as it was sent. -/
theorem messages_listed (username contact : String) (page : Page) (as : List Act) :
    Along App.step Listed (App.mount username contact page) as ↔
      Along App.step (fun s a _ => s.Lists a ∧ s.DraftKept a)
        (App.mount username contact page) as := by
  refine along_iff (I := fun s => s.screen.messages.isSome ∧ s.OwnRequests) as ?_ ?_ ?_
  · rw [App.mount_screen]
    exact ⟨rfl, ownRequests_mount username contact page⟩
  · exact fun s a s' hI hs => listed_step hI.1 hI.2 hs
  · exact fun s a s' hI hs h => ⟨(isSome_step hI.1 hs).mpr h.1, hI.2.names (names_step hs)⟩

def listLost : List Act :=
  [.answer 0 (some (.error "DB_ERR")), .handle 0 3, .onNewMessage "hi", .press,
    .answer 1 (some (.sent "bob")), .handle 1 4]

/-- The answer to the send then throws: nothing is appended and the draft stays. -/
theorem list_lost :
    ((Store.empty.serveEach id annAndBob).serve id (.getUserChatMessages "ann" "bob")
        (failAt 0)).2 = [.error "DB_ERR"] ∧
      ((Store.empty.serveEach id annAndBob).serve id (.sendMessage ⟨"ann", "bob", "hi", 3⟩)
        noFault).2 = [.sent "bob"] ∧
      (after App.step (App.mount "ann" "bob" .message) listLost).map (·.screen) =
        some ⟨"ann", "bob", none, "hi", false⟩ ∧
      ¬ Along App.step Listed (App.mount "ann" "bob" .message) listLost := by
  refine ⟨by decide, by decide, by decide, fun h => ?_⟩
  have hlist := (h _ rfl).2 _ rfl
  exact absurd hlist.1.list (by decide)

/-! What is shown as sent. -/

def Act.typed? : Act → Option String
  | .onNewMessage newMessage => some newMessage
  | _ => none

/-- The step edits the draft, or clears it. -/
def App.Rewrites (s : App) : Act → Prop
  | .onNewMessage _ => True
  | .handle k _ => s.Succeeded k ∧ s.screen.messages.isSome
  | _ => False

/-- The step from `s` to `s'` handles the answer to `f`, after the actions `as`: the entry it
appends has the text of the request, and the text typed last is still the draft. -/
structure Faithful (f : Fetch) (as : List Act) (s s' : App) : Prop where
  entry : ∀ messages, s.screen.messages = some messages →
    ∃ e, s'.screen.messages = some (messages ++ [e]) ∧ e.message = (f.http s.page).message
  typed : ∀ text, (as.filterMap Act.typed?).getLast? = some text → s'.screen.newMessage = text

theorem received_newMessage (s : App) (resJson : Option (Response String)) :
    (s.received resJson).screen.newMessage = s.screen.newMessage := by
  cases resJson <;> rfl

theorem draft_step {s s' : App} {a : Act} (h : s.step a = some s') :
    (¬ s.Rewrites a ∧ a.typed? = none ∧ s'.screen.newMessage = s.screen.newMessage) ∨
      s.Rewrites a ∧ (a.typed? = some s'.screen.newMessage ∨
        a.typed? = none ∧ s'.screen.newMessage = "") := by
  cases App.steps h with
  | onNewMessage newMessage => exact Or.inr ⟨trivial, Or.inl rfl⟩
  | onFocus hp => exact Or.inl ⟨id, rfl, rfl⟩
  | onContact contact hp => exact Or.inl ⟨id, rfl, rfl⟩
  | press hd => exact Or.inl ⟨id, rfl, rfl⟩
  | refresh => exact Or.inl ⟨id, rfl, rfl⟩
  | answer k f resJson hk => exact Or.inl ⟨id, rfl, rfl⟩
  | handle k f resJson now hk =>
    by_cases hr : s.Succeeded k ∧ s.screen.messages.isSome
    · obtain ⟨messages, hm⟩ := Option.isSome_iff_exists.mp hr.2
      have hx := App.handle_succeeded hr.1 h
      rw [hm] at hx
      exact Or.inr ⟨hr, Or.inr ⟨rfl, congrArg (·.newMessage) hx⟩⟩
    · refine Or.inl ⟨hr, rfl, ?_⟩
      cases f with
      | makeRequest username contact => exact received_newMessage _ resJson
      | handleSendMessage username contact newMessage =>
        cases hm : s.screen.messages with
        | none =>
          rw [App.receive, App.sent_undefined (s := s.setStage k _ .handled) hm]
          rfl
        | some messages =>
          rw [App.receive, App.sent_of_not]
          · rfl
          · rintro r rfl hs
            exact hr ⟨⟨username, contact, newMessage, r, hs, hk⟩, by rw [hm]; rfl⟩

theorem draft_after {s s' : App} {as : List Act} (h : after App.step s as = some s') :
    (Along App.step (fun s a _ => ¬ s.Rewrites a) s as ∧ as.filterMap Act.typed? = [] ∧
        s'.screen.newMessage = s.screen.newMessage) ∨
      ¬ Along App.step (fun s a _ => ¬ s.Rewrites a) s as ∧ (s'.screen.newMessage = "" ∨
        (as.filterMap Act.typed?).getLast? = some s'.screen.newMessage) := by
  induction as using List.reverseRecOn generalizing s' with
  | nil =>
    obtain rfl := Option.some.inj h
    exact Or.inl ⟨trivial, rfl, rfl⟩
  | append_singleton as a ih =>
    obtain ⟨s1, h1, hs⟩ := after_concat.mp h
    rw [along_concat a h1, List.filterMap_append]
    cases draft_step hs with
    | inr hr =>
      refine Or.inr ⟨fun hall => hall.2 s' hs hr.1, ?_⟩
      cases hr.2 with
      | inl ht => exact Or.inr (by simp [ht])
      | inr he => exact Or.inl he.2
    | inl hk =>
      have hlast : ∀ s', App.step s1 a = some s' → ¬ s1.Rewrites a := fun _ _ => hk.1
      simp only [List.filterMap_cons, hk.2.1, List.filterMap_nil, List.append_nil, hk.2.2]
      cases ih h1 with
      | inl hq => exact Or.inl ⟨⟨hq.1, hlast⟩, hq.2⟩
      | inr hq => exact Or.inr ⟨fun hall => hq.1 hall.1, hq.2⟩

theorem asked_step {s s' : App} {a : Act} (h : s.step a = some s') :
    s.asked <+: s'.asked ∧ s'.page = s.page := by
  have hadd (x : App) (f : Fetch) : x.asked <+: (x.fetch f).asked := by
    rw [App.fetch, App.asked, App.asked, List.map_append]
    exact List.prefix_append _ _
  cases App.steps h with
  | onNewMessage newMessage => exact ⟨List.prefix_rfl, rfl⟩
  | onFocus hp => exact ⟨List.prefix_rfl, rfl⟩
  | onContact contact hp => exact ⟨List.prefix_rfl, rfl⟩
  | press hd => exact ⟨hadd s _, rfl⟩
  | refresh => exact ⟨hadd _ _, rfl⟩
  | answer k f resJson hk =>
    rw [asked_setStage hk]
    exact ⟨List.prefix_rfl, rfl⟩
  | handle k f resJson now hk =>
    rw [← asked_setStage hk .handled]
    cases f with
    | makeRequest username contact => cases resJson <;> exact ⟨List.prefix_rfl, rfl⟩
    | handleSendMessage username contact newMessage =>
      obtain ⟨fs, hf⟩ := App.sent_fetches (s.setStage k _ .handled) now resJson
      refine ⟨?_, App.sent_page _ _ _⟩
      rw [App.asked, App.asked, App.receive, hf, List.map_append]
      exact List.prefix_append _ _

theorem asked_after {s s' : App} {as : List Act} (h : after App.step s as = some s') :
    s.asked <+: s'.asked ∧ s'.page = s.page :=
  after_invariant (I := fun x => s.asked <+: x.asked ∧ x.page = s.page) h ⟨List.prefix_rfl, rfl⟩
    fun _ _ _ hI hs => ⟨hI.1.trans (asked_step hs).1, (asked_step hs).2.trans hI.2⟩

theorem fetch_after {s s' : App} {as : List Act} (h : after App.step s as = some s') {k : Nat}
    {f f' : Fetch} {stage stage' : Stage} (hk : s.fetches[k]? = some (f, stage))
    (hk' : s'.fetches[k]? = some (f', stage')) : f' = f := by
  obtain ⟨fs, hfs⟩ := (asked_after h).1
  have hget' := asked_of_get hk'
  have hlt : k < s.asked.length := (List.getElem?_eq_some_iff.mp (asked_of_get hk)).1
  rw [← hfs, List.getElem?_append_left hlt, asked_of_get hk] at hget'
  exact (Option.some.inj hget').symm

theorem issued_press {s s1 : App} (hp : s.step .press = some s1) :
    s1.fetches[s.fetches.length]? = some
      (.handleSendMessage s.screen.username s.screen.contact s.screen.newMessage, .out) ∧
      s1.screen = s.screen := by
  cases App.steps hp with
  | press hd => exact ⟨by simp [App.handleSendMessage, App.fetch], rfl⟩

/-- A draft that is neither edited nor cleared after the press is as it was sent. -/
theorem draftKept_of_untouched {s s1 s2 : App} {as : List Act} (hp : s.step .press = some s1)
    (hr : after App.step s1 as = some s2)
    (hkept : Along App.step (fun s a _ => ¬ s.Rewrites a) s1 as) (now : Int) :
    s2.DraftKept (.handle s.fetches.length now) := by
  rintro _ _ username contact newMessage ⟨⟩ ⟨resJson, -, hk⟩
  obtain ⟨hissued, hscreen⟩ := issued_press hp
  obtain ⟨-, -, rfl⟩ := Fetch.handleSendMessage.inj (fetch_after hr hissued hk)
  cases draft_after hr with
  | inl hd => exact hd.2.2.trans (congrArg (·.newMessage) hscreen)
  | inr hd => exact absurd hkept hd.1

theorem faithful_of_kept {s1 s2 s3 : App} {as : List Act} {f : Fetch} {now : Int}
    (hr : after App.step s1 as = some s2)
    (hkept : Along App.step (fun s a _ => ¬ s.Rewrites a) s1 as)
    (hbody : (f.http s2.page).message = s1.screen.newMessage)
    (hscreen : s3.screen = match s2.screen.messages with
      | none => s2.screen
      | some messages => s2.screen.append messages now) : Faithful f as s2 s3 := by
  cases draft_after hr with
  | inr hd => exact absurd hkept hd.1
  | inl hd =>
    obtain ⟨-, htyped, hdraft⟩ := hd
    refine ⟨fun messages hm => ?_, fun text ht => by simp [htyped] at ht⟩
    rw [hm] at hscreen
    exact ⟨_, congrArg (·.messages) hscreen, hdraft.trans hbody.symm⟩

theorem kept_of_faithful {s1 s2 s3 : App} {as : List Act} {f : Fetch} {now : Int}
    {messages : List (Entry String)} (hr : after App.step s1 as = some s2)
    (hne : (f.http s2.page).message ≠ "") (hm : s2.screen.messages = some messages)
    (hscreen : s3.screen = s2.screen.append messages now) (hf : Faithful f as s2 s3) :
    Along App.step (fun s a _ => ¬ s.Rewrites a) s1 as := by
  cases draft_after hr with
  | inl hd => exact hd.1
  | inr hd =>
    exfalso
    -- the text of the entry is the draft, which is empty or was typed later
    obtain ⟨e, he, htext⟩ := hf.entry messages hm
    have hdraft : s2.screen.newMessage = (f.http s2.page).message := by
      have hlast := he.symm.trans (congrArg (·.messages) hscreen)
      simp only [Screen.append, Option.some.injEq, List.append_cancel_left_eq,
        List.cons.injEq, and_true] at hlast
      rw [← htext, hlast]
    cases hd.2 with
    | inl hempty => exact hne (hdraft.symm.trans hempty)
    | inr htyped =>
      have hkept := hf.typed _ htyped
      rw [hscreen] at hkept
      exact hne (hdraft.symm.trans hkept.symm)

/-- A send that is answered SUCCESS after the actions `as`: what is then shown as sent is what
was sent if the draft was neither edited nor cleared in between; and where the answer appends
an entry, only if. -/
theorem shown_as_sent {s s1 s2 s3 : App} {as : List Act} {f : Fetch} {resJson : Response String}
    {now : Int} (hp : s.step .press = some s1) (hr : after App.step s1 as = some s2)
    (hk : s2.fetches[s.fetches.length]? = some (f, .answered (some resJson)))
    (hs : resJson.status = .SUCCESS)
    (hh : s2.step (.handle s.fetches.length now) = some s3) :
    (Along App.step (fun s a _ => ¬ s.Rewrites a) s1 as → Faithful f as s2 s3) ∧
      (s2.screen.messages.isSome → Faithful f as s2 s3 →
        Along App.step (fun s a _ => ¬ s.Rewrites a) s1 as) := by
  obtain ⟨hissued, -⟩ := issued_press hp
  obtain rfl := fetch_after hr hissued hk
  cases App.steps hp with
  | press hd =>
    have hbody : (Fetch.http (.handleSendMessage s.screen.username s.screen.contact
        s.screen.newMessage) s2.page).message = s.screen.newMessage := by
      cases s2.page <;> rfl
    have hne : s.screen.newMessage ≠ "" := by
      intro he
      cases hpg : s.page <;> simp [Screen.disabled, hpg, he] at hd
    have hscreen := App.handle_succeeded ⟨_, _, _, _, hs, hk⟩ hh
    refine ⟨fun hkept => faithful_of_kept hr hkept hbody hscreen, fun hsome hf => ?_⟩
    obtain ⟨messages, hm⟩ := Option.isSome_iff_exists.mp hsome
    rw [hm] at hscreen
    refine kept_of_faithful hr ?_ hm hscreen hf
    rw [hbody]
    exact hne

def drafted : App := { App.mount "ann" "bob" .message with screen.newMessage := "hi" }

theorem shown_as_sent_hi : ∃ s1 s2 s3 : App, drafted.step .press = some s1 ∧
    after App.step s1 [.refresh, .answer 1 (some (.sent "bob"))] = some s2 ∧
    s2.step (.handle 1 7) = some s3 ∧
    Faithful (.handleSendMessage "ann" "bob" "hi") [.refresh, .answer 1 (some (.sent "bob"))]
      s2 s3 := by
  refine ⟨_, _, _, rfl, rfl, rfl, (shown_as_sent (s := drafted) rfl rfl rfl rfl rfl).1 ?_⟩
  intro s _
  refine ⟨id, ?_⟩
  intro s' _
  exact ⟨id, trivial⟩

/-- The draft is edited while the send is under way: the entry has the new text, and the new
text is lost. -/
theorem edited_text_shown : ∃ s1 s2 s3 : App, drafted.step .press = some s1 ∧
    after App.step s1 [.onNewMessage "bye", .answer 1 (some (.sent "bob"))] = some s2 ∧
    s2.step (.handle 1 7) = some s3 ∧
    s3.screen = ⟨"ann", "bob", some [⟨"ann", "bye", 7⟩], "", false⟩ ∧
    ¬ Faithful (.handleSendMessage "ann" "bob" "hi")
      [.onNewMessage "bye", .answer 1 (some (.sent "bob"))] s2 s3 := by
  refine ⟨_, _, _, rfl, rfl, rfl, rfl, fun h => ?_⟩
  exact absurd (h.typed "bye" rfl) (by decide)

end ChatScreen
end RecoupChat
