import RecoupChat.Browsing

/-! In whose name a signed-in user acts, whatever is typed as a contact and whatever the names of
the partners are. -/
namespace RecoupChat
open Transition Promise Router
variable {M : Type}

/-- A request in the name of `u`. Two names are parts of other paths: a user "users" may reach the
list of usernames, and a user "add" the sign-up. -/
inductive ActsFor (u : String) : Request M → Prop
  | chats : ActsFor u (.getUserChats u)
  | messages (recipient : String) : ActsFor u (.getUserChatMessages u recipient)
  | put (d : Send M) (hd : d.sentBy = u) : ActsFor u (.sendMessage d)
  | post (d : Send M) (hd : d.sentBy = u) : ActsFor u (.sendNewMessage d)
  | existing (hu : sameText u.toList "users".toList = true) : ActsFor u .getExistingUsernames
  | added (username : String) (hu : sameText u.toList "add".toList = true) :
      ActsFor u (.addNewUser username)

theorem actsFor_receive {u : String} (hu : Plain u.toList) {req : HttpRequest M}
    {ns : List (List Char)} (hurl : req.url.toList = join (u.toList :: ns)) {timeNow : Int}
    {x : Request M} (hx : req.receive timeNow = some x) : ActsFor u x := by
  obtain ⟨r, hr, hfit, ps, hp, hh⟩ := receive_some hx
  have hacc := (Bool.and_eq_true_iff.mp hfit).2
  rw [hurl] at hacc hp
  have hread {name : String} {pat : Pattern} (hpat : r.pattern = .param name :: pat) :
      param ps name = u := (first_param_iff (hpat ▸ hacc) (hpat ▸ hp)).mpr hu
  have hword {text : String} {pat : Pattern} (hpat : r.pattern = .literal text :: pat) :
      sameText u.toList text.toList = true := by
    have hsep : ∀ c ∈ u.toList, c ∉ ['/', '?', '#'] := fun c hc hm => hu c hc (by grind)
    rw [hpat, segments_join_cons hsep] at hacc
    exact (Bool.and_eq_true_iff.mp hacc).1
  simp only [routes, List.mem_cons, List.not_mem_nil, or_false] at hr
  obtain rfl | rfl | rfl | rfl | rfl | rfl | rfl := hr
  · cases hh
  · cases hh
    exact .existing (hword rfl)
  · cases hh
    rw [hread rfl]
    exact .chats
  · cases hh
    rw [hread rfl]
    exact .messages _
  · cases hh
    exact .put _ (hread rfl)
  · cases hh
    exact .post _ (hread rfl)
  · cases hh
    exact .added _ (hword rfl)

/-- The user "add" may register other users. -/
example : (MessageNew.handleSendMessage "add" "user/bob?" "hi").receive 5 =
    some (.addNewUser "bob") := by decide +kernel

namespace ChatScreen

theorem http_url (f : Fetch) (page : Page) :
    ∃ ns, (f.http page).url.toList = join (f.names.1.toList :: ns) := by
  cases f with
  | makeRequest u v =>
    refine ⟨[v.toList, "messages".toList], ?_⟩
    cases page <;> simp [Fetch.http, Fetch.names, Message.makeRequest, MessageNew.makeRequest, join]
  | handleSendMessage u v m =>
    cases page with
    | message =>
      refine ⟨[v.toList, "message".toList], ?_⟩
      simp [Fetch.http, Fetch.names, Message.handleSendMessage, join]
    | messageNew =>
      refine ⟨[(trim v).toList, "message".toList], ?_⟩
      simp [Fetch.http, Fetch.names, MessageNew.handleSendMessage, join]

structure App.Own (s : App) (u : String) : Prop where
  username : s.screen.username = u
  asked : ∀ f ∈ s.asked, f.names.1 = u

theorem own_mount (u v : String) (page : Page) : (App.mount u v page).Own u := by
  cases page with
  | message =>
    refine ⟨rfl, fun f hf => ?_⟩
    obtain rfl := List.mem_singleton.mp hf
    rfl
  | messageNew =>
    refine ⟨rfl, fun f hf => ?_⟩
    cases hf

theorem App.Own.step {s s' : App} {u : String} (h : s.Own u) (hn : s.Names s') : s'.Own u where
  username := hn.username.trans h.username
  asked f hf := (hn.asked f hf).elim (h.asked f) fun hnew =>
    (congrArg Prod.fst hnew).trans h.username

end ChatScreen

namespace Main
open ChatScreen

def State.requests (s : State) : List (HttpRequest String) :=
  (s.list.fetches.map fun y => MessagesAll.makeRequest "" y.1) ++
    (s.opened.elim [] fun app => app.asked.map fun f => f.http app.page) ++
      s.left.map fun z => z.2.http z.1

structure OwnNames (s : State) : Prop where
  list : s.list.Own s.displayName
  opened : ∀ app, s.opened = some app → app.Own s.displayName
  left : ∀ z ∈ s.left, z.2.names.1 = s.displayName

theorem ownNames_step {toLowerCase : String → String} {s s' : State} {e : Event} (h : OwnNames s)
    (hs : s.step toLowerCase e = some s') : OwnNames s' ∧ s'.displayName = s.displayName := by
  cases steps hs with
  | refresh ho => exact ⟨{ h with list := h.list.handleRefresh }, rfl⟩
  | tap k chats row ho hc hr =>
    refine ⟨{ h with opened := ?_ }, rfl⟩
    rintro _ ⟨⟩
    rw [h.list.username]
    exact own_mount _ _ _
  | plus ho =>
    refine ⟨{ h with opened := ?_ }, rfl⟩
    rintro _ ⟨⟩
    exact own_mount _ _ _
  | back app ho =>
    refine ⟨{ h with opened := ?_, left := fun z hz => ?_ }, rfl⟩
    · intro app' ho'
      cases ho'
    · cases List.mem_append.mp hz with
      | inl hz => exact h.left z hz
      | inr hz =>
        obtain ⟨y, hy, rfl⟩ := List.mem_map.mp hz
        exact (h.opened app ho).asked _ (List.mem_map_of_mem (List.mem_of_mem_filter hy))
  | serve k username timeNow fails store resJson hk hran =>
    obtain rfl := h.list.asked _ (List.mem_of_getElem? hk)
    exact ⟨{ h with list := h.list.setStage k _ }, rfl⟩
  | fail k username hk =>
    obtain rfl := h.list.asked _ (List.mem_of_getElem? hk)
    exact ⟨{ h with list := h.list.setStage k _ }, rfl⟩
  | handle k username resJson hk =>
    obtain rfl := h.list.asked _ (List.mem_of_getElem? hk)
    exact ⟨{ h with list := (h.list.setStage k _).received resJson }, rfl⟩
  | screen a app net ho ha =>
    refine ⟨{ h with opened := ?_ }, rfl⟩
    rintro _ ⟨⟩
    exact (h.opened app ho).step (names_net ha)
  | late k x timeNow fails store resJson hran =>
    exact ⟨{ h with left := fun z hz => h.left z (List.mem_of_mem_eraseIdx hz) }, rfl⟩
  | others r fails => exact ⟨{ h with }, rfl⟩

/-- In every run of the app, with any store, any names of partners and any text as a contact:
what the server executes for the app it executes in the name of the user. -/
theorem own_requests (toLowerCase : String → String) {displayName : String}
    (hu : Plain displayName.toList) (store : Store String) {es : List Event} {s : State}
    (hr : after (State.step toLowerCase) (State.mount displayName store) es = some s) :
    ∀ req ∈ s.requests, ∀ timeNow x, req.receive timeNow = some x → ActsFor displayName x := by
  have hown : OwnNames s ∧ s.displayName = displayName := by
    refine after_invariant (I := fun x => OwnNames x ∧ x.displayName = displayName) hr ⟨?_, rfl⟩ ?_
    · refine ⟨Chats.own_mount displayName, fun app ho => ?_, fun z hz => ?_⟩
      · cases ho
      · cases hz
    · rintro x e x' ⟨hx, rfl⟩ hs
      exact ownNames_step hx hs
  obtain ⟨hown, rfl⟩ := hown
  have hscreen {f : Fetch} {page : Page} (hf : f.names.1 = s.displayName) {timeNow : Int}
      {x : Request String} (hx : (f.http page).receive timeNow = some x) :
      ActsFor s.displayName x := by
    obtain ⟨ns, hurl⟩ := http_url f page
    rw [hf] at hurl
    exact actsFor_receive hu hurl hx
  intro req hreq timeNow x hx
  rw [State.requests, List.mem_append, List.mem_append] at hreq
  obtain (hreq | hreq) | hreq := hreq
  · obtain ⟨y, hy, rfl⟩ := List.mem_map.mp hreq
    rw [hown.list.asked y hy] at hx
    have hurl : (MessagesAll.makeRequest "" s.displayName).url.toList =
        join [s.displayName.toList] := by simp [MessagesAll.makeRequest, join]
    exact actsFor_receive hu hurl hx
  · cases ho : s.opened with
    | none =>
      rw [ho] at hreq
      cases hreq
    | some app =>
      rw [ho] at hreq
      obtain ⟨f, hf, rfl⟩ := List.mem_map.mp hreq
      exact hscreen ((hown.opened app ho).asked f hf) hx
  · obtain ⟨z, hz, rfl⟩ := List.mem_map.mp hreq
    exact hscreen (hown.left z hz) hx

def typeContact : List Event :=
  [.plus, .screen (.user .onFocus), .screen (.user (.onContact "bob/message?")),
    .screen (.user (.onNewMessage "hi")), .screen (.user .press)]

/-- What "ann" types as a contact ends the path. -/
theorem own_requests_ann :
    (MessageNew.handleSendMessage "ann" "bob/message?" "hi").receive 5 =
        some (.sendNewMessage ⟨"ann", "bob", "hi", 5⟩) ∧
      ActsFor "ann" (.sendNewMessage ⟨"ann", "bob", "hi", 5⟩ : Request String) := by
  have hreq : (MessageNew.handleSendMessage "ann" "bob/message?" "hi").receive 5 =
      some (.sendNewMessage ⟨"ann", "bob", "hi", 5⟩) := by decide +kernel
  obtain ⟨s, hs, hsent⟩ : ∃ s,
      after (State.step id) (State.mount "ann" Store.empty) typeContact = some s ∧
        MessageNew.handleSendMessage "ann" "bob/message?" "hi" ∈ s.requests :=
    ⟨_, rfl, List.mem_append_left _ (List.mem_append_right _ List.mem_cons_self)⟩
  exact ⟨hreq, own_requests id (by decide) Store.empty hs _ hsent 5 _ hreq⟩

end Main
end RecoupChat
