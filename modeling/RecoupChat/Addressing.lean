import RecoupChat.Routes

/-! Whom a request addresses. The app writes names into a URL as they are; the server acts for
the names that it reads back. -/
namespace RecoupChat
open Router
variable {M : Type}

inductive Ask (M : Type) where
  | addUserToDB (username : String)
  | chats (username : String)
  | messages (username toUsername : String)
  | send (username toUsername : String) (newMessage : M)
  | sendNew (username contact : String) (newMessage : M)

inductive Purpose where
  | list | read | send | register

namespace Ask

def http (undefined : M) : Ask M → HttpRequest M
  | .addUserToDB u => SignUp.addUserToDB undefined u
  | .chats u => MessagesAll.makeRequest undefined u
  | .messages u v => Message.makeRequest undefined u v
  | .send u v m => Message.handleSendMessage u v m
  | .sendNew u v m => MessageNew.handleSendMessage u v m

def purpose : Ask M → Purpose
  | .addUserToDB _ => .register
  | .chats _ | .messages _ _ => .read
  | .send _ _ _ | .sendNew _ _ _ => .send

def names : Ask M → List String
  | .addUserToDB u | .chats u => [u]
  | .messages u v | .send u v _ | .sendNew u v _ => [u, v]

/-- The texts in the URL that stand for the names. -/
def written : Ask M → List String
  | .sendNew u v _ => [u, trim v]
  | ask => ask.names

end Ask

namespace Request

def purpose : Request M → Purpose
  | .getExistingUsernames => .list
  | .getUserChats _ | .getUserChatMessages _ _ => .read
  | .sendMessage _ | .sendNewMessage _ => .send
  | .addNewUser _ => .register

/-- The users that the server acts for, in the order in which they stand in the URL. -/
def names : Request M → List String
  | .getExistingUsernames => []
  | .getUserChats u | .addNewUser u => [u]
  | .getUserChatMessages u v => [u, v]
  | .sendMessage d | .sendNewMessage d => [d.sentBy, d.sentTo]

end Request

/-- Where the server serves what a request is for, it acts for the names of the request, each
in its place. -/
def Ask.Addressed (undefined : M) (ask : Ask M) : Prop :=
  ∀ (timeNow : Int) (r : Request M), (ask.http undefined).receive timeNow = some r →
    r.purpose = ask.purpose → ∀ x ∈ ask.names.zip r.names, x.2 = x.1

/-! The routes that act for named users. -/

inductive Serves : Method → Purpose → Pattern → Prop where
  | chats : Serves .GET .read chatsPath
  | messages : Serves .GET .read messagesPath
  | put : Serves .PUT .send sendPath
  | post : Serves .POST .send sendPath
  | register : Serves .POST .register addUserPath

/-- The path fits the URL, its parameters can be decoded, and no earlier route takes the
request: this happens to sign-ups only. -/
structure Runs (url : String) (purpose : Purpose) (pat : Pattern) : Prop where
  accepts : pat.accepts (segments url.toList) = true
  decodes : (pat.params (segments url.toList)).isSome
  first : purpose = .register → sendPath.accepts (segments url.toList) = false

theorem runs_of_receive {req : HttpRequest M} {timeNow : Int} {x : Request M}
    (h : req.receive timeNow = some x) (hl : x.purpose ≠ .list) :
    ∃ pat ps, Serves req.method x.purpose pat ∧ Runs req.url x.purpose pat ∧
      pat.params (segments req.url.toList) = some ps ∧ x.names = pat.names.map (param ps) := by
  obtain ⟨r, hr, hfit, ps, hp, hx⟩ := receive_some h
  obtain ⟨hm, hacc⟩ := Bool.and_eq_true_iff.mp hfit
  replace hm : r.method = req.method := of_decide_eq_true hm
  have hdec : (r.pattern.params (segments req.url.toList)).isSome := Option.isSome_of_eq_some hp
  simp only [routes, List.mem_cons, List.not_mem_nil, or_false] at hr
  obtain rfl | rfl | rfl | rfl | rfl | rfl | rfl := hr
  · cases hx
  · cases hx
    exact absurd rfl hl
  · cases hx
    exact ⟨_, ps, hm ▸ .chats, ⟨hacc, hdec, fun h => by cases h⟩, hp, rfl⟩
  · cases hx
    exact ⟨_, ps, hm ▸ .messages, ⟨hacc, hdec, fun h => by cases h⟩, hp, rfl⟩
  · cases hx
    exact ⟨_, ps, hm ▸ .put, ⟨hacc, hdec, fun h => by cases h⟩, hp, rfl⟩
  · cases hx
    exact ⟨_, ps, hm ▸ .post, ⟨hacc, hdec, fun h => by cases h⟩, hp, rfl⟩
  · cases hx
    have hfirst : sendPath.accepts (segments req.url.toList) = false := by
      rw [Bool.eq_false_iff]
      intro hsend
      -- the route of sends would have taken the request
      rw [receive_alone 5 rfl rfl hm hsend] at h
      obtain ⟨qs, -, hq⟩ := Option.bind_eq_some_iff.mp h
      cases hq
    exact ⟨_, ps, hm ▸ .register, ⟨hacc, hdec, fun _ => hfirst⟩, hp, rfl⟩

theorem receive_of_runs {req : HttpRequest M} {purpose : Purpose} {pat : Pattern}
    (hs : Serves req.method purpose pat) (hr : Runs req.url purpose pat)
    {ps : List (String × String)} (hp : pat.params (segments req.url.toList) = some ps)
    (timeNow : Int) :
    ∃ x, req.receive timeNow = some x ∧ x.purpose = purpose ∧
      x.names = pat.names.map (param ps) := by
  generalize hm : req.method = method at hs
  cases hs with
  | chats => exact ⟨_, by rw [receive_alone 2 rfl rfl hm.symm hr.accepts, hp]; rfl, rfl, rfl⟩
  | messages => exact ⟨_, by rw [receive_alone 3 rfl rfl hm.symm hr.accepts, hp]; rfl, rfl, rfl⟩
  | put => exact ⟨_, by rw [receive_alone 4 rfl rfl hm.symm hr.accepts, hp]; rfl, rfl, rfl⟩
  | post => exact ⟨_, by rw [receive_alone 5 rfl rfl hm.symm hr.accepts, hp]; rfl, rfl, rfl⟩
  | register =>
    exact ⟨_, by rw [receive_addUser hm (hr.first rfl) hr.accepts, hp]; rfl, rfl, rfl⟩

/-! The names that are read back. -/

theorem length_trim (s : String) : (trim s).toList.length ≤ s.toList.length := by
  rw [trim, String.toList_ofList]
  exact Nat.le_trans (List.rdropWhile_prefix _ _).length_le (List.dropWhile_sublist _).length_le

theorem Serves.clean {method : Method} {purpose : Purpose} {pat : Pattern}
    (h : Serves method purpose pat) : (∀ seg ∈ pat, seg.Clean) ∧ pat.names.Nodup := by
  cases h <;> decide

/-- The names in the places that the path has are written as they are and have no character
with a meaning in a URL. -/
def Ask.Kept (ask : Ask M) (pat : Pattern) : Prop :=
  ∀ x ∈ (ask.names.zip ask.written).take pat.names.length, x.1 = x.2 ∧ Plain x.2.toList

theorem own_iff {method : Method} {purpose : Purpose} {pat : Pattern} {url : String}
    (hs : Serves method purpose pat) (hr : Runs url purpose pat) {ps : List (String × String)}
    (hp : pat.params (segments url.toList) = some ps) (written meant : List (String × String))
    (hurl : url.toList = pat.url (param written))
    (hle : ∀ name ∈ pat.names,
      (param written name).toList.length ≤ (param meant name).toList.length) :
    (∀ name ∈ pat.names, param ps name = param meant name) ↔
      ∀ name ∈ pat.names, Plain (param written name).toList ∧
        param meant name = param written name :=
  read_iff (param written) (param meant) hs.clean.1 hs.clean.2 hle (hurl ▸ hr.accepts) (hurl ▸ hp)

theorem names_iff (undefined : M) {ask : Ask M} {pat : Pattern}
    (hs : Serves (ask.http undefined).method ask.purpose pat)
    (hr : Runs (ask.http undefined).url ask.purpose pat) {ps : List (String × String)}
    (hp : pat.params (segments (ask.http undefined).url.toList) = some ps) :
    (∀ x ∈ ask.names.zip (pat.names.map (param ps)), x.2 = x.1) ↔ ask.Kept pat := by
  cases ask with
  | addUserToDB u =>
    cases hs
    have h := own_iff .register hr hp [("username", u)] [("username", u)]
      (addUser_url undefined u) (by simp)
    simpa [Ask.Kept, Ask.names, Ask.written] using h
  | chats u =>
    cases hs with
    | chats =>
      have h := own_iff .chats hr hp [("username", u)] [("username", u)]
        (chats_url undefined u) (by simp)
      simpa [Ask.Kept, Ask.names, Ask.written] using h
    | messages =>
      have hurl : (MessagesAll.makeRequest undefined u).url.toList = join [u.toList] := by
        simp [MessagesAll.makeRequest, join]
      have h := first_param_iff (hurl ▸ hr.accepts) (hurl ▸ hp)
      simpa [Ask.Kept, Ask.names, Ask.written] using h
  | messages u v =>
    cases hs with
    | chats =>
      have hurl : (Message.makeRequest undefined u v).url.toList =
          join [u.toList, v.toList, "messages".toList] := by
        simp [Message.makeRequest, join]
      have h := first_param_iff (hurl ▸ hr.accepts) (hurl ▸ hp)
      simpa [Ask.Kept, Ask.names, Ask.written] using h
    | messages =>
      have h := own_iff .messages hr hp [("owner", u), ("recipient", v)]
        [("owner", u), ("recipient", v)] (messages_url undefined u v) (by simp)
      simpa [Ask.Kept, Ask.names, Ask.written] using h
  | send u v m =>
    cases hs
    have h := own_iff .put hr hp [("sentBy", u), ("sentTo", v)] [("sentBy", u), ("sentTo", v)]
      (send_url u v m) (by simp)
    simpa [Ask.Kept, Ask.names, Ask.written] using h
  | sendNew u v m =>
    cases hs
    have h := own_iff .post hr hp [("sentBy", u), ("sentTo", trim v)]
      [("sentBy", u), ("sentTo", v)] (sendNew_url u v m) (by simpa using length_trim v)
    simpa [Ask.Kept, Ask.names, Ask.written, and_comm] using h

theorem purpose_ne_list (ask : Ask M) : ask.purpose ≠ .list := by
  cases ask <;> exact fun h => by cases h

/-- A request addresses its users exactly if every path that it runs by keeps their names. -/
theorem addressed_iff (undefined : M) (ask : Ask M) :
    ask.Addressed undefined ↔ ∀ pat, Serves (ask.http undefined).method ask.purpose pat →
      Runs (ask.http undefined).url ask.purpose pat → ask.Kept pat := by
  constructor
  · intro h pat hs hr
    obtain ⟨ps, hp⟩ := Option.isSome_iff_exists.mp hr.decodes
    obtain ⟨x, hx, hpurpose, hnames⟩ := receive_of_runs hs hr hp 0
    have hsame := h 0 x hx hpurpose
    rw [hnames] at hsame
    exact (names_iff undefined hs hr hp).mp hsame
  · intro h timeNow x hx hpurpose
    have hlist : x.purpose ≠ .list := hpurpose ▸ purpose_ne_list ask
    obtain ⟨pat, ps, hs, hr, hp, hnames⟩ := runs_of_receive hx hlist
    rw [hpurpose] at hs hr
    rw [hnames]
    exact (names_iff undefined hs hr hp).mpr (h pat hs hr)

/-- Signing up as "bob?x" registers "bob". -/
theorem bob_registered :
    (SignUp.addUserToDB "" "bob?x").receive 5 = some (.addNewUser "bob") ∧
      ¬ Ask.Addressed "" (.addUserToDB "bob?x") ∧
      ¬ ∀ u v : String, u ≠ "" → v ≠ "" → u ≠ v → ∀ timeNow : Int,
        (SignUp.addUserToDB "" u).receive timeNow ≠ some (.addNewUser v) := by
  have hsegs : segments (SignUp.addUserToDB "" "bob?x").url.toList =
      ["add".toList, "user".toList, "bob".toList] := by decide
  have hbob : (SignUp.addUserToDB "" "bob?x").receive 5 = some (.addNewUser "bob") := by
    rw [receive_addUser rfl (by rw [hsegs]; rfl) (by rw [hsegs]; rfl), hsegs]
    rfl
  have hmis : ¬ Ask.Addressed "" (.addUserToDB "bob?x") := fun h =>
    absurd (h 5 _ hbob rfl ("bob?x", "bob") (by decide)) (by decide)
  exact ⟨hbob, hmis, fun h => h "bob?x" "bob" (by decide) (by decide) (by decide) 5 hbob⟩

end RecoupChat
