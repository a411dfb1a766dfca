import Mathlib.Data.List.DropRight
import RecoupChat.Handlers
import RecoupChat.JsText
import RecoupChat.Router

/-! The route table of server.js and the requests that the screens of the app build. A URL is
what follows `http://localhost:3000`. -/
namespace RecoupChat
open Router
variable {M : Type}

/-- `message` is what the server reads as `req.body.message`. -/
structure HttpRequest (M : Type) where
  method : Method
  url : String
  message : M

abbrev RouteHandler (M : Type) := (String → String) → M → Int → Option (Request M)

/-! The paths of the table; `sendPath` is the path of two routes. -/

def rootPath : Pattern := []

def existingPath : Pattern := [.literal "users", .literal "existing"]

def chatsPath : Pattern := [.param "username"]

def messagesPath : Pattern := [.param "owner", .param "recipient", .literal "messages"]

def sendPath : Pattern := [.param "sentBy", .param "sentTo", .literal "message"]

def addUserPath : Pattern := [.literal "add", .literal "user", .param "username"]

@[simp] theorem names_chatsPath : chatsPath.names = ["username"] := rfl

@[simp] theorem names_messagesPath : messagesPath.names = ["owner", "recipient"] := rfl

@[simp] theorem names_sendPath : sendPath.names = ["sentBy", "sentTo"] := rfl

@[simp] theorem names_addUserPath : addUserPath.names = ["username"] := rfl

/-- The route of `/` never answers, so no request begins. -/
def routes : List (Route (RouteHandler M)) := [
  ⟨.GET, rootPath, fun _ _ _ => none⟩,
  ⟨.GET, existingPath, fun _ _ _ => some .getExistingUsernames⟩,
  ⟨.GET, chatsPath, fun params _ _ => some (.getUserChats (params "username"))⟩,
  ⟨.GET, messagesPath, fun params _ _ =>
    some (.getUserChatMessages (params "owner") (params "recipient"))⟩,
  ⟨.PUT, sendPath, fun params message timeNow =>
    some (.sendMessage ⟨params "sentBy", params "sentTo", message, timeNow⟩)⟩,
  ⟨.POST, sendPath, fun params message timeNow =>
    some (.sendNewMessage ⟨params "sentBy", params "sentTo", message, timeNow⟩)⟩,
  ⟨.POST, addUserPath, fun params _ _ => some (.addNewUser (params "username"))⟩]

/-- The request that the server begins to handle at the time `timeNow`. -/
def HttpRequest.receive (req : HttpRequest M) (timeNow : Int) : Option (Request M) :=
  (dispatch routes req.method req.url.toList).bind fun (handler, ps) =>
    handler (param ps) req.message timeNow

theorem receive_alone {req : HttpRequest M} (i : Nat) {r : Route (RouteHandler M)}
    (hi : routes[i]? = some r) (ha : (routes.take i).any (·.overlaps r) = false)
    (hm : r.method = req.method) (hacc : r.pattern.accepts (segments req.url.toList) = true)
    (timeNow : Int) :
    req.receive timeNow = (r.pattern.params (segments req.url.toList)).bind fun ps =>
      r.handler (param ps) req.message timeNow := by
  have hsplit : routes = routes.take i ++ r :: routes.drop (i + 1) := by
    obtain ⟨hlt, hget⟩ := List.getElem?_eq_some_iff.mp hi
    rw [← hget, List.cons_getElem_drop_succ, List.take_append_drop]
  have hfit : r.fits req.method req.url.toList = true := by simp [Route.fits, hm, hacc]
  rw [HttpRequest.receive, hsplit, dispatch_alone (by simpa using ha) _ hfit]
  cases r.pattern.params (segments req.url.toList) <;> rfl

theorem receive_addUser {req : HttpRequest M} (hm : req.method = .POST)
    (hsend : sendPath.accepts (segments req.url.toList) = false)
    (hacc : addUserPath.accepts (segments req.url.toList) = true) (timeNow : Int) :
    req.receive timeNow = (addUserPath.params (segments req.url.toList)).bind fun ps =>
      some (.addNewUser (param ps "username")) := by
  let r : Route (RouteHandler M) :=
    ⟨.POST, addUserPath, fun params _ _ => some (.addNewUser (params "username"))⟩
  have hfit : r.fits req.method req.url.toList = true := by simp [Route.fits, r, hm, hacc]
  have hb : ∀ q ∈ (routes : List (Route (RouteHandler M))).take 6,
      q.fits req.method req.url.toList = false := by
    simp [routes, Route.fits, hm, hsend]
  have hsplit : (routes : List (Route (RouteHandler M))) = routes.take 6 ++ r :: [] := rfl
  rw [HttpRequest.receive, hsplit, dispatch_first hfit hb]
  cases addUserPath.params (segments req.url.toList) <;> rfl

theorem receive_some {req : HttpRequest M} {timeNow : Int} {x : Request M}
    (h : req.receive timeNow = some x) :
    ∃ r ∈ routes, r.fits req.method req.url.toList = true ∧
      ∃ ps, r.pattern.params (segments req.url.toList) = some ps ∧
        r.handler (param ps) req.message timeNow = some x := by
  obtain ⟨⟨handler, ps⟩, hd, hx⟩ := Option.bind_eq_some_iff.mp h
  obtain ⟨r, hr, hfit, rfl, hp⟩ := dispatch_some hd
  exact ⟨r, hr, hfit, ps, hp, hx⟩

/-! The screens. A request without a body has `undefined` for its message. -/

def isSpace (c : Char) : Bool := JsText.isSpace c.toNat

def trim (s : String) : String :=
  String.ofList ((s.toList.dropWhile isSpace).rdropWhile isSpace)

def SignUp.makeRequest (undefined : M) : HttpRequest M := ⟨.GET, "/users/existing", undefined⟩

def SignUp.addUserToDB (undefined : M) (username : String) : HttpRequest M :=
  ⟨.POST, "/add/user/" ++ username, undefined⟩

def MessagesAll.makeRequest (undefined : M) (username : String) : HttpRequest M :=
  ⟨.GET, "/" ++ username, undefined⟩

def Message.makeRequest (undefined : M) (username toUsername : String) : HttpRequest M :=
  ⟨.GET, "/" ++ username ++ "/" ++ toUsername ++ "/messages", undefined⟩

def Message.handleSendMessage (username toUsername : String) (newMessage : M) : HttpRequest M :=
  ⟨.PUT, "/" ++ username ++ "/" ++ toUsername ++ "/message", newMessage⟩

def MessageNew.makeRequest (undefined : M) (username contact : String) : HttpRequest M :=
  ⟨.GET, "/" ++ username ++ "/" ++ contact ++ "/messages", undefined⟩

def MessageNew.handleSendMessage (username contact : String) (newMessage : M) : HttpRequest M :=
  ⟨.POST, "/" ++ username ++ "/" ++ trim contact ++ "/message", newMessage⟩

theorem clean_path {r : Route (RouteHandler M)} (hr : r ∈ routes) :
    ∀ seg ∈ r.pattern, seg.Clean := by
  have hall : (routes : List (Route (RouteHandler M))).all
      (fun r => r.pattern.all fun seg => decide seg.Clean) = true := rfl
  simpa using List.all_eq_true.mp hall r hr

theorem existing_url (undefined : M) : (SignUp.makeRequest undefined).url.toList =
    existingPath.url id := by
  simp [SignUp.makeRequest, existingPath, Pattern.url, join, Segment.fill]

theorem addUser_url (undefined : M) (u : String) : (SignUp.addUserToDB undefined u).url.toList =
    addUserPath.url (param [("username", u)]) := by
  simp [SignUp.addUserToDB, addUserPath, Pattern.url, join, Segment.fill]

theorem chats_url (undefined : M) (u : String) :
    (MessagesAll.makeRequest undefined u).url.toList =
      chatsPath.url (param [("username", u)]) := by
  simp [MessagesAll.makeRequest, chatsPath, Pattern.url, join, Segment.fill]

theorem messages_url (undefined : M) (u v : String) :
    (Message.makeRequest undefined u v).url.toList =
      messagesPath.url (param [("owner", u), ("recipient", v)]) := by
  simp [Message.makeRequest, messagesPath, Pattern.url, join, Segment.fill]

theorem send_url (u v : String) (m : M) : (Message.handleSendMessage u v m).url.toList =
    sendPath.url (param [("sentBy", u), ("sentTo", v)]) := by
  simp [Message.handleSendMessage, sendPath, Pattern.url, join, Segment.fill]

theorem sendNew_url (u v : String) (m : M) : (MessageNew.handleSendMessage u v m).url.toList =
    sendPath.url (param [("sentBy", u), ("sentTo", trim v)]) := by
  simp [MessageNew.handleSendMessage, sendPath, Pattern.url, join, Segment.fill]

/-! Names made of letters, digits, '-' and '_'. -/

/-- A character outside ASCII counts as a letter unless it is white space. -/
def wordChar (c : Char) : Bool :=
  ('a' ≤ c && c ≤ 'z') || ('A' ≤ c && c ≤ 'Z') || ('0' ≤ c && c ≤ '9') || c == '-' || c == '_' ||
    (0x80 ≤ c.toNat && !isSpace c)

structure Word (s : String) : Prop where
  nonempty : s ≠ ""
  chars : ∀ c ∈ s.toList, wordChar c = true

instance (s : String) : Decidable (Word s) :=
  decidable_of_iff (s ≠ "" ∧ s.toList.all wordChar = true)
    ⟨fun h => ⟨h.1, List.all_eq_true.mp h.2⟩, fun h => ⟨h.nonempty, List.all_eq_true.mpr h.chars⟩⟩

theorem isSpace_of_wordChar {c : Char} (h : wordChar c = true) : isSpace c = false := by
  by_cases hc : c.toNat < 0x80
  · have hlow : ∀ n < 0x80, wordChar (Char.ofNat n) = true → isSpace (Char.ofNat n) = false := by
      decide
    rw [← Char.ofNat_toNat c] at h ⊢
    exact hlow _ hc h
  · have hhigh {d : Char} (hd : d.toNat < 0x80) : ¬ c ≤ d := fun hle =>
      hc (Nat.lt_of_le_of_lt hle hd)
    have hdash : c ≠ '-' := fun he => hhigh (d := '-') (by decide) (he ▸ Nat.le_refl _)
    have hline : c ≠ '_' := fun he => hhigh (d := '_') (by decide) (he ▸ Nat.le_refl _)
    have hz : ¬ c ≤ 'z' := hhigh (by decide)
    have hZ : ¬ c ≤ 'Z' := hhigh (by decide)
    have h9 : ¬ c ≤ '9' := hhigh (by decide)
    have hboth : 0x80 ≤ c.toNat ∧ isSpace c = false := by
      simpa [wordChar, hdash, hline, hz, hZ, h9] using h
    exact hboth.2

theorem Word.plain {s : String} (h : Word s) : Plain s.toList := by
  intro c hc hm
  have hsep : ['/', '?', '#', '%'].all (fun c => !wordChar c) = true := by decide
  simpa [h.chars c hc] using List.all_eq_true.mp hsep c hm

theorem Word.trim_eq {s : String} (h : Word s) : trim s = s := by
  have hs : ∀ c ∈ s.toList, ¬ isSpace c = true := fun c hc => by
    simp [isSpace_of_wordChar (h.chars c hc)]
  have hl : s.toList.dropWhile isSpace = s.toList :=
    List.dropWhile_eq_self_iff.mpr fun hl => hs _ (List.getElem_mem hl)
  have hr : s.toList.rdropWhile isSpace = s.toList :=
    List.rdropWhile_eq_self_iff.mpr fun hne => hs _ (List.getLast_mem hne)
  rw [trim, hl, hr, String.ofList_toList]

theorem receive_template {req : HttpRequest M} (i : Nat) {r : Route (RouteHandler M)}
    (hi : routes[i]? = some r) (ha : (routes.take i).any (·.overlaps r) = false)
    (hm : r.method = req.method) {value : String → String}
    (hurl : req.url.toList = r.pattern.url value)
    (hvalue : ∀ name ∈ r.pattern.names, value name ≠ "" ∧ Plain (value name).toList)
    (timeNow : Int) :
    req.receive timeNow = r.handler (param (r.pattern.values value)) req.message timeNow := by
  have hlit := clean_path (List.mem_of_getElem? hi)
  have hplain : ∀ name ∈ r.pattern.names, Plain (value name).toList :=
    fun name hn => (hvalue name hn).2
  have hsegs : segments (r.pattern.url value) = _ := segments_url hlit hplain
  have hacc : r.pattern.accepts (segments (r.pattern.url value)) = true := by
    rw [hsegs]
    exact accepts_fill fun name hn => (hvalue name hn).1
  have hp := (params_url_iff hlit (fun _ _ => Nat.le_refl _) hacc).mpr
    fun name hn => ⟨hplain name hn, rfl⟩
  rw [receive_alone i hi ha hm (hurl ▸ hacc), hurl, hp]
  rfl

theorem receive_existing (undefined : M) (timeNow : Int) :
    (SignUp.makeRequest undefined).receive timeNow = some .getExistingUsernames :=
  receive_template 1 rfl rfl rfl (existing_url undefined) (by simp [existingPath, Pattern.names])
    timeNow

/-- Every request of the app with the names `u`, `a` and `b` reaches its handler. -/
structure Routed (undefined : M) (u a b : String) (m : M) (timeNow : Int) : Prop where
  addNewUser : (SignUp.addUserToDB undefined u).receive timeNow = some (.addNewUser u)
  existing : (SignUp.makeRequest undefined).receive timeNow = some .getExistingUsernames
  chats : (MessagesAll.makeRequest undefined u).receive timeNow = some (.getUserChats u)
  messages : (Message.makeRequest undefined a b).receive timeNow =
    some (.getUserChatMessages a b)
  messagesNew : (MessageNew.makeRequest undefined a b).receive timeNow =
    some (.getUserChatMessages a b)
  send : (Message.handleSendMessage a b m).receive timeNow = some (.sendMessage ⟨a, b, m, timeNow⟩)
  sendNew : (MessageNew.handleSendMessage a b m).receive timeNow =
    some (.sendNewMessage ⟨a, b, m, timeNow⟩)

theorem segments_addUser {u : String} (hu : Plain u.toList) (undefined : M) :
    segments (SignUp.addUserToDB undefined u).url.toList =
      ["add".toList, "user".toList, u.toList] := by
  rw [addUser_url, segments_url (by decide) (by simpa using hu)]
  rfl

/-- The route of sends is registered first: it takes the sign-up of the name "message". -/
theorem sendPath_addUser {u : String} (hu : Plain u.toList) (undefined : M) :
    sendPath.accepts (segments (SignUp.addUserToDB undefined u).url.toList) =
      sameText u.toList "message".toList := by
  rw [segments_addUser hu]
  simp [sendPath, Pattern.accepts, Segment.accepts]

theorem receive_signUp {u : String} (hu : Plain u.toList) (hne : u ≠ "")
    (hmessage : sameText u.toList "message".toList = false) (undefined : M) (timeNow : Int) :
    (SignUp.addUserToDB undefined u).receive timeNow = some (.addNewUser u) := by
  have hsend := (sendPath_addUser hu undefined).trans hmessage
  have hacc : addUserPath.accepts (segments (SignUp.addUserToDB undefined u).url.toList) = true := by
    rw [segments_addUser hu]
    simpa [addUserPath, Pattern.accepts, Segment.accepts, sameText] using hne
  have hpercent : '%' ∉ u.toList := fun hm => hu _ hm (by decide)
  rw [receive_addUser rfl hsend hacc, segments_addUser hu]
  simp [addUserPath, Pattern.params, decode_plain hpercent]

theorem receive_message {u : String} (hu : Plain u.toList)
    (hmessage : sameText u.toList "message".toList = true) (undefined : M) (timeNow : Int) :
    (SignUp.addUserToDB undefined u).receive timeNow =
      some (.sendNewMessage ⟨"add", "user", undefined, timeNow⟩) := by
  have hsend := (sendPath_addUser hu undefined).trans hmessage
  rw [receive_alone 5 rfl rfl rfl hsend, segments_addUser hu]
  rfl

theorem routed_iff {u a b : String} (hu : Word u) (ha : Word a) (hb : Word b) (undefined m : M)
    (timeNow : Int) :
    Routed undefined u a b m timeNow ↔ sameText u.toList "message".toList = false := by
  constructor
  · intro h
    rw [Bool.eq_false_iff]
    intro hmessage
    have hmis := receive_message hu.plain hmessage undefined timeNow
    rw [h.addNewUser] at hmis
    cases hmis
  · intro hmessage
    have hread : ∀ name ∈ messagesPath.names,
        param [("owner", a), ("recipient", b)] name ≠ "" ∧
          Plain (param [("owner", a), ("recipient", b)] name).toList := by
      simp [ha.plain, ha.nonempty, hb.plain, hb.nonempty]
    have hsend : ∀ name ∈ sendPath.names,
        param [("sentBy", a), ("sentTo", b)] name ≠ "" ∧
          Plain (param [("sentBy", a), ("sentTo", b)] name).toList := by
      simp [ha.plain, ha.nonempty, hb.plain, hb.nonempty]
    constructor
    case addNewUser => exact receive_signUp hu.plain hu.nonempty hmessage undefined timeNow
    case existing => exact receive_existing undefined timeNow
    case chats =>
      exact receive_template 2 rfl rfl rfl (chats_url undefined u)
        (by simp [hu.plain, hu.nonempty]) timeNow
    case messages =>
      exact receive_template 3 rfl rfl rfl (messages_url undefined a b) hread timeNow
    case messagesNew =>
      exact receive_template 3 rfl rfl rfl (messages_url undefined a b) hread timeNow
    case send => exact receive_template 4 rfl rfl rfl (send_url a b m) hsend timeNow
    case sendNew =>
      have hurl := sendNew_url a b m
      rw [hb.trim_eq] at hurl
      exact receive_template 5 rfl rfl rfl hurl hsend timeNow

theorem routed_bob : Routed "" "bob" "al-1" "C_2" "hi" 5 :=
  (routed_iff (by decide) (by decide) (by decide) "" "hi" 5).mpr (by decide)

/-- Signing up as "message" sends a message from "add" to "user". -/
theorem message_misrouted : Word "message" ∧
    (SignUp.addUserToDB "" "message").receive 5 = some (.sendNewMessage ⟨"add", "user", "", 5⟩) ∧
    ¬ ∀ (u a b m : String) (timeNow : Int), Word u → Word a → Word b →
      Routed "" u a b m timeNow := by
  have hmis : (SignUp.addUserToDB "" "message").receive 5 =
      some (.sendNewMessage ⟨"add", "user", "", 5⟩) :=
    receive_message (by decide) (by decide) "" 5
  refine ⟨by decide, hmis, fun h => ?_⟩
  have hadd := (h "message" "al" "bob" "hi" 5 (by decide) (by decide) (by decide)).addNewUser
  rw [hmis] at hadd
  cases hadd

end RecoupChat
