import RecoupChat.ChatIds
import RecoupChat.ChatOrder
import RecoupChat.RowContents
import RecoupChat.Solo

/-! The service looks at usernames only to tell them apart, also in lower case, at messages
only to compare them, and at times only for their order, as far as they are dates. Changing all of
them alike changes the stores and the answers alike, and nothing else. -/
namespace RecoupChat
open Promise Collection Transition
variable {M N : Type} {toLowerCase toLowerCase' : String → String}

/-- Another choice of names, messages and times, in which the same ones are equal and later
times are later. -/
structure Relabel (toLowerCase toLowerCase' : String → String) (M N : Type) where
  user : String → String
  message : M → N
  time : Int → Int
  userInjective : Function.Injective user
  messageInjective : Function.Injective message
  timeOrder : ∀ t t', time t < time t' ↔ t < t'
  sameLower : ∀ u v, toLowerCase' (user u) = toLowerCase' (user v) ↔ toLowerCase u = toLowerCase v

namespace Relabel
variable (l : Relabel toLowerCase toLowerCase' M N)

def row (r : Row M) : Row N := ⟨l.user r.toUsername, l.message r.lastMessage, l.time r.lastMessageTime⟩

def entry (e : Entry M) : Entry N := ⟨l.user e.sentBy, l.message e.message, l.time e.time⟩

def userMessages (d : UserMessages M) : UserMessages N := ⟨l.user d.username, d.messages.map l.row⟩

def chatId (d : ChatId) : ChatId := ⟨d.chatId, l.user d.user1, l.user d.user2⟩

def chatMessages (d : ChatMessages M) : ChatMessages N := ⟨d.chatId, d.messages.map l.entry⟩

def store (s : Store M) : Store N where
  users := s.users.map fun d => ⟨l.user d.username⟩
  userMessages := s.userMessages.map l.userMessages
  chatIds := s.chatIds.map l.chatId
  chatMessages := s.chatMessages.map l.chatMessages

def send (d : Send M) : Send N := ⟨l.user d.sentBy, l.user d.sentTo, l.message d.message, l.time d.timeNow⟩

def request : Request M → Request N
  | .getExistingUsernames => .getExistingUsernames
  | .getUserChats u => .getUserChats (l.user u)
  | .getUserChatMessages a b => .getUserChatMessages (l.user a) (l.user b)
  | .sendMessage d => .sendMessage (l.send d)
  | .sendNewMessage d => .sendNewMessage (l.send d)
  | .addNewUser u => .addNewUser (l.user u)

def response : Response M → Response N
  | .usernames us => .usernames (us.map l.user)
  | .chats rows => .chats (rows.map l.row)
  | .messages es => .messages (es.map l.entry)
  | .sent u => .sent (l.user u)
  | .success => .success
  | .error message => .error message

def action : Action M → Action N
  | .issue r => .issue (l.request r)
  | .fulfil i j => .fulfil i j
  | .reject i j => .reject i j

def outcome (x : Request M × List (Response M)) : Request N × List (Response N) :=
  (l.request x.1, x.2.map l.response)

def point : Point M → Point N
  | .usersFind d => .usersFind (l.send d)
  | .findChat create d => .findChat create (l.send d)
  | .push d c => .push (l.send d) c
  | .findLast d => .findLast (l.send d)
  | .insertChat d n => .insertChat (l.send d) n
  | .insertLog d n => .insertLog (l.send d) n
  | .findBy create d => .findBy create (l.send d)
  | .updateBy create d rows => .updateBy create (l.send d) (rows.map l.row)
  | .findTo create d => .findTo create (l.send d)
  | .updateTo create d rows => .updateTo create (l.send d) (rows.map l.row)
  | .insertUser u => .insertUser (l.user u)
  | .insertUserMessages u => .insertUserMessages (l.user u)
  | .findUsernames => .findUsernames
  | .findRows u => .findRows (l.user u)
  | .findIds a b => .findIds (l.user a) (l.user b)
  | .findLog a b c => .findLog (l.user a) (l.user b) c
  | .answered resp => .answered (l.response resp)

def psys (ps : PSys M) : PSys N :=
  ⟨l.store ps.store, ps.requests.map fun x => (l.request x.1, l.point x.2)⟩

def Dates (t : Int) : Prop := IsDate t ∧ IsDate (l.time t)

instance (t : Int) : Decidable (l.Dates t) := inferInstanceAs (Decidable (_ ∧ _))

structure Dated (ps : PSys M) : Prop where
  rows : RowsAll (fun _ t => l.Dates t) ps.store
  points : ps.Each fun _ _ p => p.Carries fun _ t => l.Dates t

/-! The equalities that the calls test. -/

theorem user_beq (u v : String) : (l.user u == l.user v) = (u == v) := by
  rw [Bool.eq_iff_iff, beq_iff_eq, beq_iff_eq, l.userInjective.eq_iff]

theorem timeInjective : Function.Injective l.time := by
  intro t t' h
  have hle := l.timeOrder t t'
  have hge := l.timeOrder t' t
  omega

theorem rowInjective : Function.Injective l.row := by
  rintro ⟨u, m, t⟩ ⟨u', m', t'⟩ h
  obtain ⟨hu, hm, ht⟩ := Row.mk.inj h
  exact Row.mk.injEq .. ▸ ⟨l.userInjective hu, l.messageInjective hm, l.timeInjective ht⟩

theorem links_chatId (a b : String) (doc : ChatId) :
    (l.chatId doc).links (l.user a) (l.user b) = doc.links a b := by
  simp only [ChatId.links, chatId, user_beq]

theorem userExists_users (sentTo : String) (users : List User) :
    userExists toLowerCase' (l.user sentTo) (users.map fun d => ⟨l.user d.username⟩) =
      userExists toLowerCase sentTo users := by
  have hbeq (u : User) : (toLowerCase' (l.user sentTo) == toLowerCase' (l.user u.username)) =
      (toLowerCase sentTo == toLowerCase u.username) := by
    rw [Bool.eq_iff_iff, beq_iff_eq, beq_iff_eq, l.sameLower]
  rw [userExists, userExists, List.map_map, List.contains_eq_any_beq, List.contains_eq_any_beq,
    List.any_map, List.any_map]
  exact congrArg (List.any users) (funext hbeq)

/-! What the lookups find. -/

theorem userExists_store (s : Store M) (d : Send M) :
    userExists toLowerCase' (l.send d).sentTo (l.store s).users =
      userExists toLowerCase d.sentTo s.users := l.userExists_users d.sentTo s.users

theorem chat_store (s : Store M) (a b : String) :
    (l.store s).chat (l.user a) (l.user b) = (s.chat a b).map l.chatId :=
  findOne_map (l.links_chatId a b) s.chatIds

theorem log_store (s : Store M) (c : Nat) :
    (l.store s).log c = (s.log c).map (·.map l.entry) := by
  have h := findOne_map (p := fun d : ChatMessages M => d.chatId == c)
    (q := fun d : ChatMessages N => d.chatId == c) (g := l.chatMessages) (fun _ => rfl)
    s.chatMessages
  rw [Store.log, Store.logDoc, store, h, Store.log, Store.logDoc, Option.map_map, Option.map_map]
  rfl

theorem rows_store (s : Store M) (u : String) :
    (l.store s).rows (l.user u) = (s.rows u).map (·.map l.row) := by
  have h := findOne_map (p := fun d : UserMessages M => d.username == u)
    (q := fun d : UserMessages N => d.username == l.user u) (g := l.userMessages)
    (fun d => l.user_beq d.username u) s.userMessages
  rw [Store.rows, Store.rowsDoc, store, h, Store.rows, Store.rowsDoc, Option.map_map, Option.map_map]
  rfl

theorem newChatId_store (s : Store M) : newChatId (l.store s).lastChat = newChatId s.lastChat := by
  apply Nat.le_antisymm
  · refine newChatId_le fun doc hd => ?_
    obtain ⟨doc', hd', rfl⟩ := List.mem_map.mp hd
    exact (lt_newChatId hd' : doc'.chatId < newChatId s.lastChat)
  · refine newChatId_le fun doc hd => ?_
    have hd' : l.chatId doc ∈ (l.store s).chatIds := List.mem_map_of_mem hd
    exact (lt_newChatId hd' : (l.chatId doc).chatId < newChatId (l.store s).lastChat)

theorem newestFirst_row {r r' : Row M} (h : l.Dates r.lastMessageTime)
    (h' : l.Dates r'.lastMessageTime) : newestFirst (l.row r) (l.row r') = newestFirst r r' := by
  have hrow : newestFirst (l.row r) (l.row r') =
      if l.time r.lastMessageTime < l.time r'.lastMessageTime then 1 else -1 :=
    newestFirst_of_dates h.2 h'.2
  simp only [hrow, newestFirst_of_dates h.1 h'.1, l.timeOrder]

theorem jsSort_rows {rows : List (Row M)} (h : ∀ r ∈ rows, l.Dates r.lastMessageTime) :
    jsSort newestFirst (rows.map l.row) = (jsSort newestFirst rows).map l.row := by
  refine (List.map_mergeSort fun r hr r' hr' => ?_).symm
  rw [l.newestFirst_row (h r hr) (h r' hr')]

theorem rowFor_rows (v : String) (rows : List (Row M)) :
    rowFor (l.user v) (rows.map l.row) = (rowFor v rows).map l.row :=
  findOne_map (p := fun r : Row M => r.toUsername == v)
    (q := fun r : Row N => r.toUsername == l.user v) (fun r => l.user_beq r.toUsername v) rows

/-! The points. -/

theorem point_start (r : Request M) : Point.start (l.request r) = l.point (.start r) := by
  cases r <;> rfl

theorem call_point (p : Point M) : (l.point p).call?.isSome = p.call?.isSome := by
  cases p <;> rfl

theorem point_ite {P P' : Prop} [Decidable P] [Decidable P'] (h : P' ↔ P) (p q : Point M) :
    (if P' then l.point p else l.point q) = l.point (if P then p else q) := by
  by_cases hp : P
  · rw [if_pos hp, if_pos (h.mpr hp)]
  · rw [if_neg hp, if_neg (mt h.mp hp)]

section Writes
variable [DecidableEq M] [DecidableEq N]

theorem putRow_rows (create : Bool) (v : String) (m : M) (t : Int) (rows : List (Row M)) :
    putRow create (l.user v) (l.message m) (l.time t) (rows.map l.row) =
      (putRow create v m t rows).map (·.map l.row) := by
  have hshow := updateOne_map (p := fun r : Row M => r.toUsername == v)
    (q := fun r : Row N => r.toUsername == l.user v) (f := Row.setLast m t)
    (k := Row.setLast (l.message m) (l.time t)) (g := l.row)
    (fun r => l.user_beq r.toUsername v) (fun _ => rfl) rows
  rw [putRow_eq, putRow_eq, rowFor_rows]
  cases rowFor v rows with
  | some r => exact congrArg some hshow.symm
  | none => cases create <;> simp [row]

theorem push_store (s : Store M) (c : Nat) (e : Entry M) :
    (l.store s).push c (l.entry e) = l.store (s.push c e) := by
  have hdocs := updateOne_map (p := fun d : ChatMessages M => d.chatId == c)
    (q := fun d : ChatMessages N => d.chatId == c)
    (f := fun d => { d with messages := d.messages ++ [e] })
    (k := fun d => { d with messages := d.messages ++ [l.entry e] }) (g := l.chatMessages)
    (fun _ => rfl) (fun d => by simp [chatMessages]) s.chatMessages
  simp only [Store.push, pushIn, store, hdocs]

theorem setRows_store (s : Store M) (u : String) (rows : List (Row M)) :
    (l.store s).setRows (l.user u) (rows.map l.row) = l.store (s.setRows u rows) := by
  have hdocs := updateOne_map (p := fun d : UserMessages M => d.username == u)
    (q := fun d : UserMessages N => d.username == l.user u)
    (f := fun d => { d with messages := rows })
    (k := fun d => { d with messages := rows.map l.row }) (g := l.userMessages)
    (fun d => l.user_beq d.username u) (fun _ => rfl) s.userMessages
  simp only [Store.setRows, setRowsIn, store, hdocs]

theorem push_modified_store (s : Store M) (c : Nat) (e : Entry M) :
    (pushIn c (l.entry e) (l.store s).chatMessages).2.modifiedCount = 1 ↔
      (pushIn c e s.chatMessages).2.modifiedCount = 1 := by
  rw [push_modified, push_modified, log_store, Option.isSome_map]

theorem setRows_modified_store (s : Store M) (u : String) (rows : List (Row M)) :
    (setRowsIn (l.user u) (rows.map l.row) (l.store s).userMessages).2.modifiedCount = 1 ↔
      (setRowsIn u rows s.userMessages).2.modifiedCount = 1 := by
  rw [setRows_modified, setRows_modified, rows_store]
  cases s.rows u with
  | none => simp
  | some cur => simp [(List.map_injective_iff.mpr l.rowInjective).eq_iff]

/-! The steps. -/

theorem point_afterFind (create : Bool) (v : String) (d : Send M) (rows : Option (List (Row M)))
    {q : List (Row M) → Point M} {k : List (Row N) → Point N}
    (hq : ∀ rows', k (rows'.map l.row) = l.point (q rows')) :
    Point.afterFind create (l.user v) (l.send d) (rows.map (·.map l.row)) k =
      l.point (Point.afterFind create v d rows q) := by
  cases rows with
  | none => rfl
  | some rows =>
    have hput := l.putRow_rows create v d.message d.timeNow rows
    simp only [Point.afterFind, Option.map_some, Option.bind_some, send, hput]
    cases putRow create v d.message d.timeNow rows with
    | none => rfl
    | some rows' => exact hq rows'

theorem next_point (p : Point M) {s : Store M} (hs : RowsAll (fun _ t => l.Dates t) s) :
    (l.point p).next toLowerCase' (l.store s) =
      (l.store (p.next toLowerCase s).1, l.point (p.next toLowerCase s).2) := by
  cases p with
  | usersFind d =>
    simp only [point, Point.next, userExists_store]
    split <;> rfl
  | findChat create d =>
    have hchat := l.chat_store s d.sentBy d.sentTo
    simp only [point, Point.next, send, hchat]
    cases s.chat d.sentBy d.sentTo with
    | some doc => rfl
    | none => cases create <;> rfl
  | push d c =>
    have hpush := l.push_store s c d.entry
    have hmod := l.push_modified_store s c d.entry
    exact Prod.ext hpush (l.point_ite hmod (.findBy false d) .failed)
  | findLast d => simp only [point, Point.next, newChatId_store]
  | insertChat d n => simp [point, Point.next, Store.insertChat, store, send, chatId]
  | insertLog d n =>
    simp [point, Point.next, Store.insertLog, store, send, chatMessages, entry, Send.entry]
  | findBy create d =>
    have hrows := l.rows_store s d.sentBy
    have hfind := l.point_afterFind create d.sentTo d (s.rows d.sentBy)
      (q := .updateBy create d) (k := .updateBy create (l.send d)) fun _ => rfl
    exact Prod.ext rfl ((congrArg (Point.afterFind create _ _ · _) hrows).trans hfind)
  | updateBy create d rows =>
    have hset := l.setRows_store s d.sentBy rows
    have hmod := l.setRows_modified_store s d.sentBy rows
    exact Prod.ext hset (l.point_ite hmod (.findTo create d) .failed)
  | findTo create d =>
    have hrows := l.rows_store s d.sentTo
    have hfind := l.point_afterFind create d.sentBy d (s.rows d.sentTo)
      (q := .updateTo create d) (k := .updateTo create (l.send d)) fun _ => rfl
    exact Prod.ext rfl ((congrArg (Point.afterFind create _ _ · _) hrows).trans hfind)
  | updateTo create d rows =>
    have hset := l.setRows_store s d.sentTo rows
    have hmod := l.setRows_modified_store s d.sentTo rows
    cases create with
    | true => exact Prod.ext hset (l.point_ite hmod (.answered .success) .failed)
    | false => exact Prod.ext hset (l.point_ite hmod (.answered (.sent d.sentTo)) .failed)
  | insertUser u => simp [point, Point.next, Store.insertUser, store]
  | insertUserMessages u =>
    simp [point, Point.next, Store.insertUserMessages, store, userMessages, response]
  | findUsernames => simp [point, Point.next, store, response, Function.comp_def]
  | findRows u =>
    simp only [point, Point.next, rows_store]
    cases hr : s.rows u with
    | none => rfl
    | some rows => simp [response, l.jsSort_rows (hs.rows hr)]
  | findIds a b =>
    simp only [point, Point.next, chat_store]
    cases s.chat a b <;> rfl
  | findLog a b c =>
    simp only [point, Point.next, log_store]
    cases s.log c <;> rfl
  | answered resp => rfl

theorem step_psys {ps : PSys M} (h : l.Dated ps) (a : Action M) :
    (l.psys ps).step toLowerCase' (l.action a) = (ps.step toLowerCase a).map l.psys := by
  have hwaiting (i j : Nat) : (l.psys ps).waiting? i j =
      (ps.waiting? i j).map fun x => (l.request x.1, l.point x.2) := by
    simp only [PSys.waiting?, psys, List.getElem?_map]
    cases ps.requests[i]? with
    | none => rfl
    | some x =>
      simp only [Option.map_some, Option.bind_some, call_point]
      split <;> rfl
  cases a with
  | issue r => simp [PSys.step, PSys.issue, psys, action, point_start]
  | fulfil i j =>
    simp only [PSys.step, action, hwaiting]
    cases ps.waiting? i j with
    | none => rfl
    | some x =>
      have hnext := l.next_point x.2 h.rows
      simp only [Option.map_some, PSys.fulfil, psys, hnext, List.map_set]
  | reject i j =>
    simp only [PSys.step, action, hwaiting]
    cases ps.waiting? i j with
    | none => rfl
    | some x => simp [PSys.reject, psys, List.map_set, Point.failed, point, response]

omit [DecidableEq N] in
theorem dated_step {ps ps' : PSys M} (h : l.Dated ps) {a : Action M}
    (hs : ps.step toLowerCase a = some ps')
    (ha : ∀ r, a = .issue r → ∀ d, r.send? = some d → l.Dates d.timeNow) : l.Dated ps' := by
  cases steps hs with
  | issue r => exact ⟨h.rows, each_issue h.points (carries_start fun d hd => ha r rfl d hd)⟩
  | fulfil i r p hi hc =>
    obtain ⟨hrows, hpoint⟩ := carries_next p ps.store ⟨h.rows, h.points i r p hi⟩
    exact ⟨hrows, each_fulfil (fun j r' q _ hj => h.points j r' q hj) hpoint⟩
  | reject i r p hi hc => exact ⟨h.rows, each_reject h.points trivial⟩

theorem sent_point (p : Point M) : ((l.point p).thread toLowerCase').sent =
    (p.thread toLowerCase).sent.map l.response := by
  by_cases hc : p.call? = none
  · obtain ⟨resp, rfl⟩ := Point.call?_eq_none hc
    rfl
  · have hc' : (l.point p).call? ≠ none := by
      rw [← Option.isSome_iff_ne_none, call_point, Option.isSome_iff_ne_none]
      exact hc
    obtain ⟨c, f, hw⟩ := Point.waits toLowerCase p Store.empty hc
    obtain ⟨c', f', hw'⟩ := Point.waits toLowerCase' (l.point p) Store.empty hc'
    simp only [Point.thread, hw.code, hw'.code, begin_chain, List.map_nil]

end Writes
end Relabel

/-- The same actions with other names, messages and times can be taken after one another
exactly if the original ones can, and lead to the store and the answers that are the original
ones with the other names, messages and times. The times are dates in both runs. -/
theorem relabelled_run [DecidableEq M] [DecidableEq N]
    (l : Relabel toLowerCase toLowerCase' M N) (s0 : Store M) (as : List (Action M))
    (hrows : ∀ um ∈ s0.userMessages, ∀ r ∈ um.messages, l.Dates r.lastMessageTime)
    (hsends : ∀ r, .issue r ∈ as → ∀ d, r.send? = some d → l.Dates d.timeNow) :
    (after (Sys.step toLowerCase') (Sys.init (l.store s0)) (as.map l.action)).map
        (fun s => (s.store, s.outcome)) =
      (after (Sys.step toLowerCase) (Sys.init s0) as).map
        fun s => (l.store s.store, s.outcome.map l.outcome) := by
  have hrun := after_map (f := PSys.sys toLowerCase) (g := id) step_sys as ⟨s0, []⟩
  have hrun' := after_map (f := PSys.sys toLowerCase') (g := id) step_sys (as.map l.action)
    ⟨l.store s0, []⟩
  have hpsys : after (PSys.step toLowerCase') (l.psys ⟨s0, []⟩) (as.map l.action) =
      (after (PSys.step toLowerCase) ⟨s0, []⟩ as).map l.psys :=
    after_map_kept (J := l.Dated) ⟨hrows, each_init s0⟩ (fun a _ ps hps => l.step_psys hps a)
      fun a ha ps ps' hps hs => l.dated_step hps hs fun r hr => hsends r (hr ▸ ha)
  rw [List.map_id] at hrun hrun'
  change after _ (PSys.sys toLowerCase' ⟨l.store s0, []⟩) _ = _ at hrun'
  change (after _ (PSys.sys toLowerCase' ⟨l.store s0, []⟩) _).map _ =
    (after _ (PSys.sys toLowerCase ⟨s0, []⟩) _).map _
  have hinit : (⟨l.store s0, []⟩ : PSys N) = l.psys ⟨s0, []⟩ := rfl
  rw [hrun, hrun', hinit, hpsys, Option.map_map, Option.map_map, Option.map_map]
  congr 1
  funext ps
  have houtcome : ((l.psys ps).sys toLowerCase').outcome =
      (ps.sys toLowerCase).outcome.map l.outcome := by
    simp only [outcome_sys, Relabel.psys, List.map_map]
    refine List.map_congr_left fun x _ => ?_
    exact Prod.ext rfl (l.sent_point x.2)
  exact Prod.ext rfl houtcome

def titled : Relabel id id String String where
  user u := "the " ++ u
  message m := m ++ "!"
  time t := 2 * t + 1000
  userInjective u v h := by simpa using h
  messageInjective m m' h := by simpa using h
  timeOrder t t' := by omega
  sameLower u v := by simp

def annGreetsBob : List (Action String) :=
  [.issue (.addNewUser "ann"), .issue (.addNewUser "bob")] ++ calls 0 2 ++ calls 1 2 ++
    [.issue (.sendNewMessage ⟨"ann", "bob", "hi", 1⟩)] ++ calls 2 9

theorem relabelled_run_titled :
    (after (Sys.step id) (Sys.init Store.empty) (annGreetsBob.map titled.action)).map
      (fun s => s.store.rows "the bob") = some (some [⟨"the ann", "hi!", 1002⟩]) := by
  have hsends (r : Request String) (hr : .issue r ∈ annGreetsBob) (d : Send String)
      (hd : r.send? = some d) : titled.Dates d.timeNow := by
    simp only [annGreetsBob, calls, List.mem_append, List.mem_cons, List.mem_replicate,
      List.not_mem_nil, reduceCtorEq, and_false, or_false, Action.issue.injEq] at hr
    obtain (rfl | rfl) | rfl := hr <;> cases hd
    decide
  have hrun := relabelled_run titled Store.empty annGreetsBob (by simp [Store.empty]) hsends
  have hstore : (after (Sys.step id) (Sys.init Store.empty) annGreetsBob).map (·.store.rows "bob") =
      some (some [⟨"ann", "hi", 1⟩]) := by decide +kernel
  obtain ⟨s, hs, hrows⟩ := Option.map_eq_some_iff.mp hstore
  rw [hs] at hrun
  obtain ⟨s', hs', heq⟩ := Option.map_eq_some_iff.mp hrun
  refine Option.map_eq_some_iff.mpr ⟨s', hs', ?_⟩
  have hsame : s'.store = titled.store s.store := congrArg Prod.fst heq
  have hbob : titled.user "bob" = "the bob" := by decide
  rw [hsame, ← hbob, titled.rows_store, hrows]
  decide

end RecoupChat
