import RecoupChat.System

/-! The control points of the handlers: where a request stands between two of its database
calls, with the values its callbacks have captured. A thread of the system is always at
one of them, so runs of the system are runs over points. -/
namespace RecoupChat
open Promise Collection Transition
variable {M : Type}

/-- The call a request waits for, or the answer it has sent. `create` tells the branch of
`sendNewMessage` that creates a chat from the two copies of the other branch. -/
inductive Point (M : Type) where
  | usersFind (d : Send M)
  | findChat (create : Bool) (d : Send M)
  | push (d : Send M) (chatId : Nat)
  | findLast (d : Send M)
  | insertChat (d : Send M) (newChatId : Nat)
  | insertLog (d : Send M) (newChatId : Nat)
  | findBy (create : Bool) (d : Send M)
  | updateBy (create : Bool) (d : Send M) (toUpdate : List (Row M))
  | findTo (create : Bool) (d : Send M)
  | updateTo (create : Bool) (d : Send M) (toUpdate : List (Row M))
  | insertUser (username : String)
  | insertUserMessages (username : String)
  | findUsernames
  | findRows (username : String)
  | findIds (owner recipient : String)
  | findLog (owner recipient : String) (chatId : Nat)
  | answered (resp : Response M)

namespace Point

def failed : Point M := .answered (.error "DB_ERR")

def start : Request M → Point M
  | .getExistingUsernames => .findUsernames
  | .getUserChats username => .findRows username
  | .getUserChatMessages owner recipient => .findIds owner recipient
  | .sendMessage d => .findChat false d
  | .sendNewMessage d => .usersFind d
  | .addNewUser username => .insertUser username

/-- The program of the handler from this point on. -/
def code (toLowerCase : String → String) : Point M → Handler M
  | .usersFind d => sendNewMessage toLowerCase d
  | .findChat false d => sendMessage d
  | .findChat true d => sendNewMessage.findChat d
  | .push d c => sendMessage.push d c
  | .findLast d => sendNewMessage.findLast d
  | .insertChat d n => sendNewMessage.insertChat d n
  | .insertLog d n => sendNewMessage.insertLog d n
  | .findBy false d => sendMessage.findBy d
  | .findBy true d => sendNewMessage.createFindBy d
  | .updateBy false d rows => sendMessage.updateBy d rows
  | .updateBy true d rows => sendNewMessage.createRowBy d rows
  | .findTo false d => sendMessage.findTo d
  | .findTo true d => sendNewMessage.createFindTo d
  | .updateTo false d rows => sendMessage.updateTo d rows
  | .updateTo true d rows => sendNewMessage.createRowTo d rows
  | .insertUser u => addNewUser u
  | .insertUserMessages u => addNewUser.insertUserMessages u
  | .findUsernames => getExistingUsernames
  | .findRows u => getUserChats u
  | .findIds a b => getUserChatMessages a b
  | .findLog _ _ c => getUserChatMessages.findLog c
  | .answered resp => reply resp

def thread (toLowerCase : String → String) (p : Point M) : HandlerThread M :=
  (p.code toLowerCase).begin

def call? : Point M → Option (Call M)
  | .usersFind _ | .findUsernames => some .usersFind
  | .findChat _ d => some (.chatIdsFindOne d.sentBy d.sentTo)
  | .push d c => some (.chatMessagesPush c d.entry)
  | .findLast _ => some .chatIdsFindLast
  | .insertChat d n => some (.chatIdsInsertOne ⟨n, d.sentBy, d.sentTo⟩)
  | .insertLog d n => some (.chatMessagesInsertOne ⟨n, [d.entry]⟩)
  | .findBy _ d => some (.userMessagesFindOne d.sentBy)
  | .updateBy _ d rows => some (.userMessagesSet d.sentBy rows)
  | .findTo _ d => some (.userMessagesFindOne d.sentTo)
  | .updateTo _ d rows => some (.userMessagesSet d.sentTo rows)
  | .insertUser u => some (.usersInsertOne ⟨u⟩)
  | .insertUserMessages u => some (.userMessagesInsertOne ⟨u, []⟩)
  | .findRows u => some (.userMessagesFindOne u)
  | .findIds a b => some (.chatIdsFindOne a b)
  | .findLog _ _ c => some (.chatMessagesFindOne c)
  | .answered _ => none

def afterFind (create : Bool) (v : String) (d : Send M) (rows : Option (List (Row M)))
    (next : List (Row M) → Point M) : Point M :=
  match rows.bind (putRow create v d.message d.timeNow) with
  | some toUpdate => next toUpdate
  | none => failed

/-- What running the awaited call does: the store after it and the next point. -/
def next [DecidableEq M] (toLowerCase : String → String) : Point M → Store M → Store M × Point M
  | .usersFind d, s => (s, if userExists toLowerCase d.sentTo s.users then .findChat true d
      else .answered (.error "USER DOES NOT EXIST"))
  | .findChat create d, s => (s, match s.chat d.sentBy d.sentTo with
      | some doc => .push d doc.chatId
      | none => if create then .findLast d else failed)
  | .push d c, s => (s.push c d.entry,
      if (pushIn c d.entry s.chatMessages).2.modifiedCount = 1 then .findBy false d else failed)
  | .findLast d, s => (s, .insertChat d (newChatId s.lastChat))
  | .insertChat d n, s => (s.insertChat ⟨n, d.sentBy, d.sentTo⟩, .insertLog d n)
  | .insertLog d n, s => (s.insertLog ⟨n, [d.entry]⟩, .findBy true d)
  | .findBy create d, s =>
      (s, afterFind create d.sentTo d (s.rows d.sentBy) (.updateBy create d))
  | .updateBy create d rows, s => (s.setRows d.sentBy rows,
      if (setRowsIn d.sentBy rows s.userMessages).2.modifiedCount = 1 then .findTo create d
      else failed)
  | .findTo create d, s =>
      (s, afterFind create d.sentBy d (s.rows d.sentTo) (.updateTo create d))
  | .updateTo create d rows, s => (s.setRows d.sentTo rows,
      if (setRowsIn d.sentTo rows s.userMessages).2.modifiedCount = 1 then
        .answered (if create then .success else .sent d.sentTo)
      else failed)
  | .insertUser u, s => (s.insertUser ⟨u⟩, .insertUserMessages u)
  | .insertUserMessages u, s => (s.insertUserMessages ⟨u, []⟩, .answered .success)
  | .findUsernames, s => (s, .answered (.usernames (s.users.map (·.username))))
  | .findRows u, s => (s, match s.rows u with
      | some rows => .answered (.chats (jsSort newestFirst rows))
      | none => .answered (.chats []))
  | .findIds a b, s => (s, match s.chat a b with
      | some doc => .findLog a b doc.chatId
      | none => failed)
  | .findLog _ _ c, s => (s, match s.log c with
      | some es => .answered (.messages es)
      | none => failed)
  | .answered resp, s => (s, .answered resp)

variable (toLowerCase : String → String)

theorem thread_start (r : Request M) :
    (start r).thread toLowerCase = (r.handler toLowerCase).begin := by
  cases r <;> rfl

@[simp] theorem thread_answered (resp : Response M) :
    (answered resp).thread toLowerCase = ⟨[], [resp]⟩ := rfl

theorem call?_eq_none {p : Point M} (h : p.call? = none) : ∃ resp, p = answered resp := by
  cases p with
  | answered resp => exact ⟨resp, rfl⟩
  | _ => cases h

/-- At every point the program replies or starts one chain, whose handler replies. -/
theorem code_shape (p : Point M) :
    (∃ resp, p.code toLowerCase = reply resp) ∨
      ∃ c f, p.code toLowerCase = chain c f dbErr := by
  cases p with
  | answered resp => exact Or.inl ⟨resp, rfl⟩
  | findChat create d => cases create <;> exact Or.inr ⟨_, _, rfl⟩
  | findBy create d => cases create <;> exact Or.inr ⟨_, _, rfl⟩
  | updateBy create d rows => cases create <;> exact Or.inr ⟨_, _, rfl⟩
  | findTo create d => cases create <;> exact Or.inr ⟨_, _, rfl⟩
  | updateTo create d rows => cases create <;> exact Or.inr ⟨_, _, rfl⟩
  | _ => exact Or.inr ⟨_, _, rfl⟩

theorem code_body (p : Point M) (th : HandlerThread M) :
    ((p.code toLowerCase).body th).2 = false := by
  rcases code_shape toLowerCase p with ⟨resp, h⟩ | ⟨c, f, h⟩ <;> rw [h] <;> rfl

theorem code_exec [DecidableEq M] (p : Point M) (w : World (Store M) (Response M)) :
    ((p.code toLowerCase).exec Call.run w).2 = false := by
  rcases code_shape toLowerCase p with ⟨resp, h⟩ | ⟨c, f, h⟩
  · rw [h]
    rfl
  · rw [h, exec_chain]
    split <;> rfl

def rank : Point M → Nat
  | .usersFind _ => 9
  | .findChat _ _ => 8
  | .findLast _ => 7
  | .insertChat _ _ => 6
  | .push _ _ | .insertLog _ _ => 5
  | .findBy _ _ => 4
  | .updateBy _ _ _ => 3
  | .findTo _ _ | .insertUser _ | .findIds _ _ => 2
  | .updateTo _ _ _ | .insertUserMessages _ | .findUsernames | .findRows _ | .findLog _ _ _ => 1
  | .answered _ => 0

theorem rank_afterFind {create : Bool} {v : String} {d : Send M} {rows : Option (List (Row M))}
    {q : List (Row M) → Point M} {n : Nat} (hn : 0 < n) (h : ∀ rows', (q rows').rank < n) :
    (afterFind create v d rows q).rank < n := by
  simp only [afterFind]
  split
  · exact h _
  · exact hn

/-- How the program at a waiting point runs on: it is one chain on call `c`, and its callback
goes on at the next point, or throws where that is the error answer. -/
structure Waits [DecidableEq M] (p : Point M) (s : Store M) (c : Call M)
    (f : c.Result → Handler M) : Prop where
  code : p.code toLowerCase = chain c f dbErr
  call : p.call? = some c
  store : (c.run s).1 = (p.next toLowerCase s).1
  result : f (c.run s).2 = (p.next toLowerCase s).2.code toLowerCase ∨
    f (c.run s).2 = .throw ∧ (p.next toLowerCase s).2 = failed

theorem result_find (v : String) (d : Send M) (doc : Option (UserMessages M))
    (q : List (Row M) → Point M) :
    let ran : Handler M := match doc with
      | none => .throw
      | some result => match setLastMessage v d.message d.timeNow result.messages with
        | none => .throw
        | some toUpdate => (q toUpdate).code toLowerCase
    let p := afterFind false v d (doc.map (·.messages)) q
    ran = p.code toLowerCase ∨ ran = .throw ∧ p = failed := by
  cases doc with
  | none => exact Or.inr ⟨rfl, rfl⟩
  | some result =>
    cases hr : setLastMessage v d.message d.timeNow result.messages <;>
      simp [afterFind, putRow, hr]

section Waiting
variable [DecidableEq M]

theorem waits (p : Point M) (s : Store M) (h : p.call? ≠ none) :
    ∃ c f, Waits toLowerCase p s c f := by
  cases p with
  | answered resp => exact absurd rfl h
  | usersFind d =>
    refine ⟨_, _, rfl, rfl, rfl, Or.inl ?_⟩
    change (if userExists toLowerCase d.sentTo s.users then _ else _) = _
    simp only [next]
    split <;> rfl
  | findChat create d =>
    cases create <;>
    · refine ⟨_, _, rfl, rfl, rfl, Or.inl ?_⟩
      simp only [next, Call.run]
      cases s.chat d.sentBy d.sentTo <;> rfl
  | push d c =>
    refine ⟨_, _, rfl, rfl, rfl, Or.inl ?_⟩
    change (if (pushIn c d.entry s.chatMessages).2.modifiedCount = 1 then _ else _) = _
    simp only [next]
    split <;> rfl
  | findBy create d =>
    cases create with
    | false => exact ⟨_, _, rfl, rfl, rfl,
        result_find toLowerCase d.sentTo d (s.rowsDoc d.sentBy) (updateBy false d)⟩
    | true =>
      refine ⟨_, _, rfl, rfl, rfl, Or.inl ?_⟩
      simp only [next, Call.run, Store.rows]
      cases s.rowsDoc d.sentBy <;> rfl
  | updateBy create d rows =>
    cases create <;>
    · refine ⟨_, _, rfl, rfl, rfl, Or.inl ?_⟩
      change (if (setRowsIn d.sentBy rows s.userMessages).2.modifiedCount = 1 then _ else _) = _
      simp only [next]
      split <;> rfl
  | findTo create d =>
    cases create with
    | false => exact ⟨_, _, rfl, rfl, rfl,
        result_find toLowerCase d.sentBy d (s.rowsDoc d.sentTo) (updateTo false d)⟩
    | true =>
      refine ⟨_, _, rfl, rfl, rfl, Or.inl ?_⟩
      simp only [next, Call.run, Store.rows]
      cases s.rowsDoc d.sentTo <;> rfl
  | updateTo create d rows =>
    cases create <;>
    · refine ⟨_, _, rfl, rfl, rfl, Or.inl ?_⟩
      change (if (setRowsIn d.sentTo rows s.userMessages).2.modifiedCount = 1 then _ else _) = _
      simp only [next]
      split <;> rfl
  | findRows u =>
    refine ⟨_, _, rfl, rfl, rfl, Or.inl ?_⟩
    simp only [next, Call.run, Store.rows]
    cases s.rowsDoc u <;> rfl
  | findIds a b =>
    refine ⟨_, _, rfl, rfl, rfl, Or.inl ?_⟩
    simp only [next, Call.run]
    cases s.chat a b <;> rfl
  | findLog a b c =>
    refine ⟨_, _, rfl, rfl, rfl, ?_⟩
    simp only [next, Call.run, Store.log]
    cases s.logDoc c with
    | none => exact Or.inr ⟨rfl, rfl⟩
    | some doc => exact Or.inl rfl
  | _ => exact ⟨_, _, rfl, rfl, rfl, Or.inl rfl⟩

/-- Settling the one pending chain of a waiting thread leads to the next point. -/
theorem settle_fulfilled {p : Point M} {s : Store M} {c : Call M} {f : c.Result → Handler M}
    (h : Waits toLowerCase p s c f) :
    (⟨c, f, dbErr⟩ : Chain (Call M) Call.Result (Response M)).settle (some (c.run s).2)
      Thread.idle = (p.next toLowerCase s).2.thread toLowerCase := by
  rcases h.result with hr | ⟨hr, hp⟩
  · have hb := code_body toLowerCase (p.next toLowerCase s).2 Thread.idle
    simp only [Chain.settle, hr, hb, Bool.false_eq_true, if_false]
    rfl
  · simp only [Chain.settle, hr, body_throw, if_true, hp]
    rfl

inductive Goes (s : Store M) : Point M → Point M → Prop
  | failed (p : Point M) : Goes s p failed
  | unknown (d : Send M) : Goes s (.usersFind d) (.answered (.error "USER DOES NOT EXIST"))
  | known (d : Send M) : Goes s (.usersFind d) (.findChat true d)
  | chat (create : Bool) (d : Send M) {doc : ChatId} (h : s.chat d.sentBy d.sentTo = some doc) :
      Goes s (.findChat create d) (.push d doc.chatId)
  | noChat (d : Send M) (h : s.chat d.sentBy d.sentTo = none) :
      Goes s (.findChat true d) (.findLast d)
  | newId (d : Send M) : Goes s (.findLast d) (.insertChat d (newChatId s.lastChat))
  | chatInserted (d : Send M) (n : Nat) : Goes s (.insertChat d n) (.insertLog d n)
  | pushed (d : Send M) (c : Nat) (h : (s.log c).isSome) : Goes s (.push d c) (.findBy false d)
  | logInserted (d : Send M) (n : Nat) : Goes s (.insertLog d n) (.findBy true d)
  | readBy (create : Bool) (d : Send M) {rows rows' : List (Row M)}
      (hr : s.rows d.sentBy = some rows)
      (hp : putRow create d.sentTo d.message d.timeNow rows = some rows') :
      Goes s (.findBy create d) (.updateBy create d rows')
  | wroteBy (create : Bool) (d : Send M) (rows : List (Row M))
      (hm : ∃ cur, s.rows d.sentBy = some cur ∧ cur ≠ rows) :
      Goes s (.updateBy create d rows) (.findTo create d)
  | readTo (create : Bool) (d : Send M) {rows rows' : List (Row M)}
      (hr : s.rows d.sentTo = some rows)
      (hp : putRow create d.sentBy d.message d.timeNow rows = some rows') :
      Goes s (.findTo create d) (.updateTo create d rows')
  | wroteTo (create : Bool) (d : Send M) (rows : List (Row M))
      (hm : ∃ cur, s.rows d.sentTo = some cur ∧ cur ≠ rows) {resp : Response M}
      (hr : resp = if create then .success else .sent d.sentTo) :
      Goes s (.updateTo create d rows) (.answered resp)
  | userInserted (u : String) : Goes s (.insertUser u) (.insertUserMessages u)
  | added (u : String) : Goes s (.insertUserMessages u) (.answered .success)
  | usernames (us : List String) : Goes s .findUsernames (.answered (.usernames us))
  | chats (u : String) (rows : List (Row M)) : Goes s (.findRows u) (.answered (.chats rows))
  | ids (a b : String) {doc : ChatId} (h : s.chat a b = some doc) :
      Goes s (.findIds a b) (.findLog a b doc.chatId)
  | read (a b : String) (c : Nat) {es : List (Entry M)} (h : s.log c = some es) :
      Goes s (.findLog a b c) (.answered (.messages es))
  | stay (resp : Response M) : Goes s (.answered resp) (.answered resp)

theorem goes (p : Point M) (s : Store M) : Goes s p (p.next toLowerCase s).2 := by
  cases p with
  | usersFind d =>
    simp only [next]
    split
    · exact .known d
    · exact .unknown d
  | findChat create d =>
    cases hc : s.chat d.sentBy d.sentTo with
    | some doc =>
      simp only [next, hc]
      exact .chat create d hc
    | none =>
      simp only [next, hc]
      cases create with
      | true => exact .noChat d hc
      | false => exact .failed _
  | push d c =>
    simp only [next]
    split
    · rename_i hm
      exact .pushed d c ((push_modified s c d.entry).mp hm)
    · exact .failed _
  | findBy create d =>
    simp only [next, afterFind]
    split
    · rename_i rows' hb
      obtain ⟨rows, hr, hp⟩ := Option.bind_eq_some_iff.mp hb
      exact .readBy create d hr hp
    · exact .failed _
  | updateBy create d rows =>
    simp only [next]
    split
    · rename_i hm
      exact .wroteBy create d rows ((setRows_modified s _ _).mp hm)
    · exact .failed _
  | findTo create d =>
    simp only [next, afterFind]
    split
    · rename_i rows' hb
      obtain ⟨rows, hr, hp⟩ := Option.bind_eq_some_iff.mp hb
      exact .readTo create d hr hp
    · exact .failed _
  | updateTo create d rows =>
    simp only [next]
    split
    · rename_i hm
      exact .wroteTo create d rows ((setRows_modified s _ _).mp hm) rfl
    · exact .failed _
  | findRows u =>
    simp only [next]
    split
    · exact .chats u _
    · exact .chats u []
  | findIds a b =>
    cases hc : s.chat a b with
    | some doc =>
      simp only [next, hc]
      exact .ids a b hc
    | none =>
      simp only [next, hc]
      exact .failed _
  | findLog a b c =>
    cases hl : s.log c with
    | some es =>
      simp only [next, hl]
      exact .read a b c hl
    | none =>
      simp only [next, hl]
      exact .failed _
  | findLast d => exact .newId d
  | insertChat d n => exact .chatInserted d n
  | insertLog d n => exact .logInserted d n
  | insertUser u => exact .userInserted u
  | insertUserMessages u => exact .added u
  | findUsernames => exact .usernames _
  | answered resp => exact .stay resp

/-! What a call writes, by collection. -/

def newChat? : Point M → Option ChatId
  | .insertChat d n => some ⟨n, d.sentBy, d.sentTo⟩
  | _ => none

def newLog? : Point M → Option Nat
  | .insertLog _ n => some n
  | _ => none

theorem next_chatIds (p : Point M) (s : Store M) :
    (p.next toLowerCase s).1.chatIds = s.chatIds ++ p.newChat?.toList := by
  cases p <;> simp [next, newChat?, Store.insertUser, Store.insertUserMessages, Store.insertChat,
    Store.insertLog, Store.setRows, Store.push]

theorem push_logIds (s : Store M) (c : Nat) (e : Entry M) :
    (s.push c e).chatMessages.map (·.chatId) = s.chatMessages.map (·.chatId) :=
  map_updateOne (f := fun d : ChatMessages M => { d with messages := d.messages ++ [e] })
    (g := (·.chatId)) (fun _ _ => rfl) s.chatMessages

theorem next_logIds (p : Point M) (s : Store M) :
    (p.next toLowerCase s).1.chatMessages.map (·.chatId) =
      s.chatMessages.map (·.chatId) ++ p.newLog?.toList := by
  cases p with
  | push d c => simp [next, newLog?, push_logIds]
  | _ => simp [next, newLog?, Store.insertUser, Store.insertUserMessages, Store.insertChat,
      Store.insertLog, Store.setRows]

def reads : Point M → Bool
  | .findUsernames | .findRows _ | .findIds _ _ | .findLog _ _ _ | .answered _ => true
  | _ => false

theorem reads_next {p : Point M} (s : Store M) (h : p.reads = true) :
    (p.next toLowerCase s).2.reads = true := by
  cases p with
  | findRows u => simp only [next]; split <;> rfl
  | findIds a b => simp only [next]; split <;> rfl
  | findLog a b c => simp only [next]; split <;> rfl
  | findUsernames => rfl
  | answered resp => rfl
  | _ => cases h

theorem next_reads {p : Point M} (s : Store M) (h : p.reads = true) :
    (p.next toLowerCase s).1 = s := by
  cases p <;> first | rfl | cases h

/-! One request served alone goes from point to point. -/

def alone (p : Point M) (s : Store M) (fails : Nat → Bool) : Store M × List (Response M) :=
  Promise.serve Call.run (p.code toLowerCase) fails s

theorem serve_eq_alone (s : Store M) (r : Request M) (fails : Nat → Bool) :
    s.serve toLowerCase r fails = (start r).alone toLowerCase s fails := by
  cases r <;> rfl

theorem alone_answered (resp : Response M) (s : Store M) (fails : Nat → Bool) :
    (answered resp).alone toLowerCase s fails = (s, [resp]) := rfl

theorem alone_next {p : Point M} (h : p.call? ≠ none) (s : Store M) (fails : Nat → Bool) :
    p.alone toLowerCase s fails =
      if fails 0 then (s, [.error "DB_ERR"])
      else (p.next toLowerCase s).2.alone toLowerCase (p.next toLowerCase s).1
        fun n => fails (n + 1) := by
  obtain ⟨c, f, hw⟩ := waits toLowerCase p s h
  simp only [alone, Promise.serve, hw.code, exec_chain]
  split
  · rfl
  · rcases hw.result with hr | ⟨hr, hp⟩
    · simp only [hr, hw.store, code_exec]
      rfl
    · simp only [hr, hw.store, hp, exec_throw]
      rfl

theorem rank_next (p : Point M) (s : Store M) (h : p.call? ≠ none) :
    (p.next toLowerCase s).2.rank < p.rank := by
  cases p with
  | answered resp => exact absurd rfl h
  | findBy create d => exact rank_afterFind (by simp [rank]) fun _ => by simp [rank]
  | findTo create d => exact rank_afterFind (by simp [rank]) fun _ => by simp [rank]
  | _ =>
    simp only [next, failed]
    repeat' split
    all_goals simp only [rank]; omega

/-- What every call preserves on the way from point to point, and every rejection if there
is one, holds when the request has answered; it sends exactly one answer. -/
theorem alone_invariant (fails : Nat → Bool) {I : Point M → Store M → Prop}
    (hstep : ∀ p s, p.call? ≠ none → I p s →
      I (p.next toLowerCase s).2 (p.next toLowerCase s).1)
    (hfail : (∃ n, fails n = true) → ∀ p s, p.call? ≠ none → I p s → I failed s)
    {p : Point M} {s : Store M} (h : I p s) :
    ∃ resp, (p.alone toLowerCase s fails).2 = [resp] ∧
      I (answered resp) (p.alone toLowerCase s fails).1 := by
  induction hn : p.rank using Nat.strong_induction_on generalizing p s fails with
  | _ n ih =>
    by_cases hc : p.call? = none
    · obtain ⟨resp, rfl⟩ := call?_eq_none hc
      exact ⟨resp, rfl, h⟩
    · rw [alone_next toLowerCase hc]
      split
      · rename_i hf
        exact ⟨_, rfl, hfail ⟨0, hf⟩ p s hc h⟩
      · have hr := rank_next toLowerCase p s hc
        exact ih _ (hn ▸ hr) _ (fun hf => hfail (hf.imp' (· + 1) fun _ h => h)) (hstep p s hc h) rfl

theorem alone_of_success {fails : Nat → Bool} {p : Point M} {s : Store M} {resp : Response M}
    (h : (p.alone toLowerCase s fails).2 = [resp]) (hok : resp.status = .SUCCESS) :
    p.alone toLowerCase s fails = p.alone toLowerCase s noFault := by
  induction hn : p.rank using Nat.strong_induction_on generalizing p s fails with
  | _ n ih =>
    by_cases hc : p.call? = none
    · obtain ⟨resp', rfl⟩ := call?_eq_none hc
      rfl
    · have hr := rank_next toLowerCase p s hc
      rw [alone_next toLowerCase hc] at h ⊢
      rw [alone_next toLowerCase hc s noFault]
      split at h
      · obtain rfl : .error "DB_ERR" = resp := by simpa using h
        cases hok
      · rename_i hf
        rw [if_neg hf]
        exact ih _ (hn ▸ hr) h rfl

theorem alone_noFault {p : Point M} (h : p.call? ≠ none) (s : Store M) :
    p.alone toLowerCase s noFault =
      (p.next toLowerCase s).2.alone toLowerCase (p.next toLowerCase s).1 noFault :=
  alone_next toLowerCase h s noFault

theorem alone_failAt_zero {p : Point M} (h : p.call? ≠ none) (s : Store M) :
    p.alone toLowerCase s (failAt 0) = (s, [.error "DB_ERR"]) :=
  alone_next toLowerCase h s (failAt 0)

theorem alone_failAt_succ {p : Point M} (h : p.call? ≠ none) (s : Store M) (k : Nat) :
    p.alone toLowerCase s (failAt (k + 1)) =
      (p.next toLowerCase s).2.alone toLowerCase (p.next toLowerCase s).1 (failAt k) := by
  have hf : (fun n => failAt (k + 1) (n + 1)) = failAt k := by
    funext n
    simp [failAt]
  rw [alone_next toLowerCase h, hf]
  rfl

end Waiting
end Point
end RecoupChat
