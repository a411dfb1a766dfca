import RecoupChat.Collection
import Mathlib.Data.List.Sort
import Mathlib.Data.Sym.Sym2

/-! The database `recoupdb`: the documents of its four collections and the calls that
server.js makes on them. The repository creates no index, so no collection refuses a
document. A message is an arbitrary value that the database only compares and copies. -/
namespace RecoupChat
open Collection
variable {M : Type}

structure User where
  username : String
  deriving DecidableEq

/-- An element of the `messages` array of a `user_messages` document. -/
structure Row (M : Type) where
  toUsername : String
  lastMessage : M
  lastMessageTime : Int
  deriving DecidableEq

structure UserMessages (M : Type) where
  username : String
  messages : List (Row M)
  deriving DecidableEq

structure ChatId where
  chatId : Nat
  user1 : String
  user2 : String
  deriving DecidableEq

/-- An element of the `messages` array of a `chat_messages` document. -/
structure Entry (M : Type) where
  sentBy : String
  message : M
  time : Int
  deriving DecidableEq

structure ChatMessages (M : Type) where
  chatId : Nat
  messages : List (Entry M)
  deriving DecidableEq

structure Store (M : Type) where
  users : List User
  userMessages : List (UserMessages M)
  chatIds : List ChatId
  chatMessages : List (ChatMessages M)
  deriving DecidableEq

def Store.empty : Store M := ⟨[], [], [], []⟩

/-- `{ $or: [{ user1: a, user2: b }, { user1: b, user2: a }] }` -/
def ChatId.links (a b : String) (doc : ChatId) : Bool :=
  (doc.user1 == a && doc.user2 == b) || (doc.user1 == b && doc.user2 == a)

def ChatId.pair (doc : ChatId) : Sym2 String := s(doc.user1, doc.user2)

@[simp] theorem links_iff {a b : String} {doc : ChatId} :
    doc.links a b = true ↔ doc.pair = s(a, b) := by
  simp [ChatId.links, ChatId.pair]

theorem of_pair {P : String → String → Prop} {u v a b : String} (hp : s(u, v) = s(a, b))
    (h : P a b) (h' : P b a) : P u v := by
  rcases Sym2.eq_iff.mp hp with ⟨rfl, rfl⟩ | ⟨rfl, rfl⟩
  · exact h
  · exact h'

theorem links_comm (a b : String) (doc : ChatId) : doc.links a b = doc.links b a := by
  simp [ChatId.links, Bool.or_comm]

/-! What the calls read. -/

def Store.chat (s : Store M) (a b : String) : Option ChatId := findOne (·.links a b) s.chatIds

def Store.logDoc (s : Store M) (c : Nat) : Option (ChatMessages M) :=
  findOne (·.chatId == c) s.chatMessages

def Store.rowsDoc (s : Store M) (u : String) : Option (UserMessages M) :=
  findOne (·.username == u) s.userMessages

/-- `find().sort({ chat_id: -1 }).limit(1)` -/
def Store.lastChat (s : Store M) : List ChatId :=
  (s.chatIds.insertionSort fun x y => y.chatId ≤ x.chatId).take 1

/-! What the calls write. -/

def Store.insertUser (s : Store M) (doc : User) : Store M :=
  { s with users := s.users ++ [doc] }

def Store.insertUserMessages (s : Store M) (doc : UserMessages M) : Store M :=
  { s with userMessages := s.userMessages ++ [doc] }

def Store.insertChat (s : Store M) (doc : ChatId) : Store M :=
  { s with chatIds := s.chatIds ++ [doc] }

def Store.insertLog (s : Store M) (doc : ChatMessages M) : Store M :=
  { s with chatMessages := s.chatMessages ++ [doc] }

section Update
variable [DecidableEq M]

/-- `updateOne({ username: u }, { $set: { messages: rows } })` on `user_messages` -/
def setRowsIn (u : String) (rows : List (Row M)) (docs : List (UserMessages M)) :
    List (UserMessages M) × UpdateResult :=
  updateOne (·.username == u) (fun d => { d with messages := rows }) docs

/-- `updateOne({ chat_id: c }, { $push: { messages: e } })` on `chat_messages` -/
def pushIn (c : Nat) (e : Entry M) (docs : List (ChatMessages M)) :
    List (ChatMessages M) × UpdateResult :=
  updateOne (·.chatId == c) (fun d => { d with messages := d.messages ++ [e] }) docs

def Store.setRows (s : Store M) (u : String) (rows : List (Row M)) : Store M :=
  { s with userMessages := (setRowsIn u rows s.userMessages).1 }

def Store.push (s : Store M) (c : Nat) (e : Entry M) : Store M :=
  { s with chatMessages := (pushIn c e s.chatMessages).1 }

end Update

/-! The calls themselves, each one atomic. -/

inductive Call (M : Type) where
  | usersFind
  | usersInsertOne (doc : User)
  | userMessagesFindOne (username : String)
  | userMessagesInsertOne (doc : UserMessages M)
  | userMessagesSet (username : String) (messages : List (Row M))
  | chatIdsFindOne (user1 user2 : String)
  | chatIdsFindLast
  | chatIdsInsertOne (doc : ChatId)
  | chatMessagesFindOne (chatId : Nat)
  | chatMessagesPush (chatId : Nat) (entry : Entry M)
  | chatMessagesInsertOne (doc : ChatMessages M)
  deriving DecidableEq

def Call.Result : Call M → Type
  | .usersFind => List User
  | .usersInsertOne _ | .userMessagesInsertOne _ | .chatIdsInsertOne _
  | .chatMessagesInsertOne _ => InsertOneResult
  | .userMessagesFindOne _ => Option (UserMessages M)
  | .userMessagesSet _ _ | .chatMessagesPush _ _ => UpdateResult
  | .chatIdsFindOne _ _ => Option ChatId
  | .chatIdsFindLast => List ChatId
  | .chatMessagesFindOne _ => Option (ChatMessages M)

def Call.run [DecidableEq M] : (c : Call M) → Store M → Store M × c.Result
  | .usersFind, s => (s, s.users)
  | .usersInsertOne doc, s => (s.insertUser doc, ⟨true⟩)
  | .userMessagesFindOne u, s => (s, s.rowsDoc u)
  | .userMessagesInsertOne doc, s => (s.insertUserMessages doc, ⟨true⟩)
  | .userMessagesSet u rows, s => (s.setRows u rows, (setRowsIn u rows s.userMessages).2)
  | .chatIdsFindOne a b, s => (s, s.chat a b)
  | .chatIdsFindLast, s => (s, s.lastChat)
  | .chatIdsInsertOne doc, s => (s.insertChat doc, ⟨true⟩)
  | .chatMessagesFindOne c, s => (s, s.logDoc c)
  | .chatMessagesPush c e, s => (s.push c e, (pushIn c e s.chatMessages).2)
  | .chatMessagesInsertOne doc, s => (s.insertLog doc, ⟨true⟩)

/-! Each collection as what its lookups see: the logs by id, the rows by user. -/

def Store.log (s : Store M) (c : Nat) : Option (List (Entry M)) := (s.logDoc c).map (·.messages)

def Store.rows (s : Store M) (u : String) : Option (List (Row M)) :=
  (s.rowsDoc u).map (·.messages)

def rowFor (v : String) (rows : List (Row M)) : Option (Row M) :=
  rows.find? (·.toUsername == v)

def Store.row (s : Store M) (u v : String) : Option (Row M) := (s.rows u).bind (rowFor v)

/-- The list of a pair's messages, empty without a chat. -/
def Store.conversation (s : Store M) (a b : String) : List (Entry M) :=
  ((s.chat a b).bind fun doc => s.log doc.chatId).getD []

def Store.registered (s : Store M) (u : String) : Prop := u ∈ s.users.map (·.username)

instance (s : Store M) (u : String) : Decidable (s.registered u) :=
  inferInstanceAs (Decidable (_ ∈ _))

theorem chat_comm (s : Store M) (a b : String) : s.chat a b = s.chat b a := by
  have h : (fun doc : ChatId => doc.links a b) = fun doc => doc.links b a :=
    funext (links_comm a b)
  simp only [Store.chat, h]

theorem chat_mem {s : Store M} {a b : String} {doc : ChatId} (h : s.chat a b = some doc) :
    doc ∈ s.chatIds := findOne_mem h

theorem chat_pair {s : Store M} {a b : String} {doc : ChatId} (h : s.chat a b = some doc) :
    doc.pair = s(a, b) := links_iff.mp (findOne_matches h)

theorem chat_eq_none {s : Store M} {a b : String} :
    s.chat a b = none ↔ ∀ doc ∈ s.chatIds, doc.pair ≠ s(a, b) := by
  simp [Store.chat, findOne_eq_none, Bool.eq_false_iff]

/-- The document read by `limit(1)` carries the highest id. -/
theorem lastChat_max {s : Store M} {doc : ChatId} {docs : List ChatId}
    (h : s.lastChat = doc :: docs) :
    doc ∈ s.chatIds ∧ ∀ x ∈ s.chatIds, x.chatId ≤ doc.chatId := by
  let r : ChatId → ChatId → Prop := fun x y => y.chatId ≤ x.chatId
  have htotal : Std.Total r := ⟨fun x y => Nat.le_total y.chatId x.chatId⟩
  have htrans : IsTrans ChatId r := ⟨fun x y z hxy hyz => Nat.le_trans hyz hxy⟩
  have hs : (s.chatIds.insertionSort r).Pairwise r := List.pairwise_insertionSort r _
  change (s.chatIds.insertionSort r).take 1 = doc :: docs at h
  cases hl : s.chatIds.insertionSort r with
  | nil => simp [hl] at h
  | cons y ys =>
    rw [hl] at h hs
    obtain ⟨rfl, -⟩ : y = doc ∧ [] = docs := by simpa using h
    refine ⟨(List.mem_insertionSort r).mp (hl ▸ List.mem_cons_self), fun x hx => ?_⟩
    rcases List.mem_cons.mp (hl ▸ (List.mem_insertionSort r).mpr hx) with rfl | hm
    · exact Nat.le_refl _
    · exact (List.pairwise_cons.mp hs).1 x hm

theorem lastChat_eq_nil {s : Store M} (h : s.lastChat = []) : s.chatIds = [] := by
  have hl := congrArg List.length h
  simp only [Store.lastChat, List.length_take, List.length_insertionSort, List.length_nil] at hl
  exact List.length_eq_zero_iff.mp (by omega)

theorem log_mem {s : Store M} {c : Nat} {es : List (Entry M)} (h : s.log c = some es) :
    ∃ doc ∈ s.chatMessages, doc.chatId = c ∧ doc.messages = es := by
  obtain ⟨doc, hd, rfl⟩ := Option.map_eq_some_iff.mp h
  exact ⟨doc, findOne_mem hd, by simpa using findOne_matches hd, rfl⟩

theorem log_eq_none {s : Store M} {c : Nat} :
    s.log c = none ↔ c ∉ s.chatMessages.map (·.chatId) := by
  simp only [Store.log, Option.map_eq_none_iff, Store.logDoc, findOne_eq_none, List.mem_map]
  grind

theorem log_of_mem {s : Store M} {doc : ChatMessages M}
    (hn : (s.chatMessages.map (·.chatId)).Nodup) (hd : doc ∈ s.chatMessages) :
    s.log doc.chatId = some doc.messages := by
  have h := findOne_of_key (p := (·.chatId == doc.chatId)) hn hd (by simp) (by simp)
  simp [Store.log, Store.logDoc, h]

theorem rows_mem {s : Store M} {u : String} {rows : List (Row M)} (h : s.rows u = some rows) :
    ∃ doc ∈ s.userMessages, doc.username = u ∧ doc.messages = rows := by
  obtain ⟨doc, hd, rfl⟩ := Option.map_eq_some_iff.mp h
  exact ⟨doc, findOne_mem hd, by simpa using findOne_matches hd, rfl⟩

theorem rows_eq_none {s : Store M} {u : String} :
    s.rows u = none ↔ u ∉ s.userMessages.map (·.username) := by
  simp only [Store.rows, Option.map_eq_none_iff, Store.rowsDoc, findOne_eq_none, List.mem_map]
  grind

theorem rowFor_name {v : String} {rows : List (Row M)} {r : Row M} (h : rowFor v rows = some r) :
    r.toUsername = v := by simpa using List.find?_some h

theorem row_name {s : Store M} {u v : String} {r : Row M} (h : s.row u v = some r) :
    r.toUsername = v := by
  obtain ⟨rows, -, hr⟩ := Option.bind_eq_some_iff.mp h
  exact rowFor_name hr

theorem rowFor_eq_none {v : String} {rows : List (Row M)} :
    rowFor v rows = none ↔ v ∉ rows.map (·.toUsername) := by
  simp only [rowFor, List.find?_eq_none, List.mem_map]
  grind

theorem rowFor_mem_iff {rows : List (Row M)} (hn : (rows.map (·.toUsername)).Nodup) {r : Row M} :
    r ∈ rows ↔ rowFor r.toUsername rows = some r := by
  constructor
  · intro h
    exact findOne_of_key hn h (by simp) (by simp)
  · exact List.mem_of_find?_eq_some

/-! What each write does to the lookups; the lookups a write does not mention are unchanged
by definition. -/

section Views
variable [DecidableEq M]

@[simp] theorem rows_setRows (s : Store M) (u v : String) (rows : List (Row M)) :
    (s.setRows u rows).rows v = if v = u then (s.rows u).map fun _ => rows else s.rows v := by
  by_cases h : v = u
  · subst h
    have he := findOne_updateOne (p := fun d : UserMessages M => d.username == v)
      (f := fun d => { d with messages := rows }) (fun d hd => hd) s.userMessages
    simp only [Store.rows, Store.rowsDoc, Store.setRows, setRowsIn, he, if_true, Option.map_map]
    rfl
  · have he := findOne_updateOne_of_ne (p := fun d : UserMessages M => d.username == u)
      (q := fun d => d.username == v) (f := fun d => { d with messages := rows })
      (fun d hd => by simp_all [Ne.symm h]) s.userMessages
    simp only [Store.rows, Store.rowsDoc, Store.setRows, setRowsIn, he, if_neg h]

@[simp] theorem log_push (s : Store M) (c c' : Nat) (e : Entry M) :
    (s.push c e).log c' = if c' = c then (s.log c).map (· ++ [e]) else s.log c' := by
  by_cases h : c' = c
  · subst h
    have he := findOne_updateOne (p := fun d : ChatMessages M => d.chatId == c')
      (f := fun d => { d with messages := d.messages ++ [e] }) (fun d hd => hd) s.chatMessages
    simp only [Store.log, Store.logDoc, Store.push, pushIn, he, if_true, Option.map_map]
    rfl
  · have he := findOne_updateOne_of_ne (p := fun d : ChatMessages M => d.chatId == c)
      (q := fun d => d.chatId == c') (f := fun d => { d with messages := d.messages ++ [e] })
      (fun d hd => by simp_all [Ne.symm h]) s.chatMessages
    simp only [Store.log, Store.logDoc, Store.push, pushIn, he, if_neg h]

theorem setRows_modified (s : Store M) (u : String) (rows : List (Row M)) :
    (setRowsIn u rows s.userMessages).2.modifiedCount = 1 ↔
      ∃ cur, s.rows u = some cur ∧ cur ≠ rows := by
  rw [setRowsIn, modifiedCount_eq]
  simp only [Store.rows, Store.rowsDoc]
  cases findOne (fun d : UserMessages M => d.username == u) s.userMessages with
  | none => simp
  | some d => cases d; simp [eq_comm]

theorem push_modified (s : Store M) (c : Nat) (e : Entry M) :
    (pushIn c e s.chatMessages).2.modifiedCount = 1 ↔ (s.log c).isSome := by
  rw [pushIn, modifiedCount_eq]
  simp only [Store.log, Store.logDoc]
  cases findOne (fun d : ChatMessages M => d.chatId == c) s.chatMessages with
  | none => simp
  | some d => cases d; simp

end Views

@[simp] theorem chat_insertChat (s : Store M) (doc : ChatId) (a b : String) :
    (s.insertChat doc).chat a b = (s.chat a b).or (if doc.links a b then some doc else none) :=
  findOne_insert _ _ _

@[simp] theorem log_insertLog (s : Store M) (doc : ChatMessages M) (c : Nat) :
    (s.insertLog doc).log c = (s.log c).or (if doc.chatId = c then some doc.messages else none) := by
  simp only [Store.log, Store.logDoc, Store.insertLog, findOne_insert]
  by_cases h : doc.chatId = c <;>
    cases findOne (fun d : ChatMessages M => d.chatId == c) s.chatMessages <;> simp [h]

@[simp] theorem rows_insertUserMessages (s : Store M) (doc : UserMessages M) (u : String) :
    (s.insertUserMessages doc).rows u =
      (s.rows u).or (if doc.username = u then some doc.messages else none) := by
  simp only [Store.rows, Store.rowsDoc, Store.insertUserMessages, findOne_insert]
  by_cases h : doc.username = u <;>
    cases findOne (fun d : UserMessages M => d.username == u) s.userMessages <;> simp [h]

theorem row_insertUserMessages (s : Store M) (u v w : String) :
    (s.insertUserMessages ⟨u, []⟩).row v w = s.row v w := by
  rw [Store.row, rows_insertUserMessages, Store.row]
  cases s.rows v with
  | some rows => rfl
  | none =>
    by_cases h : u = v
    · simp [h, rowFor]
    · simp [h]

end RecoupChat
