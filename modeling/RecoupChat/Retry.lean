import RecoupChat.Lockout
import RecoupChat.Refinement

/-! A request with one rejected call, issued again: when this ends like one execution without
a failing call. -/
namespace RecoupChat
open Promise Collection
variable {M : Type}

/-! The store up to the recorded times. -/

def Row.timeless (r : Row M) : Row M := { r with lastMessageTime := 0 }

def UserMessages.timeless (doc : UserMessages M) : UserMessages M :=
  { doc with messages := doc.messages.map Row.timeless }

def Entry.timeless (e : Entry M) : Entry M := { e with time := 0 }

def ChatMessages.timeless (doc : ChatMessages M) : ChatMessages M :=
  { doc with messages := doc.messages.map Entry.timeless }

def Store.timeless (s : Store M) : Store M :=
  { s with
    userMessages := s.userMessages.map UserMessages.timeless
    chatMessages := s.chatMessages.map ChatMessages.timeless }

theorem rows_timeless (s : Store M) (u : String) :
    s.timeless.rows u = (s.rows u).map (List.map Row.timeless) := by
  have h := findOne_map (p := fun d : UserMessages M => d.username == u)
    (q := fun d => d.username == u) (g := UserMessages.timeless) (fun _ => rfl) s.userMessages
  simp only [Store.rows, Store.rowsDoc, Store.timeless, h, Option.map_map]
  rfl

theorem log_timeless (s : Store M) (c : Nat) :
    s.timeless.log c = (s.log c).map (List.map Entry.timeless) := by
  have h := findOne_map (p := fun d : ChatMessages M => d.chatId == c)
    (q := fun d => d.chatId == c) (g := ChatMessages.timeless) (fun _ => rfl) s.chatMessages
  simp only [Store.log, Store.logDoc, Store.timeless, h, Option.map_map]
  rfl

theorem conversation_timeless (s : Store M) (u v : String) :
    s.timeless.conversation u v = (s.conversation u v).map Entry.timeless := by
  have hc : s.timeless.chat u v = s.chat u v := rfl
  rw [Store.conversation, Store.conversation, hc]
  cases s.chat u v with
  | none => rfl
  | some doc =>
    rw [Option.bind_some, Option.bind_some, log_timeless]
    cases s.log doc.chatId <;> rfl

def Send.readAt (t : Int) (d : Send M) : Send M := { d with timeNow := t }

def Request.readAt (t : Int) : Request M → Request M
  | .sendMessage d => .sendMessage (d.readAt t)
  | .sendNewMessage d => .sendNewMessage (d.readAt t)
  | r => r

theorem createChat_timeless (s : Store M) (d : Send M) (t : Int) :
    (s.createChat (d.readAt t)).timeless = (s.createChat (d.readAt 0)).timeless := by
  simp [Store.createChat, Store.insertChat, Store.insertLog, Store.timeless, Send.readAt,
    Send.entry, ChatMessages.timeless, Entry.timeless]

section Writes
variable [DecidableEq M]

theorem push_timeless (s : Store M) (c : Nat) (d : Send M) (t : Int) :
    (s.push c (d.readAt t).entry).timeless = s.timeless.push c (d.readAt 0).entry := by
  have h := updateOne_map (p := fun x : ChatMessages M => x.chatId == c)
    (q := fun x => x.chatId == c) (g := ChatMessages.timeless)
    (f := fun x => { x with messages := x.messages ++ [(d.readAt t).entry] })
    (k := fun x => { x with messages := x.messages ++ [(d.readAt 0).entry] })
    (fun _ => rfl) (fun x => by
      simp [ChatMessages.timeless, Send.readAt, Send.entry, Entry.timeless]) s.chatMessages
  simp only [Store.timeless, Store.push, pushIn, h]

theorem setRows_timeless (s : Store M) (u : String) (rows : List (Row M)) :
    (s.setRows u rows).timeless = s.timeless.setRows u (rows.map Row.timeless) := by
  have h := updateOne_map (p := fun x : UserMessages M => x.username == u)
    (q := fun x => x.username == u) (g := UserMessages.timeless)
    (f := fun x => { x with messages := rows })
    (k := fun x => { x with messages := rows.map Row.timeless })
    (fun _ => rfl) (fun x => rfl) s.userMessages
  simp only [Store.timeless, Store.setRows, setRowsIn, h]

theorem putRow_timeless (create : Bool) (v : String) (m : M) (t : Int) (rows : List (Row M)) :
    putRow create v m 0 (rows.map Row.timeless) =
      (putRow create v m t rows).map (List.map Row.timeless) := by
  have hfind : rowFor v (rows.map Row.timeless) = (rowFor v rows).map Row.timeless :=
    findOne_map (p := fun r : Row M => r.toUsername == v) (fun _ => rfl) rows
  have hshow : (showIn v m t rows).map Row.timeless = showIn v m 0 (rows.map Row.timeless) :=
    updateOne_map (p := fun r : Row M => r.toUsername == v)
      (q := fun r : Row M => r.toUsername == v)
      (f := Row.setLast m t) (k := Row.setLast m 0) (g := Row.timeless)
      (fun _ => rfl) (fun _ => rfl) rows
  rw [putRow_eq, putRow_eq, hfind]
  cases rowFor v rows with
  | some r => simp [hshow]
  | none => cases create <;> simp [Row.timeless]

theorem showRow_timeless {s s1 : Store M} {create : Bool} {u v : String} {m : M} {t : Int}
    (h : s.showRow create u v m t = some s1) :
    s.timeless.showRow create u v m 0 = some s1.timeless := by
  obtain ⟨rows, rows', hr, hp, rfl⟩ := showRow_some h
  rw [Store.showRow, rows_timeless, hr, Option.map_some, Option.bind_some,
    putRow_timeless create v m t, hp, setRows_timeless]
  rfl

theorem showRows_timeless {s s' : Store M} {create : Bool} {d : Send M}
    (h : s.showRows create d = some s') :
    s.timeless.showRows create (d.readAt 0) = some s'.timeless := by
  obtain ⟨s1, h1, h2⟩ := Option.bind_eq_some_iff.mp h
  exact Option.bind_eq_some_iff.mpr ⟨s1.timeless, showRow_timeless h1, showRow_timeless h2⟩

end Writes

@[simp] theorem send_readAt (r : Request M) (t : Int) :
    (r.readAt t).send? = r.send?.map (Send.readAt t) := by
  cases r <;> rfl

/-- The rejected call comes no later than the first call that writes. -/
def Store.unwritten (s : Store M) (k : Nat) : Request M → Prop
  | .addNewUser _ => k = 0
  | .sendMessage d => s.chat d.sentBy d.sentTo = none ∨ k ≤ 1
  | .sendNewMessage d => if s.chat d.sentBy d.sentTo = none then k ≤ 3 else k ≤ 2
  | _ => True

theorem permits_readAt {a : Service M} {r : Request M} (hp : a.Permits r) (t : Int) :
    a.Permits (r.readAt t) := by
  intro d hd
  rw [send_readAt] at hd
  obtain ⟨x, hx, rfl⟩ := Option.map_eq_some_iff.mp hd
  exact hp x hx

theorem unwritten_readAt (s : Store M) (k : Nat) (r : Request M) (t : Int) :
    s.unwritten k (r.readAt t) ↔ s.unwritten k r := by
  cases r <;> rfl

theorem length_conversation_timeless {s s' : Store M} (h : s.timeless = s'.timeless)
    (u v : String) : (s.conversation u v).length = (s'.conversation u v).length := by
  have hc := congrArg (fun x => (Store.conversation x u v).length) h
  simpa [conversation_timeless] using hc

variable [DecidableEq M] (toLowerCase : String → String)

/-! The same request at two clock readings. -/

theorem rows_answer {a : Service M} {s s1 : Store M} (h : Represents a s) {d : Send M}
    (create : Bool) (hby : d.sentBy ∈ a.names) (hto : d.sentTo ∈ a.names)
    (hne : d.sentBy ≠ d.sentTo) (hc : create = false → a.conv s(d.sentBy, d.sentTo) ≠ [])
    (hum : s1.userMessages = s.userMessages) :
    ∃ s' resp, (Point.findBy create d).alone toLowerCase s1 noFault = (s', [resp]) ∧
      s1.showRows create d = some s' ∧
      (resp = (if create then .success else .sent d.sentTo) ∧ ¬ s.endsWith d ∨
        resp = .error "DB_ERR" ∧ s.endsWith d) := by
  obtain ⟨hcby, hcto, hsby, hsto⟩ := h.writable create hby hto hum hc
  obtain ⟨s', resp, he, hr⟩ := alone_findBy_rowsRun toLowerCase create d s1
  have hend : s.endsWith d ↔ a.endsWith d.sentBy d.sentTo d.message d.timeNow := by
    rw [Store.endsWith, h.conversation]
    rfl
  have hok : resp.status = .SUCCESS ↔ ¬ s.endsWith d := by
    rw [hr.status_iff, Store.canShow, Store.canShow, hsby, hsto, hend]
    exact ⟨fun hq => hq.2.1.2, fun hn => ⟨hne, ⟨hcby, hn⟩, hcto, hn⟩⟩
  refine ⟨s', resp, he, hr.showRows hcby hcto (hsby.trans hsto.symm), ?_⟩
  cases hr.answer with
  | inl hsent => exact Or.inl ⟨hsent.2, hok.mp hsent.1⟩
  | inr hfailed => exact Or.inr ⟨hfailed.2, not_not.mp (mt hok.mpr hfailed.1)⟩

theorem rows_readAt {a : Service M} {s : Store M} (h : Represents a s) {d : Send M}
    (create : Bool) (hby : d.sentBy ∈ a.names) (hto : d.sentTo ∈ a.names)
    (hne : d.sentBy ≠ d.sentTo) (hc : create = false → a.conv s(d.sentBy, d.sentTo) ≠ [])
    (s1 s2 : Store M) (hum1 : s1.userMessages = s.userMessages)
    (hum2 : s2.userMessages = s.userMessages) (hs : s1.timeless = s2.timeless) (t t' : Int) :
    let x := (Point.findBy create (d.readAt t)).alone toLowerCase s1 noFault
    let y := (Point.findBy create (d.readAt t')).alone toLowerCase s2 noFault
    x.1.timeless = y.1.timeless ∧
      (x.2 = y.2 ↔ (s.endsWith (d.readAt t) ↔ s.endsWith (d.readAt t'))) := by
  obtain ⟨x, rx, hx, hsx, hrx⟩ :=
    rows_answer toLowerCase h (d := d.readAt t) create hby hto hne hc hum1
  obtain ⟨y, ry, hy, hsy, hry⟩ :=
    rows_answer toLowerCase h (d := d.readAt t') create hby hto hne hc hum2
  simp only [hx, hy]
  constructor
  · have he := showRows_timeless hsx
    have he' := showRows_timeless hsy
    rw [hs] at he
    exact Option.some.inj (he.symm.trans he')
  · have hdiff : (if create then .success else .sent d.sentTo : Response M) ≠ .error "DB_ERR" := by
      cases create <;> simp
    have hsentTo (t : Int) : (d.readAt t).sentTo = d.sentTo := rfl
    rw [hsentTo] at hrx hry
    rcases hrx with ⟨rfl, hex⟩ | ⟨rfl, hex⟩ <;> rcases hry with ⟨rfl, hey⟩ | ⟨rfl, hey⟩ <;>
      simp [hex, hey, hdiff, hdiff.symm]

/-- A permitted request leaves the same store at every clock reading, up to the recorded
times; its answer depends on the reading only through the end of the conversation. -/
theorem serve_readAt {a : Service M} {s : Store M} (h : Represents a s) {r : Request M}
    (hp : a.Permits r) (hne : ∀ d, r.send? = some d → d.sentBy ≠ d.sentTo) (t t' : Int) :
    (s.serve toLowerCase (r.readAt t) noFault).1.timeless =
        (s.serve toLowerCase (r.readAt t') noFault).1.timeless ∧
      ((s.serve toLowerCase (r.readAt t) noFault).2 =
          (s.serve toLowerCase (r.readAt t') noFault).2 ↔
        ∀ d, r.send? = some d → (s.endsWith (d.readAt t) ↔ s.endsWith (d.readAt t'))) := by
  have hpush (d : Send M) (doc : ChatId) (hd : s.chat d.sentBy d.sentTo = some doc)
      (hr : r.send? = some d) :
      let x := (Point.push (d.readAt t) doc.chatId).alone toLowerCase s noFault
      let y := (Point.push (d.readAt t') doc.chatId).alone toLowerCase s noFault
      x.1.timeless = y.1.timeless ∧
        (x.2 = y.2 ↔ (s.endsWith (d.readAt t) ↔ s.endsWith (d.readAt t'))) := by
    obtain ⟨hl, hconv⟩ := h.log hd
    have hs : (s.push doc.chatId (d.readAt t).entry).timeless =
        (s.push doc.chatId (d.readAt t').entry).timeless := by
      rw [push_timeless, push_timeless]
    simp only [Point.alone_push, hl, Option.isSome_some, if_true]
    exact rows_readAt toLowerCase h false (hp d hr).1 (hp d hr).2 (hne d hr) (fun _ => hconv)
      (s.push doc.chatId (d.readAt t).entry) (s.push doc.chatId (d.readAt t').entry) rfl rfl hs t t'
  cases r with
  | sendMessage d =>
    have hserve (t : Int) := serve_sendMessage toLowerCase s (d.readAt t)
    have hchat (t : Int) : s.chat (d.readAt t).sentBy (d.readAt t).sentTo =
      s.chat d.sentBy d.sentTo := rfl
    simp only [Request.readAt, hserve, hchat, Request.send?, Option.some.injEq, forall_eq']
    cases hd : s.chat d.sentBy d.sentTo with
    | none =>
      have hend (t : Int) : ¬ s.endsWith (d.readAt t) := by
        have hconv := h.conversation d.sentBy d.sentTo
        rw [h.chat_eq_none.mp hd] at hconv
        simp [Store.endsWith, Send.readAt, hconv]
      simp [hend]
    | some doc => exact hpush d doc hd rfl
  | sendNewMessage d =>
    have hserve (t : Int) := serve_sendNewMessage toLowerCase s (d.readAt t)
    have hu (t : Int) : userExists toLowerCase (d.readAt t).sentTo s.users = true :=
      h.userExists (hp d rfl).2
    have hchat (t : Int) : s.chat (d.readAt t).sentBy (d.readAt t).sentTo =
      s.chat d.sentBy d.sentTo := rfl
    simp only [Request.readAt, hserve, hu, hchat, if_true, Request.send?, Option.some.injEq,
      forall_eq']
    cases hd : s.chat d.sentBy d.sentTo with
    | none =>
      have hs : (s.createChat (d.readAt t)).timeless = (s.createChat (d.readAt t')).timeless :=
        (createChat_timeless s d t).trans (createChat_timeless s d t').symm
      exact rows_readAt toLowerCase h true (hp d rfl).1 (hp d rfl).2 (hne d rfl)
        (fun hf => by cases hf) (s.createChat (d.readAt t)) (s.createChat (d.readAt t'))
        rfl rfl hs t t'
    | some doc => exact hpush d doc hd rfl
  | _ => simp [Request.readAt, Request.send?]

/-! What an attempt with one rejected call leaves. -/

theorem tried_push {s : Store M} {d : Send M} {c : Nat} (hl : (s.log c).isSome) (k : Nat) :
    k = 0 ∧ ((Point.push d c).alone toLowerCase s (failAt k)).1 = s ∨
      0 < k ∧ RowsFrame d (s.push c d.entry)
        ((Point.push d c).alone toLowerCase s (failAt k)).1 := by
  cases k with
  | zero =>
    rw [Point.alone_failAt_zero toLowerCase (by simp [Point.call?])]
    exact Or.inl ⟨rfl, rfl⟩
  | succ k =>
    have hm : (pushIn c d.entry s.chatMessages).2.modifiedCount = 1 :=
      (push_modified s c d.entry).mpr hl
    rw [Point.alone_failAt_succ toLowerCase (by simp [Point.call?])]
    simp only [Point.next, hm, if_true]
    exact Or.inr ⟨k.succ_pos, rowsFrame_alone toLowerCase false d _ _⟩

theorem tried_findLast (s : Store M) (d : Send M) (k : Nat) :
    k ≤ 1 ∧ ((Point.findLast d).alone toLowerCase s (failAt k)).1 = s ∨
      k = 2 ∧ ((Point.findLast d).alone toLowerCase s (failAt k)).1 =
        s.insertChat ⟨newChatId s.lastChat, d.sentBy, d.sentTo⟩ ∨
      2 < k ∧ RowsFrame d (s.createChat d)
        ((Point.findLast d).alone toLowerCase s (failAt k)).1 := by
  have hzero {p : Point M} (hp : p.call? ≠ none) (s : Store M) :=
    Point.alone_failAt_zero toLowerCase hp s
  have hsucc {p : Point M} (hp : p.call? ≠ none) (s : Store M) (k : Nat) :=
    Point.alone_failAt_succ toLowerCase hp s k
  cases k with
  | zero =>
    rw [hzero (by simp [Point.call?])]
    exact Or.inl ⟨by omega, rfl⟩
  | succ k =>
    rw [hsucc (by simp [Point.call?]), Point.next]
    cases k with
    | zero =>
      rw [hzero (by simp [Point.call?])]
      exact Or.inl ⟨by omega, rfl⟩
    | succ k =>
      rw [hsucc (by simp [Point.call?]), Point.next]
      cases k with
      | zero =>
        rw [hzero (by simp [Point.call?])]
        exact Or.inr (Or.inl ⟨rfl, rfl⟩)
      | succ k =>
        rw [hsucc (by simp [Point.call?]), Point.next]
        exact Or.inr (Or.inr ⟨by omega, rowsFrame_alone toLowerCase true d _ _⟩)

/-- What an attempt at `r` whose call `k` is rejected can leave: nothing, the appended
message, a chat without a log, or a user. -/
inductive Tried (s : Store M) (r : Request M) (k : Nat) : Store M → Prop
  | unwritten (h : s.unwritten k r) : Tried s r k s
  | appended {d : Send M} {s' : Store M} (hr : r.send? = some d) (h : ¬ s.unwritten k r)
      (hu : s'.users = s.users)
      (hc : s'.conversation d.sentBy d.sentTo = s.conversation d.sentBy d.sentTo ++ [d.entry]) :
      Tried s r k s'
  | chatOnly {d : Send M} (hr : r = .sendNewMessage d) (h : ¬ s.unwritten k r)
      (hn : s.chat d.sentBy d.sentTo = none) :
      Tried s r k (s.insertChat ⟨newChatId s.lastChat, d.sentBy, d.sentTo⟩)
  | registered {u : String} {s' : Store M} (hr : r = .addNewUser u) (h : ¬ s.unwritten k r)
      (hu : s'.users = s.users ++ [⟨u⟩]) : Tried s r k s'

theorem tried_pushed {s s' : Store M} (hs : Structural s) {r : Request M} {k : Nat} {d : Send M}
    {doc : ChatId} {es : List (Entry M)} (hr : r.send? = some d) (h : ¬ s.unwritten k r)
    (hd : s.chat d.sentBy d.sentTo = some doc) (hl : s.log doc.chatId = some es)
    (hf : RowsFrame d (s.push doc.chatId d.entry) s') : Tried s r k s' := by
  refine .appended hr h hf.users ?_
  rw [hf.conversation, conversation_push hs hd hl]
  simp

theorem tried_addNewUser (s : Store M) (u : String) (k : Nat) :
    Tried s (.addNewUser u) k (s.serve toLowerCase (.addNewUser u) (failAt k)).1 := by
  rw [Point.serve_eq_alone, Point.start]
  cases k with
  | zero =>
    rw [Point.alone_failAt_zero toLowerCase (by simp [Point.call?])]
    exact .unwritten rfl
  | succ k =>
    rw [Point.alone_failAt_succ toLowerCase (by simp [Point.call?]), Point.next]
    refine .registered rfl (Nat.succ_ne_zero k) ?_
    cases k with
    | zero =>
      rw [Point.alone_failAt_zero toLowerCase (by simp [Point.call?])]
      rfl
    | succ k =>
      rw [Point.alone_failAt_succ toLowerCase (by simp [Point.call?])]
      rfl

theorem tried_sendMessage {a : Service M} {s : Store M} (h : Represents a s) (d : Send M)
    (k : Nat) : Tried s (.sendMessage d) k
      (s.serve toLowerCase (.sendMessage d) (failAt k)).1 := by
  rw [Point.serve_eq_alone, Point.start]
  cases k with
  | zero =>
    rw [Point.alone_failAt_zero toLowerCase (by simp [Point.call?])]
    exact .unwritten (Or.inr (by omega))
  | succ k =>
    rw [Point.alone_failAt_succ toLowerCase (by simp [Point.call?]), Point.next]
    cases hd : s.chat d.sentBy d.sentTo with
    | none => exact .unwritten (Or.inl hd)
    | some doc =>
      have hl := (h.log hd).1
      rcases tried_push toLowerCase (d := d) (hl ▸ rfl : (s.log doc.chatId).isSome) k with
        ⟨rfl, he⟩ | ⟨hk, hf⟩
      · simp only [he]
        exact .unwritten (Or.inr (by omega))
      · have hn : ¬ s.unwritten (k + 1) (.sendMessage d) := by
          simp [Store.unwritten, hd]
          omega
        exact tried_pushed h.structural rfl hn hd hl hf

theorem tried_sendNewMessage {a : Service M} {s : Store M} (h : Represents a s) (d : Send M)
    (hto : d.sentTo ∈ a.names) (k : Nat) : Tried s (.sendNewMessage d) k
      (s.serve toLowerCase (.sendNewMessage d) (failAt k)).1 := by
  have hkeep (hk : k ≤ 2) : s.unwritten k (.sendNewMessage d) := by
    simp only [Store.unwritten]
    split <;> omega
  rw [Point.serve_eq_alone, Point.start]
  cases k with
  | zero =>
    rw [Point.alone_failAt_zero toLowerCase (by simp [Point.call?])]
    exact .unwritten (hkeep (by omega))
  | succ k =>
    rw [Point.alone_failAt_succ toLowerCase (by simp [Point.call?]), Point.next,
      if_pos (h.userExists hto)]
    cases k with
    | zero =>
      rw [Point.alone_failAt_zero toLowerCase (by simp [Point.call?])]
      exact .unwritten (hkeep (by omega))
    | succ k =>
      rw [Point.alone_failAt_succ toLowerCase (by simp [Point.call?]), Point.next]
      cases hd : s.chat d.sentBy d.sentTo with
      | some doc =>
        have hl := (h.log hd).1
        rcases tried_push toLowerCase (d := d) (hl ▸ rfl : (s.log doc.chatId).isSome) k with
          ⟨rfl, he⟩ | ⟨hk, hf⟩
        · simp only [he]
          exact .unwritten (hkeep (by omega))
        · have hn : ¬ s.unwritten (k + 1 + 1) (.sendNewMessage d) := by
            simp [Store.unwritten, hd]
            omega
          exact tried_pushed h.structural rfl hn hd hl hf
      | none =>
        have hn (hk : 1 < k) : ¬ s.unwritten (k + 1 + 1) (.sendNewMessage d) := by
          simp only [Store.unwritten, hd, if_true]
          omega
        simp only [if_true]
        rcases tried_findLast toLowerCase s d k with ⟨hk, he⟩ | ⟨rfl, he⟩ | ⟨hk, hf⟩
        · rw [he]
          refine .unwritten ?_
          simp only [Store.unwritten, hd, if_true]
          omega
        · rw [he]
          exact .chatOnly rfl (hn (by omega)) hd
        · refine .appended rfl (hn (by omega)) hf.users ?_
          rw [hf.conversation, conversation_createChat h.structural hd]
          simp

theorem tried_read {s : Store M} {r : Request M} (hr : r.send? = none)
    (hn : ∀ u, r ≠ .addNewUser u) (fails : Nat → Bool) :
    (s.serve toLowerCase r fails).1 = s := by
  obtain ⟨resp, -, h⟩ := Point.alone_invariant toLowerCase fails
    (I := fun p s' => p.reads = true ∧ s' = s)
    (fun p s' _ hI => ⟨Point.reads_next toLowerCase s' hI.1,
      (Point.next_reads toLowerCase s' hI.1).trans hI.2⟩)
    (fun _ _ _ _ hI => ⟨rfl, hI.2⟩) (p := Point.start r) (s := s)
    ⟨by cases r <;> simp_all [Point.start, Point.reads, Request.send?], rfl⟩
  rw [Point.serve_eq_alone]
  exact h.2

theorem tried {a : Service M} {s : Store M} (h : Represents a s) {r : Request M}
    (hp : a.Permits r) (k : Nat) : Tried s r k (s.serve toLowerCase r (failAt k)).1 := by
  cases r with
  | addNewUser u => exact tried_addNewUser toLowerCase s u k
  | sendMessage d => exact tried_sendMessage toLowerCase h d k
  | sendNewMessage d => exact tried_sendNewMessage toLowerCase h d (hp d rfl).2 k
  | _ =>
    rw [tried_read toLowerCase rfl (by simp)]
    exact .unwritten trivial

/-! The retry after a write. -/

theorem conversation_send {s : Store M} (hs : Structural s) {r : Request M} {d : Send M}
    (hr : r.send? = some d) (hu : userExists toLowerCase d.sentTo s.users = true)
    (hne : s.conversation d.sentBy d.sentTo ≠ []) :
    (s.serve toLowerCase r noFault).1.conversation d.sentBy d.sentTo =
      s.conversation d.sentBy d.sentTo ++ [d.entry] := by
  obtain ⟨s', resp, he, h⟩ := served toLowerCase s r
  rw [he]
  cases h with
  | read hr' hn => simp [hr'] at hr
  | added u => simp [Request.send?] at hr
  | unknown hu' =>
    cases hr
    simp [hu] at hu'
  | noChat hc =>
    cases hr
    simp [Store.conversation, hc] at hne
  | @noLog _ x doc hr' hc hl =>
    obtain rfl : d = x := Option.some.inj (hr.symm.trans hr')
    simp [Store.conversation, hc, hl] at hne
  | @pushed _ x doc _ _ hr' hu' hc hl h =>
    obtain rfl : d = x := Option.some.inj (hr.symm.trans hr')
    obtain ⟨es, hes⟩ := Option.isSome_iff_exists.mp hl
    rw [h.frame.conversation, conversation_push hs hc hes]
    simp
  | created hu' hc h =>
    cases hr
    simp [Store.conversation, hc] at hne

/-- The request with call `k` rejected at reading `t`, then once more at `t'`, ends up to the
recorded times in the store and with the answer of a single execution at `t''`. -/
def Store.retries (s : Store M) (r : Request M) (k : Nat) (t t' t'' : Int) : Prop :=
  let tried := (s.serve toLowerCase (r.readAt t) (failAt k)).1
  let again := tried.serve toLowerCase (r.readAt t') noFault
  let once := s.serve toLowerCase (r.readAt t'') noFault
  again.1.timeless = once.1.timeless ∧ again.2 = once.2

instance (s : Store M) (r : Request M) (k : Nat) (t t' t'' : Int) :
    Decidable (s.retries toLowerCase r k t t' t'') := inferInstanceAs (Decidable (_ ∧ _))

theorem not_retries_appended {a : Service M} {s : Store M} (h : Represents a s) {r : Request M}
    {d : Send M} (hr : r.send? = some d) (hp : a.Permits r)
    (hc : r = .sendNewMessage d ∨ a.conv s(d.sentBy, d.sentTo) ≠ []) {k : Nat} {t t' t'' : Int}
    (hu : (s.serve toLowerCase (r.readAt t) (failAt k)).1.users = s.users)
    (happ : (s.serve toLowerCase (r.readAt t) (failAt k)).1.conversation d.sentBy d.sentTo =
      s.conversation d.sentBy d.sentTo ++ [(d.readAt t).entry]) :
    ¬ s.retries toLowerCase r k t t' t'' := by
  rintro ⟨htimes, -⟩
  have hlen := length_conversation_timeless htimes d.sentBy d.sentTo
  have hr' (t : Int) : (r.readAt t).send? = some (d.readAt t) := by simp [hr]
  have hagain := conversation_send toLowerCase
    (structural_serve h.structural (r.readAt t) (failAt k)) (hr' t')
    (by rw [hu]; exact h.userExists (hp d hr).2) (by
      change (s.serve toLowerCase (r.readAt t) (failAt k)).1.conversation d.sentBy d.sentTo ≠ []
      simp [happ])
  have honce : (s.serve toLowerCase (r.readAt t'') noFault).1.conversation d.sentBy d.sentTo =
      s.conversation d.sentBy d.sentTo ++ [(d.readAt t'').entry] := by
    obtain ⟨s', resp, he, hs', -⟩ := h.serve_send toLowerCase (hr' t'') (permits_readAt hp t'')
      (hc.imp_left fun hq => by rw [hq]; rfl)
    rw [he, hs'.conversation, h.conversation]
    exact if_pos rfl
  have hby : (d.readAt t').sentBy = d.sentBy := rfl
  have hto : (d.readAt t').sentTo = d.sentTo := rfl
  rw [hby, hto] at hagain
  rw [hagain, happ, honce] at hlen
  simp at hlen

theorem not_retries_chatOnly {a : Service M} {s : Store M} (h : Represents a s) {d : Send M}
    (hp : a.Permits (.sendNewMessage d)) (hne : d.sentBy ≠ d.sentTo)
    (hn : s.chat d.sentBy d.sentTo = none) {k : Nat} {t t' t'' : Int}
    (hx : (s.serve toLowerCase (.sendNewMessage (d.readAt t)) (failAt k)).1 =
      s.insertChat ⟨newChatId s.lastChat, d.sentBy, d.sentTo⟩) :
    ¬ s.retries toLowerCase (.sendNewMessage d) k t t' t'' := by
  have hto := (hp d rfl).2
  have hagain : (((s.insertChat ⟨newChatId s.lastChat, d.sentBy, d.sentTo⟩).serve toLowerCase
      (.sendNewMessage (d.readAt t')) noFault).2 = [.error "DB_ERR"]) := by
    have hu : userExists toLowerCase (d.readAt t').sentTo s.users = true := h.userExists hto
    have hlinks : (ChatId.mk (newChatId s.lastChat) d.sentBy d.sentTo).links d.sentBy d.sentTo =
        true := links_iff.mpr rfl
    have hchat : (s.insertChat ⟨newChatId s.lastChat, d.sentBy, d.sentTo⟩).chat
        (d.readAt t').sentBy (d.readAt t').sentTo =
          some ⟨newChatId s.lastChat, d.sentBy, d.sentTo⟩ := by
      simp only [chat_insertChat]
      simp [Send.readAt, hn, hlinks]
    have hlog : (s.insertChat ⟨newChatId s.lastChat, d.sentBy, d.sentTo⟩).log
        (newChatId s.lastChat) = none := by
      refine log_eq_none.mpr fun hm => newChatId_fresh s ?_
      obtain ⟨lg, hl, he⟩ := List.mem_map.mp hm
      exact he ▸ h.structural.logChat lg hl
    rw [serve_sendNewMessage]
    have husers : (s.insertChat ⟨newChatId s.lastChat, d.sentBy, d.sentTo⟩).users = s.users := rfl
    simp only [husers, hu, if_true, hchat, Point.alone_push, hlog]
    rfl
  obtain ⟨s', resp, he, -, hst⟩ := h.serve_send toLowerCase (r := .sendNewMessage (d.readAt t''))
    (d := d.readAt t'') rfl (permits_readAt hp t'') (Or.inl rfl)
  have hconv : a.conv s(d.sentBy, d.sentTo) = [] := h.chat_eq_none.mp hn
  have hok : resp.status = .SUCCESS := by
    refine hst.mpr ⟨hne, ?_⟩
    simp [Service.endsWith, Send.readAt, hconv]
  rintro ⟨-, hans⟩
  simp only [Request.readAt] at hans
  rw [hx, hagain, he] at hans
  obtain rfl : Response.error "DB_ERR" = resp := by simpa using hans
  simp [Response.status] at hok

theorem not_retries_registered {s : Store M} {u : String} {k : Nat} {t t' t'' : Int}
    (hx : (s.serve toLowerCase (.addNewUser u) (failAt k)).1.users = s.users ++ [⟨u⟩]) :
    ¬ s.retries toLowerCase (.addNewUser u) k t t' t'' := by
  rintro ⟨htimes, -⟩
  have hlen := congrArg (fun x => x.users.length) htimes
  simp [Request.readAt, serve_addNewUser, Store.timeless, Store.insertUserMessages,
    Store.insertUser, hx] at hlen

theorem retries_unwritten {a : Service M} {s : Store M} (h : Represents a s) {r : Request M}
    (hp : a.Permits r) (hne : ∀ d, r.send? = some d → d.sentBy ≠ d.sentTo) {k : Nat}
    {t t' t'' : Int} (hx : (s.serve toLowerCase (r.readAt t) (failAt k)).1 = s) :
    s.retries toLowerCase r k t t' t'' ↔
      ∀ d, r.send? = some d → (s.endsWith (d.readAt t') ↔ s.endsWith (d.readAt t'')) := by
  obtain ⟨htimes, hans⟩ := serve_readAt toLowerCase h hp hne t' t''
  rw [Store.retries, hx]
  simp only [htimes, true_and, hans]

/-- After every run of requests between registered users without a failing call: a request
whose call `k` was rejected can be retried exactly if that call comes no later than the
first call that writes and both readings repeat, or both do not repeat, the end of the
conversation. (Past the last call nothing is rejected and the request runs twice.) -/
theorem retries_iff (rs : List (Request M)) (hl : Service.init.Legal rs) (r : Request M)
    (hp : (Service.init.run rs).Permits r)
    (hne : ∀ d, r.send? = some d → d.sentBy ≠ d.sentTo) (k : Nat) (t t' t'' : Int) :
    (Store.empty.serveEach toLowerCase rs).retries toLowerCase r k t t' t'' ↔
      (Store.empty.serveEach toLowerCase rs).unwritten k r ∧
        ∀ d, r.send? = some d → ((Store.empty.serveEach toLowerCase rs).endsWith (d.readAt t') ↔
          (Store.empty.serveEach toLowerCase rs).endsWith (d.readAt t'')) := by
  have h := represents_init.run toLowerCase hl
  have ht := tried toLowerCase h (permits_readAt hp t) k
  generalize hx : ((Store.empty.serveEach toLowerCase rs).serve toLowerCase (r.readAt t)
    (failAt k)).1 = x at ht
  have hfalse (hun : ¬ (Store.empty.serveEach toLowerCase rs).unwritten k (r.readAt t))
      (hnot : ¬ (Store.empty.serveEach toLowerCase rs).retries toLowerCase r k t t' t'') :
      (Store.empty.serveEach toLowerCase rs).retries toLowerCase r k t t' t'' ↔
        (Store.empty.serveEach toLowerCase rs).unwritten k r ∧ ∀ d, r.send? = some d →
          ((Store.empty.serveEach toLowerCase rs).endsWith (d.readAt t') ↔
            (Store.empty.serveEach toLowerCase rs).endsWith (d.readAt t'')) :=
    iff_of_false hnot fun hq => hun ((unwritten_readAt _ k r t).mpr hq.1)
  cases ht with
  | unwritten hun =>
    rw [retries_unwritten toLowerCase h hp hne hx,
      and_iff_right ((unwritten_readAt _ k r t).mp hun)]
  | @appended y x hr hun hu happ =>
    refine hfalse hun ?_
    rw [send_readAt] at hr
    obtain ⟨d, hd, rfl⟩ := Option.map_eq_some_iff.mp hr
    subst hx
    refine not_retries_appended toLowerCase h hd hp ?_ hu happ
    cases r with
    | sendMessage z =>
      cases hd
      rw [unwritten_readAt, Store.unwritten, not_or, h.chat_eq_none] at hun
      exact Or.inr hun.1
    | sendNewMessage z =>
      cases hd
      exact Or.inl rfl
    | _ => simp [Request.send?] at hd
  | @chatOnly y hr hun hn =>
    refine hfalse hun ?_
    cases r with
    | sendNewMessage d =>
      cases hr
      exact not_retries_chatOnly toLowerCase h hp (hne d rfl) hn hx
    | _ => simp [Request.readAt] at hr
  | registered hr hun hu =>
    refine hfalse hun ?_
    cases r with
    | addNewUser u =>
      cases hr
      exact not_retries_registered toLowerCase (by rw [← hu, ← hx]; rfl)
    | _ => simp [Request.readAt] at hr

def retriedSend : Request String := .sendMessage ⟨"ann", "bob", "hi", 0⟩

theorem permits_retriedSend : (Service.init.run annAndBob).Permits retriedSend := by
  simp [annAndBob, retriedSend, Service.Permits, Service.run, Service.serve, Service.init,
    Service.append, Request.send?]

theorem retries_before_append :
    (Store.empty.serveEach id annAndBob).retries id retriedSend 1 3 4 4 := by
  have hne (d : Send String) (hd : retriedSend.send? = some d) : d.sentBy ≠ d.sentTo := by
    obtain rfl : (⟨"ann", "bob", "hi", 0⟩ : Send String) = d := Option.some.inj hd
    decide
  exact (retries_iff id annAndBob legal_annAndBob retriedSend permits_retriedSend hne 1 3 4 4).mpr
    ⟨Or.inr (by decide), fun _ _ => Iff.rfl⟩

/-- The attempt whose third call is rejected has appended the message, the retry appends it
once more. -/
theorem not_retries_after_append :
    Service.init.Legal annAndBob ∧ (Service.init.run annAndBob).Permits retriedSend ∧
      ¬ (Store.empty.serveEach id annAndBob).retries id retriedSend 2 3 4 4 :=
  ⟨legal_annAndBob, permits_retriedSend, by decide⟩

end RecoupChat
