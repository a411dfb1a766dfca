import RecoupChat.Service

/-! Requests between registered users, served one after the other without a failing call,
implement the service. -/
namespace RecoupChat
open Promise
variable {M : Type}

theorem endsWith_comm {a : Service M} {u v : String} {m : M} {t : Int} :
    a.endsWith u v m t ↔ a.endsWith v u m t := by
  simp only [Service.endsWith, Sym2.eq_swap]

namespace Represents
variable {a : Service M} {s : Store M} (h : Represents a s)
include h

theorem row_ne_none {u v : String} (hc : a.conv s(u, v) ≠ []) : s.row u v ≠ none := by
  rw [h.row]
  simpa using hc

theorem append {d : Send M} (s1 : Store M) {s' : Store M}
    (hby : d.sentBy ∈ a.names) (hto : d.sentTo ∈ a.names)
    (hu : s1.users = s.users) (hum : s1.userMessages = s.userMessages)
    (hconv : ∀ u v, s1.conversation u v =
      if s(u, v) = s(d.sentBy, d.sentTo) then s.conversation u v ++ [d.entry]
      else s.conversation u v)
    (hsh : Shown s1 s' d) (hs : Structural s') (hc : Complete s') :
    Represents (a.append d) s' where
  structural := hs
  complete := hc
  users := by
    rw [hsh.frame.users, hu]
    exact h.users
  docs := by
    rw [hsh.frame.docs, hum]
    exact h.docs
  known u v hne := by
    by_cases hp : s(u, v) = s(d.sentBy, d.sentTo)
    · exact of_pair (P := fun u _ => u ∈ a.names) hp hby hto
    · simp only [Service.append, hp, if_false] at hne
      exact h.known u v hne
  conversation u v := by
    rw [hsh.frame.conversation, hconv, h.conversation]
    rfl
  row u v := by
    have hrow : s1.row u v = s.row u v := by
      simp only [Store.row, Store.rows, Store.rowsDoc, hum]
    rw [hsh.row, hrow, h.row]
    by_cases hp : s(u, v) = s(d.sentBy, d.sentTo)
    · simp [Service.append, hp, Entry.rowOf, Send.entry]
    · simp [Service.append, hp]

theorem addUser (u : String) :
    Represents { a with names := a.names ++ [u] }
      ((s.insertUser ⟨u⟩).insertUserMessages ⟨u, []⟩) where
  structural := (h.structural.insertUser ⟨u⟩).insertUserMessages u
  complete := h.complete
  users := by simp [Store.insertUser, Store.insertUserMessages, h.users]
  docs := by simp [Store.insertUser, Store.insertUserMessages, h.docs]
  known v w hne := List.mem_append_left _ (h.known v w hne)
  conversation := h.conversation
  row v w := by
    have hr := row_insertUserMessages (s.insertUser ⟨u⟩) u v w
    exact hr.trans (h.row v w)

section Serve
variable [DecidableEq M] {toLowerCase : String → String}

theorem writable (create : Bool) {d : Send M} {s1 : Store M}
    (hby : d.sentBy ∈ a.names) (hto : d.sentTo ∈ a.names)
    (hum : s1.userMessages = s.userMessages)
    (hc : create = false → a.conv s(d.sentBy, d.sentTo) ≠ []) :
    s1.showRow create d.sentBy d.sentTo d.message d.timeNow ≠ none ∧
      s1.showRow create d.sentTo d.sentBy d.message d.timeNow ≠ none ∧
      (s1.shows d.sentBy d.sentTo d.message d.timeNow ↔
        a.endsWith d.sentBy d.sentTo d.message d.timeNow) ∧
      (s1.shows d.sentTo d.sentBy d.message d.timeNow ↔
        a.endsWith d.sentBy d.sentTo d.message d.timeNow) := by
  have hrows (u : String) : s1.rows u = s.rows u := by
    simp only [Store.rows, Store.rowsDoc, hum]
  have hrow (u v : String) : s1.row u v = s.row u v := by simp only [Store.row, hrows]
  have hshows (u v : String) (m : M) (t : Int) : s1.shows u v m t ↔ a.endsWith u v m t := by
    rw [← h.shows_iff, Store.shows, Store.shows, hrow]
  have hcan (u v : String) (hu : u ∈ a.names) (hp : s(u, v) = s(d.sentBy, d.sentTo)) :
      s1.showRow create u v d.message d.timeNow ≠ none := by
    intro hn
    rcases showRow_eq_none.mp hn with hn | ⟨hf, hn⟩
    · have hi := h.rows_isSome hu
      simp [← hrows, hn] at hi
    · exact h.row_ne_none (hp ▸ hc hf) (hrow u v ▸ hn)
  exact ⟨hcan _ _ hby rfl, hcan _ _ hto Sym2.eq_swap, hshows _ _ _ _,
    (hshows _ _ _ _).trans endsWith_comm⟩

theorem rows_run (toLowerCase : String → String) (create : Bool) (d : Send M) (s1 : Store M)
    (hby : d.sentBy ∈ a.names) (hto : d.sentTo ∈ a.names)
    (hum : s1.userMessages = s.userMessages)
    (hc : create = false → a.conv s(d.sentBy, d.sentTo) ≠ []) :
    ∃ s' resp, (Point.findBy create d).alone toLowerCase s1 noFault = (s', [resp]) ∧
      Shown s1 s' d ∧ (resp.status = .SUCCESS ↔ d.sentBy ≠ d.sentTo ∧
        ¬ a.endsWith d.sentBy d.sentTo d.message d.timeNow) := by
  obtain ⟨hcby, hcto, hsby, hsto⟩ := h.writable create hby hto hum hc
  obtain ⟨s', resp, he, hr⟩ := alone_findBy_rowsRun toLowerCase create d s1
  have hboth := hr.showRows hcby hcto (hsby.trans hsto.symm)
  refine ⟨s', resp, he, ⟨hr.frame, shows_showRows hboth⟩, ?_⟩
  rw [hr.status_iff, Store.canShow, Store.canShow, hsby, hsto]
  tauto

/-- A permitted send that is a POST, or a PUT on an existing chat, implements the append of
the service; it answers SUCCESS unless sender and recipient are one user or the
conversation ends with the same message and time. -/
theorem serve_send (toLowerCase : String → String) {r : Request M} {d : Send M}
    (hr : r.send? = some d) (hp : a.Permits r)
    (hc : r = .sendNewMessage d ∨ a.conv s(d.sentBy, d.sentTo) ≠ []) :
    ∃ s' resp, s.serve toLowerCase r noFault = (s', [resp]) ∧ Represents (a.append d) s' ∧
      (resp.status = .SUCCESS ↔ d.sentBy ≠ d.sentTo ∧
        ¬ a.endsWith d.sentBy d.sentTo d.message d.timeNow) := by
  obtain ⟨hby, hto⟩ := hp d hr
  have hst : Structural (s.serve toLowerCase r noFault).1 := structural_serve h.structural r _
  have hcm : Complete (s.serve toLowerCase r noFault).1 := complete_serve h.complete r
  cases hd : s.chat d.sentBy d.sentTo with
  | some doc =>
    obtain ⟨hl, hne⟩ := h.log hd
    have he : s.serve toLowerCase r noFault =
        (Point.findBy false d).alone toLowerCase (s.push doc.chatId d.entry) noFault := by
      cases r with
      | sendMessage x =>
        obtain rfl : x = d := by simpa [Request.send?] using hr
        simp [serve_sendMessage, hd, Point.alone_push, hl]
      | sendNewMessage x =>
        obtain rfl : x = d := by simpa [Request.send?] using hr
        simp [serve_sendNewMessage, h.userExists hto, hd, Point.alone_push, hl]
      | _ => simp [Request.send?] at hr
    obtain ⟨s', resp, ha, hsh, hstat⟩ := h.rows_run toLowerCase false d
      (s.push doc.chatId d.entry) hby hto rfl (fun _ => hne)
    rw [he, ha] at hst hcm
    exact ⟨s', resp, he.trans ha,
      h.append (s.push doc.chatId d.entry) hby hto rfl rfl
        (conversation_push h.structural hd hl) hsh hst hcm, hstat⟩
  | none =>
    have hn := h.chat_eq_none.mp hd
    obtain rfl : r = .sendNewMessage d := hc.resolve_right (fun hne => hne hn)
    have he : s.serve toLowerCase (.sendNewMessage d) noFault =
        (Point.findBy true d).alone toLowerCase (s.createChat d) noFault := by
      simp [serve_sendNewMessage, h.userExists hto, hd]
    obtain ⟨s', resp, ha, hsh, hstat⟩ := h.rows_run toLowerCase true d
      (s.createChat d) hby hto rfl (fun hf => by cases hf)
    rw [he, ha] at hst hcm
    exact ⟨s', resp, he.trans ha,
      h.append (s.createChat d) hby hto rfl rfl
        (conversation_createChat h.structural hd) hsh hst hcm, hstat⟩

/-- Every permitted request implements the service. -/
theorem serve {r : Request M} (hp : a.Permits r) :
    Represents (a.serve r) (s.serve toLowerCase r noFault).1 := by
  cases r with
  | getExistingUsernames => exact h
  | getUserChats u =>
    rw [serve_getUserChats]
    exact h
  | getUserChatMessages u v =>
    rw [serve_getUserChatMessages]
    exact h
  | sendMessage d =>
    by_cases hc : a.conv s(d.sentBy, d.sentTo) = []
    · have hn := h.chat_eq_none.mpr hc
      rw [serve_sendMessage, hn, Service.serve, if_pos hc]
      exact h
    · obtain ⟨s', resp, he, hr, -⟩ := h.serve_send toLowerCase
        (r := .sendMessage d) (d := d) rfl hp (Or.inr hc)
      rw [he, Service.serve, if_neg hc]
      exact hr
  | sendNewMessage d =>
    obtain ⟨s', resp, he, hr, -⟩ := h.serve_send toLowerCase
      (r := .sendNewMessage d) (d := d) rfl hp (Or.inl rfl)
    rw [he]
    exact hr
  | addNewUser u =>
    rw [serve_addNewUser]
    exact h.addUser u

/-! The answers of the reading requests. -/

theorem messages (u v : String) :
    s.serve toLowerCase (.getUserChatMessages u v) noFault =
      (s, [if a.conv s(u, v) = [] then .error "DB_ERR" else .messages (a.conv s(u, v))]) := by
  rw [serve_getUserChatMessages]
  cases hc : s.chat u v with
  | none => simp [h.chat_eq_none.mp hc]
  | some doc =>
    obtain ⟨hl, hne⟩ := h.log hc
    simp [hl, hne]

theorem chats (u : String) :
    ∃ chats, s.serve toLowerCase (.getUserChats u) noFault = (s, [.chats chats]) ∧
      (chats.map (·.toUsername)).Nodup ∧
      ∀ r, r ∈ chats ↔
        ∃ e, (a.conv s(u, r.toUsername)).getLast? = some e ∧ r = e.rowOf r.toUsername := by
  refine ⟨_, serve_getUserChats toLowerCase s u, ?_, fun r => ?_⟩
  · have hperm := (List.mergeSort_perm ((s.rows u).getD []) fun x y => newestFirst x y ≤ 0).map
      (·.toUsername)
    refine hperm.nodup_iff.mpr ?_
    cases hr : s.rows u with
    | none => exact List.nodup_nil
    | some rows => exact h.structural.nodup_rows hr
  · have hrow := h.row u r.toUsername
    rw [jsSort, List.mem_mergeSort]
    cases hr : s.rows u with
    | none =>
      rw [Store.row, hr] at hrow
      simp only [Option.getD_none, List.not_mem_nil, false_iff]
      rintro ⟨e, he, -⟩
      simp [he] at hrow
    | some rows =>
      rw [Store.row, hr, Option.bind_some] at hrow
      rw [Option.getD_some, rowFor_mem_iff (h.structural.nodup_rows hr), hrow,
        Option.map_eq_some_iff]
      exact exists_congr fun e => and_congr_right fun _ => eq_comm

end Serve
end Represents

section Runs
variable [DecidableEq M]

theorem Represents.run (toLowerCase : String → String) {a : Service M} {s : Store M}
    (h : Represents a s) {rs : List (Request M)} (hl : a.Legal rs) :
    Represents (a.run rs) (s.serveEach toLowerCase rs) := by
  induction rs generalizing a s with
  | nil => exact h
  | cons r rs ih => exact ih (h.serve hl.1) hl.2

/-- What the three reading requests answer when the service is in state `a`. -/
structure Service.Answers (toLowerCase : String → String) (a : Service M) (s : Store M) :
    Prop where
  messages : ∀ u v, s.serve toLowerCase (.getUserChatMessages u v) noFault =
    (s, [if a.conv s(u, v) = [] then .error "DB_ERR" else .messages (a.conv s(u, v))])
  chats : ∀ u, ∃ chats, s.serve toLowerCase (.getUserChats u) noFault = (s, [.chats chats]) ∧
    (chats.map (·.toUsername)).Nodup ∧
    ∀ r, r ∈ chats ↔
      ∃ e, (a.conv s(u, r.toUsername)).getLast? = some e ∧ r = e.rowOf r.toUsername
  usernames : s.serve toLowerCase .getExistingUsernames noFault = (s, [.usernames a.names])

/-- After every run of requests between registered users, one after the other and without
a failing call, the reading requests answer what the service holds. -/
theorem run_answers (toLowerCase : String → String) (rs : List (Request M))
    (hl : Service.init.Legal rs) :
    (Service.init.run rs).Answers toLowerCase (Store.empty.serveEach toLowerCase rs) := by
  have h := represents_init.run toLowerCase hl
  refine ⟨h.messages, h.chats, ?_⟩
  rw [serve_getExistingUsernames, h.users]

def annAndBob : List (Request String) :=
  [.addNewUser "ann", .addNewUser "bob", .sendNewMessage ⟨"ann", "bob", "hi", 1⟩,
    .sendMessage ⟨"bob", "ann", "hey", 2⟩]

theorem legal_annAndBob : Service.init.Legal annAndBob := by
  simp [annAndBob, Service.Legal, Service.Permits, Service.serve, Service.init, Service.append,
    Request.send?]

theorem run_answers_annAndBob :
    (Store.empty.serveEach id annAndBob).serve id (.getUserChatMessages "bob" "ann") noFault =
      (Store.empty.serveEach id annAndBob,
        [.messages [⟨"ann", "hi", 1⟩, ⟨"bob", "hey", 2⟩]]) := by
  rw [(run_answers id annAndBob legal_annAndBob).messages]
  simp [annAndBob, Service.run, Service.serve, Service.init, Service.append, Send.entry]

/-- Request `r` answers SUCCESS and appends the message of `d` exactly once. -/
def Store.sends (toLowerCase : String → String) (s : Store M) (r : Request M) (d : Send M) :
    Prop :=
  (∃ resp, (s.serve toLowerCase r noFault).2 = [resp] ∧ resp.status = .SUCCESS) ∧
    (s.serve toLowerCase r noFault).1.conversation d.sentBy d.sentTo =
      s.conversation d.sentBy d.sentTo ++ [d.entry]

def Store.endsWith (s : Store M) (d : Send M) : Prop :=
  ∃ e, (s.conversation d.sentBy d.sentTo).getLast? = some e ∧ e.message = d.message ∧
    e.time = d.timeNow

/-- A valid send always appends its message; it is reported as a success exactly if its two
users are different and the conversation does not end with the same message and time. -/
theorem valid_send_iff (toLowerCase : String → String) (rs : List (Request M))
    (hl : Service.init.Legal rs) (r : Request M) (d : Send M) (hr : r.send? = some d)
    (hp : (Service.init.run rs).Permits r)
    (hc : r = .sendNewMessage d ∨
      (Store.empty.serveEach toLowerCase rs).chat d.sentBy d.sentTo ≠ none) :
    (Store.empty.serveEach toLowerCase rs).sends toLowerCase r d ↔
      d.sentBy ≠ d.sentTo ∧ ¬ (Store.empty.serveEach toLowerCase rs).endsWith d := by
  have h := represents_init.run toLowerCase hl
  have hconv := h.conversation d.sentBy d.sentTo
  obtain ⟨s', resp, he, hs', hstat⟩ := h.serve_send toLowerCase hr hp
    (hc.imp_right fun hn hv => hn (h.chat_eq_none.mpr hv))
  have happ : s'.conversation d.sentBy d.sentTo =
      (Store.empty.serveEach toLowerCase rs).conversation d.sentBy d.sentTo ++ [d.entry] := by
    rw [hs'.conversation, hconv]
    simp [Service.append]
  have hend : (Store.empty.serveEach toLowerCase rs).endsWith d ↔
      (Service.init.run rs).endsWith d.sentBy d.sentTo d.message d.timeNow := by
    rw [Store.endsWith, hconv, Service.endsWith]
  rw [Store.sends, he, hend, ← hstat]
  simp [happ]

theorem valid_send_annAndBob :
    (Store.empty.serveEach id annAndBob).sends id (.sendMessage ⟨"ann", "bob", "hey", 3⟩)
      ⟨"ann", "bob", "hey", 3⟩ := by
  have hp : (Service.init.run annAndBob).Permits (.sendMessage ⟨"ann", "bob", "hey", 3⟩) := by
    simp [annAndBob, Service.Permits, Service.run, Service.serve, Service.init, Service.append,
      Request.send?]
  refine (valid_send_iff id annAndBob legal_annAndBob _ _ rfl hp (Or.inr (by decide))).mpr
    ⟨by decide, ?_⟩
  rintro ⟨e, he, hm, ht⟩
  have hlast : e = ⟨"bob", "hey", 2⟩ := Option.some.inj (he.symm.trans (by decide))
  simp [hlast] at ht

def annAlone : List (Request String) := [.addNewUser "ann"]

/-- A message to oneself is appended but answered with an error. -/
theorem self_send_error :
    Service.init.Legal annAlone ∧
      (Service.init.run annAlone).Permits (.sendNewMessage ⟨"ann", "ann", "hi", 1⟩) ∧
      ¬ (Store.empty.serveEach id annAlone).sends id
        (.sendNewMessage ⟨"ann", "ann", "hi", 1⟩) ⟨"ann", "ann", "hi", 1⟩ := by
  refine ⟨by simp [annAlone, Service.Legal, Service.Permits, Request.send?],
    by simp [annAlone, Service.Permits, Service.run, Service.serve, Service.init,
      Request.send?], ?_⟩
  rintro ⟨⟨resp, he, hs⟩, -⟩
  have hresp : (Store.empty.serveEach id annAlone).serve id
      (.sendNewMessage ⟨"ann", "ann", "hi", 1⟩) noFault =
        (⟨[⟨"ann"⟩], [⟨"ann", [⟨"ann", "hi", 1⟩]⟩], [⟨0, "ann", "ann"⟩],
          [⟨0, [⟨"ann", "hi", 1⟩]⟩]⟩, [.error "DB_ERR"]) := by decide
  rw [hresp] at he
  simp only [List.cons.injEq, and_true] at he
  simp [← he, Response.status] at hs

end Runs
end RecoupChat
