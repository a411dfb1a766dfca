import RecoupChat.Sequential
import RecoupChat.Structural

/-! Sends with arbitrary names: what they answer, and when an answer ERROR means that
nothing was written. -/
namespace RecoupChat
open Promise
variable {M : Type}

def Store.outdated (s : Store M) (u v : String) (m : M) (t : Int) : Prop :=
  ∃ r, s.row u v = some r ∧ ¬ (r.lastMessage = m ∧ r.lastMessageTime = t)

def Store.bothOutdated (s : Store M) (d : Send M) : Prop :=
  d.sentBy ≠ d.sentTo ∧ s.outdated d.sentBy d.sentTo d.message d.timeNow ∧
    s.outdated d.sentTo d.sentBy d.message d.timeNow

theorem row_eq_none_of_chat {s : Store M} (h : Structural s) {u v : String}
    (hc : s.chat u v = none) : s.row u v = none := by
  cases hr : s.row u v with
  | none => rfl
  | some r =>
    obtain ⟨rows, hrows, hrow⟩ := Option.bind_eq_some_iff.mp hr
    obtain ⟨doc, hd, hp, -⟩ := h.logged_rows hrows r (List.mem_of_find?_eq_some hrow)
    rw [rowFor_name hrow] at hp
    exact absurd hp (chat_eq_none.mp hc doc hd)

theorem rows_of_row {s : Store M} {u v : String} (h : s.row u v ≠ none) : s.rows u ≠ none := by
  intro hr
  simp [Store.row, hr] at h

theorem created_ne {d : Send M} {s s' : Store M} (h : RowsFrame d (s.createChat d) s') :
    s' ≠ s := by
  intro he
  have hlen := congrArg List.length (he ▸ h.chatIds)
  simp [Store.createChat, Store.insertChat, Store.insertLog] at hlen

variable [DecidableEq M]

theorem canShow_false {s : Store M} {u v : String} {m : M} {t : Int} :
    s.canShow false u v m t ↔ s.outdated u v m t := by
  rw [Store.canShow, ne_eq, showRow_eq_none, Store.shows, Store.outdated]
  cases hr : s.row u v with
  | none => simp
  | some r =>
    have hn := row_name hr
    have hrows := rows_of_row (hr ▸ Option.some_ne_none r)
    cases r
    simp_all

theorem canShow_true {s : Store M} {u v : String} {m : M} {t : Int} :
    s.canShow true u v m t ↔ s.rows u ≠ none ∧ ¬ s.shows u v m t := by
  rw [Store.canShow, ne_eq, showRow_eq_none]
  simp

theorem RowsRun.status_push {d : Send M} {c : Nat} {s s' : Store M} {resp : Response M}
    (h : RowsRun false d (s.push c d.entry) s' resp) :
    resp.status = .SUCCESS ↔ s.bothOutdated d := by
  rw [h.status_iff, canShow_false, canShow_false]
  rfl

theorem RowsRun.status_create {s s' : Store M} (hs : Structural s) {d : Send M}
    {resp : Response M} (hc : s.chat d.sentBy d.sentTo = none)
    (h : RowsRun true d (s.createChat d) s' resp) :
    resp.status = .SUCCESS ↔
      d.sentBy ≠ d.sentTo ∧ s.rows d.sentBy ≠ none ∧ s.rows d.sentTo ≠ none := by
  have hrows (u : String) : (s.createChat d).rows u = s.rows u := rfl
  have hnew (u v : String) (hn : s.chat u v = none) :
      ¬ (s.createChat d).shows u v d.message d.timeNow := by
    have hrow : (s.createChat d).row u v = none := row_eq_none_of_chat hs hn
    simp [Store.shows, hrow]
  have hby := hnew d.sentBy d.sentTo hc
  have hto := hnew d.sentTo d.sentBy (chat_comm s d.sentBy d.sentTo ▸ hc)
  rw [h.status_iff, canShow_true, canShow_true, hrows, hrows]
  simp only [hby, hto, not_false_eq_true, and_true]

variable (toLowerCase : String → String)

/-- The request answers SUCCESS, or it leaves the store as it was. -/
def Store.failsClean (s : Store M) (r : Request M) : Prop :=
  ∃ resp, (s.serve toLowerCase r noFault).2 = [resp] ∧
    (resp.status ≠ .SUCCESS → (s.serve toLowerCase r noFault).1 = s)

/-- The send is stopped before its first write, or nothing will stop it after that. -/
def Store.ready (s : Store M) : Request M → Prop
  | .sendMessage d => s.chat d.sentBy d.sentTo = none ∨ s.bothOutdated d
  | .sendNewMessage d => userExists toLowerCase d.sentTo s.users = false ∨
      if s.chat d.sentBy d.sentTo = none then
        d.sentBy ≠ d.sentTo ∧ s.rows d.sentBy ≠ none ∧ s.rows d.sentTo ≠ none
      else s.bothOutdated d
  | _ => True

theorem pushed_ne {d : Send M} {c : Nat} {s s' : Store M} (hl : (s.log c).isSome)
    (h : RowsFrame d (s.push c d.entry) s') : s' ≠ s := by
  intro he
  obtain ⟨es, hes⟩ := Option.isSome_iff_exists.mp hl
  have hlog : s'.log c = (s.push c d.entry).log c := by
    simp only [Store.log, Store.logDoc, h.chatMessages]
  rw [he, log_push, if_pos rfl, hes] at hlog
  simp at hlog

theorem failsClean_iff {s : Store M} (hs : Structural s) (hc : Complete s) (r : Request M) :
    s.failsClean toLowerCase r ↔ s.ready toLowerCase r := by
  obtain ⟨s', resp, he, h⟩ := served toLowerCase s r
  have hclean : s.failsClean toLowerCase r ↔ (resp.status ≠ .SUCCESS → s' = s) := by
    rw [Store.failsClean, he]
    simp
  rw [hclean]
  cases h with
  | read hr hn => cases r <;> simp_all [Store.ready, Request.send?]
  | added u => simp [Store.ready, Response.status]
  | unknown hu => simp [Store.ready, hu]
  | noChat hn => simp [Store.ready, hn]
  | noLog hr hd hl =>
    have hm := hc _ (chat_mem hd)
    exact absurd hm (log_eq_none.mp hl)
  | @pushed _ d doc s' resp hr hu hd hl h =>
    rw [ne_eq, h.status_push]
    have hne := pushed_ne hl h.frame
    cases r with
    | sendMessage x =>
      obtain rfl : x = d := by simpa [Request.send?] using hr
      simp [Store.ready, hd, hne]
    | sendNewMessage x =>
      obtain rfl : x = d := by simpa [Request.send?] using hr
      simp [Store.ready, hd, hne, hu rfl]
    | _ => simp [Request.send?] at hr
  | created hu hd h =>
    rw [ne_eq, h.status_create hs hd]
    simp [Store.ready, hd, hu, created_ne h.frame]

theorem complete_reached (rs : List (Request M)) :
    Complete (Store.empty.serveEach toLowerCase rs) :=
  complete_serveEach (fun doc hd => by simp [Store.empty] at hd) rs

theorem structural_reached (rs : List (Request M)) :
    Structural (Store.empty.serveEach toLowerCase rs) :=
  structural_serveAll structural_empty _

/-- In every store reached by requests served one after the other without a failing call,
an ERROR answer means that nothing was written exactly if the request is ready. -/
theorem error_unwritten_iff (rs : List (Request M)) (r : Request M) :
    (Store.empty.serveEach toLowerCase rs).failsClean toLowerCase r ↔
      (Store.empty.serveEach toLowerCase rs).ready toLowerCase r :=
  failsClean_iff toLowerCase (structural_reached toLowerCase rs)
    (complete_reached toLowerCase rs) r

def bobAlone : List (Request String) := [.addNewUser "bob"]

/-- A message by a sender without documents answers ERROR and leaves a chat and its log. -/
theorem unregistered_send_writes :
    ¬ (Store.empty.serveEach id bobAlone).failsClean id
      (.sendNewMessage ⟨"ann", "bob", "hi", 1⟩) := by
  have hs : (Store.empty.serveEach id bobAlone).serve id
      (.sendNewMessage ⟨"ann", "bob", "hi", 1⟩) noFault =
        (⟨[⟨"bob"⟩], [⟨"bob", []⟩], [⟨0, "ann", "bob"⟩], [⟨0, [⟨"ann", "hi", 1⟩]⟩]⟩,
          [.error "DB_ERR"]) := by decide
  rintro ⟨resp, hr, hkeep⟩
  rw [hs] at hr hkeep
  obtain rfl : Response.error "DB_ERR" = resp := by simpa using hr
  exact absurd (congrArg Store.chatIds (hkeep (by decide))) (by decide)

end RecoupChat
