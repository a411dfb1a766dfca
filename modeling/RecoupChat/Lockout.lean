import RecoupChat.ErrorAnswers
import RecoupChat.Service

/-! Which request histories lock a pair out: a chat created before both users are
registered lacks a row, and no later request adds it. -/
namespace RecoupChat
open Promise
variable {M : Type}

/-- The chat of the pair, if there is one, has its two rows. -/
def Store.unlocked (s : Store M) (a b : String) : Prop :=
  s.chat a b = none ∨ s.row a b ≠ none ∧ s.row b a ≠ none

/-- No POST between `a` and `b` passes the recipient check unless both are registered. -/
def Store.timely (toLowerCase : String → String) (s : Store M) (a b : String) (r : Request M) :
    Prop :=
  ∀ d, r = .sendNewMessage d → s(d.sentBy, d.sentTo) = s(a, b) →
    userExists toLowerCase d.sentTo s.users = true → s.registered a ∧ s.registered b

theorem unlocked_comm (s : Store M) (a b : String) : s.unlocked a b ↔ s.unlocked b a := by
  rw [Store.unlocked, Store.unlocked, chat_comm, and_comm]

theorem userExists_registered (toLowerCase : String → String) {s : Store M} {u : String}
    (h : s.registered u) : userExists toLowerCase u s.users = true := by
  obtain ⟨x, hx, rfl⟩ := List.mem_map.mp h
  rw [userExists, List.contains_iff_mem]
  exact List.mem_map_of_mem hx

structure Sound (s : Store M) : Prop where
  structural : Structural s
  complete : Complete s
  docs : s.userMessages.map (·.username) = s.users.map (·.username)

theorem sound_empty : Sound (Store.empty : Store M) :=
  ⟨structural_empty, fun doc hd => by simp [Store.empty] at hd, rfl⟩

namespace Sound
variable {s : Store M} (h : Sound s)
include h

theorem rows_iff {u : String} : s.rows u ≠ none ↔ s.registered u := by
  rw [ne_eq, rows_eq_none, not_not, h.docs, Store.registered]

theorem registered_of_unlocked {a b : String} {doc : ChatId} (hc : s.chat a b = some doc)
    (hu : s.unlocked a b) : s.registered a ∧ s.registered b := by
  have hr : s.row a b ≠ none ∧ s.row b a ≠ none :=
    hu.resolve_left (fun hn => by simp [hn] at hc)
  exact ⟨h.rows_iff.mp (rows_of_row hr.1), h.rows_iff.mp (rows_of_row hr.2)⟩

end Sound

variable [DecidableEq M]

theorem row_ne_none_showRow {s s1 : Store M} {u v : String} {m : M} {t : Int}
    (h : s.showRow false u v m t = some s1) (u' v' : String) :
    s1.row u' v' ≠ none ↔ s.row u' v' ≠ none := by
  have hold : s.row u v ≠ none := by
    intro hn
    simp [showRow_eq_none.mpr (Or.inr ⟨rfl, hn⟩)] at h
  rw [row_showRow h]
  split
  · rename_i hq
    simp [hq.1, hq.2, hold]
  · rfl

theorem RowsRun.row_ne_none {d : Send M} {s s' : Store M} {resp : Response M}
    (h : RowsRun false d s s' resp) (u v : String) :
    s'.row u v ≠ none ↔ s.row u v ≠ none := by
  cases h with
  | noRowBy h => rfl
  | sameBy h hs => rfl
  | noRowTo h hs h1 => exact row_ne_none_showRow h u v
  | sameTo h hs h1 hs1 => exact row_ne_none_showRow h u v
  | both h hs h1 hs1 =>
    exact (row_ne_none_showRow h1 u v).trans (row_ne_none_showRow h u v)

variable (toLowerCase : String → String)

theorem sound_serve {s : Store M} (h : Sound s) (r : Request M) :
    Sound (s.serve toLowerCase r noFault).1 := by
  refine ⟨structural_serve h.structural r _, complete_serve h.complete r, ?_⟩
  obtain ⟨s', resp, he, hsv⟩ := served toLowerCase s r
  rw [he]
  cases hsv with
  | added u => simp [Store.insertUser, Store.insertUserMessages, h.docs]
  | pushed hr hu hc hl hrun => rw [hrun.frame.docs, hrun.frame.users]; exact h.docs
  | created hu hc hrun => rw [hrun.frame.docs, hrun.frame.users]; exact h.docs
  | _ => exact h.docs

theorem unlocked_create {s s' : Store M} (h : Sound s) {d : Send M} {resp : Response M}
    (hne : d.sentBy ≠ d.sentTo) (hc : s.chat d.sentBy d.sentTo = none)
    (hrun : RowsRun true d (s.createChat d) s' resp) :
    s'.unlocked d.sentBy d.sentTo ↔ s.registered d.sentBy ∧ s.registered d.sentTo := by
  have hchat : s'.chat d.sentBy d.sentTo ≠ none := by
    have he : s'.chat d.sentBy d.sentTo = (s.createChat d).chat d.sentBy d.sentTo := by
      simp only [Store.chat, hrun.frame.chatIds]
    have hnew : (s.createChat d).chat d.sentBy d.sentTo =
      (s.chat d.sentBy d.sentTo).or
        (if (ChatId.mk (newChatId s.lastChat) d.sentBy d.sentTo).links d.sentBy d.sentTo then
          some ⟨newChatId s.lastChat, d.sentBy, d.sentTo⟩ else none) := chat_insertChat _ _ _ _
    have hlinks : (ChatId.mk (newChatId s.lastChat) d.sentBy d.sentTo).links d.sentBy
        d.sentTo = true := links_iff.mpr rfl
    rw [he, hnew, hc, hlinks]
    simp
  have hrows (u : String) : s'.rows u ≠ none ↔ s.registered u := by
    have he := hrun.rows_isSome u
    have hs : (s.createChat d).rows u = s.rows u := rfl
    rw [hs] at he
    rw [← h.rows_iff]
    simp only [ne_eq, ← Option.isSome_iff_ne_none, he]
  constructor
  · intro hu
    have hr := hu.resolve_left hchat
    exact ⟨(hrows _).mp (rows_of_row hr.1), (hrows _).mp (rows_of_row hr.2)⟩
  · rintro ⟨hby, hto⟩
    have hok : resp.status = .SUCCESS :=
      (hrun.status_create h.structural hc).mpr ⟨hne, h.rows_iff.mpr hby, h.rows_iff.mpr hto⟩
    obtain ⟨hsb, hst⟩ := hrun.shows hok
    exact Or.inr ⟨by rw [hsb]; simp, by rw [hst]; simp⟩

theorem unlocked_pushed {s s' : Store M} {d : Send M} {c : Nat} {resp : Response M} {a b : String}
    (hrun : RowsRun false d (s.push c d.entry) s' resp) : s'.unlocked a b ↔ s.unlocked a b := by
  have hchat : s'.chat a b = s.chat a b := by
    simp only [Store.chat, hrun.frame.chatIds]
    rfl
  have hrow (u v : String) : s'.row u v ≠ none ↔ s.row u v ≠ none := hrun.row_ne_none u v
  rw [Store.unlocked, hchat, hrow, hrow, Store.unlocked]

theorem unlocked_elsewhere {s s' : Store M} {d : Send M} {resp : Response M} {a b : String}
    (hp : s(d.sentBy, d.sentTo) ≠ s(a, b)) (hrun : RowsRun true d (s.createChat d) s' resp) :
    s'.unlocked a b ↔ s.unlocked a b := by
  have hlinks : (ChatId.mk (newChatId s.lastChat) d.sentBy d.sentTo).links a b = false := by
    rw [Bool.eq_false_iff]
    exact fun hk => hp (links_iff.mp hk)
  have hnew : (s.createChat d).chat a b = (s.chat a b).or
      (if (ChatId.mk (newChatId s.lastChat) d.sentBy d.sentTo).links a b then
        some ⟨newChatId s.lastChat, d.sentBy, d.sentTo⟩ else none) := chat_insertChat _ _ _ _
  have hchat : s'.chat a b = s.chat a b := by
    simp only [Store.chat, hrun.frame.chatIds] at hnew ⊢
    rw [hnew, hlinks]
    simp
  have hrow (u v : String) (hq : s(u, v) = s(a, b)) : s'.row u v = s.row u v :=
    hrun.frame.row u v (fun hq' => hp (hq'.symm.trans hq))
  rw [Store.unlocked, hchat, hrow a b rfl, hrow b a Sym2.eq_swap, ← Store.unlocked]

theorem unlocked_serve {s : Store M} (h : Sound s) {a b : String} (hne : a ≠ b)
    (r : Request M) :
    (s.serve toLowerCase r noFault).1.unlocked a b ↔
      s.unlocked a b ∧ s.timely toLowerCase a b r := by
  obtain ⟨s', resp, he, hsv⟩ := served toLowerCase s r
  rw [he]
  cases hsv with
  | read hr hn =>
    have ht : s.timely toLowerCase a b r := by
      rintro d rfl
      simp [Request.send?] at hr
    simp [ht]
  | added u =>
    have ht : s.timely toLowerCase a b (.addNewUser u) := by simp [Store.timely]
    have hr (v w : String) :
        ((s.insertUser ⟨u⟩).insertUserMessages ⟨u, []⟩).row v w = s.row v w :=
      row_insertUserMessages (s.insertUser ⟨u⟩) u v w
    have hc : ((s.insertUser ⟨u⟩).insertUserMessages ⟨u, []⟩).chat a b = s.chat a b := rfl
    simp only [Store.unlocked, hr, hc, ht, and_true]
  | @unknown d hu =>
    have ht : s.timely toLowerCase a b (.sendNewMessage d) := by
      intro x hx hp hex
      cases hx
      simp [hu] at hex
    simp [ht]
  | noChat hc =>
    simp [Store.timely]
  | noLog hr hc hl =>
    exact absurd (h.complete _ (chat_mem hc)) (log_eq_none.mp hl)
  | @pushed _ d doc s' resp hr hu hc hl hrun =>
    rw [unlocked_pushed hrun, iff_self_and]
    rintro hun x rfl hp -
    obtain rfl : x = d := by simpa [Request.send?] using hr
    have hd : s.chat a b = some doc :=
      h.structural.chat_of_mem (chat_mem hc) ((chat_pair hc).trans hp)
    exact h.registered_of_unlocked hd hun
  | @created d s' resp hu hc hrun =>
    by_cases hp : s(d.sentBy, d.sentTo) = s(a, b)
    · have hn : s.chat a b = none := by
        rw [chat_eq_none, ← hp]
        exact chat_eq_none.mp hc
      have hun : s.unlocked a b := Or.inl hn
      have ht : s.timely toLowerCase a b (.sendNewMessage d) ↔
          s.registered a ∧ s.registered b := by
        constructor
        · exact fun ht => ht d rfl hp hu
        · exact fun ht x hx _ _ => ht
      rw [ht]
      simp only [hun, true_and]
      rcases Sym2.eq_iff.mp hp with ⟨rfl, rfl⟩ | ⟨rfl, rfl⟩
      · exact unlocked_create h hne hc hrun
      · rw [unlocked_comm, and_comm]
        exact unlocked_create h hne.symm hc hrun
    · have ht : s.timely toLowerCase a b (.sendNewMessage d) := by
        intro x hx hp'
        cases hx
        exact absurd hp' hp
      rw [unlocked_elsewhere hp hrun]
      simp [ht]

def Store.allTimely (a b : String) : Store M → List (Request M) → Prop
  | _, [] => True
  | s, r :: rs => s.timely toLowerCase a b r ∧
      Store.allTimely a b (s.serve toLowerCase r noFault).1 rs

theorem sound_serveEach {s : Store M} (h : Sound s) (rs : List (Request M)) :
    Sound (s.serveEach toLowerCase rs) := by
  induction rs generalizing s with
  | nil => exact h
  | cons r rs ih => exact ih (sound_serve toLowerCase h r)

theorem unlocked_serveEach {s : Store M} (h : Sound s) {a b : String} (hne : a ≠ b)
    (rs : List (Request M)) :
    (s.serveEach toLowerCase rs).unlocked a b ↔
      s.unlocked a b ∧ Store.allTimely toLowerCase a b s rs := by
  induction rs generalizing s with
  | nil => simp [Store.allTimely]
  | cons r rs ih =>
    have hrun := ih (sound_serve toLowerCase h r)
    have hstep := unlocked_serve toLowerCase h hne r
    rw [Store.allTimely, ← and_assoc, ← hstep]
    exact hrun

/-! Every time in the store is the clock reading of a send that was served. -/

def SentBy (rs : List (Request M)) (s : Store M) : Prop :=
  ∀ lg ∈ s.chatMessages, ∀ e ∈ lg.messages, ∃ r ∈ rs, ∃ d, r.send? = some d ∧ d.entry = e

theorem sentBy_serve {rs : List (Request M)} {s : Store M} (h : SentBy rs s) (r : Request M) :
    SentBy (rs ++ [r]) (s.serve toLowerCase r noFault).1 := by
  have hold {lg : ChatMessages M} (hl : lg ∈ s.chatMessages) :
      ∀ e ∈ lg.messages, ∃ x ∈ rs ++ [r], ∃ d, x.send? = some d ∧ d.entry = e := by
    intro e hm
    obtain ⟨x, hx, hd⟩ := h lg hl e hm
    exact ⟨x, List.mem_append_left _ hx, hd⟩
  have hnew {d : Send M} (hr : r.send? = some d) :
      ∃ x ∈ rs ++ [r], ∃ y, x.send? = some y ∧ y.entry = d.entry := ⟨r, by simp, d, hr, rfl⟩
  obtain ⟨s', resp, he, hsv⟩ := served toLowerCase s r
  rw [he]
  intro lg hl e hm
  cases hsv with
  | pushed hr hu hc hlog hrun =>
    rw [hrun.frame.chatMessages] at hl
    rcases Collection.mem_updateOne hl with hl | ⟨x, hx, rfl⟩
    · exact hold hl e hm
    · cases List.mem_append.mp hm with
      | inl hm => exact hold (Collection.findOne_mem hx) e hm
      | inr hm =>
        rw [List.mem_singleton.mp hm]
        exact hnew hr
  | created hu hc hrun =>
    rw [hrun.frame.chatMessages] at hl
    cases List.mem_append.mp hl with
    | inl hl => exact hold hl e hm
    | inr hl =>
      rw [List.mem_singleton.mp hl] at hm
      rw [List.mem_singleton.mp hm]
      exact hnew rfl
  | _ => exact hold hl e hm

theorem sentBy_reached (rs : List (Request M)) :
    SentBy rs (Store.empty.serveEach toLowerCase rs) := by
  induction rs using List.reverseRecOn with
  | nil => exact fun lg hl => by simp [Store.empty] at hl
  | append_singleton rs r ih =>
    rw [serveEach_concat]
    exact sentBy_serve toLowerCase ih r

def Send.fresh (d : Send M) (rs : List (Request M)) : Prop :=
  ∀ r ∈ rs, ∀ x, r.send? = some x → x.timeNow ≠ d.timeNow

theorem outdated_of_fresh {rs : List (Request M)} {d : Send M} (hf : d.fresh rs) {u v : String}
    {m : M} :
    (Store.empty.serveEach toLowerCase rs).outdated u v m d.timeNow ↔
      (Store.empty.serveEach toLowerCase rs).row u v ≠ none := by
  have hs := sound_serveEach toLowerCase sound_empty rs
  constructor
  · rintro ⟨r, hr, -⟩
    simp [hr]
  · intro hne
    obtain ⟨r, hr⟩ := Option.ne_none_iff_exists'.mp hne
    refine ⟨r, hr, fun hq => ?_⟩
    obtain ⟨rows, hrows, hrow⟩ := Option.bind_eq_some_iff.mp hr
    obtain ⟨doc, -, -, es, hes, e, he, -, ht⟩ :=
      hs.structural.logged_rows hrows r (List.mem_of_find?_eq_some hrow)
    obtain ⟨lg, hl, -, rfl⟩ := log_mem hes
    obtain ⟨x, hx, y, hy, rfl⟩ := sentBy_reached toLowerCase rs lg hl e he
    exact hf x hx y hy (ht.trans hq.2)

/-- A POST answers SUCCESS, its message ends the log, and both rows show it. -/
def Store.delivers (s : Store M) (d : Send M) : Prop :=
  ∃ s' resp, s.serve toLowerCase (.sendNewMessage d) noFault = (s', [resp]) ∧
    resp.status = .SUCCESS ∧ (s'.conversation d.sentBy d.sentTo).getLast? = some d.entry ∧
    s'.shows d.sentBy d.sentTo d.message d.timeNow ∧
    s'.shows d.sentTo d.sentBy d.message d.timeNow

/-- After any history without failing calls, a POST between two registered users with an
unused clock reading is delivered exactly if no POST between them passed the recipient
check before both were registered. -/
theorem delivers_iff_allTimely (rs : List (Request M)) (d : Send M)
    (hne : d.sentBy ≠ d.sentTo)
    (hby : (Store.empty.serveEach toLowerCase rs).registered d.sentBy)
    (hto : (Store.empty.serveEach toLowerCase rs).registered d.sentTo) (hf : d.fresh rs) :
    (Store.empty.serveEach toLowerCase rs).delivers toLowerCase d ↔
      Store.empty.allTimely toLowerCase d.sentBy d.sentTo rs := by
  have hs := sound_serveEach toLowerCase sound_empty rs
  have hun : (Store.empty.serveEach toLowerCase rs).unlocked d.sentBy d.sentTo ↔
      Store.empty.allTimely toLowerCase d.sentBy d.sentTo rs :=
    (unlocked_serveEach toLowerCase sound_empty hne rs).trans (and_iff_right (Or.inl rfl))
  rw [← hun]
  obtain ⟨s', resp, he, hsv⟩ :=
    served toLowerCase (Store.empty.serveEach toLowerCase rs) (.sendNewMessage d)
  cases hsv with
  | read hr hn => simp [Request.send?] at hr
  | unknown hu => simp [userExists_registered toLowerCase hto] at hu
  | noLog hr hc hl => exact absurd (hs.complete _ (chat_mem hc)) (log_eq_none.mp hl)
  | @pushed _ x doc _ _ hr hu hc hl h =>
    obtain rfl : d = x := by simpa [Request.send?] using hr
    obtain ⟨es, hes⟩ := Option.isSome_iff_exists.mp hl
    have hconv := conversation_push hs.structural hc hes d.sentBy d.sentTo
    constructor
    · rintro ⟨s1, resp1, he1, hok, -⟩
      obtain ⟨rfl, hresp⟩ := Prod.mk.inj (he.symm.trans he1)
      obtain rfl : resp = resp1 := by simpa using hresp
      obtain ⟨-, ho, ho'⟩ := h.status_push.mp hok
      exact Or.inr ⟨(outdated_of_fresh toLowerCase hf).mp ho,
        (outdated_of_fresh toLowerCase hf).mp ho'⟩
    · intro hul
      obtain ⟨hr1, hr2⟩ := hul.resolve_left (fun hn => by simp [hn] at hc)
      have hok : resp.status = .SUCCESS := h.status_push.mpr
        ⟨hne, (outdated_of_fresh toLowerCase hf).mpr hr1,
          (outdated_of_fresh toLowerCase hf).mpr hr2⟩
      refine ⟨s', resp, he, hok, ?_, h.shows hok⟩
      rw [h.frame.conversation, hconv]
      simp
  | created hu hc h =>
    have hconv := conversation_createChat hs.structural hc d.sentBy d.sentTo
    have hok : resp.status = .SUCCESS := (h.status_create hs.structural hc).mpr
      ⟨hne, hs.rows_iff.mpr hby, hs.rows_iff.mpr hto⟩
    have hdel : (Store.empty.serveEach toLowerCase rs).delivers toLowerCase d := by
      refine ⟨s', resp, he, hok, ?_, h.shows hok⟩
      rw [h.frame.conversation, hconv]
      simp
    exact iff_of_true hdel (Or.inl hc)

def latePost : List (Request String) :=
  [.addNewUser "bob", .addNewUser "ann", .sendNewMessage ⟨"bob", "ann", "hello", 1⟩]

theorem delivers_latePost :
    (Store.empty.serveEach id latePost).delivers id ⟨"ann", "bob", "hi", 2⟩ := by
  have hf : Send.fresh ⟨"ann", "bob", "hi", 2⟩ latePost := by
    simp [Send.fresh, latePost, Request.send?]
  have ht : Store.empty.allTimely id "ann" "bob" latePost := by
    refine ⟨by simp [Store.timely], by simp [Store.timely], ?_, trivial⟩
    intro d _ _ _
    exact ⟨by decide, by decide⟩
  exact (delivers_iff_allTimely id latePost ⟨"ann", "bob", "hi", 2⟩ (by decide) (by decide)
    (by decide) hf).mpr ht

def earlyPost : List (Request String) :=
  [.addNewUser "bob", .sendNewMessage ⟨"ann", "bob", "hello", 1⟩, .addNewUser "ann"]

/-- A message by "ann" before she is registered leaves a chat without rows, in which no
later message succeeds. -/
theorem earlyPost_locks_out :
    (Store.empty.serveEach id earlyPost).registered "ann" ∧
      (Store.empty.serveEach id earlyPost).registered "bob" ∧
      Send.fresh ⟨"ann", "bob", "hi", 2⟩ earlyPost ∧
      ¬ (Store.empty.serveEach id earlyPost).delivers id ⟨"ann", "bob", "hi", 2⟩ := by
  refine ⟨by decide, by decide, by simp [Send.fresh, earlyPost, Request.send?], ?_⟩
  have hs : ((Store.empty.serveEach id earlyPost).serve id
      (.sendNewMessage ⟨"ann", "bob", "hi", 2⟩) noFault).2 = [.error "DB_ERR"] := by decide
  rintro ⟨s', resp, he, hok, -⟩
  rw [he] at hs
  obtain rfl : resp = Response.error "DB_ERR" := by simpa using hs
  simp [Response.status] at hok

end RecoupChat
