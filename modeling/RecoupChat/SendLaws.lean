import RecoupChat.Refinement

/-! Laws of the two send requests served alone: PUT and POST agree where the chat exists,
sends of different pairs commute, and the recipient has to be spelled as registered. -/
namespace RecoupChat
open Promise Collection
variable {M : Type}

def afterFirst (fails : Nat → Bool) : Nat → Bool
  | 0 => false
  | n + 1 => fails n

theorem userExists_iff {toLowerCase : String → String} {sentTo : String} {users : List User} :
    userExists toLowerCase sentTo users = true ↔
      ∃ user ∈ users, toLowerCase user.username = toLowerCase sentTo := by
  simp [userExists]

section Laws
variable [DecidableEq M]

/-- Where a user matches the recipient up to letter case and the pair has a chat, POST does
what PUT does, whatever the store holds and whichever calls after the users read fail. -/
theorem post_eq_put (toLowerCase : String → String) (s : Store M) (d : Send M)
    (hu : ∃ user ∈ s.users, toLowerCase user.username = toLowerCase d.sentTo)
    (hc : ∃ doc ∈ s.chatIds, doc.links d.sentBy d.sentTo = true) (fails : Nat → Bool) :
    s.serve toLowerCase (.sendNewMessage d) (afterFirst fails) =
      s.serve toLowerCase (.sendMessage d) fails := by
  have hfound : (s.chat d.sentBy d.sentTo).isSome := findOne_isSome.mpr hc
  obtain ⟨doc, hdoc⟩ := Option.isSome_iff_exists.mp hfound
  have hexists : userExists toLowerCase d.sentTo s.users = true := userExists_iff.mpr hu
  have hlookup (create : Bool) : (Point.findChat create d).alone toLowerCase s fails =
      if fails 0 then (s, [.error "DB_ERR"])
      else (Point.push d doc.chatId).alone toLowerCase s fun n => fails (n + 1) := by
    rw [Point.alone_next toLowerCase (by simp [Point.call?])]
    simp only [Point.next, hdoc]
  have hpost : (Point.usersFind d).alone toLowerCase s (afterFirst fails) =
      (Point.findChat true d).alone toLowerCase s fails := by
    rw [Point.alone_next toLowerCase (by simp [Point.call?])]
    simp only [Point.next, hexists, if_true]
    rfl
  rw [Point.serve_eq_alone, Point.serve_eq_alone, Point.start, Point.start, hpost, hlookup, hlookup]

theorem post_eq_put_annAndBob :
    (Store.empty.serveEach id annAndBob).serve id (.sendNewMessage ⟨"ann", "bob", "ok", 3⟩)
        (afterFirst (failAt 2)) =
      (Store.empty.serveEach id annAndBob).serve id (.sendMessage ⟨"ann", "bob", "ok", 3⟩)
        (failAt 2) :=
  post_eq_put id _ _ (by decide) (by decide) (failAt 2)

/-! Sends of different pairs, seen through the service. -/

namespace Service
omit [DecidableEq M]

theorem send_names {a : Service M} {r : Request M} {d : Send M} (hr : r.send? = some d) :
    (a.serve r).names = a.names := by
  cases r with
  | sendMessage x => simp only [serve]; split <;> rfl
  | sendNewMessage x => rfl
  | _ => cases hr

theorem send_conv {a : Service M} {r : Request M} {d : Send M} (hr : r.send? = some d)
    {P : Sym2 String} (hP : P ≠ s(d.sentBy, d.sentTo)) : (a.serve r).conv P = a.conv P := by
  cases r with
  | sendMessage x =>
    obtain rfl : x = d := Option.some.inj hr
    simp only [serve]
    split
    · rfl
    · simp [append, hP]
  | sendNewMessage x =>
    obtain rfl : x = d := Option.some.inj hr
    simp [serve, append, hP]
  | _ => cases hr

theorem send_conv_self {a a' : Service M} {r : Request M} {d : Send M} (hr : r.send? = some d)
    (h : a.conv s(d.sentBy, d.sentTo) = a'.conv s(d.sentBy, d.sentTo)) :
    (a.serve r).conv s(d.sentBy, d.sentTo) = (a'.serve r).conv s(d.sentBy, d.sentTo) := by
  cases r with
  | sendMessage x =>
    obtain rfl : x = d := Option.some.inj hr
    simp only [serve, h]
    split <;> simp [append, h]
  | sendNewMessage x =>
    obtain rfl : x = d := Option.some.inj hr
    simp [serve, append, h]
  | _ => cases hr

theorem sends_comm {a : Service M} {r r' : Request M} {d d' : Send M} (hr : r.send? = some d)
    (hr' : r'.send? = some d') (hne : s(d.sentBy, d.sentTo) ≠ s(d'.sentBy, d'.sentTo)) :
    (a.serve r).serve r' = (a.serve r').serve r := by
  have hnames : ((a.serve r).serve r').names = ((a.serve r').serve r).names := by
    rw [send_names hr', send_names hr, send_names hr, send_names hr']
  have hconv (P : Sym2 String) :
      ((a.serve r).serve r').conv P = ((a.serve r').serve r).conv P := by
    by_cases hP : P = s(d.sentBy, d.sentTo)
    · subst hP
      rw [send_conv hr' hne]
      exact send_conv_self hr (send_conv hr' hne).symm
    · rw [send_conv (a := a.serve r') hr hP]
      by_cases hP' : P = s(d'.sentBy, d'.sentTo)
      · subst hP'
        exact send_conv_self hr' (send_conv hr hP)
      · rw [send_conv hr' hP', send_conv hr' hP', send_conv hr hP]
  cases h1 : (a.serve r).serve r' with
  | mk names conv =>
    cases h2 : (a.serve r').serve r with
    | mk names' conv' =>
      rw [h1, h2] at hnames
      rw [h1, h2] at hconv
      simpa using ⟨hnames, funext hconv⟩

def accepts (a : Service M) (r : Request M) (d : Send M) : Prop :=
  (r = .sendNewMessage d ∨ a.conv s(d.sentBy, d.sentTo) ≠ []) ∧ d.sentBy ≠ d.sentTo ∧
    ¬ a.endsWith d.sentBy d.sentTo d.message d.timeNow

theorem accepts_congr {a a' : Service M} {r : Request M} {d : Send M}
    (h : a.conv s(d.sentBy, d.sentTo) = a'.conv s(d.sentBy, d.sentTo)) :
    a.accepts r d ↔ a'.accepts r d := by
  simp only [accepts, endsWith, h]

end Service

namespace Represents
variable (toLowerCase : String → String) {a a' : Service M} {s s' : Store M} {r : Request M}
  {d : Send M}

theorem answer (h : Represents a s) (hr : r.send? = some d) (hp : a.Permits r) :
    ∃ resp, (s.serve toLowerCase r noFault).2 = [resp] ∧
      (a.accepts r d ∧
          resp = (if a.conv s(d.sentBy, d.sentTo) = [] then .success else .sent d.sentTo) ∨
        ¬ a.accepts r d ∧ resp = .error "DB_ERR") := by
  obtain ⟨s1, resp, he, hv⟩ := served toLowerCase s r
  have hstatus (hc : r = .sendNewMessage d ∨ a.conv s(d.sentBy, d.sentTo) ≠ []) :
      resp.status = .SUCCESS ↔ a.accepts r d := by
    obtain ⟨s2, resp2, he2, -, hst⟩ := h.serve_send toLowerCase hr hp hc
    obtain ⟨-, rfl⟩ : s1 = s2 ∧ resp = resp2 := by simpa using he.symm.trans he2
    rw [hst, Service.accepts, and_iff_right hc]
  refine ⟨resp, by rw [he], ?_⟩
  cases hv with
  | read hn hne => simp [hn] at hr
  | added u => cases hr
  | @unknown x hu =>
    obtain rfl : x = d := Option.some.inj hr
    rw [h.userExists (hp x rfl).2] at hu
    cases hu
  | @noChat x hc =>
    obtain rfl : x = d := Option.some.inj hr
    refine Or.inr ⟨fun hacc => ?_, rfl⟩
    exact hacc.1.elim (fun hq => by cases hq) fun hne => hne (h.chat_eq_none.mp hc)
  | @noLog _ x doc hx hc hl =>
    have hlog := (h.log hc).1
    simp [hl] at hlog
  | @pushed _ x doc s1 resp hx hu hc hl hrun =>
    obtain rfl : x = d := Option.some.inj (hx.symm.trans hr)
    have hne := (h.log hc).2
    rcases hrun.answer with ⟨hok, hresp⟩ | ⟨hno, hresp⟩
    · exact Or.inl ⟨(hstatus (Or.inr hne)).mp hok, by rw [hresp, if_neg hne]; rfl⟩
    · exact Or.inr ⟨fun hacc => hno ((hstatus (Or.inr hne)).mpr hacc), hresp⟩
  | @created x s1 resp hu hc hrun =>
    obtain rfl : x = d := Option.some.inj hr
    have hconv := h.chat_eq_none.mp hc
    rcases hrun.answer with ⟨hok, hresp⟩ | ⟨hno, hresp⟩
    · exact Or.inl ⟨(hstatus (Or.inl rfl)).mp hok, by rw [hresp, if_pos hconv]; rfl⟩
    · exact Or.inr ⟨fun hacc => hno ((hstatus (Or.inl rfl)).mpr hacc), hresp⟩

theorem answer_congr (h : Represents a s) (h' : Represents a' s') (hr : r.send? = some d)
    (hp : a.Permits r) (hp' : a'.Permits r)
    (hc : a.conv s(d.sentBy, d.sentTo) = a'.conv s(d.sentBy, d.sentTo)) :
    (s.serve toLowerCase r noFault).2 = (s'.serve toLowerCase r noFault).2 := by
  obtain ⟨resp, he, hresp⟩ := h.answer toLowerCase hr hp
  obtain ⟨resp', he', hresp'⟩ := h'.answer toLowerCase hr hp'
  have hacc : a.accepts r d ↔ a'.accepts r d := Service.accepts_congr hc
  rw [he, he']
  rcases hresp with ⟨hyes, hx⟩ | ⟨hno, hx⟩
  · rcases hresp' with ⟨-, hx'⟩ | ⟨hno', -⟩
    · rw [hx, hx', hc]
    · exact absurd (hacc.mp hyes) hno'
  · rcases hresp' with ⟨hyes', -⟩ | ⟨-, hx'⟩
    · exact absurd (hacc.mpr hyes') hno
    · rw [hx, hx']

theorem chats_perm (h : Represents a s) (h' : Represents a s') (u : String) :
    ∃ L L', (s.serve toLowerCase (.getUserChats u) noFault).2 = [.chats L] ∧
      (s'.serve toLowerCase (.getUserChats u) noFault).2 = [.chats L'] ∧ L.Perm L' := by
  obtain ⟨L, he, hn, hm⟩ := @Represents.chats M a s h _ toLowerCase u
  obtain ⟨L', he', hn', hm'⟩ := @Represents.chats M a s' h' _ toLowerCase u
  refine ⟨L, L', by rw [he], by rw [he'], ?_⟩
  exact (List.perm_ext_iff_of_nodup (List.Nodup.of_map _ hn) (List.Nodup.of_map _ hn')).mpr
    fun x => (hm x).trans (hm' x).symm

end Represents

/-- Two sends between registered users whose pairs differ can be served in either order:
each gets the same answer, and afterwards all reads answer the same, the rows of a chat list
up to their order. -/
theorem sends_commute (toLowerCase : String → String) (rs : List (Request M))
    (hl : Service.init.Legal rs) (r r' : Request M) (d d' : Send M) (hr : r.send? = some d)
    (hr' : r'.send? = some d') (hp : (Service.init.run rs).Permits r)
    (hp' : (Service.init.run rs).Permits r')
    (hne : s(d.sentBy, d.sentTo) ≠ s(d'.sentBy, d'.sentTo)) :
    let s := Store.empty.serveEach toLowerCase rs
    let first := s.serve toLowerCase r noFault
    let first' := s.serve toLowerCase r' noFault
    let second := first'.1.serve toLowerCase r noFault
    let second' := first.1.serve toLowerCase r' noFault
    second.2 = first.2 ∧ second'.2 = first'.2 ∧
      (∀ u v, (second.1.serve toLowerCase (.getUserChatMessages u v) noFault).2 =
        (second'.1.serve toLowerCase (.getUserChatMessages u v) noFault).2) ∧
      ∀ u, ∃ L L', (second.1.serve toLowerCase (.getUserChats u) noFault).2 = [.chats L] ∧
        (second'.1.serve toLowerCase (.getUserChats u) noFault).2 = [.chats L'] ∧ L.Perm L' := by
  intro s first first' second second'
  have h : Represents (Service.init.run rs) s := represents_init.run toLowerCase hl
  have h1 : Represents ((Service.init.run rs).serve r) first.1 := h.serve hp
  have h1' : Represents ((Service.init.run rs).serve r') first'.1 := h.serve hp'
  have hpost : ((Service.init.run rs).serve r').Permits r := by
    intro x hx
    rw [Service.send_names hr']
    exact hp x hx
  have hpost' : ((Service.init.run rs).serve r).Permits r' := by
    intro x hx
    rw [Service.send_names hr]
    exact hp' x hx
  have h2 : Represents (((Service.init.run rs).serve r').serve r) second.1 := h1'.serve hpost
  have h2' : Represents (((Service.init.run rs).serve r').serve r) second'.1 := by
    rw [← Service.sends_comm hr hr' hne]
    exact h1.serve hpost'
  refine ⟨h1'.answer_congr toLowerCase h hr hpost hp (Service.send_conv hr' hne),
    h1.answer_congr toLowerCase h hr' hpost' hp' (Service.send_conv hr hne.symm), fun u v => ?_,
    h2.chats_perm toLowerCase h2'⟩
  rw [h2.messages, h2'.messages]

def annBobAndCat : List (Request String) := annAndBob ++ [.addNewUser "cat"]

theorem legal_annBobAndCat : Service.init.Legal annBobAndCat := by
  simp [annBobAndCat, annAndBob, Service.Legal, Service.Permits, Service.serve, Service.init,
    Service.append, Request.send?]

/-- "ann" writes on to "bob" and for the first time to "cat". -/
theorem sends_commute_annBobAndCat :
    let s := Store.empty.serveEach id annBobAndCat
    ((s.serve id (.sendNewMessage ⟨"ann", "cat", "yo", 4⟩) noFault).1.serve id
        (.sendMessage ⟨"ann", "bob", "ok", 3⟩) noFault).2 =
      (s.serve id (.sendMessage ⟨"ann", "bob", "ok", 3⟩) noFault).2 := by
  have hp (d : Send String) (hd : d.sentBy = "ann" ∧ (d.sentTo = "bob" ∨ d.sentTo = "cat"))
      (r : Request String) (hr : r.send? = some d) : (Service.init.run annBobAndCat).Permits r := by
    intro x hx
    obtain rfl : d = x := Option.some.inj (hr.symm.trans hx)
    have hnames : (Service.init.run annBobAndCat).names = ["ann", "bob", "cat"] := rfl
    rw [hnames]
    grind
  exact (sends_commute id annBobAndCat legal_annBobAndCat _ _ ⟨"ann", "bob", "ok", 3⟩
    ⟨"ann", "cat", "yo", 4⟩ rfl rfl (hp ⟨"ann", "bob", "ok", 3⟩ ⟨rfl, Or.inl rfl⟩ _ rfl)
    (hp ⟨"ann", "cat", "yo", 4⟩ ⟨rfl, Or.inr rfl⟩ _ rfl) (by decide)).1

/-! The recipient's spelling. The acceptance test ignores letter case, everything after it
compares names as they are. -/

/-- Both sends leave the same store and answer with the same status. -/
def Store.sameOutcome (toLowerCase : String → String) (s : Store M) (d d' : Send M) : Prop :=
  (s.serve toLowerCase (.sendNewMessage d) noFault).1 =
      (s.serve toLowerCase (.sendNewMessage d') noFault).1 ∧
    (s.serve toLowerCase (.sendNewMessage d) noFault).2.map Response.status =
      (s.serve toLowerCase (.sendNewMessage d') noFault).2.map Response.status

instance (toLowerCase : String → String) (s : Store M) (d d' : Send M) :
    Decidable (s.sameOutcome toLowerCase d d') := inferInstanceAs (Decidable (_ ∧ _))

theorem chat_created (toLowerCase : String → String) {s : Store M} {d : Send M}
    (hu : userExists toLowerCase d.sentTo s.users = true)
    (hc : s.chat d.sentBy d.sentTo = none) :
    (s.serve toLowerCase (.sendNewMessage d) noFault).1.chat d.sentBy d.sentTo ≠ none := by
  have hframe := rowsFrame_alone toLowerCase true d (s.createChat d) noFault
  have hserve := serve_sendNewMessage toLowerCase s d
  rw [if_pos hu, hc] at hserve
  intro hn
  rw [hserve] at hn
  refine chat_eq_none.mp hn ⟨newChatId s.lastChat, d.sentBy, d.sentTo⟩ ?_ rfl
  rw [hframe.chatIds]
  simp [Store.createChat, Store.insertChat, Store.insertLog]

/-- A message to a registered user reaches the same state and status under another spelling
of the name, equal after lower-casing, only if the spelling is the registered one. -/
theorem sameOutcome_iff (toLowerCase : String → String) (rs : List (Request M))
    (hl : Service.init.Legal rs)
    (hn : ((Store.empty.serveEach toLowerCase rs).users.map
      fun user => toLowerCase user.username).Nodup) (a r spelling : String)
    (ha : (Store.empty.serveEach toLowerCase rs).registered a)
    (hr : (Store.empty.serveEach toLowerCase rs).registered r)
    (hs : toLowerCase spelling = toLowerCase r) (m : M) (t : Int) :
    (Store.empty.serveEach toLowerCase rs).sameOutcome toLowerCase ⟨a, spelling, m, t⟩
      ⟨a, r, m, t⟩ ↔ spelling = r := by
  have h := represents_init.run toLowerCase hl
  rw [Store.registered, h.users] at ha hr
  constructor
  · intro hsame
    by_contra hne
    have hout : spelling ∉ (Service.init.run rs).names := by
      intro hm
      have hmap : (Store.empty.serveEach toLowerCase rs).users.map
          (fun user => toLowerCase user.username) = (Service.init.run rs).names.map toLowerCase := by
        rw [← h.users, List.map_map]
        rfl
      exact hne (List.inj_on_of_nodup_map (hmap ▸ hn) hm hr hs)
    have hconv : (Service.init.run rs).conv s(a, spelling) = [] := by
      by_contra hc
      exact hout (h.known spelling a (Sym2.eq_swap ▸ hc))
    have hexists : userExists toLowerCase spelling (Store.empty.serveEach toLowerCase rs).users =
        true := by
      rw [userExists_iff]
      obtain ⟨user, hm, he⟩ := List.mem_map.mp (h.users ▸ hr)
      exact ⟨user, hm, by rw [he, hs]⟩
    refine chat_created (d := ⟨a, spelling, m, t⟩) toLowerCase hexists (h.chat_eq_none.mpr hconv) ?_
    have hp : (Service.init.run rs).Permits (.sendNewMessage ⟨a, r, m, t⟩) := by
      rintro x ⟨⟩
      exact ⟨ha, hr⟩
    have h2 : Represents _ ((Store.empty.serveEach toLowerCase rs).serve toLowerCase
        (.sendNewMessage ⟨a, r, m, t⟩) noFault).1 := h.serve hp
    rw [hsame.1, h2.chat_eq_none, Service.serve, Service.append]
    have hpair : s(a, spelling) ≠ s(a, r) := fun he => hne (Sym2.congr_right.mp he)
    simp [hpair, hconv]
  · rintro rfl
    exact ⟨rfl, rfl⟩

def annAndBobApart : List (Request String) := [.addNewUser "ann", .addNewUser "bob"]

theorem legal_annAndBobApart : Service.init.Legal annAndBobApart := by
  simp [annAndBobApart, Service.Legal, Service.Permits, Request.send?]

theorem nodup_annAndBobApart : ((Store.empty.serveEach String.toLower annAndBobApart).users.map
    fun user => String.toLower user.username).Nodup := by
  decide +kernel

theorem sameOutcome_bob :
    (Store.empty.serveEach String.toLower annAndBobApart).sameOutcome String.toLower
      ⟨"ann", "bob", "hi", 1⟩ ⟨"ann", "bob", "hi", 1⟩ :=
  (sameOutcome_iff String.toLower annAndBobApart legal_annAndBobApart nodup_annAndBobApart "ann"
    "bob" "bob" (by decide) (by decide) rfl "hi" 1).mpr rfl

/-- "Bob" passes for "bob", but the chat is created for "Bob", who has no document. -/
theorem spelling_matters :
    Service.init.Legal annAndBobApart ∧
      ((Store.empty.serveEach String.toLower annAndBobApart).users.map
        fun user => String.toLower user.username).Nodup ∧
      (Store.empty.serveEach String.toLower annAndBobApart).registered "ann" ∧
      (Store.empty.serveEach String.toLower annAndBobApart).registered "bob" ∧
      String.toLower "Bob" = String.toLower "bob" ∧
      ¬ (Store.empty.serveEach String.toLower annAndBobApart).sameOutcome String.toLower
        ⟨"ann", "Bob", "hi", 1⟩ ⟨"ann", "bob", "hi", 1⟩ :=
  ⟨legal_annAndBobApart, nodup_annAndBobApart, by decide, by decide, by decide +kernel,
    by decide +kernel⟩

end Laws
end RecoupChat
