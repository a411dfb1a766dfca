import RecoupChat.Attribution
import RecoupChat.Structural
import RecoupChat.Service

/-! What a send may touch, whichever of its calls are rejected: the chat, the log and the two
rows of its own pair. -/
namespace RecoupChat
open Promise Collection
variable {M : Type}

def otherRows (P : Sym2 String) (docs : List (UserMessages M)) : List (String × List (Row M)) :=
  docs.map fun doc =>
    (doc.username, doc.messages.filter fun r => s(doc.username, r.toUsername) ≠ P)

/-- Only the pair's chat, its log and its rows may differ. -/
structure OnlyPair (P : Sym2 String) (s s' : Store M) : Prop where
  users : s'.users = s.users
  chatIds : s.chatIds <+: s'.chatIds
  chat : ∀ u v, s(u, v) ≠ P → s'.chat u v = s.chat u v
  log : ∀ u v doc, s(u, v) ≠ P → s.chat u v = some doc → s'.log doc.chatId = s.log doc.chatId
  rows : otherRows P s'.userMessages = otherRows P s.userMessages

namespace OnlyPair
variable {P : Sym2 String} {s s1 s2 : Store M}

theorem refl (P : Sym2 String) (s : Store M) : OnlyPair P s s :=
  ⟨rfl, List.prefix_refl _, fun _ _ _ => rfl, fun _ _ _ _ _ => rfl, rfl⟩

theorem trans (h : OnlyPair P s s1) (h1 : OnlyPair P s1 s2) : OnlyPair P s s2 where
  users := h1.users.trans h.users
  chatIds := h.chatIds.trans h1.chatIds
  chat u v hne := (h1.chat u v hne).trans (h.chat u v hne)
  log u v doc hne hd :=
    (h1.log u v doc hne ((h.chat u v hne).trans hd)).trans (h.log u v doc hne hd)
  rows := h1.rows.trans h.rows

theorem insertChat (s : Store M) (n : Nat) (a b : String) :
    OnlyPair s(a, b) s (s.insertChat ⟨n, a, b⟩) where
  users := rfl
  chatIds := List.prefix_append _ _
  chat u v hne := by
    have hlinks : (ChatId.mk n a b).links u v = false := by
      rw [Bool.eq_false_iff]
      exact fun hk => hne (links_iff.mp hk).symm
    simp [hlinks]
  log _ _ _ _ _ := rfl
  rows := rfl

theorem of_log (hs : Structural s) {doc : ChatId} (hd : doc ∈ s.chatIds) (hp : doc.pair = P)
    (hu : s1.users = s.users) (hum : s1.userMessages = s.userMessages)
    (hc : s1.chatIds = s.chatIds) (hl : ∀ c, c ≠ doc.chatId → s1.log c = s.log c) :
    OnlyPair P s s1 where
  users := hu
  chatIds := hc ▸ List.prefix_refl _
  chat u v _ := by simp only [Store.chat, hc]
  log u v x hne hx := by
    refine hl x.chatId fun he => hne ?_
    rw [← chat_pair hx, hs.doc_eq (chat_mem hx) hd he, hp]
  rows := by rw [hum]

theorem setRows [DecidableEq M] {create : Bool} {u v : String} {m : M} {t : Int}
    {rows rows' : List (Row M)} (hP : s(u, v) = P) (hr : s.rows u = some rows)
    (hput : putRow create v m t rows = some rows') : OnlyPair P s (s.setRows u rows') where
  users := rfl
  chatIds := List.prefix_refl _
  chat _ _ _ := rfl
  log _ _ _ _ _ := rfl
  rows := by
    refine map_updateOne_of_found fun doc hdoc => ?_
    have hu : doc.username = u := by simpa using findOne_matches hdoc
    have hrows : doc.messages = rows := by
      have hfound : s.rows u = some doc.messages := by
        rw [Store.rows, Store.rowsDoc, hdoc]
        rfl
      exact Option.some.inj (hfound.symm.trans hr)
    have hother : rows'.filter (fun r => s(u, r.toUsername) ≠ P) =
        rows.filter fun r => s(u, r.toUsername) ≠ P :=
      filter_putRow hput fun r hv => by simp [hv, hP]
    simp only [hu, hrows, hother]

end OnlyPair

def Fresh (s : Store M) : Point M → Prop
  | .updateBy create d rows' => ∃ rows, s.rows d.sentBy = some rows ∧
      putRow create d.sentTo d.message d.timeNow rows = some rows'
  | .updateTo create d rows' => ∃ rows, s.rows d.sentTo = some rows ∧
      putRow create d.sentBy d.message d.timeNow rows = some rows'
  | _ => True

section Send
variable [DecidableEq M] {toLowerCase : String → String}

theorem fresh_next (p : Point M) (s : Store M) :
    Fresh (p.next toLowerCase s).1 (p.next toLowerCase s).2 := by
  have hg := Point.goes toLowerCase p s
  generalize hq : (p.next toLowerCase s).2 = q at hg
  cases hg with
  | readBy create d hr hp => exact ⟨_, hr, hp⟩
  | readTo create d hr hp => exact ⟨_, hr, hp⟩
  | stay resp => trivial
  | _ => trivial

theorem onlyPair_next {r : Request M} {d : Send M} {p : Point M} {s : Store M}
    (hr : r.send? = some d) (hof : p.Of r) (hs : Structural s) (hk : Known s p)
    (hf : Fresh s p) : OnlyPair s(d.sentBy, d.sentTo) s (p.next toLowerCase s).1 := by
  cases p with
  | push x c =>
    obtain rfl : x = d := Option.some.inj (hof.symm.trans hr)
    obtain ⟨doc, hd, rfl, hp⟩ := hk
    exact .of_log hs hd hp rfl rfl rfl fun c hc => by simp [Point.next, hc]
  | insertChat x n =>
    obtain rfl : x = d := Option.some.inj (hof.symm.trans hr)
    exact .insertChat s n x.sentBy x.sentTo
  | insertLog x n =>
    obtain rfl : x = d := Option.some.inj (hof.symm.trans hr)
    obtain ⟨-, doc, hd, rfl, hp⟩ := hk
    exact .of_log hs hd hp rfl rfl rfl fun c hc => by simp [Point.next, Ne.symm hc]
  | updateBy create x rows =>
    obtain rfl : x = d := Option.some.inj (hof.symm.trans hr)
    obtain ⟨cur, hcur, hput⟩ := hf
    exact .setRows rfl hcur hput
  | updateTo create x rows =>
    obtain rfl : x = d := Option.some.inj (hof.symm.trans hr)
    obtain ⟨cur, hcur, hput⟩ := hf
    exact .setRows Sym2.eq_swap hcur hput
  | insertUser u =>
    rw [show r = .addNewUser u from hof] at hr
    cases hr
  | insertUserMessages u =>
    rw [show r = .addNewUser u from hof] at hr
    cases hr
  | _ => exact .refl _ s

theorem onlyPair_serve (toLowerCase : String → String) {s : Store M} (hs : Structural s)
    {r : Request M} {d : Send M} (hr : r.send? = some d) (fails : Nat → Bool) :
    ∃ s' resp, s.serve toLowerCase r fails = (s', [resp]) ∧
      OnlyPair s(d.sentBy, d.sentTo) s s' := by
  let I (p : Point M) (s' : Store M) : Prop := OnlyPair s(d.sentBy, d.sentTo) s s' ∧
    (Structural s' ∧ Known s' p) ∧ Fresh s' p ∧ p.Of r
  have h0 : I (Point.start r) s := by
    refine ⟨.refl _ s, ⟨hs, ?_⟩, ?_, Point.of_start r⟩ <;> cases r <;> trivial
  obtain ⟨resp, hresp, hI⟩ := Point.alone_invariant toLowerCase fails (I := I)
    (fun p s' _ hI => ⟨hI.1.trans (onlyPair_next hr hI.2.2.2 hI.2.1.1 hI.2.1.2 hI.2.2.1),
      structural_next p s' hI.2.1, fresh_next p s', Point.of_next toLowerCase s' hI.2.2.2⟩)
    (fun _ p s' _ hI => ⟨hI.1, ⟨hI.2.1.1, trivial⟩, trivial, trivial⟩) h0
  rw [Point.serve_eq_alone]
  exact ⟨_, resp, Prod.ext rfl hresp, hI.1⟩

/-- All of a send was done: its entry is the last of the pair's log and both rows show it. -/
structure AllDone (d : Send M) (s s' : Store M) : Prop where
  conversation : s'.conversation d.sentBy d.sentTo =
    s.conversation d.sentBy d.sentTo ++ [d.entry]
  rowBy : s'.row d.sentBy d.sentTo = some ⟨d.sentTo, d.message, d.timeNow⟩
  rowTo : s'.row d.sentTo d.sentBy = some ⟨d.sentBy, d.message, d.timeNow⟩

theorem RowsRun.allDone {create : Bool} {d : Send M} {s s1 s' : Store M} {resp : Response M}
    (h : RowsRun create d s1 s' resp) (hok : resp.status = .SUCCESS)
    (hconv : s1.conversation d.sentBy d.sentTo =
      s.conversation d.sentBy d.sentTo ++ [d.entry]) : AllDone d s s' where
  conversation := (h.frame.conversation _ _).trans hconv
  rowBy := (h.shows hok).1
  rowTo := (h.shows hok).2

theorem allDone_serve (toLowerCase : String → String) {s s' : Store M} (hs : Structural s)
    {r : Request M} {d : Send M} (hr : r.send? = some d) {fails : Nat → Bool}
    {resp : Response M} (he : s.serve toLowerCase r fails = (s', [resp]))
    (hok : resp.status = .SUCCESS) : AllDone d s s' := by
  obtain ⟨s1, resp1, he1, hv⟩ := served toLowerCase s r
  have hsame : s.serve toLowerCase r fails = s.serve toLowerCase r noFault := by
    rw [Point.serve_eq_alone, Point.serve_eq_alone]
    refine Point.alone_of_success toLowerCase ?_ hok
    rw [← Point.serve_eq_alone, he]
  obtain ⟨rfl, rfl⟩ : s1 = s' ∧ resp1 = resp := by simpa using (he1.symm.trans hsame.symm).trans he
  cases hv with
  | read hn => simp [hn] at hr
  | added u => cases hr
  | unknown => cases hok
  | noChat => cases hok
  | noLog => cases hok
  | @pushed _ x doc _ _ hx hu hc hl hrun =>
    obtain rfl : x = d := Option.some.inj (hx.symm.trans hr)
    obtain ⟨es, hes⟩ := Option.isSome_iff_exists.mp hl
    refine hrun.allDone hok ?_
    rw [conversation_push hs hc hes, if_pos rfl]
  | @created x _ _ hu hc hrun =>
    obtain rfl : x = d := Option.some.inj hr
    refine hrun.allDone hok ?_
    rw [conversation_createChat hs hc, if_pos rfl]

/-- In every store reached by requests served one after the other, with arbitrary names and
any calls rejected, a send with any of its calls rejected touches only its own pair, and
when it answers SUCCESS all of it was done. -/
theorem send_footprint (toLowerCase : String → String) (rs : List (Request M × (Nat → Bool)))
    (r : Request M) (d : Send M) (hr : r.send? = some d) (fails : Nat → Bool) :
    let s := Store.empty.serveAll toLowerCase rs
    ∃ s' resp, s.serve toLowerCase r fails = (s', [resp]) ∧
      OnlyPair s(d.sentBy, d.sentTo) s s' ∧ (resp.status = .SUCCESS → AllDone d s s') := by
  intro s
  have hs : Structural s := structural_serveAll structural_empty rs
  obtain ⟨s', resp, he, hpair⟩ := onlyPair_serve toLowerCase hs hr fails
  exact ⟨s', resp, he, hpair, allDone_serve toLowerCase hs hr he⟩

/-- The log of the first message to "bob" was not written; "cat" gets hers. -/
theorem send_footprint_cat :
    let s := Store.empty.serveAll id [(.addNewUser "ann", noFault), (.addNewUser "bob", noFault),
      (.addNewUser "cat", noFault), (.sendNewMessage ⟨"ann", "bob", "hi", 1⟩, failAt 4)]
    ∃ s', s.serve id (.sendNewMessage ⟨"ann", "cat", "yo", 2⟩) noFault = (s', [.success]) ∧
      OnlyPair s("ann", "cat") s s' ∧ AllDone ⟨"ann", "cat", "yo", 2⟩ s s' := by
  intro s
  obtain ⟨s', resp, he, hpair, hall⟩ := send_footprint id _
    (.sendNewMessage ⟨"ann", "cat", "yo", 2⟩) ⟨"ann", "cat", "yo", 2⟩ rfl noFault
  have hresp : (s.serve id (.sendNewMessage ⟨"ann", "cat", "yo", 2⟩) noFault).2 =
      [.success] := by decide
  obtain rfl : resp = .success := by simpa using (congrArg Prod.snd he).symm.trans hresp
  exact ⟨s', he, hpair, hall rfl⟩

end Send
end RecoupChat
