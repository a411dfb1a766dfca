import Mathlib.Data.List.Range
import RecoupChat.Attribution
import RecoupChat.Solo

/-! Requests about different users do not interfere: however their calls interleave and
whichever of them are rejected, each request is served as if it were alone. -/
namespace RecoupChat
open Promise Collection Transition
variable {M : Type}

def Request.users : Request M → List String
  | .getUserChats username => [username]
  | .sendMessage d | .sendNewMessage d => [d.sentBy, d.sentTo]
  | _ => []

def Request.pair? : Request M → Option (Sym2 String)
  | .getUserChatMessages owner recipient => some s(owner, recipient)
  | .sendMessage d | .sendNewMessage d => some s(d.sentBy, d.sentTo)
  | _ => none

/-- Neither request writes what the other one reads or writes. -/
def Request.Apart (r r' : Request M) : Prop :=
  r.send? = none ∧ r'.send? = none ∨
    (∀ u ∈ r.users, u ∉ r'.users) ∧ ∀ P ∈ r.pair?, P ∉ r'.pair?

instance : DecidableRel (Request.Apart (M := M)) :=
  fun _ _ => inferInstanceAs (Decidable (_ ∨ _))

/-- Served from `s`, the request inserts no document. -/
def Request.InPlace (toLowerCase : String → String) (s : Store M) : Request M → Prop
  | .addNewUser _ => False
  | .sendNewMessage d =>
    userExists toLowerCase d.sentTo s.users = true → s.chat d.sentBy d.sentTo ≠ none
  | _ => True

instance (toLowerCase : String → String) (s : Store M) :
    DecidablePred (Request.InPlace toLowerCase s)
  | .addNewUser _ => isFalse id
  | .sendNewMessage _ => inferInstanceAs (Decidable (_ → _))
  | .getExistingUsernames | .getUserChats _ | .getUserChatMessages _ _ | .sendMessage _ =>
    isTrue trivial

theorem Request.Apart.symm {r r' : Request M} (h : r.Apart r') : r'.Apart r := by
  obtain ⟨h, h'⟩ | ⟨hu, hp⟩ := h
  · exact Or.inl ⟨h', h⟩
  · exact Or.inr ⟨fun u hr' hr => hu u hr hr', fun P hr' hr => hp P hr hr'⟩

theorem send_users {r : Request M} {d : Send M} (h : r.send? = some d) :
    r.users = [d.sentBy, d.sentTo] ∧ r.pair? = some s(d.sentBy, d.sentTo) := by
  cases r <;> cases h <;> exact ⟨rfl, rfl⟩

/-! What the awaited calls read and write. -/

inductive Cell where
  | log (chatId : Nat)
  | rows (username : String)

namespace Point

def cell? : Point M → Option Cell
  | .push _ c | .findLog _ _ c => some (.log c)
  | .findBy _ d | .updateBy _ d _ => some (.rows d.sentBy)
  | .findTo _ d | .updateTo _ d _ => some (.rows d.sentTo)
  | .findRows u => some (.rows u)
  | _ => none

def inserts : Point M → Bool
  | .insertChat _ _ | .insertLog _ _ | .insertUser _ | .insertUserMessages _ => true
  | _ => false

variable [DecidableEq M] (toLowerCase : String → String)

theorem next_congr (p : Point M) {s s' : Store M} (hu : s'.users = s.users)
    (hc : s'.chatIds = s.chatIds) (hlog : ∀ c, p.cell? = some (.log c) → s'.log c = s.log c)
    (hrows : ∀ u, p.cell? = some (.rows u) → s'.rows u = s.rows u) :
    (p.next toLowerCase s').2 = (p.next toLowerCase s).2 := by
  cases p with
  | push d c => simp only [next, push_modified, hlog c rfl]
  | findLog a b c => simp only [next, hlog c rfl]
  | findBy create d => simp only [next, hrows d.sentBy rfl]
  | findTo create d => simp only [next, hrows d.sentTo rfl]
  | findRows u => simp only [next, hrows u rfl]
  | updateBy create d rows => simp only [next, setRows_modified, hrows d.sentBy rfl]
  | updateTo create d rows => simp only [next, setRows_modified, hrows d.sentTo rfl]
  | findLast d => simp only [next, Store.lastChat, hc]
  | _ => simp only [next, hu, Store.chat, hc]

theorem next_write {p : Point M} (h : p.inserts = false) :
    (∀ s, (p.next toLowerCase s).1 = s) ∨
      (∃ c e, p.cell? = some (.log c) ∧ ∀ s, (p.next toLowerCase s).1 = s.push c e) ∨
      ∃ u rows, p.cell? = some (.rows u) ∧ ∀ s, (p.next toLowerCase s).1 = s.setRows u rows := by
  cases p with
  | push d c => exact Or.inr (Or.inl ⟨c, d.entry, rfl, fun _ => rfl⟩)
  | updateBy create d rows => exact Or.inr (Or.inr ⟨d.sentBy, rows, rfl, fun _ => rfl⟩)
  | updateTo create d rows => exact Or.inr (Or.inr ⟨d.sentTo, rows, rfl, fun _ => rfl⟩)
  | insertChat d n => cases h
  | insertLog d n => cases h
  | insertUser u => cases h
  | insertUserMessages u => cases h
  | _ => exact Or.inl fun _ => rfl

end Point

section Stores
variable [DecidableEq M]

theorem push_comm (s : Store M) {c c' : Nat} (hne : c ≠ c') (e e' : Entry M) :
    (s.push c e).push c' e' = (s.push c' e').push c e := by
  have hdocs := updateOne_comm (p := fun d : ChatMessages M => d.chatId == c')
    (q := fun d : ChatMessages M => d.chatId == c)
    (f := fun d => { d with messages := d.messages ++ [e'] })
    (g := fun d => { d with messages := d.messages ++ [e] })
    (fun d hd => by simp_all [Ne.symm hne]) (fun _ => rfl) (fun _ => rfl) s.chatMessages
  simp only [Store.push, pushIn, hdocs]

theorem setRows_comm (s : Store M) {u u' : String} (hne : u ≠ u') (rows rows' : List (Row M)) :
    (s.setRows u rows).setRows u' rows' = (s.setRows u' rows').setRows u rows := by
  have hdocs := updateOne_comm (p := fun d : UserMessages M => d.username == u')
    (q := fun d : UserMessages M => d.username == u)
    (f := fun d => { d with messages := rows' }) (g := fun d => { d with messages := rows })
    (fun d hd => by simp_all [Ne.symm hne]) (fun _ => rfl) (fun _ => rfl) s.userMessages
  simp only [Store.setRows, setRowsIn, hdocs]

end Stores

def Independent (p q : Point M) : Prop :=
  p.reads = true ∧ q.reads = true ∨
    p.inserts = false ∧ q.inserts = false ∧ ∀ x ∈ p.cell?, x ∉ q.cell?

theorem Independent.symm {p q : Point M} (h : Independent p q) : Independent q p := by
  obtain ⟨hp, hq⟩ | ⟨hp, hq, hne⟩ := h
  · exact Or.inl ⟨hq, hp⟩
  · exact Or.inr ⟨hq, hp, fun x hxq hxp => hne x hxp hxq⟩

namespace Independent
variable [DecidableEq M] {toLowerCase : String → String} {p q : Point M} (h : Independent p q)
include h

theorem next_store (s : Store M) :
    (p.next toLowerCase (q.next toLowerCase s).1).1 =
      (q.next toLowerCase (p.next toLowerCase s).1).1 := by
  obtain ⟨hp, hq⟩ | ⟨hp, hq, hne⟩ := h
  · rw [Point.next_reads toLowerCase s hp, Point.next_reads toLowerCase s hq,
      Point.next_reads toLowerCase s hp]
  · rcases Point.next_write toLowerCase hp with hp | ⟨c, e, hc, hp⟩ | ⟨u, rows, hu, hp⟩ <;>
      rcases Point.next_write toLowerCase hq with hq | ⟨c', e', hc', hq⟩ | ⟨u', rows', hu', hq⟩ <;>
      simp only [hp, hq]
    · have hcc : c' ≠ c := by
        rintro rfl
        exact hne _ hc hc'
      exact push_comm s hcc e' e
    · rfl
    · rfl
    · have huu : u' ≠ u := by
        rintro rfl
        exact hne _ hu hu'
      exact setRows_comm s huu rows' rows

theorem next_point (s : Store M) :
    (p.next toLowerCase (q.next toLowerCase s).1).2 = (p.next toLowerCase s).2 := by
  obtain ⟨-, hq⟩ | ⟨-, hq, hne⟩ := h
  · rw [Point.next_reads toLowerCase s hq]
  · rcases Point.next_write toLowerCase hq with hq | ⟨c, e, hc, hq⟩ | ⟨u, rows, hu, hq⟩ <;> rw [hq]
    · refine Point.next_congr toLowerCase p rfl rfl (fun c' hc' => ?_) fun _ _ => rfl
      have hcc : c' ≠ c := by
        rintro rfl
        exact hne _ hc' hc
      rw [log_push, if_neg hcc]
    · refine Point.next_congr toLowerCase p rfl rfl (fun _ _ => rfl) fun u' hu' => ?_
      have huu : u' ≠ u := by
        rintro rfl
        exact hne _ hu' hu
      rw [rows_setRows, if_neg huu]

theorem settle_store (s : Store M) (b b' : Bool) :
    (p.settle toLowerCase (q.settle toLowerCase s b').1 b).1 =
      (q.settle toLowerCase (p.settle toLowerCase s b).1 b').1 := by
  cases b <;> cases b' <;> first | rfl | exact h.next_store s

theorem settle_point (s : Store M) (b b' : Bool) :
    (p.settle toLowerCase (q.settle toLowerCase s b').1 b).2 =
      (p.settle toLowerCase s b).2 := by
  cases b <;> cases b' <;> first | rfl | exact h.next_point s

end Independent

/-! The points of requests that insert nothing. -/

def Point.Within (toLowerCase : String → String) (s : Store M) : Point M → Prop
  | .usersFind d =>
    userExists toLowerCase d.sentTo s.users = true → s.chat d.sentBy d.sentTo ≠ none
  | .findChat true d => s.chat d.sentBy d.sentTo ≠ none
  | .push d c => ∃ doc, s.chat d.sentBy d.sentTo = some doc ∧ doc.chatId = c
  | .findLog a b c => ∃ doc, s.chat a b = some doc ∧ doc.chatId = c
  | .findLast _ | .insertChat _ _ | .insertLog _ _ | .insertUser _ | .insertUserMessages _ => False
  | _ => True

section Within
variable {toLowerCase : String → String} {s0 : Store M}

theorem within_start {r : Request M} (h : r.InPlace toLowerCase s0) :
    (Point.start r).Within toLowerCase s0 := by
  cases r with
  | sendNewMessage d => exact h
  | addNewUser u => exact h.elim
  | _ => trivial

theorem inserts_of_within {p : Point M} (h : p.Within toLowerCase s0) : p.inserts = false := by
  cases p <;> first | rfl | exact h.elim

theorem within_next [DecidableEq M] {p : Point M} (h : p.Within toLowerCase s0) {s : Store M}
    (hu : s.users = s0.users) (hc : s.chatIds = s0.chatIds) :
    (p.next toLowerCase s).2.Within toLowerCase s0 := by
  have hchat (a b : String) : s.chat a b = s0.chat a b := by simp only [Store.chat, hc]
  have hfind {create : Bool} {v : String} {d : Send M} {rows : Option (List (Row M))}
      {q : List (Row M) → Point M} (hq : ∀ rows', (q rows').Within toLowerCase s0) :
      (Point.afterFind create v d rows q).Within toLowerCase s0 := by
    simp only [Point.afterFind]
    split
    · exact hq _
    · trivial
  cases p with
  | usersFind d =>
    simp only [Point.next, hu]
    split
    · rename_i hexists
      exact h hexists
    · trivial
  | findChat create d =>
    simp only [Point.next, hchat]
    cases hd : s0.chat d.sentBy d.sentTo with
    | some doc => exact ⟨doc, hd, rfl⟩
    | none =>
      cases create with
      | false => trivial
      | true => exact absurd hd h
  | findIds a b =>
    simp only [Point.next, hchat]
    cases hd : s0.chat a b with
    | some doc => exact ⟨doc, hd, rfl⟩
    | none => trivial
  | findBy create d => exact hfind fun _ => trivial
  | findTo create d => exact hfind fun _ => trivial
  | findLast d => exact h.elim
  | insertChat d n => exact h.elim
  | insertLog d n => exact h.elim
  | insertUser u => exact h.elim
  | insertUserMessages u => exact h.elim
  | _ =>
    simp only [Point.next]
    repeat' split
    all_goals trivial

theorem cell_of {r : Request M} {p : Point M} (hof : p.Of r) (h : p.Within toLowerCase s0) :
    (∀ u, p.cell? = some (.rows u) → u ∈ r.users) ∧
      ∀ c, p.cell? = some (.log c) → ∃ doc ∈ s0.chatIds, doc.chatId = c ∧ r.pair? = some doc.pair := by
  refine ⟨fun u hu => ?_, fun c hc => ?_⟩
  · cases p with
    | findRows u' =>
      rw [show r = .getUserChats u' from hof]
      simpa [Point.cell?, Request.users] using hu.symm
    | findBy create d => simp_all [Point.cell?, send_users hof]
    | updateBy create d rows => simp_all [Point.cell?, send_users hof]
    | findTo create d => simp_all [Point.cell?, send_users hof]
    | updateTo create d rows => simp_all [Point.cell?, send_users hof]
    | _ => cases hu
  · cases p with
    | push d c' =>
      obtain ⟨doc, hd, rfl⟩ := h
      obtain rfl : doc.chatId = c := by simpa [Point.cell?] using hc
      exact ⟨doc, chat_mem hd, rfl, by rw [(send_users hof).2, chat_pair hd]⟩
    | findLog a b c' =>
      obtain ⟨doc, hd, rfl⟩ := h
      obtain rfl : doc.chatId = c := by simpa [Point.cell?] using hc
      exact ⟨doc, chat_mem hd, rfl, by
        rw [show r = .getUserChatMessages a b from hof, chat_pair hd]
        rfl⟩
    | _ => cases hc

theorem reads_of {r : Request M} {p : Point M} (hof : p.Of r) (h : p.Within toLowerCase s0)
    (hr : r.send? = none) : p.reads = true := by
  cases p with
  | insertUser u => exact h.elim
  | insertUserMessages u => exact h.elim
  | findUsernames => rfl
  | findRows u => rfl
  | findIds a b => rfl
  | findLog a b c => rfl
  | answered resp => rfl
  | _ =>
    rw [Point.Of, hr] at hof
    cases hof

theorem independent_of {r r' : Request M} {p q : Point M} (hof : p.Of r) (hof' : q.Of r')
    (h : p.Within toLowerCase s0) (h' : q.Within toLowerCase s0) (hap : r.Apart r')
    (hids : (s0.chatIds.map (·.chatId)).Nodup) : Independent p q := by
  obtain ⟨hr, hr'⟩ | ⟨husers, hpair⟩ := hap
  · exact Or.inl ⟨reads_of hof h hr, reads_of hof' h' hr'⟩
  · refine Or.inr ⟨inserts_of_within h, inserts_of_within h', fun x hx hx' => ?_⟩
    cases x with
    | rows u => exact husers u ((cell_of hof h).1 u hx) ((cell_of hof' h').1 u hx')
    | log c =>
      obtain ⟨doc, hd, hc, hp⟩ := (cell_of hof h).2 c hx
      obtain ⟨doc', hd', hc', hp'⟩ := (cell_of hof' h').2 c hx'
      obtain rfl := List.inj_on_of_nodup_map hids hd hd' (hc.trans hc'.symm)
      exact hpair doc.pair hp hp'

end Within

/-! The runs of such requests. -/

structure ServedInPlace (toLowerCase : String → String) (s0 : Store M) (rs : List (Request M))
    (ps : PSys M) : Prop where
  issued : ps.issued = rs
  users : ps.store.users = s0.users
  chatIds : ps.store.chatIds = s0.chatIds
  of : ps.Each fun _ r p => p.Of r
  within : ps.Each fun _ _ p => p.Within toLowerCase s0

section Runs
variable [DecidableEq M] {toLowerCase : String → String} {s0 : Store M} {rs : List (Request M)}

theorem ServedInPlace.settle {ps : PSys M} (h : ServedInPlace toLowerCase s0 rs ps) {i : Nat}
    {r : Request M} {p : Point M} (hi : ps.requests[i]? = some (r, p)) (b : Bool) :
    ServedInPlace toLowerCase s0 rs (ps.settle toLowerCase i r p b) := by
  have hof := h.of i r p hi
  have hwithin := h.within i r p hi
  refine ⟨(issued_set _ hi).trans h.issued, ?_, ?_, each_set (fun j r' q _ => h.of j r' q) ?_,
    each_set (fun j r' q _ => h.within j r' q) ?_⟩
  · cases b with
    | true => exact h.users
    | false =>
      rcases Point.next_write toLowerCase (inserts_of_within hwithin) with
        hw | ⟨c, e, -, hw⟩ | ⟨u, rows, -, hw⟩ <;>
        exact (congrArg Store.users (hw ps.store)).trans h.users
  · cases b with
    | true => exact h.chatIds
    | false =>
      rcases Point.next_write toLowerCase (inserts_of_within hwithin) with
        hw | ⟨c, e, -, hw⟩ | ⟨u, rows, -, hw⟩ <;>
        exact (congrArg Store.chatIds (hw ps.store)).trans h.chatIds
  · cases b with
    | true => trivial
    | false => exact Point.of_next toLowerCase ps.store hof
  · cases b with
    | true => trivial
    | false => exact within_next hwithin h.users h.chatIds

theorem servedInPlace_step {ps ps' : PSys M} {a : Action M}
    (h : ServedInPlace toLowerCase s0 rs ps) (ha : a.who ≠ none)
    (hs : ps.step toLowerCase a = some ps') : ServedInPlace toLowerCase s0 rs ps' := by
  obtain ⟨r, rfl, -⟩ | ⟨i, b, r, p, -, hi, -, rfl⟩ := step_cases hs
  · exact absurd rfl ha
  · exact h.settle hi b

theorem settles_swap (hids : (s0.chatIds.map (·.chatId)).Nodup)
    (hap : rs.Pairwise Request.Apart) {a b : Action M} (ha : a.who ≠ none) (hb : b.who ≠ none)
    (hne : a.who ≠ b.who) :
    Swaps (PSys.step toLowerCase) (ServedInPlace toLowerCase s0 rs) a b := by
  intro ps ps1 ps2 h hb1 ha2
  obtain ⟨r', rfl, -⟩ | ⟨j, x', r', q, rfl, hj, hq, rfl⟩ := step_cases hb1
  · exact absurd rfl hb
  obtain ⟨r, rfl, -⟩ | ⟨i, x, r, p, rfl, hi, hp, rfl⟩ := step_cases ha2
  · exact absurd rfl ha
  have hij : i ≠ j := by simpa using hne
  have hi0 : ps.requests[i]? = some (r, p) := by
    simpa [PSys.settle, List.getElem?_set, hij.symm] using hi
  have hr : rs[i]? = some r := h.issued ▸ issued_get hi0
  have hr' : rs[j]? = some r' := h.issued ▸ issued_get hj
  obtain ⟨hilt, hri⟩ := List.getElem?_eq_some_iff.mp hr
  obtain ⟨hjlt, hrj⟩ := List.getElem?_eq_some_iff.mp hr'
  have hapart : r.Apart r' := by
    obtain hlt | hlt := Nat.lt_or_gt_of_ne hij
    · exact hri ▸ hrj ▸ List.pairwise_iff_getElem.mp hap i j hilt hjlt hlt
    · exact (hri ▸ hrj ▸ List.pairwise_iff_getElem.mp hap j i hjlt hilt hlt : r'.Apart r).symm
  have hind : Independent p q := independent_of (h.of i r p hi0) (h.of j r' q hj)
    (h.within i r p hi0) (h.within j r' q hj) hapart hids
  have hj1 : (ps.settle toLowerCase i r p x).requests[j]? = some (r', q) := by
    simpa [PSys.settle, List.getElem?_set, hij] using hj
  refine ⟨ps.settle toLowerCase i r p x, step_settle hi0 hp x, ?_⟩
  rw [step_settle hj1 hq]
  simp only [PSys.settle, hind.settle_store, hind.settle_point, hind.symm.settle_point,
    List.set_comm _ _ hij]

theorem issue_swaps {I : PSys M → Prop} {a b : Action M} (ha : a.who = none) (hb : b.who ≠ none) :
    Swaps (PSys.step toLowerCase) I a b := by
  intro ps ps1 ps2 _ hb1 ha2
  obtain ⟨r', rfl, -⟩ | ⟨j, x, r', q, rfl, hj, hq, rfl⟩ := step_cases hb1
  · exact absurd rfl hb
  obtain ⟨r, rfl, rfl⟩ | ⟨i, x, r, p, rfl, -, -, -⟩ := step_cases ha2
  · obtain ⟨hlt, -⟩ := List.getElem?_eq_some_iff.mp hj
    have hj1 : (ps.issue r).requests[j]? = some (r', q) := by
      rw [PSys.issue, List.getElem?_append_left hlt, hj]
    refine ⟨ps.issue r, rfl, ?_⟩
    rw [step_settle hj1 hq]
    simp [PSys.settle, PSys.issue, List.set_append_left _ _ hlt]
  · simp at ha

theorem untouched {ps ps' : PSys M} {as : List (Action M)} {k : Nat} {x : Request M × Point M}
    (h : after (PSys.step toLowerCase) ps as = some ps') (hk : ps.requests[k]? = some x)
    (hne : ∀ a ∈ as, a.who ≠ some k) : ps'.requests[k]? = some x := by
  refine after_kept (I := fun ps => ps.requests[k]? = some x) h hk fun a ha s s' hI hs => ?_
  obtain ⟨r, -, rfl⟩ | ⟨j, b, r, p, rfl, -, -, rfl⟩ := step_cases hs
  · obtain ⟨hlt, -⟩ := List.getElem?_eq_some_iff.mp hI
    rw [PSys.issue, List.getElem?_append_left hlt, hI]
  · have hjk : j ≠ k := by simpa using hne _ ha
    rw [PSys.settle, List.getElem?_set_ne hjk, hI]

theorem serve_blocks {order : List Nat} (hn : order.Nodup) {blocks : Nat → List (Action M)}
    (hown : ∀ k ∈ order, ∀ a ∈ blocks k, a.who = some k) {ps ps' : PSys M}
    (hstart : ∀ k ∈ order, ∃ r, ps.requests[k]? = some (r, .start r))
    (hend : ∀ x ∈ ps'.requests, x.2.call? = none)
    (h : after (PSys.step toLowerCase) ps (order.flatMap blocks) = some ps') :
    let fails (k : Nat) := rejectedAs ((blocks k).map Action.rejected) noFault
    ps'.store = ps.store.serveAll toLowerCase
        (order.filterMap fun k => ps.issued[k]?.map fun r => (r, fails k)) ∧
      ∀ k ∈ order.head?, ∀ r, ps.issued[k]? = some r → ∃ resp,
        ps'.requests[k]? = some (r, .answered resp) ∧
        (ps.store.serve toLowerCase r (fails k)).2 = [resp] := by
  intro fails
  induction order generalizing ps with
  | nil =>
    cases h
    exact ⟨rfl, by simp⟩
  | cons k ks ih =>
    obtain ⟨hk, hn⟩ := List.nodup_cons.mp hn
    obtain ⟨ps1, h1, h2⟩ := after_append_eq_some.mp h
    obtain ⟨r, hr⟩ := hstart k List.mem_cons_self
    obtain ⟨q, hq, halone⟩ := solo_run hr (hown k List.mem_cons_self) h1
    have hlt := (List.getElem?_eq_some_iff.mp hr).1
    have hk1 : ps1.requests[k]? = some (r, q) := by simp [hq, hlt]
    have hkend : ps'.requests[k]? = some (r, q) := by
      refine untouched h2 hk1 fun a ha => ?_
      obtain ⟨j, hj, hja⟩ := List.mem_flatMap.mp ha
      rw [hown j (List.mem_cons_of_mem k hj) a hja]
      rintro ⟨⟩
      exact hk hj
    obtain ⟨resp, rfl⟩ := Point.call?_eq_none (hend _ (List.mem_of_getElem? hkend))
    have hserve : ps.store.serve toLowerCase r (fails k) = (ps1.store, [resp]) := by
      rw [Point.serve_eq_alone]
      exact halone noFault
    have hissued : ps1.issued = ps.issued := by
      rw [PSys.issued, hq]
      exact issued_set _ hr
    have hrest := ih hn (fun j hj => hown j (List.mem_cons_of_mem k hj))
      (fun j hj => by
        have hjk : k ≠ j := fun he => hk (he ▸ hj)
        rw [hq, List.getElem?_set_ne hjk]
        exact hstart j (List.mem_cons_of_mem k hj)) h2
    refine ⟨?_, fun j hj r' hr' => ?_⟩
    · rw [hrest.1, hissued, List.filterMap_cons, issued_get hr]
      simp only [Option.map_some, Store.serveAll, hserve]
    · obtain rfl : k = j := by simpa using hj
      obtain rfl : r = r' := Option.some.inj ((issued_get hr).symm.trans hr')
      exact ⟨resp, hkend, by rw [hserve]⟩

/-- Requests that are apart, settled in any order, are served request by request. -/
theorem serve_regrouped (hids : (s0.chatIds.map (·.chatId)).Nodup) {as : List (Action M)}
    {ps' : PSys M} (h : after (PSys.step toLowerCase) ⟨s0, []⟩ as = some ps')
    (hend : ∀ x ∈ ps'.requests, x.2.call? = none)
    (hin : ∀ r ∈ ps'.issued, r.InPlace toLowerCase s0) (hap : ps'.issued.Pairwise Request.Apart)
    {order : List Nat} (horder : order.Perm (List.range ps'.issued.length)) :
    ps'.store = s0.serveAll toLowerCase
        (order.filterMap fun k => ps'.issued[k]?.map fun r => (r, rejections k as)) ∧
      ∀ k ∈ order.head?, ∀ r, ps'.issued[k]? = some r → ∃ resp,
        ps'.requests[k]? = some (r, .answered resp) ∧
        (s0.serve toLowerCase r (rejections k as)).2 = [resp] := by
  -- all requests are issued first
  have hfirst := after_filter (I := fun _ => True) (fun a : Action M => decide (a.who = none)) trivial
    (fun _ _ _ _ _ _ => trivial)
    (fun a _ b _ ha hb => issue_swaps (of_decide_eq_true ha) (of_decide_eq_false hb)) h
  obtain ⟨ps1, h1, h2⟩ := after_append_eq_some.mp hfirst
  let settles := as.filter fun a => !decide (a.who = none)
  have hsettles : ∀ a ∈ settles, a.who ≠ none := fun a ha => by
    simpa using (List.mem_filter.mp ha).2
  obtain ⟨hstore, hstart⟩ : ps1.store = s0 ∧ ∀ x ∈ ps1.requests, x.2 = .start x.1 := by
    refine after_kept (I := fun ps => ps.store = s0 ∧ ∀ x ∈ ps.requests, x.2 = .start x.1) h1
      ⟨rfl, by simp⟩ fun a ha s s' hI hs => ?_
    obtain ⟨r, -, rfl⟩ | ⟨j, b, r, p, rfl, -, -, -⟩ := step_cases hs
    · refine ⟨hI.1, fun x hx => ?_⟩
      obtain hx | hx := List.mem_append.mp hx
      · exact hI.2 x hx
      · rw [List.mem_singleton.mp hx]
    · simp at ha
  have hissued : ps'.issued = ps1.issued := by
    refine after_kept (I := fun ps => ps.issued = ps1.issued) h2 rfl fun a ha s s' hI hs => ?_
    obtain ⟨r, rfl, -⟩ | ⟨j, b, r, p, -, hj, -, rfl⟩ := step_cases hs
    · exact absurd rfl (hsettles _ ha)
    · exact (issued_set _ hj).trans hI
  rw [hissued] at hin hap horder ⊢
  have hfind {k : Nat} {r : Request M} {p : Point M} (hk : ps1.requests[k]? = some (r, p)) :
      p = .start r := hstart _ (List.mem_of_getElem? hk)
  have hplace : ServedInPlace toLowerCase s0 ps1.issued ps1 := by
    refine ⟨rfl, congrArg _ hstore, congrArg _ hstore, fun k r p hk => ?_, fun k r p hk => ?_⟩
    · exact hfind hk ▸ Point.of_start r
    · exact hfind hk ▸ within_start (hin r (List.mem_of_getElem? (issued_get hk)))
  -- then the calls are settled request by request
  have hlen : ps'.requests.length = ps1.issued.length := by
    rw [← hissued, PSys.issued, List.length_map]
  have hn : (order.map some).Nodup :=
    (horder.nodup_iff.mpr List.nodup_range).map (Option.some_injective _)
  have hgroup := after_regroup Action.who hn hplace
    (fun a ha s s' hI hs => servedInPlace_step hI (hsettles a ha) hs)
    (fun a ha b hb hne => settles_swap hids hap (hsettles a ha) (hsettles b hb) hne)
    (fun a ha => by
      obtain ⟨k, hk⟩ := Option.ne_none_iff_exists'.mp (hsettles a ha)
      have hlt : k < ps1.issued.length := hlen ▸ who_lt h2 ha hk
      rw [hk]
      exact List.mem_map_of_mem (horder.mem_iff.mpr (List.mem_range.mpr hlt))) h2
  rw [List.flatMap_map] at hgroup
  have hblocks (k : Nat) : settles.filter (fun a => decide (a.who = some k)) =
      as.filter fun a => decide (a.who = some k) := by
    rw [List.filter_filter]
    refine List.filter_congr fun a _ => ?_
    by_cases hw : a.who = some k <;> simp [hw]
  have hserve := serve_blocks (horder.nodup_iff.mpr List.nodup_range)
    (fun k _ a ha => by simpa using (List.mem_filter.mp ha).2)
    (fun k hk => by
      have hlt : k < ps1.requests.length := by
        simpa [PSys.issued] using List.mem_range.mp (horder.mem_iff.mp hk)
      have hget := List.getElem?_eq_getElem hlt
      exact ⟨_, hget.trans (congrArg some (Prod.ext rfl (hfind hget)))⟩) hend hgroup
  simpa only [hblocks, hstore, rejections] using hserve

/-- Requests of which no two touch the same user or log, issued and settled in any order with
any of their calls rejected: when all have answered, the store is the one that serving them one
after the other leaves, in every order, and each has answered as if served alone. -/
theorem apart_serializable (hids : (s0.chatIds.map (·.chatId)).Nodup) {as : List (Action M)}
    {s' : Sys M} (h : after (Sys.step toLowerCase) (Sys.init s0) as = some s') (hq : s'.quiet)
    (hin : ∀ r ∈ s'.issued, r.InPlace toLowerCase s0) (hap : s'.issued.Pairwise Request.Apart)
    {order : List Nat} (horder : order.Perm (List.range s'.issued.length)) :
    s'.store = s0.serveAll toLowerCase
        (order.filterMap fun k => s'.issued[k]?.map fun r => (r, rejections k as)) ∧
      ∀ k r, s'.issued[k]? = some r →
        s'.outcome[k]? = some (r, (s0.serve toLowerCase r (rejections k as)).2) := by
  have hlift := after_map (f := PSys.sys toLowerCase) (g := id) step_sys as ⟨s0, []⟩
  rw [List.map_id] at hlift
  obtain ⟨ps', hps, rfl⟩ := Option.map_eq_some_iff.mp (hlift.symm.trans h)
  rw [issued_sys] at hin hap horder ⊢
  have hend := (quiet_iff toLowerCase ps').mp hq
  refine ⟨(serve_regrouped hids hps hend hin hap horder).1, fun k r hk => ?_⟩
  -- request `k` may be the first one served
  have hlt : k < ps'.issued.length := (List.getElem?_eq_some_iff.mp hk).1
  have hfirst := List.perm_cons_erase (List.mem_range.mpr hlt)
  obtain ⟨resp, hresp, hserve⟩ :=
    (serve_regrouped hids hps hend hin hap hfirst.symm).2 k rfl r hk
  rw [outcome_sys, List.getElem?_map, hresp, hserve]
  rfl

def twoPairs : Store String where
  users := [⟨"ann"⟩, ⟨"bob"⟩, ⟨"cat"⟩, ⟨"dan"⟩]
  userMessages := [⟨"ann", [⟨"bob", "hi", 1⟩]⟩, ⟨"bob", [⟨"ann", "hi", 1⟩]⟩,
    ⟨"cat", [⟨"dan", "yo", 2⟩]⟩, ⟨"dan", [⟨"cat", "yo", 2⟩]⟩]
  chatIds := [⟨0, "ann", "bob"⟩, ⟨1, "cat", "dan"⟩]
  chatMessages := [⟨0, [⟨"ann", "hi", 1⟩]⟩, ⟨1, [⟨"cat", "yo", 2⟩]⟩]

def bothWrite : List (Action String) :=
  [.issue (.sendMessage ⟨"bob", "ann", "hey", 3⟩), .fulfil 0 0,
    .issue (.sendNewMessage ⟨"dan", "cat", "sup", 4⟩), .fulfil 1 0, .fulfil 1 0, .fulfil 0 0,
    .fulfil 1 0, .fulfil 0 0, .fulfil 0 0, .fulfil 1 0, .fulfil 1 0, .fulfil 0 0, .reject 1 0,
    .fulfil 0 0]

theorem apart_serializable_twoPairs : ∃ s' : Sys String,
    after (Sys.step id) (Sys.init twoPairs) bothWrite = some s' ∧
      s'.store = twoPairs.serveAll id
        (([1, 0] : List Nat).filterMap fun k => s'.issued[k]?.map fun r => (r, rejections k bothWrite)) ∧
      ∀ k r, s'.issued[k]? = some r →
        s'.outcome[k]? = some (r, (twoPairs.serve id r (rejections k bothWrite)).2) := by
  obtain ⟨s', h, hq, hin, hap, horder⟩ : ∃ s' : Sys String,
      after (Sys.step id) (Sys.init twoPairs) bothWrite = some s' ∧ s'.quiet ∧
        (∀ r ∈ s'.issued, r.InPlace id twoPairs) ∧ s'.issued.Pairwise Request.Apart ∧
        ([1, 0] : List Nat).Perm (List.range s'.issued.length) := by
    have hrun : (after (Sys.step id) (Sys.init twoPairs) bothWrite).any (fun s' => decide
        (s'.quiet ∧ (∀ r ∈ s'.issued, r.InPlace id twoPairs) ∧
          s'.issued.Pairwise Request.Apart ∧
          ([1, 0] : List Nat).Perm (List.range s'.issued.length))) = true := by decide
    obtain ⟨s', h, hs⟩ := (Option.any_eq_true _ _).mp hrun
    exact ⟨s', h, of_decide_eq_true hs⟩
  exact ⟨s', h, apart_serializable (by decide) h hq hin hap horder⟩

end Runs

end RecoupChat
