import RecoupChat.Isolation
import RecoupChat.Refinement

/-! A registration and a first message to the new user at the same time: either the message
is refused, or everything about it is there, when the message looks up the new user's rows
only after they exist. -/
namespace RecoupChat
open Promise Transition Collection
variable {M : Type}

def Store.addUser (s : Store M) (u : String) : Store M :=
  (s.insertUser ⟨u⟩).insertUserMessages ⟨u, []⟩

def joining (toLowerCase : String → String) (s0 : Store M) (d : Send M) : Sys M :=
  ⟨s0, [(.addNewUser d.sentTo, (addNewUser d.sentTo).begin),
    (.sendNewMessage d, (sendNewMessage toLowerCase d).begin)]⟩

def Action.fulfils : Action M → Prop
  | .fulfil _ _ => True
  | _ => False

instance : DecidablePred (Action.fulfils (M := M))
  | .issue _ => isFalse id
  | .fulfil _ _ => isTrue trivial
  | .reject _ _ => isFalse id

/-- The rows of `u` are looked up only when their document exists. -/
def findsRows [DecidableEq M] (u : String) (s : Sys M) (_ : Nat) (c : Call M) : Prop :=
  c = .userMessagesFindOne u → s.store.rows u ≠ none

instance [DecidableEq M] (u : String) (s : Sys M) (i : Nat) (c : Call M) :
    Decidable (findsRows u s i c) := inferInstanceAs (Decidable (_ → _))

theorem rows_insertOther {s : Store M} {u v : String} (h : s.rows v ≠ none ∨ u ≠ v) :
    (s.insertUserMessages ⟨u, []⟩).rows v = s.rows v := by
  rw [rows_insertUserMessages]
  cases hr : s.rows v with
  | some rows => rfl
  | none =>
    have hne : u ≠ v := h.resolve_left fun hn => hn hr
    simp [hne]

variable [DecidableEq M] {toLowerCase : String → String}

/-- When both requests have answered: the message was refused and nothing is left of it, or
it succeeded and its log and both rows exist; and a later message succeeds. -/
structure AllOrNothing (toLowerCase : String → String) (s0 : Store M) (d : Send M) (s : Sys M) :
    Prop where
  outcome :
    s.answered 1 (.sendNewMessage d) (.error "USER DOES NOT EXIST") ∧
        s.store = s0.addUser d.sentTo ∨
      ∃ resp, s.answered 1 (.sendNewMessage d) resp ∧ resp.status = .SUCCESS ∧
        s.store.conversation d.sentBy d.sentTo = [d.entry] ∧
        s.store.row d.sentBy d.sentTo = some ⟨d.sentTo, d.message, d.timeNow⟩ ∧
        s.store.row d.sentTo d.sentBy = some ⟨d.sentBy, d.message, d.timeNow⟩
  later : ∀ (m : M) (t : Int), t ≠ d.timeNow → ∃ resp,
    (s.store.serve toLowerCase (.sendNewMessage ⟨d.sentBy, d.sentTo, m, t⟩) noFault).2 = [resp] ∧
      resp.status = .SUCCESS

/-! A step of the send and the inserts of the registration commute. -/

theorem next_insertUser (toLowerCase : String → String) {d : Send M} {p : Point M} (s : Store M)
    (u : String)
    (hof : p.Of (.sendNewMessage d))
    (hu : p = .usersFind d → userExists toLowerCase d.sentTo s.users = true) :
    p.next toLowerCase (s.insertUser ⟨u⟩) =
      ((p.next toLowerCase s).1.insertUser ⟨u⟩, (p.next toLowerCase s).2) := by
  cases p with
  | usersFind x =>
    obtain rfl : d = x := Option.some.inj hof
    have hold := hu rfl
    have hnew : userExists toLowerCase d.sentTo (s.insertUser ⟨u⟩).users = true := by
      simp only [userExists, Store.insertUser, List.map_append, List.contains_eq_mem,
        List.mem_append, decide_eq_true_eq] at hold ⊢
      exact Or.inl hold
    simp only [Point.next, hold, hnew, if_true]
  | insertUser x => cases hof
  | insertUserMessages x => cases hof
  | findUsernames => cases hof
  | findRows x => cases hof
  | findIds x y => cases hof
  | findLog x y c => cases hof
  | _ => rfl

theorem setRowsIn_insertOther {s : Store M} {u v : String} (h : s.rows v ≠ none ∨ u ≠ v)
    (rows : List (Row M)) :
    setRowsIn v rows (s.insertUserMessages ⟨u, []⟩).userMessages =
      ((setRowsIn v rows s.userMessages).1 ++ [⟨u, []⟩], (setRowsIn v rows s.userMessages).2) := by
  refine updateOne_concat (h.imp (fun hn hf => hn ?_) fun hne => by simpa using hne)
  rw [Store.rows, Store.rowsDoc, hf]
  rfl

def Point.needsRowsTo : Point M → Bool
  | .findTo _ _ | .updateTo _ _ _ => true
  | _ => false

theorem next_insertUserMessages (toLowerCase : String → String) {d : Send M} {p : Point M}
    (s : Store M) (hof : p.Of (.sendNewMessage d)) (hne : d.sentBy ≠ d.sentTo)
    (hdoc : p.needsRowsTo = true → s.rows d.sentTo ≠ none) :
    p.next toLowerCase (s.insertUserMessages ⟨d.sentTo, []⟩) =
      ((p.next toLowerCase s).1.insertUserMessages ⟨d.sentTo, []⟩,
        (p.next toLowerCase s).2) := by
  cases p with
  | findBy create x =>
    obtain rfl : d = x := Option.some.inj hof
    simp only [Point.next, rows_insertOther (Or.inr (Ne.symm hne))]
  | updateBy create x rows =>
    obtain rfl : d = x := Option.some.inj hof
    have hset := setRowsIn_insertOther (s := s) (Or.inr (Ne.symm hne)) rows
    simp only [Point.next, Store.setRows, hset]
    rfl
  | findTo create x =>
    obtain rfl : d = x := Option.some.inj hof
    simp only [Point.next, rows_insertOther (Or.inl (hdoc rfl))]
  | updateTo create x rows =>
    obtain rfl : d = x := Option.some.inj hof
    have hset := setRowsIn_insertOther (s := s) (u := d.sentTo) (Or.inl (hdoc rfl)) rows
    simp only [Point.next, Store.setRows, hset]
    rfl
  | insertUser x => cases hof
  | insertUserMessages x => cases hof
  | findUsernames => cases hof
  | findRows x => cases hof
  | findIds x y => cases hof
  | findLog x y c => cases hof
  | _ => rfl

inductive Adding (u : String) : Point M → (Store M → Store M) → Prop
  | user : Adding u (.insertUser u) fun s => s.addUser u
  | userMessages : Adding u (.insertUserMessages u) fun s => s.insertUserMessages ⟨u, []⟩
  | added : Adding u (.answered .success) id

theorem next_adding {d : Send M} {p q : Point M} {rest : Store M → Store M} {s : Store M}
    (hadd : Adding d.sentTo q rest) (hof : p.Of (.sendNewMessage d))
    (hne : d.sentBy ≠ d.sentTo)
    (hu : p = .usersFind d → userExists toLowerCase d.sentTo s.users = true)
    (hdoc : p.needsRowsTo = true → s.rows d.sentTo ≠ none) :
    p.next toLowerCase (rest s) =
      (rest (p.next toLowerCase s).1, (p.next toLowerCase s).2) := by
  cases hadd with
  | added => rfl
  | userMessages => exact next_insertUserMessages toLowerCase s hof hne hdoc
  | user =>
    have hinsert := next_insertUser toLowerCase s d.sentTo hof hu
    have h := next_insertUserMessages toLowerCase (s.insertUser ⟨d.sentTo⟩) hof hne hdoc
    simp only [Store.addUser, h, hinsert]

/-- The registration at `q` with `rest` to come and the send at `p`: what they will have done
together is what the send does after the registration, in store `s1`, unless it was refused
and did nothing. -/
structure Joins (toLowerCase : String → String) (s1 : Store M) (d : Send M) (q p : Point M)
    (rest : Store M → Store M) (s : Store M) : Prop where
  adding : Adding d.sentTo q rest
  of : p.Of (.sendNewMessage d)
  start : p = .usersFind d → rest s = s1
  doc : ∀ create rows, p = .updateTo create d rows → s.rows d.sentTo ≠ none
  merges : p = .answered (.error "USER DOES NOT EXIST") ∧ rest s = s1 ∨
    p.alone toLowerCase (rest s) noFault = (Point.usersFind d).alone toLowerCase s1 noFault

namespace Joins
variable {s1 s : Store M} {d : Send M} {q p : Point M} {rest : Store M → Store M}

theorem register (h : Joins toLowerCase s1 d q p rest s) (hq : q.call? ≠ none) :
    ∃ rest', Joins toLowerCase s1 d (q.next toLowerCase s).2 p rest' (q.next toLowerCase s).1 := by
  cases h.adding with
  | added => exact absurd rfl hq
  | user => exact ⟨_, .userMessages, h.of, h.start, h.doc, h.merges⟩
  | userMessages =>
    refine ⟨_, .added, h.of, h.start, fun create rows hp hn => ?_, h.merges⟩
    have hrows := rows_insertUserMessages s ⟨d.sentTo, []⟩ d.sentTo
    rw [if_pos rfl] at hrows
    rw [Point.next, hrows] at hn
    simp at hn

theorem send (h : Joins toLowerCase s1 d q p rest s) (hne : d.sentBy ≠ d.sentTo)
    (hp : p.call? ≠ none) (hfind : ∀ create, p = .findTo create d → s.rows d.sentTo ≠ none) :
    Joins toLowerCase s1 d q (p.next toLowerCase s).2 rest (p.next toLowerCase s).1 := by
  have hneeds : p.needsRowsTo = true → s.rows d.sentTo ≠ none := by
    intro hn
    cases p with
    | findTo create x =>
      obtain rfl : d = x := Option.some.inj h.of
      exact hfind create rfl
    | updateTo create x rows =>
      obtain rfl : d = x := Option.some.inj h.of
      exact h.doc create rows rfl
    | _ => cases hn
  have hmerges : p.alone toLowerCase (rest s) noFault =
      (Point.usersFind d).alone toLowerCase s1 noFault := by
    refine h.merges.resolve_left fun hm => hp ?_
    rw [hm.1]
    rfl
  have hg := Point.goes toLowerCase p s
  refine ⟨h.adding, Point.of_next toLowerCase s h.of, fun hq => ?_, fun create rows hq => ?_, ?_⟩
  · rw [hq] at hg
    cases hg
  · rw [hq] at hg
    cases hg with
    | readTo _ _ hr _ => simp [Point.next, hr]
  · by_cases hknown : p = .usersFind d → userExists toLowerCase d.sentTo s.users = true
    · rw [Point.alone_noFault toLowerCase hp, next_adding h.adding h.of hne hknown hneeds]
        at hmerges
      exact Or.inr hmerges
    · obtain ⟨rfl, hu⟩ := Classical.not_imp.mp hknown
      exact Or.inl ⟨by simp [Point.next, hu], h.start rfl⟩

end Joins

def Joined (toLowerCase : String → String) (s1 : Store M) (d : Send M) (ps : PSys M) : Prop :=
  ∃ q p rest, ps.requests = [(.addNewUser d.sentTo, q), (.sendNewMessage d, p)] ∧
    Joins toLowerCase s1 d q p rest ps.store

theorem joined_step {s1 : Store M} {d : Send M} (hne : d.sentBy ≠ d.sentTo) {ps ps' : PSys M}
    {a : Action M} (h : Joined toLowerCase s1 d ps)
    (ha : a.fulfils ∧ onCalls (findsRows d.sentTo) (ps.sys toLowerCase) a)
    (hs : ps.step toLowerCase a = some ps') : Joined toLowerCase s1 d ps' := by
  obtain ⟨q, p, rest, hreq, hj⟩ := h
  obtain ⟨hful, hcalls⟩ := ha
  cases steps hs with
  | issue r => exact hful.elim
  | reject i r x hi hc => exact hful.elim
  | fulfil i r x hi hc =>
    rw [hreq] at hi
    cases i with
    | zero =>
      obtain ⟨rfl, rfl⟩ : .addNewUser d.sentTo = r ∧ q = x := by simpa using hi
      obtain ⟨rest', hj'⟩ := hj.register hc
      exact ⟨_, p, rest', by simp [PSys.fulfil, hreq], hj'⟩
    | succ i =>
      cases i with
      | succ i => simp at hi
      | zero =>
        obtain ⟨rfl, rfl⟩ : .sendNewMessage d = r ∧ p = x := by simpa using hi
        have hcall : (ps.sys toLowerCase).call? 1 0 = p.call? :=
          call_sys (r := .sendNewMessage d) (by rw [hreq]; rfl)
        have hfind : ∀ create, p = .findTo create d → ps.store.rows d.sentTo ≠ none := by
          intro create hp
          exact hcalls _ (by rw [hcall, hp]; rfl) rfl
        exact ⟨q, _, rest, by simp [PSys.fulfil, hreq], hj.send hne hc hfind⟩

theorem Represents.postSucceeds {a : Service M} {s : Store M} (h : Represents a s)
    (toLowerCase : String → String) {d : Send M} (hby : d.sentBy ∈ a.names)
    (hto : d.sentTo ∈ a.names) (hne : d.sentBy ≠ d.sentTo)
    (hend : ¬ a.endsWith d.sentBy d.sentTo d.message d.timeNow) :
    ∃ s' resp, s.serve toLowerCase (.sendNewMessage d) noFault = (s', [resp]) ∧
      Represents (a.append d) s' ∧ resp.status = .SUCCESS := by
  have hp : a.Permits (.sendNewMessage d) := by
    intro x hx
    obtain rfl : d = x := Option.some.inj hx
    exact ⟨hby, hto⟩
  obtain ⟨s', resp, he, hs', hstatus⟩ := h.serve_send toLowerCase rfl hp (Or.inl rfl)
  exact ⟨s', resp, he, hs', hstatus.mpr ⟨hne, hend⟩⟩

theorem Represents.laterSucceeds {a : Service M} {s : Store M} (h : Represents a s)
    (toLowerCase : String → String) {u v : String} (hu : u ∈ a.names) (hv : v ∈ a.names)
    (hne : u ≠ v) {m : M} {t : Int} (hend : ¬ a.endsWith u v m t) :
    ∃ resp, (s.serve toLowerCase (.sendNewMessage ⟨u, v, m, t⟩) noFault).2 = [resp] ∧
      resp.status = .SUCCESS := by
  obtain ⟨s', resp, he, -, hok⟩ := h.postSucceeds toLowerCase (d := ⟨u, v, m, t⟩) hu hv hne hend
  rw [he]
  exact ⟨resp, rfl, hok⟩

theorem Represents.refused {a : Service M} {s0 : Store M} {d : Send M} {s : Sys M}
    (h : Represents a (s0.addUser d.sentTo)) (toLowerCase : String → String)
    (hby : d.sentBy ∈ a.names) (hto : d.sentTo ∈ a.names) (hne : d.sentBy ≠ d.sentTo)
    (hconv : a.conv s(d.sentBy, d.sentTo) = [])
    (hans : s.answered 1 (.sendNewMessage d) (.error "USER DOES NOT EXIST"))
    (hs : s.store = s0.addUser d.sentTo) : AllOrNothing toLowerCase s0 d s where
  outcome := Or.inl ⟨hans, hs⟩
  later m t _ := by
    rw [hs]
    refine h.laterSucceeds toLowerCase hby hto hne ?_
    rintro ⟨e, he, -⟩
    simp [hconv] at he

theorem Represents.written {a : Service M} {s0 : Store M} {d : Send M} {s : Sys M}
    {resp : Response M} (h : Represents (a.append d) s.store) (toLowerCase : String → String)
    (hby : d.sentBy ∈ a.names) (hto : d.sentTo ∈ a.names) (hne : d.sentBy ≠ d.sentTo)
    (hconv : a.conv s(d.sentBy, d.sentTo) = []) (hans : s.answered 1 (.sendNewMessage d) resp)
    (hok : resp.status = .SUCCESS) : AllOrNothing toLowerCase s0 d s where
  outcome := by
    refine Or.inr ⟨resp, hans, hok, ?_, ?_, ?_⟩
    · simp [h.conversation, Service.append, hconv]
    · simp [h.row, Service.append, hconv, Entry.rowOf, Send.entry]
    · simp [h.row, Service.append, hconv, Entry.rowOf, Send.entry, Sym2.eq_swap]
  later m t ht := by
    refine h.laterSucceeds toLowerCase hby hto hne ?_
    rintro ⟨e, hlast, -, htime⟩
    obtain rfl : d.entry = e := by simpa [Service.append, hconv] using hlast
    exact ht htime.symm

/-- In every run of a registration and a first message to the new user in which the message
looks up that user's rows only when they exist, the message is all or nothing, and a later
one succeeds. -/
theorem all_or_nothing (toLowerCase : String → String) {a : Service M} (s0 : Store M)
    (h : Represents a s0) (d : Send M) (hby : s0.registered d.sentBy)
    (hto : ¬ s0.registered d.sentTo) (s : Sys M)
    (hr : Run (Sys.step toLowerCase) (fun s a => a.fulfils ∧ onCalls (findsRows d.sentTo) s a)
      (joining toLowerCase s0 d) s) (hq : s.quiet) : AllOrNothing toLowerCase s0 d s := by
  have hne : d.sentBy ≠ d.sentTo := fun he => hto (he ▸ hby)
  rw [Store.registered, h.users] at hby hto
  let ps0 : PSys M := ⟨s0, [(.addNewUser d.sentTo, .insertUser d.sentTo),
    (.sendNewMessage d, .usersFind d)]⟩
  have h0 : Joined toLowerCase (s0.addUser d.sentTo) d ps0 :=
    ⟨_, _, _, rfl, .user, rfl, fun _ => rfl, fun _ _ hp => (by cases hp), Or.inr rfl⟩
  obtain ⟨ps, rfl, hrun⟩ := Run.lift (f := PSys.sys toLowerCase) step_sys (p := ps0) hr
  obtain ⟨q, p, rest, hreq, hj⟩ :=
    hrun.invariant h0 fun _ _ _ hI hok hs => joined_step hne hI hok hs
  have hqdone : q.call? = none := quiet_sys hq (i := 0) (by rw [hreq]; rfl)
  have hpdone : p.call? = none := quiet_sys hq (i := 1) (by rw [hreq]; rfl)
  obtain ⟨resp, rfl⟩ := Point.call?_eq_none hpdone
  obtain rfl : rest = id := by
    cases hj.adding with
    | added => rfl
    | user => cases hqdone
    | userMessages => cases hqdone
  have hans : (ps.sys toLowerCase).answered 1 (.sendNewMessage d) resp := by
    simp [Sys.answered, Sys.outcome, PSys.sys, hreq]
  let a1 : Service M := { a with names := a.names ++ [d.sentTo] }
  have h1 : Represents a1 (s0.addUser d.sentTo) := h.addUser d.sentTo
  have hby1 : d.sentBy ∈ a1.names := List.mem_append_left _ hby
  have hto1 : d.sentTo ∈ a1.names := List.mem_append_right _ (List.mem_singleton.mpr rfl)
  have hconv : a1.conv s(d.sentBy, d.sentTo) = [] :=
    by_contra fun hc => hto (h.known d.sentTo d.sentBy (Sym2.eq_swap ▸ hc))
  rcases hj.merges with ⟨hp, hs⟩ | hs
  · obtain rfl : resp = .error "USER DOES NOT EXIST" := by simpa using hp
    exact h1.refused toLowerCase hby1 hto1 hne hconv hans hs
  · have hfirst : ¬ a1.endsWith d.sentBy d.sentTo d.message d.timeNow := by
      rintro ⟨e, he, -⟩
      simp [hconv] at he
    obtain ⟨s', resp', he, h2, hok⟩ := h1.postSucceeds toLowerCase hby1 hto1 hne hfirst
    rw [Point.serve_eq_alone, Point.start, ← hs, Point.alone_answered] at he
    obtain ⟨rfl, rfl⟩ : ps.store = s' ∧ resp = resp' := by simpa using he
    exact h2.written toLowerCase hby1 hto1 hne hconv hans hok

def annOnly : List (Request String) := [.addNewUser "ann"]

theorem represents_annOnly :
    Represents (Service.init.run annOnly) (Store.empty.serveEach id annOnly) :=
  represents_init.run id (by simp [annOnly, Service.Legal, Service.Permits, Request.send?])

/-- The message finds "bob" before he has rows, and needs them only afterwards. -/
theorem all_or_nothing_inTime : ∃ s : Sys String,
    Run (Sys.step id) (fun s a => a.fulfils ∧ onCalls (findsRows "bob") s a)
      (joining id (Store.empty.serveEach id annOnly) ⟨"ann", "bob", "hi", 1⟩) s ∧ s.quiet ∧
      AllOrNothing id (Store.empty.serveEach id annOnly) ⟨"ann", "bob", "hi", 1⟩ s := by
  obtain ⟨s, hr, hq⟩ : ∃ s : Sys String,
      Run (Sys.step id) (fun s a => a.fulfils ∧ onCalls (findsRows "bob") s a)
        (joining id (Store.empty.serveEach id annOnly) ⟨"ann", "bob", "hi", 1⟩) s ∧ s.quiet :=
    Run.exists_of_follow (calls 0 1 ++ calls 1 7 ++ calls 0 1 ++ calls 1 2) (by decide)
  exact ⟨s, hr, hq, all_or_nothing id _ represents_annOnly ⟨"ann", "bob", "hi", 1⟩ (by decide)
    (by decide) s hr hq⟩

/-- The message needs the rows of "bob" before they exist: it fails half done, and so does
every later message. -/
theorem joining_breaks : (Store.empty.serveEach id annOnly).registered "ann" ∧
    ¬ (Store.empty.serveEach id annOnly).registered "bob" ∧ ∃ s : Sys String,
      Run (Sys.step id) (fun _ a => a.fulfils)
        (joining id (Store.empty.serveEach id annOnly) ⟨"ann", "bob", "hi", 1⟩) s ∧ s.quiet ∧
        ¬ AllOrNothing id (Store.empty.serveEach id annOnly) ⟨"ann", "bob", "hi", 1⟩ s := by
  obtain ⟨s, hr, hq, hlater⟩ : ∃ s : Sys String, Run (Sys.step id) (fun _ a => a.fulfils)
      (joining id (Store.empty.serveEach id annOnly) ⟨"ann", "bob", "hi", 1⟩) s ∧ s.quiet ∧
        (s.store.serve id (.sendNewMessage ⟨"ann", "bob", "hello", 2⟩) noFault).2 =
          [.error "DB_ERR"] :=
    Run.exists_of_follow (calls 0 1 ++ calls 1 8 ++ calls 0 1) (by decide)
  refine ⟨by decide, by decide, s, hr, hq, fun h => ?_⟩
  obtain ⟨resp, he, hok⟩ := h.later "hello" 2 (by decide)
  obtain rfl : .error "DB_ERR" = resp := by simpa using hlater.symm.trans he
  cases hok

end RecoupChat
