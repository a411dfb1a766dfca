import RecoupChat.MonotonicReads

/-! What is never taken back: whatever requests run at once and whichever of their calls are
rejected, documents keep their places, logs only grow, and no answer is changed. -/
namespace RecoupChat
open Promise Collection Transition
variable {M : Type}

/-- Every document of `s` is in its place in `s'`, with the entries it had. -/
structure Extends (s s' : Store M) : Prop where
  users : s.users <+: s'.users
  chatIds : s.chatIds <+: s'.chatIds
  owners : s.userMessages.map (·.username) <+: s'.userMessages.map (·.username)
  logs : ∀ (k : Nat) lg, s.chatMessages[k]? = some lg → ∃ lg', s'.chatMessages[k]? = some lg' ∧
    lg'.chatId = lg.chatId ∧ lg.messages <+: lg'.messages

/-- Every request of `s` is in its place in `s'`, with the answers it had sent. -/
def KeepsAnswers (s s' : Sys M) : Prop :=
  ∀ (i : Nat) r sent, s.outcome[i]? = some (r, sent) →
    ∃ sent', s'.outcome[i]? = some (r, sent') ∧ sent <+: sent'

namespace Extends

theorem refl (s : Store M) : Extends s s where
  users := List.prefix_refl _
  chatIds := List.prefix_refl _
  owners := List.prefix_refl _
  logs _ lg h := ⟨lg, h, rfl, List.prefix_refl _⟩

theorem trans {s s1 s' : Store M} (h : Extends s s1) (h1 : Extends s1 s') : Extends s s' where
  users := h.users.trans h1.users
  chatIds := h.chatIds.trans h1.chatIds
  owners := h.owners.trans h1.owners
  logs k lg hk := by
    obtain ⟨lg1, hk1, hc1, hp1⟩ := h.logs k lg hk
    obtain ⟨lg', hk', hc', hp'⟩ := h1.logs k lg1 hk1
    exact ⟨lg', hk', hc'.trans hc1, hp1.trans hp'⟩

theorem insertLog (s : Store M) (doc : ChatMessages M) : Extends s (s.insertLog doc) where
  users := List.prefix_refl _
  chatIds := List.prefix_refl _
  owners := List.prefix_refl _
  logs k lg hk := by
    obtain ⟨hlt, -⟩ := List.getElem?_eq_some_iff.mp hk
    exact ⟨lg, (List.getElem?_append_left hlt).trans hk, rfl, List.prefix_refl _⟩

variable [DecidableEq M]

theorem setRows (s : Store M) (u : String) (rows : List (Row M)) : Extends s (s.setRows u rows) where
  users := List.prefix_refl _
  chatIds := List.prefix_refl _
  owners := by
    have hnames := map_updateOne (p := fun d : UserMessages M => d.username == u)
      (f := fun d => { d with messages := rows }) (g := (·.username)) (fun _ _ => rfl)
      s.userMessages
    rw [Store.setRows, setRowsIn, hnames]
  logs _ lg h := ⟨lg, h, rfl, List.prefix_refl _⟩

theorem push (s : Store M) (c : Nat) (e : Entry M) : Extends s (s.push c e) where
  users := List.prefix_refl _
  chatIds := List.prefix_refl _
  owners := List.prefix_refl _
  logs k lg hk := by
    rcases getElem_updateOne (p := fun d : ChatMessages M => d.chatId == c)
      (f := fun d => { d with messages := d.messages ++ [e] }) hk with h | ⟨-, h⟩
    · exact ⟨lg, h, rfl, List.prefix_refl _⟩
    · exact ⟨_, h, rfl, List.prefix_append _ _⟩

theorem call (c : Call M) (s : Store M) : Extends s (c.run s).1 := by
  cases c with
  | usersInsertOne doc => exact { refl s with users := List.prefix_append _ _ }
  | chatIdsInsertOne doc => exact { refl s with chatIds := List.prefix_append _ _ }
  | userMessagesInsertOne doc =>
    refine { refl s with owners := ?_ }
    simp [Call.run, Store.insertUserMessages]
  | userMessagesSet u rows => exact setRows s u rows
  | chatMessagesPush c e => exact push s c e
  | chatMessagesInsertOne doc => exact insertLog s doc
  | _ => exact refl s

end Extends

theorem body_sent {C : Type} {R : C → Type} {A : Type} (cb : Callback C R A) (th : Thread C R A) :
    th.sent <+: (cb.body th).1.sent := by
  induction cb generalizing th with
  | done => exact List.prefix_refl _
  | throw => exact List.prefix_refl _
  | send a rest ih => exact (List.prefix_append _ _).trans (ih { th with sent := th.sent ++ [a] })
  | start c f g rest _ _ ih => exact ih { th with pending := th.pending ++ [⟨c, f, g⟩] }

theorem settle_sent {C : Type} {R : C → Type} {A : Type} (ch : Chain C R A)
    (outcome : Option (R ch.call)) (th : Thread C R A) :
    th.sent <+: (ch.settle outcome th).sent := by
  cases outcome with
  | none => exact body_sent ch.onCatch th
  | some v =>
    simp only [Chain.settle]
    split
    · exact (body_sent (ch.onThen v) th).trans (body_sent ch.onCatch _)
    · exact body_sent (ch.onThen v) th

theorem KeepsAnswers.set {s : Sys M} {store : Store M} {i : Nat} {r : Request M}
    {th th' : HandlerThread M} (hi : s.requests[i]? = some (r, th)) (h : th.sent <+: th'.sent) :
    KeepsAnswers s ⟨store, s.requests.set i (r, th')⟩ := by
  intro j r' sent hj
  obtain ⟨⟨r1, th1⟩, hth1, he⟩ := Option.map_eq_some_iff.mp ((List.getElem?_map ..).symm.trans hj)
  obtain ⟨rfl, rfl⟩ := Prod.mk.inj he
  by_cases hij : i = j
  · subst hij
    obtain ⟨rfl, rfl⟩ : r = r1 ∧ th = th1 := by simpa using hi.symm.trans hth1
    obtain ⟨hlt, -⟩ := List.getElem?_eq_some_iff.mp hi
    exact ⟨th'.sent, by simp [Sys.outcome, hlt], h⟩
  · exact ⟨th1.sent, by simp [Sys.outcome, List.getElem?_set_ne hij, hth1], List.prefix_refl _⟩

theorem KeepsAnswers.trans {s s1 s' : Sys M} (h : KeepsAnswers s s1) (h1 : KeepsAnswers s1 s') :
    KeepsAnswers s s' := by
  intro i r sent hi
  obtain ⟨sent1, hi1, hp1⟩ := h i r sent hi
  obtain ⟨sent', hi', hp'⟩ := h1 i r sent1 hi1
  exact ⟨sent', hi', hp1.trans hp'⟩

variable [DecidableEq M] {toLowerCase : String → String}

omit [DecidableEq M] in
theorem chain_spec {s : Sys M} {i j : Nat} {r : Request M} {th : HandlerThread M}
    {ch : Chain (Call M) Call.Result (Response M)} (h : s.chain? i j = some (r, th, ch)) :
    s.requests[i]? = some (r, th) := by
  obtain ⟨⟨r', th'⟩, hi, h⟩ := Option.bind_eq_some_iff.mp h
  obtain ⟨ch', -, he⟩ := Option.map_eq_some_iff.mp h
  cases he
  exact hi

theorem extends_step {s s' : Sys M} {a : Action M} (h : s.step toLowerCase a = some s') :
    Extends s.store s'.store ∧ KeepsAnswers s s' := by
  cases a with
  | issue r =>
    obtain rfl := Option.some.inj h
    refine ⟨.refl _, fun i r' sent hi => ⟨sent, ?_, List.prefix_refl _⟩⟩
    obtain ⟨hlt, -⟩ := List.getElem?_eq_some_iff.mp hi
    rw [Sys.outcome, List.map_append]
    exact (List.getElem?_append_left hlt).trans hi
  | fulfil i j =>
    obtain ⟨⟨r, th, ch⟩, hch, rfl⟩ := Option.map_eq_some_iff.mp h
    exact ⟨.call ch.call s.store, .set (chain_spec hch)
      (settle_sent ch (some _) { th with pending := th.pending.eraseIdx j })⟩
  | reject i j =>
    obtain ⟨⟨r, th, ch⟩, hch, rfl⟩ := Option.map_eq_some_iff.mp h
    exact ⟨.refl _, .set (chain_spec hch)
      (settle_sent ch none { th with pending := th.pending.eraseIdx j })⟩

/-- In every run, from any state on and with any calls rejected: users, chats and the owners of
arrays stay what and where they are, each log keeps its entries in their order, and what a
request has answered stays answered. -/
theorem run_appendOnly {s s' : Sys M}
    (h : Run (Sys.step toLowerCase) (fun _ _ => True) s s') :
    Extends s.store s'.store ∧ KeepsAnswers s s' := by
  refine h.invariant (I := fun s' => Extends s.store s'.store ∧ KeepsAnswers s s')
    ⟨.refl _, fun _ _ sent hi => ⟨sent, hi, List.prefix_refl _⟩⟩ fun s1 a s2 hI _ hs => ?_
  obtain ⟨hstore, hanswers⟩ := extends_step hs
  exact ⟨hI.1.trans hstore, hI.2.trans hanswers⟩

theorem run_appendOnly_annAndBob : ∃ s s' : Sys String,
    s.answered 3 (.getUserChatMessages "ann" "bob") (.messages [⟨"ann", "hi", 1⟩]) ∧
      s'.answered 5 (.getUserChatMessages "bob" "ann")
        (.messages [⟨"ann", "hi", 1⟩, ⟨"bob", "hey", 2⟩]) ∧
      Extends s.store s'.store ∧ KeepsAnswers s s' := by
  obtain ⟨s, hr, h, hlater⟩ : ∃ s, Run (Sys.step id) (fun _ _ => True)
      (Sys.init (Store.empty : Store String)) s ∧
        s.answered 3 (.getUserChatMessages "ann" "bob") (.messages [⟨"ann", "hi", 1⟩]) ∧
        (follow (Sys.step id) (fun _ _ => decide True) readAgain s).any (fun s' =>
          decide (s'.answered 5 (.getUserChatMessages "bob" "ann")
            (.messages [⟨"ann", "hi", 1⟩, ⟨"bob", "hey", 2⟩]))) = true :=
    Run.exists_of_follow readOnce (by decide)
  obtain ⟨s', hr', h'⟩ := Run.exists_of_follow readAgain hlater
  exact ⟨s, s', h, h', run_appendOnly hr'⟩

/-! The answers to the reads of a conversation. -/

omit [DecidableEq M] in
theorem holds_conversation {s : Store M} {a b : String} {es : List (Entry M)}
    (h : s.holds a b es) : s.conversation a b = es := by
  obtain ⟨doc, hc, hl⟩ := h
  simp [Store.conversation, hc, hl]

/-- However reads of a conversation overlap, with each other and with writes: every list that
one of them has answered is the beginning of the pair's log, so of any two such lists one is
the beginning of the other. -/
theorem answers_share_history (s0 : Store M) (s : Sys M)
    (hr : Run (Sys.step toLowerCase) (fun _ _ => True) (Sys.init s0) s) (i : Nat) (a b : String)
    (L : List (Entry M)) (h : s.answered i (.getUserChatMessages a b) (.messages L)) :
    L <+: s.store.conversation a b ∧
      ∀ j a' b' L', s(a', b') = s(a, b) →
        s.answered j (.getUserChatMessages a' b') (.messages L') → L <+: L' ∨ L' <+: L := by
  obtain ⟨ps, rfl, hrun⟩ := Run.lift (f := PSys.sys toLowerCase) step_sys (p := ⟨s0, []⟩) hr
  have hback : ReadsBack ps :=
    hrun.invariant (readsBack_init s0) fun _ _ _ hI _ hs => readsBack_step hI hs
  obtain ⟨es, hes, hp⟩ := hback.answered i _ _ (answered_sys h) a b L rfl rfl
  refine ⟨(holds_conversation hes).symm ▸ hp, fun j a' b' L' hpair h' => ?_⟩
  obtain ⟨es', ⟨doc, hc, hl⟩, hp'⟩ := hback.answered j _ _ (answered_sys h') a' b' L' rfl rfl
  have hsame : es' = es := holds_inj ⟨doc, (chat_of_pair ps.store hpair) ▸ hc, hl⟩ hes
  exact List.prefix_or_prefix_of_prefix hp (hsame ▸ hp')

theorem answers_share_history_annAndBob : ∃ s : Sys String,
    s.answered 3 (.getUserChatMessages "ann" "bob") (.messages [⟨"ann", "hi", 1⟩]) ∧
      [(⟨"ann", "hi", 1⟩ : Entry String)] <+: s.store.conversation "ann" "bob" := by
  obtain ⟨s, hr, h⟩ : ∃ s, Run (Sys.step id) (fun _ _ => True)
      (Sys.init (Store.empty : Store String)) s ∧
        s.answered 3 (.getUserChatMessages "ann" "bob") (.messages [⟨"ann", "hi", 1⟩]) :=
    Run.exists_of_follow readOnce (by decide)
  exact ⟨s, h, (answers_share_history Store.empty s hr 3 "ann" "bob" _ h).1⟩

end RecoupChat
