import RecoupChat.Isolation

/-! A conversation that was read once is only ever read longer: the chat a lookup finds
stays the one it finds, and its log only grows, in every interleaving. -/
namespace RecoupChat
open Promise Transition
variable {M : Type}

/-- What the lookups found they still find: the same chats, and logs with more entries. -/
structure Grows (s s' : Store M) : Prop where
  chat : ∀ a b doc, s.chat a b = some doc → s'.chat a b = some doc
  log : ∀ c es, s.log c = some es → ∃ es', s'.log c = some es' ∧ es <+: es'

theorem Grows.refl (s : Store M) : Grows s s :=
  ⟨fun _ _ _ h => h, fun _ es h => ⟨es, h, List.prefix_refl es⟩⟩

theorem Grows.trans {s s1 s2 : Store M} (h : Grows s s1) (h1 : Grows s1 s2) : Grows s s2 where
  chat a b doc hc := h1.chat a b doc (h.chat a b doc hc)
  log c es hl := by
    obtain ⟨es1, hl1, hp1⟩ := h.log c es hl
    obtain ⟨es2, hl2, hp2⟩ := h1.log c es1 hl1
    exact ⟨es2, hl2, hp1.trans hp2⟩

/-- The pair has a chat whose log holds `es`. -/
def Store.holds (s : Store M) (a b : String) (es : List (Entry M)) : Prop :=
  ∃ doc, s.chat a b = some doc ∧ s.log doc.chatId = some es

theorem Grows.holds {s s' : Store M} (h : Grows s s') {a b : String} {es : List (Entry M)}
    (hes : s.holds a b es) : ∃ es', s'.holds a b es' ∧ es <+: es' := by
  obtain ⟨doc, hc, hl⟩ := hes
  obtain ⟨es', hl', hp⟩ := h.log _ _ hl
  exact ⟨es', ⟨doc, h.chat a b doc hc, hl'⟩, hp⟩

theorem chat_of_pair (s : Store M) {a b a' b' : String} (hp : s(a', b') = s(a, b)) :
    s.chat a' b' = s.chat a b :=
  of_pair (P := fun u v => s.chat u v = s.chat a b) hp rfl (chat_comm s b a)

theorem holds_inj {s : Store M} {a b : String} {es es' : List (Entry M)} (h : s.holds a b es)
    (h' : s.holds a b es') : es = es' := by
  obtain ⟨doc, hc, hl⟩ := h
  obtain ⟨doc', hc', hl'⟩ := h'
  obtain rfl : doc = doc' := Option.some.inj (hc.symm.trans hc')
  exact Option.some.inj (hl.symm.trans hl')

structure ReadsBack (ps : PSys M) : Prop where
  of : ps.Each fun _ r p => p.Of r
  found : ps.Each fun _ _ p => ∀ a b c, p = .findLog a b c →
    ∃ doc, ps.store.chat a b = some doc ∧ doc.chatId = c
  answered : ps.Each fun _ r p => ∀ a b es, r = .getUserChatMessages a b →
    p = .answered (.messages es) → ∃ es', ps.store.holds a b es' ∧ es <+: es'

structure ReadsOn (s1 : Store M) (n : Nat) (ps : PSys M) : Prop where
  back : ReadsBack ps
  grows : Grows s1 ps.store
  later : ps.Each fun j r p => n ≤ j → ∀ a b es, r = .getUserChatMessages a b →
    p = .answered (.messages es) → ∀ es1, s1.holds a b es1 → es1 <+: es

theorem readsBack_init (s0 : Store M) : ReadsBack ⟨s0, []⟩ :=
  ⟨each_init s0, each_init s0, each_init s0⟩

theorem ReadsBack.issue {ps : PSys M} (h : ReadsBack ps) (r : Request M) :
    ReadsBack (ps.issue r) where
  of := each_issue h.of (Point.of_start r)
  found := each_issue h.found fun a b c hp => by cases r <;> cases hp
  answered := each_issue h.answered fun a b es _ hp => by cases r <;> cases hp

theorem ReadsBack.reject {ps : PSys M} (h : ReadsBack ps) (i : Nat) (r : Request M) :
    ReadsBack (ps.reject i r) where
  of := each_reject h.of trivial
  found := each_reject h.found fun a b c hp => by cases hp
  answered := each_reject h.answered fun a b es _ hp => by cases hp

theorem ReadsBack.on {ps : PSys M} (h : ReadsBack ps) : ReadsOn ps.store ps.requests.length ps where
  back := h
  grows := .refl ps.store
  later j r p hj hn := by
    obtain ⟨hlt, -⟩ := List.getElem?_eq_some_iff.mp hj
    omega

variable [DecidableEq M] {toLowerCase : String → String}

theorem grows_next (p : Point M) (s : Store M) : Grows s (p.next toLowerCase s).1 where
  chat a b doc hc := by
    have hids := Point.next_chatIds toLowerCase p s
    rw [Store.chat, Collection.findOne, hids, List.find?_append]
    exact (congrArg (Option.or · _) hc).trans rfl
  log c es hl := by
    have he := Point.entries_next toLowerCase p s c
    have hids := Point.next_logIds toLowerCase p s
    obtain ⟨lg, hlg, hc, -⟩ := log_mem hl
    have hm : c ∈ (p.next toLowerCase s).1.chatMessages.map (·.chatId) := by
      rw [hids]
      exact List.mem_append_left _ (List.mem_map.mpr ⟨lg, hlg, hc⟩)
    cases hl' : (p.next toLowerCase s).1.log c with
    | none => exact absurd hm (log_eq_none.mp hl')
    | some es' =>
      simp only [Store.entries, hl, hl', Option.getD_some] at he
      exact ⟨es', rfl, _, he.symm⟩

theorem ReadsBack.read {ps : PSys M} (h : ReadsBack ps) {i : Nat} {r : Request M} {p : Point M}
    (hi : ps.requests[i]? = some (r, p)) (hc : p.call? ≠ none) {a b : String}
    {es : List (Entry M)} (hr : r = .getUserChatMessages a b)
    (hq : (p.next toLowerCase ps.store).2 = .answered (.messages es)) :
    ps.store.holds a b es := by
  have hg := Point.goes toLowerCase p ps.store
  rw [hq] at hg
  cases hg with
  | read a' b' c hl =>
    obtain ⟨rfl, rfl⟩ : a = a' ∧ b = b' := by simpa using hr.symm.trans (h.of i r _ hi)
    obtain ⟨doc, hd, rfl⟩ := h.found i r _ hi a b c rfl
    exact ⟨doc, hd, hl⟩
  | wroteTo create d rows hm hresp => cases create <;> cases hresp
  | stay resp => exact absurd rfl hc

theorem ReadsBack.fulfil {ps : PSys M} (h : ReadsBack ps) {i : Nat} {r : Request M} {p : Point M}
    (hi : ps.requests[i]? = some (r, p)) (hc : p.call? ≠ none) :
    ReadsBack (ps.fulfil toLowerCase i r p) := by
  have hgrows : Grows ps.store (p.next toLowerCase ps.store).1 := grows_next p ps.store
  refine ⟨each_fulfil (fun j r' q _ hj => h.of j r' q hj)
    (Point.of_next toLowerCase ps.store (h.of i r p hi)), each_fulfil ?_ ?_, each_fulfil ?_ ?_⟩
  · intro j r' q _ hj a b c hq
    obtain ⟨doc, hd, hid⟩ := h.found j r' q hj a b c hq
    exact ⟨doc, hgrows.chat a b doc hd, hid⟩
  · intro a b c hq
    have hg := Point.goes toLowerCase p ps.store
    rw [hq] at hg
    cases hg with
    | ids a b hd => exact ⟨_, hgrows.chat a b _ hd, rfl⟩
  · intro j r' q _ hj a b es hr hq
    obtain ⟨es1, h1, hp1⟩ := h.answered j r' q hj a b es hr hq
    obtain ⟨es2, h2, hp2⟩ := hgrows.holds h1
    exact ⟨es2, h2, hp1.trans hp2⟩
  · intro a b es hr hq
    exact hgrows.holds (h.read hi hc hr hq)

theorem readsBack_step {ps ps' : PSys M} {a : Action M} (h : ReadsBack ps)
    (hs : ps.step toLowerCase a = some ps') : ReadsBack ps' := by
  cases steps hs with
  | issue r => exact h.issue r
  | fulfil i r p hi hc => exact h.fulfil hi hc
  | reject i r p hi hc => exact h.reject i r

theorem readsOn_step {s1 : Store M} {n : Nat} {ps ps' : PSys M} {a : Action M}
    (h : ReadsOn s1 n ps) (hs : ps.step toLowerCase a = some ps') : ReadsOn s1 n ps' := by
  refine ⟨readsBack_step h.back hs, ?_, ?_⟩
  · cases steps hs with
    | issue r => exact h.grows
    | fulfil i r p hi hc => exact h.grows.trans (grows_next p ps.store)
    | reject i r p hi hc => exact h.grows
  · cases steps hs with
    | issue r => exact each_issue h.later fun _ a b es _ hp => by cases r <;> cases hp
    | fulfil i r p hi hc =>
      refine each_fulfil (fun j r' q _ hj => h.later j r' q hj) fun hn a b es hr hq es1 h1 => ?_
      obtain ⟨es2, h2, hp⟩ := h.grows.holds h1
      exact holds_inj h2 (h.back.read hi hc hr hq) ▸ hp
    | reject i r p hi hc => exact each_reject h.later fun _ a b es _ hp => by cases hp

/-- In every run, with any calls rejected: when a read of a conversation is issued after
another one has answered, in either order of the two names, its list begins with the list
answered first. -/
theorem reads_monotonic (s0 : Store M) (s1 s2 : Sys M)
    (hr1 : Run (Sys.step toLowerCase) (fun _ _ => True) (Sys.init s0) s1)
    (hr2 : Run (Sys.step toLowerCase) (fun _ _ => True) s1 s2) (i j : Nat)
    (a b a' b' : String) (L1 L2 : List (Entry M))
    (h1 : s1.answered i (.getUserChatMessages a b) (.messages L1))
    (hlate : s1.requests.length ≤ j)
    (h2 : s2.answered j (.getUserChatMessages a' b') (.messages L2))
    (hp : s(a', b') = s(a, b)) : L1 <+: L2 := by
  obtain ⟨ps1, rfl, hrun1⟩ := Run.lift (f := PSys.sys toLowerCase) step_sys (p := ⟨s0, []⟩) hr1
  obtain ⟨ps2, rfl, hrun2⟩ := Run.lift (f := PSys.sys toLowerCase) step_sys hr2
  have hback : ReadsBack ps1 :=
    hrun1.invariant (readsBack_init s0) fun _ _ _ hI _ hs => readsBack_step hI hs
  have hon : ReadsOn ps1.store ps1.requests.length ps2 :=
    hrun2.invariant hback.on fun _ _ _ hI _ hs => readsOn_step hI hs
  obtain ⟨es, ⟨doc, hc, hl⟩, hpre⟩ := hback.answered i _ _ (answered_sys h1) a b L1 rfl rfl
  have hlen : ps1.requests.length ≤ j := by simpa [PSys.sys] using hlate
  exact hpre.trans (hon.later j _ _ (answered_sys h2) hlen a' b' L2 rfl rfl es
    ⟨doc, (chat_of_pair ps1.store hp).trans hc, hl⟩)

def readOnce : List (Action String) :=
  [.issue (.addNewUser "ann"), .issue (.addNewUser "bob")] ++ calls 0 2 ++ calls 1 2 ++
    [.issue (.sendNewMessage ⟨"ann", "bob", "hi", 1⟩)] ++ calls 2 9 ++
    [.issue (.getUserChatMessages "ann" "bob")] ++ calls 3 2

def readAgain : List (Action String) :=
  [.issue (.sendMessage ⟨"bob", "ann", "hey", 2⟩)] ++ calls 4 6 ++
    [.issue (.getUserChatMessages "bob" "ann")] ++ calls 5 2

theorem reads_monotonic_annAndBob : ∃ s1 s2 : Sys String,
    s1.answered 3 (.getUserChatMessages "ann" "bob") (.messages [⟨"ann", "hi", 1⟩]) ∧
      s2.answered 5 (.getUserChatMessages "bob" "ann")
        (.messages [⟨"ann", "hi", 1⟩, ⟨"bob", "hey", 2⟩]) ∧
      [(⟨"ann", "hi", 1⟩ : Entry String)] <+: [⟨"ann", "hi", 1⟩, ⟨"bob", "hey", 2⟩] := by
  obtain ⟨s1, hr1, ⟨h1, hlen⟩, hlater⟩ : ∃ s1, Run (Sys.step id) (fun _ _ => True)
      (Sys.init (Store.empty : Store String)) s1 ∧
        (s1.answered 3 (.getUserChatMessages "ann" "bob") (.messages [⟨"ann", "hi", 1⟩]) ∧
          s1.requests.length ≤ 5) ∧
        (follow (Sys.step id) (fun _ _ => decide True) readAgain s1).any (fun s2 =>
          decide (s2.answered 5 (.getUserChatMessages "bob" "ann")
            (.messages [⟨"ann", "hi", 1⟩, ⟨"bob", "hey", 2⟩]))) = true :=
    Run.exists_of_follow readOnce (by decide)
  obtain ⟨s2, hr2, h2⟩ := Run.exists_of_follow readAgain hlater
  exact ⟨s1, s2, h1, h2,
    reads_monotonic _ s1 s2 hr1 hr2 3 5 _ _ _ _ _ _ h1 hlen h2 Sym2.eq_swap⟩

end RecoupChat
