import RecoupChat.Attribution

/-! Conversations are isolated as long as chat ids stay unique: when no request inserts a
chat while another one has read the highest id but not inserted its own chat. -/
namespace RecoupChat
open Promise Transition
variable {M : Type}

def Call.insertsChat : Call M → Bool
  | .chatIdsInsertOne _ => true
  | _ => false

/-- A chat is inserted only while no other request waits to insert one, which it would do
with the id it has computed from an earlier read. -/
def insertsAlone (s : Sys M) (i : Nat) (c : Call M) : Prop :=
  c.insertsChat = true → ∀ x ∈ s.others i, x.2.insertsChat = false

instance (s : Sys M) (i : Nat) (c : Call M) : Decidable (insertsAlone s i c) :=
  inferInstanceAs (Decidable (_ → _))

structure FreshIds (ps : PSys M) : Prop where
  nodup : (ps.store.chatIds.map (·.chatId)).Nodup
  next : ps.Each fun _ _ p => ∀ d n, p = .insertChat d n → n = newChatId ps.store.lastChat

theorem lastChat_congr {s s' : Store M} (h : s'.chatIds = s.chatIds) :
    s'.lastChat = s.lastChat := by
  simp only [Store.lastChat, h]

theorem FreshIds.issue {ps : PSys M} (h : FreshIds ps) (r : Request M) : FreshIds (ps.issue r) where
  nodup := h.nodup
  next := each_issue h.next fun d n hp => by cases r <;> simp [Point.start] at hp

theorem FreshIds.reject {ps : PSys M} (h : FreshIds ps) (i : Nat) (r : Request M) :
    FreshIds (ps.reject i r) where
  nodup := h.nodup
  next := each_reject h.next fun d n hp => by simp [Point.failed] at hp

def ReadsOwn (ps : PSys M) : Prop :=
  ps.Each fun _ r p => ∀ es, p = .answered (.messages es) →
    ∃ a b js, r = .getUserChatMessages a b ∧ js.Nodup ∧
      List.Forall₂ (Wrote ps.issued s(a, b)) js es

theorem ReadsOwn.issue {ps : PSys M} (h : ReadsOwn ps) (r : Request M) :
    ReadsOwn (ps.issue r) := by
  refine each_issue (fun i r' p hi es hp => ?_)
    fun es hp => by cases r <;> simp [Point.start] at hp
  obtain ⟨a, b, js, hr, hn, hf⟩ := h i r' p hi es hp
  refine ⟨a, b, js, hr, hn, hf.imp fun j e hw => ?_⟩
  rw [issued_issue]
  exact wrote_concat hw r

theorem ReadsOwn.reject {ps : PSys M} (h : ReadsOwn ps) {i : Nat} {r : Request M} {p : Point M}
    (hi : ps.requests[i]? = some (r, p)) : ReadsOwn (ps.reject i r) := by
  refine each_reject (fun j r' q hj es hq => ?_) fun es hp => by simp [Point.failed] at hp
  rw [issued_reject hi]
  exact h j r' q hj es hq

variable [DecidableEq M] {toLowerCase : String → String}

theorem insertChat_next {p : Point M} {s : Store M} {d : Send M} {n : Nat}
    (h : (p.next toLowerCase s).2 = .insertChat d n) : n = newChatId s.lastChat := by
  have hg := Point.goes toLowerCase p s
  rw [h] at hg
  cases hg
  rfl

theorem FreshIds.fulfil {ps : PSys M} (h : FreshIds ps) {i : Nat} {r : Request M} {p : Point M}
    (hi : ps.requests[i]? = some (r, p))
    (halone : ∀ d n, p = .insertChat d n → ∀ j r' d' n', j ≠ i →
      ps.requests[j]? ≠ some (r', .insertChat d' n')) :
    FreshIds (ps.fulfil toLowerCase i r p) := by
  have hids : (ps.fulfil toLowerCase i r p).store.chatIds = ps.store.chatIds ++ p.newChat?.toList :=
    Point.next_chatIds toLowerCase p ps.store
  cases hp : p.newChat? with
  | none =>
    have hsame : (ps.fulfil toLowerCase i r p).store.chatIds = ps.store.chatIds := by
      rw [hids, hp]
      exact List.append_nil _
    refine ⟨by rw [hsame]; exact h.nodup, each_fulfil (fun j r' q _ hj d n hq => ?_) ?_⟩
    · rw [lastChat_congr hsame]
      exact h.next j r' q hj d n hq
    · intro d n hq
      rw [lastChat_congr hsame]
      exact insertChat_next hq
  | some doc =>
    obtain ⟨d, n, rfl⟩ : ∃ d n, p = .insertChat d n := by
      cases p with
      | insertChat d n => exact ⟨d, n, rfl⟩
      | _ => cases hp
    have hn : n = newChatId ps.store.lastChat := h.next i r _ hi d n rfl
    refine ⟨?_, each_fulfil (fun j r' q hne hj d' n' hq => ?_) fun d' n' hq => by cases hq⟩
    · rw [hids]
      exact Collection.nodup_map_concat h.nodup (hn ▸ newChatId_fresh ps.store)
    · exact absurd (hq ▸ hj) (halone d n rfl j r' d' n' hne)

theorem ReadsOwn.fulfil {authors : Nat → List Nat} {ps : PSys M} (h : ReadsOwn ps)
    (ha : Attributed Store.empty authors ps) (hids : (ps.store.chatIds.map (·.chatId)).Nodup)
    {i : Nat} {r : Request M} {p : Point M} (hi : ps.requests[i]? = some (r, p))
    (hc : p.call? ≠ none) : ReadsOwn (ps.fulfil toLowerCase i r p) := by
  refine each_fulfil (fun j r' q _ hj es hq => ?_) fun es hq => ?_
  · rw [issued_fulfil hi]
    exact h j r' q hj es hq
  · have hg := Point.goes toLowerCase p ps.store
    rw [hq] at hg
    cases hg with
    | read a b c hl =>
      obtain ⟨new, he, hf⟩ := ha.wrote c
      obtain ⟨doc, hd, hid, hp⟩ := ha.owned i r _ hi c _ rfl
      have hes : es = new := by
        rw [Store.entries, hl] at he
        exact he
      refine ⟨a, b, authors c, ha.of i r _ hi, ha.nodup c, ?_⟩
      rw [hes, issued_fulfil hi]
      refine hf.imp fun j e hw => ?_
      obtain ⟨x, hx, hxid, hw⟩ := hw
      have heq : x = doc := List.inj_on_of_nodup_map hids hx hd (hxid.trans hid.symm)
      rw [← hp, ← heq]
      exact hw
    | wroteTo create d rows hm hr => cases create <;> cases hr
    | stay resp => simp [Point.call?] at hc

def Isolated (ps : PSys M) : Prop :=
  FreshIds ps ∧ ReadsOwn ps ∧ ∃ authors, Attributed Store.empty authors ps

theorem isolated_step {ps ps' : PSys M} {a : Action M} (h : Isolated ps)
    (ha : onCalls insertsAlone (ps.sys toLowerCase) a) (hs : ps.step toLowerCase a = some ps') :
    Isolated ps' := by
  obtain ⟨hfresh, hread, authors, hattr⟩ := h
  cases steps hs with
  | issue r => exact ⟨hfresh.issue r, hread.issue r, authors, hattr.issue r⟩
  | fulfil i r p hi hc =>
    refine ⟨hfresh.fulfil hi ?_, hread.fulfil hattr hfresh.nodup hi hc, _,
      hattr.fulfil toLowerCase hi⟩
    intro d n hp j r' d' n' hne hj
    have hcall : (ps.sys toLowerCase).call? i 0 =
        some (.chatIdsInsertOne ⟨n, d.sentBy, d.sentTo⟩) := by rw [call_sys hi, hp]; rfl
    have hother := ha _ hcall rfl (r', .chatIdsInsertOne ⟨n', d'.sentBy, d'.sentTo⟩)
      (others_sys.mpr ⟨j, _, hne, hj, rfl⟩)
    cases hother
  | reject i r p hi hc => exact ⟨hfresh.reject i r, hread.reject hi, authors, hattr.reject hi⟩

/-- In every run from the empty store in which no chat is inserted while another request
waits to insert one: chat ids are unique, and every list read for `a` and `b` was written,
entry by entry, by different requests between `a` and `b`. -/
theorem isolation (s : Sys M)
    (hr : Run (Sys.step toLowerCase) (onCalls insertsAlone) (Sys.init Store.empty) s) :
    (s.store.chatIds.map (·.chatId)).Nodup ∧
      ∀ i a b L, s.answered i (.getUserChatMessages a b) (.messages L) →
        ∃ js, js.Nodup ∧ List.Forall₂ (Wrote s.issued s(a, b)) js L := by
  have h0 : Isolated (⟨Store.empty, []⟩ : PSys M) :=
    ⟨⟨List.nodup_nil, each_init _⟩, each_init _, _, attributed_init _⟩
  obtain ⟨ps, rfl, hrun⟩ := Run.lift (f := PSys.sys toLowerCase) step_sys
    (p := ⟨Store.empty, []⟩) hr
  obtain ⟨hfresh, hread, -⟩ := hrun.invariant h0 fun _ _ _ hI hok hs => isolated_step hI hok hs
  refine ⟨hfresh.nodup, fun i a b L hans => ?_⟩
  obtain ⟨a', b', js, hreq, hn, hf⟩ := hread i _ _ (answered_sys hans) L rfl
  cases hreq
  rw [issued_sys]
  exact ⟨js, hn, hf⟩

/-! Runs of two first messages. -/

def calls (i n : Nat) : List (Action M) := List.replicate n (.fulfil i 0)

def issueTwoChats : List (Action String) :=
  [.issue (.addNewUser "bob"), .issue (.addNewUser "dan")] ++ calls 0 2 ++ calls 1 2 ++
    [.issue (.sendNewMessage ⟨"ann", "bob", "hi", 1⟩),
      .issue (.sendNewMessage ⟨"cat", "dan", "yo", 2⟩),
      .issue (.getUserChatMessages "cat" "dan")]

def takeTurns : List (Action String) :=
  issueTwoChats ++ calls 2 2 ++ calls 3 2 ++ calls 2 2 ++ calls 3 2 ++ calls 2 1 ++
    calls 3 1 ++ calls 4 2

def collide : List (Action String) :=
  issueTwoChats ++ calls 2 3 ++ calls 3 3 ++ calls 2 2 ++ calls 3 2 ++ calls 4 2

theorem isolation_takeTurns : ∃ s, Run (Sys.step id) (onCalls insertsAlone)
    (Sys.init (Store.empty : Store String)) s ∧
      s.answered 4 (.getUserChatMessages "cat" "dan") (.messages [⟨"cat", "yo", 2⟩]) ∧
      (s.store.chatIds.map (·.chatId)).Nodup ∧
      ∃ js, js.Nodup ∧ List.Forall₂ (Wrote s.issued s("cat", "dan")) js [⟨"cat", "yo", 2⟩] := by
  obtain ⟨s, hr, hans⟩ : ∃ s, Run (Sys.step id) (onCalls insertsAlone)
      (Sys.init (Store.empty : Store String)) s ∧
        s.answered 4 (.getUserChatMessages "cat" "dan") (.messages [⟨"cat", "yo", 2⟩]) :=
    Run.exists_of_follow takeTurns (by decide)
  exact ⟨s, hr, hans, (isolation s hr).1, (isolation s hr).2 4 _ _ _ hans⟩

/-- Two chats with one id: "cat" and "dan" read what "ann" wrote to "bob". -/
theorem collide_leaks : ∃ s, Run (Sys.step id) (fun _ _ => True)
    (Sys.init (Store.empty : Store String)) s ∧
      ¬ (s.store.chatIds.map (·.chatId)).Nodup ∧
      s.answered 4 (.getUserChatMessages "cat" "dan") (.messages [⟨"ann", "hi", 1⟩]) ∧
      ∀ r ∈ s.issued, ∀ d ∈ r.send?, d.entry = ⟨"ann", "hi", 1⟩ →
        s(d.sentBy, d.sentTo) ≠ s("cat", "dan") :=
  Run.exists_of_follow collide (by decide)

end RecoupChat
