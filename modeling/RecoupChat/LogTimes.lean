import RecoupChat.Isolation

/-! Every log stays in the order of its times as long as no send appends its message while
another one, with an earlier reading of the clock, is on its way to the same log. -/
namespace RecoupChat
open Promise Transition Collection
variable {M : Type}

/-- The readings of the clock never decrease from one send to the next. -/
def clocked (s : Sys M) : Action M → Prop
  | .issue r => ∀ d ∈ r.send?, ∀ x ∈ s.issued, ∀ d' ∈ x.send?, d'.timeNow ≤ d.timeNow
  | _ => True

instance (s : Sys M) : DecidablePred (clocked s)
  | .issue r => inferInstanceAs (Decidable (∀ d ∈ r.send?, _))
  | .fulfil _ _ => isTrue trivial
  | .reject _ _ => isTrue trivial

def Call.newChat? : Call M → Option ChatId
  | .chatIdsInsertOne doc => some doc
  | _ => none

def Sys.finds (s : Sys M) (i c : Nat) (d : Send M) : Prop :=
  (∃ doc ∈ s.store.chat d.sentBy d.sentTo, doc.chatId = c) ∨
    s.store.chat d.sentBy d.sentTo = none ∧
      ∃ x ∈ s.others i, ∃ doc ∈ x.2.newChat?, doc.pair = s(d.sentBy, d.sentTo) ∧ doc.chatId = c

instance (s : Sys M) (i c : Nat) (d : Send M) : Decidable (s.finds i c d) :=
  inferInstanceAs (Decidable (_ ∨ _))

/-- Send `d`, which waits for the given call, is on its way to append to the log of chat
`c`. -/
def Sys.leadsTo (s : Sys M) (i c : Nat) (d : Send M) : Call M → Prop
  | .chatMessagesPush c' _ => c' = c
  | .usersFind | .chatIdsFindOne _ _ => s.finds i c d
  | _ => False

instance (s : Sys M) (i c : Nat) (d : Send M) : DecidablePred (s.leadsTo i c d)
  | .chatMessagesPush c' _ => inferInstanceAs (Decidable (c' = c))
  | .usersFind | .chatIdsFindOne _ _ => inferInstanceAs (Decidable (s.finds i c d))
  | .usersInsertOne _ | .userMessagesFindOne _ | .userMessagesInsertOne _ | .userMessagesSet _ _
  | .chatIdsFindLast | .chatIdsInsertOne _ | .chatMessagesFindOne _ | .chatMessagesInsertOne _ =>
    isFalse id

def Sys.earliest (s : Sys M) (i c : Nat) (t : Int) : Prop :=
  ∀ x ∈ s.others i, ∀ d ∈ x.1.send?, s.leadsTo i c d x.2 → t ≤ d.timeNow

instance (s : Sys M) (i c : Nat) (t : Int) : Decidable (s.earliest i c t) :=
  inferInstanceAs (Decidable (∀ x ∈ s.others i, _))

/-- Messages are appended to a log in the order of their readings. -/
def appendsInTurn (s : Sys M) (i : Nat) : Call M → Prop
  | .chatMessagesPush c e => s.earliest i c e.time
  | .chatMessagesInsertOne doc => s.store.log doc.chatId = none →
      ∀ e ∈ doc.messages, s.earliest i doc.chatId e.time
  | _ => True

instance (s : Sys M) (i : Nat) : DecidablePred (appendsInTurn s i)
  | .chatMessagesPush c e => inferInstanceAs (Decidable (s.earliest i c e.time))
  | .chatMessagesInsertOne doc => inferInstanceAs (Decidable (s.store.log doc.chatId = none → _))
  | .usersFind | .usersInsertOne _ | .userMessagesFindOne _ | .userMessagesInsertOne _
  | .userMessagesSet _ _ | .chatIdsFindOne _ _ | .chatIdsFindLast | .chatIdsInsertOne _
  | .chatMessagesFindOne _ => isTrue trivial

/-! The same at the points. -/

def PSys.inserting (ps : PSys M) (doc : ChatId) : Prop :=
  ∃ (i : Nat) (r : Request M) (p : Point M), ps.requests[i]? = some (r, p) ∧ p.newChat? = some doc

def PSys.finds (ps : PSys M) (c : Nat) (d : Send M) : Prop :=
  (∃ doc, ps.store.chat d.sentBy d.sentTo = some doc ∧ doc.chatId = c) ∨
    ps.store.chat d.sentBy d.sentTo = none ∧
      ∃ doc, ps.inserting doc ∧ doc.pair = s(d.sentBy, d.sentTo) ∧ doc.chatId = c

inductive PSys.Leads (ps : PSys M) (c : Nat) (d : Send M) : Point M → Prop
  | push : Leads ps c d (.push d c)
  | usersFind (h : ps.finds c d) : Leads ps c d (.usersFind d)
  | findChat (create : Bool) (h : ps.finds c d) : Leads ps c d (.findChat create d)

def PSys.read (ps : PSys M) (t : Int) : Prop :=
  ∃ r ∈ ps.issued, ∃ d, r.send? = some d ∧ t ≤ d.timeNow

theorem PSys.Leads.of {ps : PSys M} {c : Nat} {d : Send M} {r : Request M} {p : Point M}
    (h : ps.Leads c d p) (hof : p.Of r) : r.send? = some d := by
  cases h <;> exact hof

/-- Logs are in order and belong to chats, and no entry is later than a send on its way to
its log. -/
structure InOrder (ps : PSys M) : Prop where
  of : ps.Each fun _ r p => p.Of r
  past : ∀ lg ∈ ps.store.chatMessages, ∀ e ∈ lg.messages, ps.read e.time
  logs : ∀ lg ∈ ps.store.chatMessages, lg.messages.Pairwise fun e e' => e.time ≤ e'.time
  logChat : ∀ lg ∈ ps.store.chatMessages, lg.chatId ∈ ps.store.chatIds.map (·.chatId)
  newLog : ps.Each fun _ _ p => ∀ n, p.newLog? = some n → n ∈ ps.store.chatIds.map (·.chatId)
  ahead : ps.Each fun _ _ p => ∀ c d, ps.Leads c d p → ∀ e ∈ ps.store.entries c,
    e.time ≤ d.timeNow

theorem inOrder_init : InOrder (⟨Store.empty, []⟩ : PSys M) where
  of := each_init _
  past := by simp [Store.empty]
  logs := by simp [Store.empty]
  logChat := by simp [Store.empty]
  newLog := each_init _
  ahead := each_init _

theorem read_issue {ps : PSys M} {t : Int} (h : ps.read t) (r : Request M) :
    (ps.issue r).read t := by
  obtain ⟨x, hx, hd⟩ := h
  refine ⟨x, ?_, hd⟩
  rw [issued_issue]
  exact List.mem_append_left _ hx

theorem read_congr {ps ps' : PSys M} (h : ps'.issued = ps.issued) {t : Int} (ht : ps.read t) :
    ps'.read t := by
  rw [PSys.read, h]
  exact ht

theorem entries_mem {s : Store M} {c : Nat} {e : Entry M} (h : e ∈ s.entries c) :
    ∃ lg ∈ s.chatMessages, lg.chatId = c ∧ s.entries c = lg.messages ∧ e ∈ lg.messages := by
  cases hl : s.log c with
  | none => simp [Store.entries, hl] at h
  | some es =>
    obtain ⟨lg, hm, hc, rfl⟩ := log_mem hl
    have he : s.entries c = lg.messages := by simp [Store.entries, hl]
    exact ⟨lg, hm, hc, he, he ▸ h⟩

theorem leads_or {ps ps' : PSys M} {c : Nat} {d : Send M} {p : Point M} {P : Prop}
    (hf : ps'.finds c d → ps.finds c d ∨ P) (h : ps'.Leads c d p) : ps.Leads c d p ∨ P := by
  cases h with
  | push => exact Or.inl .push
  | usersFind h => exact (hf h).imp_left .usersFind
  | findChat create h => exact (hf h).imp_left (.findChat create)

theorem leads_mono {ps ps' : PSys M} (hs : ps'.store = ps.store)
    (hi : ∀ doc, ps'.inserting doc → ps.inserting doc) {c : Nat} {d : Send M} {p : Point M}
    (h : ps'.Leads c d p) : ps.Leads c d p := by
  refine (leads_or (P := False) (fun hf => Or.inl ?_) h).resolve_right id
  cases hf with
  | inl hf =>
    rw [hs] at hf
    exact Or.inl hf
  | inr hf =>
    obtain ⟨hn, doc, hd, hp⟩ := hf
    rw [hs] at hn
    exact Or.inr ⟨hn, doc, hi doc hd, hp⟩

theorem newChat_start (r : Request M) : (Point.start r).newChat? = none := by cases r <;> rfl

theorem inserting_issue {ps : PSys M} {r : Request M} {doc : ChatId}
    (h : (ps.issue r).inserting doc) : ps.inserting doc := by
  obtain ⟨i, r', p, hi, hp⟩ := h
  have hA : (ps.issue r).Each fun i r' p => p.newChat? = some doc → ps.inserting doc :=
    each_issue (fun i r' p hi hp => ⟨i, r', p, hi, hp⟩) fun hp => by simp [newChat_start] at hp
  exact hA i r' p hi hp

theorem inserting_reject {ps : PSys M} {i : Nat} {r : Request M} {doc : ChatId}
    (h : (ps.reject i r).inserting doc) : ps.inserting doc := by
  obtain ⟨j, r', p, hj, hp⟩ := h
  have hA : (ps.reject i r).Each fun i r' p => p.newChat? = some doc → ps.inserting doc :=
    each_reject (fun i r' p hi hp => ⟨i, r', p, hi, hp⟩) fun hp => by cases hp
  exact hA j r' p hj hp

theorem leads_start {ps : PSys M} {c : Nat} {d : Send M} {r : Request M}
    (h : ps.Leads c d (.start r)) : r.send? = some d := h.of (Point.of_start r)

theorem InOrder.issue {ps : PSys M} (h : InOrder ps) {r : Request M}
    (hclock : ∀ d, r.send? = some d → ∀ t, ps.read t → t ≤ d.timeNow) :
    InOrder (ps.issue r) where
  of := each_issue h.of (Point.of_start r)
  past lg hlg e he := read_issue (h.past lg hlg e he) r
  logs := h.logs
  logChat := h.logChat
  newLog := each_issue h.newLog fun n hn => by cases r <;> cases hn
  ahead := by
    refine each_issue (fun j r' q hj c d hl => ?_) fun c d hl e he => ?_
    · have hs : (ps.issue r).store = ps.store := rfl
      exact h.ahead j r' q hj c d (leads_mono hs (fun _ => inserting_issue) hl)
    · obtain ⟨lg, hm, -, -, hlg⟩ := entries_mem he
      exact hclock d (leads_start hl) e.time (h.past lg hm e hlg)

theorem appends_of_leads {ps : PSys M} {s : Store M} {c : Nat} {d : Send M} {p : Point M}
    (h : ps.Leads c d p) {e : Entry M} (he : e ∈ p.appends s c) : e = d.entry := by
  cases h with
  | push =>
    simp only [Point.appends] at he
    split at he
    · exact List.mem_singleton.mp he
    · cases he
  | usersFind h => cases he
  | findChat create h => cases he

theorem InOrder.reject {ps : PSys M} (h : InOrder ps) {i : Nat} {r : Request M} {p : Point M}
    (hi : ps.requests[i]? = some (r, p)) : InOrder (ps.reject i r) where
  of := each_reject h.of trivial
  past lg hlg e he := read_congr (issued_reject hi) (h.past lg hlg e he)
  logs := h.logs
  logChat := h.logChat
  newLog := each_reject h.newLog fun n hn => by cases hn
  ahead := by
    refine each_reject (fun j r' q hj c d hl => ?_) fun c d hl => by cases hl
    have hs : (ps.reject i r).store = ps.store := rfl
    exact h.ahead j r' q hj c d (leads_mono hs (fun _ => inserting_reject) hl)

section Step
variable [DecidableEq M] {toLowerCase : String → String}

theorem chatMessages_next {p : Point M} {s : Store M} {lg : ChatMessages M}
    (h : lg ∈ (p.next toLowerCase s).1.chatMessages) :
    lg ∈ s.chatMessages ∨ (∃ d, p = .insertLog d lg.chatId ∧ lg.messages = [d.entry]) ∨
      ∃ d, p = .push d lg.chatId ∧ lg.messages = s.entries lg.chatId ++ [d.entry] ∧
        ∃ lg' ∈ s.chatMessages, lg'.chatId = lg.chatId ∧ s.entries lg.chatId = lg'.messages := by
  cases p with
  | insertLog d n =>
    cases List.mem_append.mp h with
    | inl hm => exact Or.inl hm
    | inr hm =>
      obtain rfl := List.mem_singleton.mp hm
      exact Or.inr (Or.inl ⟨d, rfl, rfl⟩)
  | push d c =>
    rcases mem_updateOne h with hm | ⟨lg', hf, rfl⟩
    · exact Or.inl hm
    · have hc : lg'.chatId = c := by simpa using findOne_matches hf
      have he : s.entries c = lg'.messages := by simp [Store.entries, Store.log, Store.logDoc, hf]
      subst hc
      exact Or.inr (Or.inr ⟨d, rfl, by rw [he], lg', findOne_mem hf, rfl, he⟩)
  | _ => exact Or.inl h

theorem newChat_next {p : Point M} {s : Store M} {doc : ChatId}
    (h : (p.next toLowerCase s).2.newChat? = some doc) :
    (p.next toLowerCase s).1 = s ∧ doc.chatId = newChatId s.lastChat := by
  have hg := Point.goes toLowerCase p s
  generalize hq : (p.next toLowerCase s).2 = q at hg h
  cases hg with
  | newId d =>
    cases h
    exact ⟨rfl, rfl⟩
  | _ => cases h

theorem inserting_fulfil {ps : PSys M} {i : Nat} {r : Request M} {p : Point M} {doc : ChatId}
    (h : (ps.fulfil toLowerCase i r p).inserting doc) :
    ps.inserting doc ∨ (p.next toLowerCase ps.store).1 = ps.store ∧
      doc.chatId = newChatId ps.store.lastChat := by
  obtain ⟨j, r', q, hj, hq⟩ := h
  have hA : (ps.fulfil toLowerCase i r p).Each fun _ _ q => q.newChat? = some doc →
      ps.inserting doc ∨ (p.next toLowerCase ps.store).1 = ps.store ∧
        doc.chatId = newChatId ps.store.lastChat :=
    each_fulfil (fun j r' q _ hj hq => Or.inl ⟨j, r', q, hj, hq⟩)
      fun hq => Or.inr (newChat_next hq)
  exact hA j r' q hj hq

theorem newLog_next {p : Point M} {s : Store M} {n : Nat}
    (hn : (p.next toLowerCase s).2.newLog? = some n) :
    n ∈ (p.next toLowerCase s).1.chatIds.map (·.chatId) := by
  have hg := Point.goes toLowerCase p s
  generalize hq : (p.next toLowerCase s).2 = q at hg hn
  cases hg with
  | chatInserted d n' =>
    cases hn
    simp [Point.next, Store.insertChat]
  | stay resp => cases hn
  | _ => cases hn

theorem finds_next {ps : PSys M} {i : Nat} {r : Request M} {p : Point M}
    (hi : ps.requests[i]? = some (r, p)) {c : Nat} {d : Send M}
    (h : (ps.fulfil toLowerCase i r p).finds c d) :
    ps.finds c d ∨ (p.next toLowerCase ps.store).1 = ps.store ∧
      c = newChatId ps.store.lastChat := by
  have hids : (ps.fulfil toLowerCase i r p).store.chatIds = ps.store.chatIds ++ p.newChat?.toList :=
    Point.next_chatIds toLowerCase p ps.store
  have hchat : (ps.fulfil toLowerCase i r p).store.chat d.sentBy d.sentTo =
      (ps.store.chat d.sentBy d.sentTo).or (findOne (·.links d.sentBy d.sentTo) p.newChat?.toList) := by
    rw [Store.chat, hids, findOne, List.find?_append]
    rfl
  cases hold : ps.store.chat d.sentBy d.sentTo with
  | some doc =>
    rw [hold, Option.some_or] at hchat
    rcases h with ⟨doc', hd, hc⟩ | ⟨hn, -⟩
    · obtain rfl : doc = doc' := Option.some.inj (hchat.symm.trans hd)
      exact Or.inl (Or.inl ⟨doc, hold, hc⟩)
    · rw [hchat] at hn
      cases hn
  | none =>
    rw [hold, Option.none_or] at hchat
    rcases h with ⟨doc, hd, hc⟩ | ⟨-, doc, hins, hp, hc⟩
    · -- the chat was inserted by this call
      rw [hchat] at hd
      have hnew : p.newChat? = some doc := by simpa using findOne_mem hd
      have hp : doc.pair = s(d.sentBy, d.sentTo) := links_iff.mp (findOne_matches hd)
      exact Or.inl (Or.inr ⟨hold, doc, ⟨i, r, p, hi, hnew⟩, hp, hc⟩)
    · cases inserting_fulfil hins with
      | inl hins => exact Or.inl (Or.inr ⟨hold, doc, hins, hp, hc⟩)
      | inr hnew => exact Or.inr ⟨hnew.1, hc ▸ hnew.2⟩

theorem leads_next {ps : PSys M} {i : Nat} {r : Request M} {p : Point M}
    (hi : ps.requests[i]? = some (r, p)) {c : Nat} {d : Send M}
    (h : (ps.fulfil toLowerCase i r p).Leads c d (p.next toLowerCase ps.store).2) :
    ps.Leads c d p ∨ (p.next toLowerCase ps.store).1 = ps.store ∧
      c = newChatId ps.store.lastChat := by
  have hg := Point.goes toLowerCase p ps.store
  generalize hq : (p.next toLowerCase ps.store).2 = q at hg h
  cases hg with
  | known d' =>
    cases h with
    | findChat create hf => exact (finds_next hi hf).imp_left .usersFind
  | chat create d' hd =>
    cases h with
    | push => exact Or.inl (.findChat create (Or.inl ⟨_, hd, rfl⟩))
  | _ => cases h

namespace InOrder
variable {ps : PSys M} (h : InOrder ps) {i : Nat} {r : Request M} {p : Point M}
  (hi : ps.requests[i]? = some (r, p))
include h hi

omit [DecidableEq M] in
theorem own_read {d : Send M} (hof : p.Of r → r.send? = some d) : ps.read d.timeNow :=
  ⟨r, List.mem_of_getElem? (issued_get hi), d, hof (h.of i r p hi), le_refl _⟩

theorem past_next {lg : ChatMessages M} (hlg : lg ∈ (p.next toLowerCase ps.store).1.chatMessages)
    {e : Entry M} (he : e ∈ lg.messages) : ps.read e.time := by
  rcases chatMessages_next hlg with hold | ⟨d, rfl, hnew⟩ | ⟨d, rfl, hnew, lg', hlg', -, hes⟩
  · exact h.past lg hold e he
  · rw [hnew, List.mem_singleton] at he
    exact he ▸ h.own_read hi id
  · rw [hnew, hes, List.mem_append, List.mem_singleton] at he
    cases he with
    | inl he => exact h.past lg' hlg' e he
    | inr he => exact he ▸ h.own_read hi id

theorem logs_next {lg : ChatMessages M}
    (hlg : lg ∈ (p.next toLowerCase ps.store).1.chatMessages) :
    lg.messages.Pairwise fun e e' => e.time ≤ e'.time := by
  rcases chatMessages_next hlg with hold | ⟨d, rfl, hnew⟩ | ⟨d, rfl, hnew, lg', hlg', -, hes⟩
  · exact h.logs lg hold
  · rw [hnew]
    exact List.pairwise_singleton _ _
  · have hlast := h.ahead i r _ hi lg.chatId d .push
    rw [hnew, List.pairwise_append]
    refine ⟨hes ▸ h.logs lg' hlg', List.pairwise_singleton _ _, fun e he e' he' => ?_⟩
    rw [List.mem_singleton.mp he']
    exact hlast e he

theorem logChat_next {lg : ChatMessages M}
    (hlg : lg ∈ (p.next toLowerCase ps.store).1.chatMessages) :
    lg.chatId ∈ (p.next toLowerCase ps.store).1.chatIds.map (·.chatId) := by
  rw [Point.next_chatIds, List.map_append]
  refine List.mem_append_left _ ?_
  rcases chatMessages_next hlg with hold | ⟨d, rfl, -⟩ | ⟨d, rfl, -, lg', hlg', hc, -⟩
  · exact h.logChat lg hold
  · exact h.newLog i r _ hi lg.chatId rfl
  · exact hc ▸ h.logChat lg' hlg'

omit hi [DecidableEq M] in
theorem entries_fresh : ps.store.entries (newChatId ps.store.lastChat) = [] := by
  refine List.eq_nil_iff_forall_not_mem.mpr fun e he => ?_
  obtain ⟨lg, hm, hc, -⟩ := entries_mem he
  exact newChatId_fresh ps.store (hc ▸ h.logChat lg hm)

omit hi in
theorem ahead_next {j : Nat} {r' : Request M} {q : Point M} (hj : ps.requests[j]? = some (r', q))
    {c : Nat} {d : Send M}
    (hturn : ∀ e ∈ p.appends ps.store c, ps.Leads c d q → e.time ≤ d.timeNow)
    (hl : ps.Leads c d q ∨ (p.next toLowerCase ps.store).1 = ps.store ∧
      c = newChatId ps.store.lastChat)
    {e : Entry M} (he : e ∈ (p.next toLowerCase ps.store).1.entries c) : e.time ≤ d.timeNow := by
  cases hl with
  | inl hl =>
    rw [Point.entries_next, List.mem_append] at he
    cases he with
    | inl he => exact h.ahead j r' q hj c d hl e he
    | inr he => exact hturn e he hl
  | inr hl =>
    obtain ⟨hs, rfl⟩ := hl
    rw [hs, h.entries_fresh] at he
    cases he

theorem fulfil
    (hturn : ∀ c, ∀ e ∈ p.appends ps.store c, ∀ j r' q, j ≠ i → ps.requests[j]? = some (r', q) →
      ∀ d, ps.Leads c d q → e.time ≤ d.timeNow) :
    InOrder (ps.fulfil toLowerCase i r p) where
  of := each_fulfil (fun j r' q _ hj => h.of j r' q hj)
    (Point.of_next toLowerCase ps.store (h.of i r p hi))
  past lg hlg e he := read_congr (issued_fulfil hi) (h.past_next hi hlg he)
  logs lg hlg := h.logs_next hi hlg
  logChat lg hlg := h.logChat_next hi hlg
  newLog := by
    refine each_fulfil (fun j r' q _ hj n hn => ?_) fun n hn => newLog_next hn
    obtain ⟨doc, hd, he⟩ := List.mem_map.mp (h.newLog j r' q hj n hn)
    exact List.mem_map.mpr ⟨doc, Point.chatIds_subset toLowerCase p ps.store hd, he⟩
  ahead := by
    refine each_fulfil (fun j r' q hne hj c d hl e he => ?_) fun c d hl e he => ?_
    · exact h.ahead_next hj (fun e he hl => hturn c e he j r' q hne hj d hl)
        (leads_or (finds_next hi) hl) he
    · refine h.ahead_next hi (fun e he hl => ?_) (leads_next hi hl) he
      rw [appends_of_leads hl he]
      exact le_refl _

end InOrder

theorem earliest_sys {ps : PSys M} {i : Nat} {r : Request M} {p : Point M}
    (hi : ps.requests[i]? = some (r, p))
    (hturn : ∀ c ∈ (ps.sys toLowerCase).call? i 0, appendsInTurn (ps.sys toLowerCase) i c)
    {c : Nat} {e : Entry M} (he : e ∈ p.appends ps.store c) :
    (ps.sys toLowerCase).earliest i c e.time ∧ p.newChat? = none := by
  rw [call_sys hi] at hturn
  cases p with
  | push d c' =>
    simp only [Point.appends] at he
    split at he
    · rename_i hc
      obtain rfl := List.mem_singleton.mp he
      exact ⟨hc.1 ▸ hturn _ rfl, rfl⟩
    · cases he
  | insertLog d n =>
    simp only [Point.appends] at he
    split at he
    · rename_i hc
      obtain ⟨rfl, hlog⟩ := hc
      exact ⟨hturn _ rfl hlog e he, rfl⟩
    · cases he
  | _ => cases he

theorem finds_sys {ps : PSys M} {i : Nat} {r : Request M} {p : Point M}
    (hi : ps.requests[i]? = some (r, p)) (hp : p.newChat? = none) {c : Nat} {d : Send M}
    (h : ps.finds c d) : (ps.sys toLowerCase).finds i c d := by
  refine h.imp id fun ⟨hn, doc, ⟨j, r', q, hj, hq⟩, hd⟩ => ⟨hn, ?_⟩
  have hne : j ≠ i := by
    rintro rfl
    obtain ⟨-, rfl⟩ := Prod.mk.inj (Option.some.inj (hi.symm.trans hj))
    rw [hp] at hq
    cases hq
  have hcall : q.call? = some (.chatIdsInsertOne doc) := by
    cases q with
    | insertChat d' n =>
      cases hq
      rfl
    | _ => cases hq
  exact ⟨(r', .chatIdsInsertOne doc), others_sys.mpr ⟨j, q, hne, hj, hcall⟩, doc, rfl, hd⟩

theorem leadsTo_sys {ps : PSys M} {i : Nat} {r : Request M} {p : Point M}
    (hi : ps.requests[i]? = some (r, p)) (hp : p.newChat? = none) {c : Nat} {d : Send M}
    {q : Point M} (h : ps.Leads c d q) :
    ∃ call, q.call? = some call ∧ (ps.sys toLowerCase).leadsTo i c d call := by
  cases h with
  | push => exact ⟨_, rfl, rfl⟩
  | usersFind h => exact ⟨_, rfl, finds_sys hi hp h⟩
  | findChat create h => exact ⟨_, rfl, finds_sys hi hp h⟩

omit [DecidableEq M] in
theorem clocked_sys {ps : PSys M} {r : Request M} (h : clocked (ps.sys toLowerCase) (.issue r))
    {d : Send M} (hd : r.send? = some d) {t : Int} (ht : ps.read t) : t ≤ d.timeNow := by
  obtain ⟨x, hx, d', hd', hle⟩ := ht
  have hx' : x ∈ (ps.sys toLowerCase).issued := by
    rw [issued_sys]
    exact hx
  exact le_trans hle (h d hd x hx' d' hd')

theorem inOrder_step {ps ps' : PSys M} {a : Action M} (h : InOrder ps)
    (hclock : clocked (ps.sys toLowerCase) a)
    (hturn : onCalls appendsInTurn (ps.sys toLowerCase) a)
    (hs : ps.step toLowerCase a = some ps') : InOrder ps' := by
  cases steps hs with
  | issue r => exact h.issue fun d hd t ht => clocked_sys hclock hd ht
  | fulfil i r p hi hc =>
    refine h.fulfil hi fun c e he j r' q hne hj d hl => ?_
    obtain ⟨hearly, hp⟩ := earliest_sys hi hturn he
    obtain ⟨call, hq, hlead⟩ : ∃ call, q.call? = some call ∧
        (ps.sys toLowerCase).leadsTo i c d call := leadsTo_sys hi hp hl
    exact hearly (r', call) (others_sys.mpr ⟨j, q, hne, hj, hq⟩) d (hl.of (h.of j r' q hj)) hlead
  | reject i r p hi hc => exact h.reject hi

end Step

end RecoupChat
