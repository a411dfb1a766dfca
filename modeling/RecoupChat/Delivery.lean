import RecoupChat.Isolation
import RecoupChat.Sequential
import RecoupChat.Structural

/-! No accepted message is lost or doubled as long as each chat is created alone: while no
other request is about to insert a chat, or has found none for the same pair. -/
namespace RecoupChat
open Promise Transition Collection
variable {M : Type}

def Call.newPair? : Call M → Option (Sym2 String)
  | .chatIdsInsertOne doc => some doc.pair
  | _ => none

/-- A chat is inserted only while no other request waits to insert one, and no other send of
the same pair is about to read the highest id, for which it has found no chat. -/
def createsAlone [DecidableEq M] (s : Sys M) (i : Nat) (c : Call M) : Prop :=
  ∀ P ∈ c.newPair?, ∀ x ∈ s.others i, x.2.insertsChat = false ∧
    (x.2 = .chatIdsFindLast → ∀ d ∈ x.1.send?, s(d.sentBy, d.sentTo) ≠ P)

instance [DecidableEq M] (s : Sys M) (i : Nat) (c : Call M) : Decidable (createsAlone s i c) :=
  inferInstanceAs (Decidable (∀ P ∈ c.newPair?, _))

def Point.done? (r : Request M) : Point M → Option (Send M)
  | .findBy _ d | .updateBy _ d _ | .findTo _ d | .updateTo _ d _ => some d
  | .answered resp => if resp.status = .SUCCESS then r.send? else none
  | _ => none

theorem done_answered {r : Request M} {resp : Response M} {d : Send M}
    (h : d ∈ (Point.answered resp).done? r) : resp.status = .SUCCESS ∧ r.send? = some d := by
  rw [Point.done?] at h
  split at h
  · exact ⟨‹_›, h⟩
  · cases h

def Point.creates? : Point M → Option (Send M)
  | .findLast d | .insertChat d _ => some d
  | _ => none

structure Delivered (s0 : Store M) (authors : Nat → List Nat) (ps : PSys M) : Prop where
  old : ∀ doc ∈ s0.chatIds, doc ∈ ps.store.chatIds
  pairs : (ps.store.chatIds.map (·.pair)).Nodup
  logChat : ∀ c, ps.store.log c ≠ none → c ∈ ps.store.chatIds.map (·.chatId)
  newLog : ps.Each fun _ _ p => ∀ d n, p = .insertLog d n → ps.store.log n = none
  oneLog : ps.Each fun i _ p => ∀ d n, p = .insertLog d n →
    ∀ j r d', ps.requests[j]? = some (r, .insertLog d' n) → j = i
  noChat : ps.Each fun _ _ p => ∀ d ∈ p.creates?, ps.store.chat d.sentBy d.sentTo = none
  done : ps.Each fun i r p => ∀ d ∈ p.done? r, ∃ doc ∈ ps.store.chatIds,
    doc.pair = s(d.sentBy, d.sentTo) ∧ ps.store.log doc.chatId ≠ none ∧ i ∈ authors doc.chatId

theorem delivered_init {s0 : Store M} (hs : Structural s0) :
    Delivered s0 (fun _ => []) ⟨s0, []⟩ where
  old _ hd := hd
  pairs := hs.pairsNodup
  logChat c hl := by
    obtain ⟨es, hes⟩ := Option.ne_none_iff_exists'.mp hl
    obtain ⟨lg, hm, rfl, -⟩ := log_mem hes
    exact hs.logChat lg hm
  newLog := each_init s0
  oneLog := each_init s0
  noChat := each_init s0
  done := each_init s0

namespace Delivered
variable {s0 : Store M} {authors : Nat → List Nat} {ps : PSys M} (h : Delivered s0 authors ps)
include h

theorem issue (r : Request M) : Delivered s0 authors (ps.issue r) where
  old := h.old
  pairs := h.pairs
  logChat := h.logChat
  newLog := each_issue h.newLog fun d n hp => by cases r <;> cases hp
  oneLog := by
    refine each_issue (fun i r' p hi d n hp j r'' d' hj => ?_) fun d n hp => by cases r <;> cases hp
    rw [PSys.issue, List.getElem?_append] at hj
    split at hj
    · exact h.oneLog i r' p hi d n hp j r'' d' hj
    · rw [List.getElem?_singleton] at hj
      split at hj
      · cases r <;> cases hj
      · cases hj
  noChat := each_issue h.noChat fun d hd => by cases r <;> cases hd
  done := each_issue h.done fun d hd => by cases r <;> cases hd

theorem reject {i : Nat} {r : Request M} : Delivered s0 authors (ps.reject i r) where
  old := h.old
  pairs := h.pairs
  logChat := h.logChat
  newLog := each_reject h.newLog fun d n hp => by cases hp
  oneLog := by
    refine each_reject (fun j r' q hj d n hq k r'' d' hk => ?_) fun d n hp => by cases hp
    rw [PSys.reject, List.getElem?_set] at hk
    split at hk
    · split at hk <;> cases hk
    · exact h.oneLog j r' q hj d n hq k r'' d' hk
  noChat := each_reject h.noChat fun d hd => by cases hd
  done := each_reject h.done fun d hd => by cases hd

end Delivered

theorem newId_unused {s0 : Store M} {authors : Nat → List Nat} {ps : PSys M}
    (h : Delivered s0 authors ps) (ha : Attributed s0 authors ps) (hf : FreshIds ps) {i : Nat}
    {r : Request M} {d : Send M} {n : Nat} (hi : ps.requests[i]? = some (r, .insertChat d n)) :
    ps.store.log n = none ∧
      ∀ (j : Nat) (r' : Request M) (d' : Send M),
        ps.requests[j]? ≠ some (r', .insertLog d' n) := by
  have hfresh : n ∉ ps.store.chatIds.map (·.chatId) :=
    hf.next i r _ hi d n rfl ▸ newChatId_fresh ps.store
  refine ⟨by_contra fun hl => hfresh (h.logChat n hl), fun j r' d' hj => ?_⟩
  obtain ⟨doc, hd, hid, -⟩ := ha.owned j r' _ hj n _ rfl
  exact hfresh (List.mem_map.mpr ⟨doc, hd, hid⟩)

theorem entries_old {s0 : Store M} {authors : Nat → List Nat} {ps : PSys M}
    (hs : Structural s0) (h : Delivered s0 authors ps) (hf : FreshIds ps) {doc : ChatId}
    {u v : String} (hd : doc ∈ ps.store.chatIds) (hp : doc.pair = s(u, v)) :
    s0.entries doc.chatId = s0.conversation u v := by
  cases hc : s0.chat u v with
  | some x =>
    have hx : x = doc := List.inj_on_of_nodup_map h.pairs (h.old x (chat_mem hc)) hd
      ((chat_pair hc).trans hp.symm)
    rw [Store.conversation, hc, ← hx]
    rfl
  | none =>
    have hl : s0.log doc.chatId = none := by
      cases hl : s0.log doc.chatId with
      | none => rfl
      | some es =>
        obtain ⟨lg, hm, hid, -⟩ := log_mem hl
        obtain ⟨x, hx, hxid⟩ := List.mem_map.mp (hs.logChat lg hm)
        have he : x = doc := List.inj_on_of_nodup_map hf.nodup (h.old x hx) hd (hxid.trans hid)
        exact absurd (he ▸ hp) (chat_eq_none.mp hc x hx)
    rw [Store.conversation, hc, Store.entries, hl]
    rfl

section Step
variable [DecidableEq M] {toLowerCase : String → String}

theorem log_next (p : Point M) (s : Store M) (c : Nat) :
    (p.next toLowerCase s).1.log c = none ↔ s.log c = none ∧ p.newLog? ≠ some c := by
  simp only [log_eq_none, Point.next_logIds, List.mem_append, Option.mem_toList, not_or]

theorem insertLog_next {p : Point M} {s : Store M} {d : Send M} {n : Nat}
    (h : (p.next toLowerCase s).2 = .insertLog d n) :
    p = .insertChat d n ∧ (p.next toLowerCase s).1.log n = s.log n := by
  have hg := Point.goes toLowerCase p s
  rw [h] at hg
  cases hg
  exact ⟨rfl, rfl⟩

theorem noChat_next {s0 : Store M} {authors : Nat → List Nat} {ps : PSys M}
    (h : Delivered s0 authors ps) {i : Nat} {p : Point M}
    (halone : ∀ d n, p = .insertChat d n → ∀ j r' q, j ≠ i → ps.requests[j]? = some (r', q) →
      ∀ d' ∈ q.creates?, s(d'.sentBy, d'.sentTo) ≠ s(d.sentBy, d.sentTo))
    {j : Nat} {r' : Request M} {q : Point M} (hne : j ≠ i)
    (hj : ps.requests[j]? = some (r', q)) {d' : Send M} (hd : d' ∈ q.creates?) :
    (p.next toLowerCase ps.store).1.chat d'.sentBy d'.sentTo = none := by
  have hold := h.noChat j r' q hj d' hd
  have hids := Point.next_chatIds toLowerCase p ps.store
  rw [chat_eq_none] at hold ⊢
  rw [hids]
  intro doc hm
  cases List.mem_append.mp hm with
  | inl hm => exact hold doc hm
  | inr hm =>
    cases p with
    | insertChat d n =>
      obtain rfl : doc = ⟨n, d.sentBy, d.sentTo⟩ := by simpa [Point.newChat?] using hm
      exact (halone d n rfl j r' q hne hj d' hd).symm
    | _ => simp [Point.newChat?] at hm

theorem done_next {s0 : Store M} {authors : Nat → List Nat} {ps : PSys M}
    (h : Delivered s0 authors ps) (ha : Attributed s0 authors ps) {i : Nat} {r : Request M}
    {p : Point M} (hi : ps.requests[i]? = some (r, p)) (hc : p.call? ≠ none) {d : Send M}
    (hd : d ∈ (p.next toLowerCase ps.store).2.done? r) :
    ∃ doc ∈ ps.store.chatIds, doc.pair = s(d.sentBy, d.sentTo) ∧
      (p.next toLowerCase ps.store).1.log doc.chatId ≠ none ∧
      i ∈ addAuthor authors i p ps.store doc.chatId := by
  have hstill (hp : p.done? r = some d) : ∃ doc ∈ ps.store.chatIds,
      doc.pair = s(d.sentBy, d.sentTo) ∧
        (p.next toLowerCase ps.store).1.log doc.chatId ≠ none ∧
        i ∈ addAuthor authors i p ps.store doc.chatId := by
    obtain ⟨doc, hm, hpair, hl, hauth⟩ := h.done i r p hi d hp
    exact ⟨doc, hm, hpair, fun hn => hl ((log_next p _ _).mp hn).1, List.mem_append_left _ hauth⟩
  have hsent {resp : Response M} (hq : (p.next toLowerCase ps.store).2 = .answered resp)
      (hd : d ∈ (Point.answered resp).done? r) : p.done? r = some d := by
    obtain ⟨hok, hsend⟩ := done_answered hd
    obtain ⟨create, rows, rfl, -⟩ := Point.sent_next toLowerCase (ha.of i r p hi) hsend hc hq hok
    rfl
  have hg := Point.goes toLowerCase p ps.store
  generalize hq : (p.next toLowerCase ps.store).2 = q at hg hd
  cases hg with
  | pushed x c hl =>
    obtain rfl : x = d := Option.some.inj hd
    obtain ⟨doc, hm, rfl, hpair⟩ := ha.owned i r _ hi c _ rfl
    have hn : ps.store.log doc.chatId ≠ none := Option.isSome_iff_ne_none.mp hl
    refine ⟨doc, hm, hpair, fun hz => hn ((log_next _ _ _).mp hz).1, ?_⟩
    simp [addAuthor, Point.appends, hl]
  | logInserted x n =>
    obtain rfl : x = d := Option.some.inj hd
    obtain ⟨doc, hm, rfl, hpair⟩ := ha.owned i r _ hi n _ rfl
    have hn := h.newLog i r _ hi x _ rfl
    refine ⟨doc, hm, hpair, fun hz => ((log_next _ _ _).mp hz).2 rfl, ?_⟩
    simp [addAuthor, Point.appends, hn]
  | readBy create x hr hp => exact hstill hd
  | wroteBy create x rows hm => exact hstill hd
  | readTo create x hr hp => exact hstill hd
  | wroteTo | failed | unknown | added | usernames | chats | read | stay =>
    exact hstill (hsent hq hd)
  | _ => cases hd

theorem logChat_next {s0 : Store M} {authors : Nat → List Nat} {ps : PSys M}
    (h : Delivered s0 authors ps) (ha : Attributed s0 authors ps) {i : Nat} {r : Request M}
    {p : Point M} (hi : ps.requests[i]? = some (r, p)) {c : Nat}
    (hl : (p.next toLowerCase ps.store).1.log c ≠ none) :
    c ∈ ps.store.chatIds.map (·.chatId) := by
  by_cases hn : ps.store.log c = none
  · cases p with
    | insertLog d n =>
      obtain ⟨doc, hd, hid, -⟩ := ha.owned i r _ hi n _ rfl
      have hcn : n = c := by
        by_contra hne
        exact hl ((log_next _ _ _).mpr ⟨hn, by simp [Point.newLog?, hne]⟩)
      exact List.mem_map.mpr ⟨doc, hd, hid.trans hcn⟩
    | _ => exact absurd ((log_next _ _ _).mpr ⟨hn, by simp [Point.newLog?]⟩) hl
  · exact h.logChat c hn

omit [DecidableEq M] in
theorem pairs_next {s0 : Store M} {authors : Nat → List Nat} {ps : PSys M}
    (h : Delivered s0 authors ps) {i : Nat} {r : Request M} {p : Point M}
    (hi : ps.requests[i]? = some (r, p)) :
    ((ps.store.chatIds ++ p.newChat?.toList).map (·.pair)).Nodup := by
  cases p with
  | insertChat d n =>
    have hn := h.noChat i r _ hi d rfl
    refine nodup_map_concat h.pairs fun hm => ?_
    obtain ⟨doc, hd, hp⟩ := List.mem_map.mp hm
    exact chat_eq_none.mp hn doc hd hp
  | _ => simpa [Point.newChat?] using h.pairs

theorem oneLog_next {s0 : Store M} {authors : Nat → List Nat} {ps : PSys M}
    (h : Delivered s0 authors ps) (ha : Attributed s0 authors ps) (hf : FreshIds ps) {i : Nat}
    {r : Request M} {p : Point M} (hi : ps.requests[i]? = some (r, p)) :
    (ps.fulfil toLowerCase i r p).Each fun j _ q => ∀ d n, q = .insertLog d n →
      ∀ k r' d', (ps.fulfil toLowerCase i r p).requests[k]? = some (r', .insertLog d' n) → k = j := by
  have hnew {d d' : Send M} {n : Nat} (hq : (p.next toLowerCase ps.store).2 = .insertLog d n)
      (j : Nat) (r' : Request M) : ps.requests[j]? ≠ some (r', .insertLog d' n) := by
    obtain ⟨rfl, -⟩ := insertLog_next hq
    exact (newId_unused h ha hf hi).2 j r' d'
  refine each_fulfil (fun j r' q hne hj d n hq k r'' d' hk => ?_) fun d n hq k r'' d' hk => ?_
  · rw [PSys.fulfil, List.getElem?_set] at hk
    split at hk
    · split at hk
      · exact absurd (hq ▸ hj) (hnew (Prod.mk.inj (Option.some.inj hk)).2 j r')
      · cases hk
    · exact h.oneLog j r' q hj d n hq k r'' d' hk
  · rw [PSys.fulfil, List.getElem?_set] at hk
    split at hk
    · rename_i hik
      exact hik.symm
    · exact absurd hk (hnew hq k r'')

theorem noChat_own {s0 : Store M} {authors : Nat → List Nat} {ps : PSys M}
    (h : Delivered s0 authors ps) {i : Nat} {r : Request M} {p : Point M}
    (hi : ps.requests[i]? = some (r, p)) (hc : p.call? ≠ none) {d : Send M}
    (hd : d ∈ (p.next toLowerCase ps.store).2.creates?) :
    (p.next toLowerCase ps.store).1.chat d.sentBy d.sentTo = none := by
  have hg := Point.goes toLowerCase p ps.store
  generalize hq : (p.next toLowerCase ps.store).2 = q at hg hd
  cases hg with
  | noChat x hx =>
    obtain rfl : x = d := Option.some.inj hd
    exact hx
  | newId x =>
    obtain rfl : x = d := Option.some.inj hd
    exact h.noChat i r _ hi x rfl
  | stay resp => exact absurd rfl hc
  | _ => cases hd

theorem Delivered.fulfil {s0 : Store M} {authors : Nat → List Nat} {ps : PSys M}
    (h : Delivered s0 authors ps) (ha : Attributed s0 authors ps) (hf : FreshIds ps) {i : Nat}
    {r : Request M} {p : Point M} (hi : ps.requests[i]? = some (r, p)) (hc : p.call? ≠ none)
    (halone : ∀ d n, p = .insertChat d n → ∀ j r' q, j ≠ i → ps.requests[j]? = some (r', q) →
      ∀ d' ∈ q.creates?, s(d'.sentBy, d'.sentTo) ≠ s(d.sentBy, d.sentTo)) :
    Delivered s0 (addAuthor authors i p ps.store) (ps.fulfil toLowerCase i r p) where
  old doc hd := Point.chatIds_subset toLowerCase p ps.store (h.old doc hd)
  pairs := by
    have hids : (ps.fulfil toLowerCase i r p).store.chatIds =
      ps.store.chatIds ++ p.newChat?.toList := Point.next_chatIds toLowerCase p ps.store
    rw [hids]
    exact pairs_next h hi
  logChat c hl := by
    obtain ⟨doc, hd, hid⟩ := List.mem_map.mp (logChat_next h ha hi hl)
    exact List.mem_map.mpr ⟨doc, Point.chatIds_subset toLowerCase p ps.store hd, hid⟩
  newLog := by
    refine each_fulfil (fun j r' q hne hj d n hq => ?_) fun d n hq => ?_
    · refine (log_next p _ _).mpr ⟨h.newLog j r' q hj d n hq, fun hp => ?_⟩
      cases p with
      | insertLog d' n' =>
        obtain rfl : n' = n := Option.some.inj hp
        exact hne (h.oneLog i r _ hi d' n' rfl j r' d (hq ▸ hj))
      | _ => cases hp
    · obtain ⟨rfl, hs⟩ := insertLog_next hq
      exact hs.trans (newId_unused h ha hf hi).1
  oneLog := oneLog_next h ha hf hi
  noChat := each_fulfil (fun j r' q hne hj d hd => noChat_next h halone hne hj hd)
    fun d hd => noChat_own h hi hc hd
  done := by
    refine each_fulfil (fun j r' q hne hj d hd => ?_) fun d hd => ?_
    · obtain ⟨doc, hm, hpair, hl, hauth⟩ := h.done j r' q hj d hd
      exact ⟨doc, Point.chatIds_subset toLowerCase p ps.store hm, hpair,
        fun hn => hl ((log_next p _ _).mp hn).1, List.mem_append_left _ hauth⟩
    · obtain ⟨doc, hm, hpair, hl, hauth⟩ := done_next h ha hi hc hd
      exact ⟨doc, Point.chatIds_subset toLowerCase p ps.store hm, hpair, hl, hauth⟩

def Delivers (s0 : Store M) (ps : PSys M) : Prop :=
  FreshIds ps ∧ ∃ authors, Attributed s0 authors ps ∧ Delivered s0 authors ps

theorem delivers_step {s0 : Store M} {ps ps' : PSys M} {a : Action M} (h : Delivers s0 ps)
    (ha : onCalls createsAlone (ps.sys toLowerCase) a) (hs : ps.step toLowerCase a = some ps') :
    Delivers s0 ps' := by
  obtain ⟨hfresh, authors, hattr, hdel⟩ := h
  cases steps hs with
  | issue r => exact ⟨hfresh.issue r, authors, hattr.issue r, hdel.issue r⟩
  | fulfil i r p hi hc =>
    have hcall (d : Send M) (n : Nat) (hp : p = .insertChat d n) :
        (.chatIdsInsertOne ⟨n, d.sentBy, d.sentTo⟩ : Call M) ∈ (ps.sys toLowerCase).call? i 0 := by
      rw [call_sys hi, hp]
      rfl
    have hinsert : ∀ d n, p = .insertChat d n → ∀ j r' d' n', j ≠ i →
        ps.requests[j]? ≠ some (r', .insertChat d' n') := by
      intro d n hp j r' d' n' hne hj
      have hother := (ha _ (hcall d n hp) _ rfl (r', .chatIdsInsertOne ⟨n', d'.sentBy, d'.sentTo⟩)
        (others_sys.mpr ⟨j, _, hne, hj, rfl⟩)).1
      cases hother
    refine ⟨hfresh.fulfil hi hinsert, _, hattr.fulfil toLowerCase hi,
      hdel.fulfil hattr hfresh hi hc ?_⟩
    intro d n hp j r' q hne hj d' hd'
    cases q with
    | insertChat x m => exact absurd hj (hinsert d n hp j r' x m hne)
    | findLast x =>
      obtain rfl : x = d' := Option.some.inj hd'
      have hsend : r'.send? = some x := hattr.of j r' _ hj
      exact (ha _ (hcall d n hp) _ rfl (r', .chatIdsFindLast)
        (others_sys.mpr ⟨j, _, hne, hj, rfl⟩)).2 rfl x hsend
    | _ => cases hd'
  | reject i r p hi hc => exact ⟨hfresh.reject i r, authors, hattr.reject hi, hdel.reject⟩

/-- In every run from a sound store in which chats are created alone, a send that has
answered SUCCESS is in the list read for its pair, in either order of the two names: the
list is what it was at the start, followed by one entry for each of the sends `js`. -/
theorem sent_once (s0 : Store M) (hs : Structural s0) (s : Sys M)
    (hr : Run (Sys.step toLowerCase) (onCalls createsAlone) (Sys.init s0) s) {i : Nat}
    {r : Request M} {d : Send M} {resp : Response M} (hans : s.answered i r resp)
    (hd : r.send? = some d) (hok : resp.status = .SUCCESS) {u v : String}
    (huv : s(u, v) = s(d.sentBy, d.sentTo)) :
    ∃ js L, js.Nodup ∧ i ∈ js ∧ List.Forall₂ (Wrote s.issued s(u, v)) js L ∧
      s.store.serve toLowerCase (.getUserChatMessages u v) noFault =
        (s.store, [.messages (s0.conversation u v ++ L)]) := by
  have h0 : Delivers s0 (⟨s0, []⟩ : PSys M) :=
    ⟨⟨hs.idsNodup, each_init s0⟩, _, attributed_init s0, delivered_init hs⟩
  obtain ⟨ps, rfl, hrun⟩ := Run.lift (f := PSys.sys toLowerCase) step_sys (p := ⟨s0, []⟩) hr
  obtain ⟨hfresh, authors, hattr, hdel⟩ :=
    hrun.invariant h0 fun _ _ _ hI hok hs => delivers_step hI hok hs
  have hdone : d ∈ (Point.answered resp).done? r := by simp [Point.done?, hok, hd]
  obtain ⟨doc, hm, hpair, hlog, hauth⟩ := hdel.done i r _ (answered_sys hans) d hdone
  obtain ⟨new, hent, hf⟩ := hattr.wrote doc.chatId
  have hp : doc.pair = s(u, v) := hpair.trans huv.symm
  have hchat : ps.store.chat u v = some doc := findOne_of_key hdel.pairs hm (links_iff.mpr hp)
    fun x hx => (links_iff.mp hx).trans hp.symm
  obtain ⟨es, hes⟩ := Option.ne_none_iff_exists'.mp hlog
  refine ⟨authors doc.chatId, new, hattr.nodup _, hauth, ?_, ?_⟩
  · rw [issued_sys]
    refine hf.imp fun j e hw => ?_
    obtain ⟨x, hx, hid, hw⟩ := hw
    have hxd : x = doc := List.inj_on_of_nodup_map hfresh.nodup hx hm hid
    rw [← hp, ← hxd]
    exact hw
  · have he : es = s0.conversation u v ++ new := by
      rw [← entries_old hs hdel hfresh hm hp, ← hent, Store.entries, hes]
      rfl
    have hstore : (ps.sys toLowerCase).store = ps.store := rfl
    rw [hstore, serve_getUserChatMessages, hchat, Option.bind_some, hes, he]

end Step

/-! Runs of two first messages of one pair. -/

def issueOnePair (second : Request String) : List (Action String) :=
  [.issue (.addNewUser "ann"), .issue (.addNewUser "bob")] ++ calls 0 2 ++ calls 1 2 ++
    [.issue (.sendNewMessage ⟨"ann", "bob", "hi", 1⟩), .issue second]

/-- The second message is sent while the first one still updates its rows. -/
theorem sent_once_overlap : ∃ s, Run (Sys.step id) (onCalls createsAlone)
    (Sys.init (Store.empty : Store String)) s ∧
      s.answered 3 (.sendMessage ⟨"bob", "ann", "yo", 2⟩) (.sent "ann") ∧
      ∃ js L, js.Nodup ∧ 3 ∈ js ∧ List.Forall₂ (Wrote s.issued s("ann", "bob")) js L ∧
        s.store.serve id (.getUserChatMessages "ann" "bob") noFault =
          (s.store, [.messages ([] ++ L)]) := by
  obtain ⟨s, hr, hans⟩ : ∃ s, Run (Sys.step id) (onCalls createsAlone)
      (Sys.init (Store.empty : Store String)) s ∧
        s.answered 3 (.sendMessage ⟨"bob", "ann", "yo", 2⟩) (.sent "ann") :=
    Run.exists_of_follow (issueOnePair (.sendMessage ⟨"bob", "ann", "yo", 2⟩) ++ calls 2 5 ++
      calls 3 2 ++ calls 2 4 ++ calls 3 4) (by decide)
  exact ⟨s, hr, hans, sent_once Store.empty structural_empty s hr hans rfl rfl Sym2.eq_swap⟩

/-- Both requests find no chat and create one: the message of the second is never read,
though it was answered with SUCCESS. -/
theorem second_chat_lost : ∃ s, Run (Sys.step id) (fun _ a => a.faultFree)
    (Sys.init (Store.empty : Store String)) s ∧ s.quiet ∧
      s.answered 3 (.sendNewMessage ⟨"bob", "ann", "yo", 2⟩) .success ∧
      (s.store.serve id (.getUserChatMessages "ann" "bob") noFault).2 =
        [.messages [⟨"ann", "hi", 1⟩]] :=
  Run.exists_of_follow (issueOnePair (.sendNewMessage ⟨"bob", "ann", "yo", 2⟩) ++ calls 2 2 ++
    calls 3 2 ++ calls 2 7 ++ calls 3 7) (by decide)

end RecoupChat
