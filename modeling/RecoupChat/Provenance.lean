import RecoupChat.ChatList
import RecoupChat.ChatOrder
import RecoupChat.MonotonicReads

/-! Where everything in the store comes from, in every interleaving: which requests submitted
the entries of all logs together, and the messages that the rows show. -/
namespace RecoupChat
open Promise Transition Collection
variable {M : Type}

/-- The entries of all documents of `chat_messages`, also of one that no lookup finds. -/
def Store.allEntries (s : Store M) : List (Entry M) := s.chatMessages.flatMap (·.messages)

namespace Point

def stores (s : Store M) : Point M → List (Entry M)
  | .push d c => if (s.log c).isSome then [d.entry] else []
  | .insertLog d _ => [d.entry]
  | _ => []

def stored : Point M → Bool
  | .findBy _ _ | .updateBy _ _ _ | .findTo _ _ | .updateTo _ _ _ => true
  | .answered resp => resp.status = .SUCCESS
  | _ => false

theorem stores_cases (p : Point M) (s : Store M) :
    p.stores s = [] ∨ ∃ d, p.stores s = [d.entry] ∧ p.toAppend = true ∧
      ∀ r, p.Of r → r.send? = some d := by
  cases p with
  | push d c =>
    by_cases h : (s.log c).isSome
    · exact Or.inr ⟨d, if_pos h, rfl, fun r hr => hr⟩
    · exact Or.inl (if_neg h)
  | insertLog d n => exact Or.inr ⟨d, rfl, rfl, fun r hr => hr⟩
  | _ => exact Or.inl rfl

section Next
variable [DecidableEq M] (toLowerCase : String → String)

theorem allEntries_push (s : Store M) (c : Nat) (e : Entry M) :
    (s.push c e).allEntries.Perm
      (s.allEntries ++ if (s.log c).isSome then [e] else []) := by
  have hdocs (docs : List (ChatMessages M)) :
      ((pushIn c e docs).1.flatMap (·.messages)).Perm (docs.flatMap (·.messages) ++
        if (findOne (fun d : ChatMessages M => d.chatId == c) docs).isSome then [e] else []) := by
    induction docs with
    | nil => simp [pushIn, updateOne, findOne]
    | cons d docs ih =>
      by_cases hd : (d.chatId == c) = true
      · have hcomm : ([e] ++ docs.flatMap (·.messages)).Perm (docs.flatMap (·.messages) ++ [e]) :=
          List.perm_append_comm
        simpa [pushIn, updateOne, findOne, hd] using hcomm.append_left d.messages
      · simp only [pushIn, updateOne, findOne, hd, List.find?_cons] at ih ⊢
        simpa [List.flatMap_cons] using ih.append_left d.messages
  simpa [Store.allEntries, Store.push, Store.log, Store.logDoc] using hdocs s.chatMessages

theorem allEntries_next (p : Point M) (s : Store M) :
    (p.next toLowerCase s).1.allEntries.Perm (s.allEntries ++ p.stores s) := by
  cases p with
  | push d c => exact allEntries_push s c d.entry
  | insertLog d n => simp [next, Store.allEntries, Store.insertLog, stores]
  | _ => simp [next, Store.allEntries, stores, Store.insertUser, Store.insertUserMessages,
      Store.insertChat, Store.setRows]

theorem toAppend_of_stores {p : Point M} {s : Store M} (h : p.stores s ≠ []) :
    (p.next toLowerCase s).2.toAppend = false := by
  cases p with
  | push d c => simp only [next]; split <;> rfl
  | insertLog d n => rfl
  | _ => exact absurd rfl h

theorem stored_next {r : Request M} {p : Point M} {s : Store M} (hof : p.Of r)
    (hr : r.send? ≠ none) (h : (p.next toLowerCase s).2.stored = true) :
    p.stored = true ∨ p.stores s ≠ [] := by
  have hg := goes toLowerCase p s
  generalize (p.next toLowerCase s).2 = q at hg h
  cases hg with
  | pushed d c hl => exact Or.inr (by simp [stores, hl])
  | logInserted d n => exact Or.inr (by simp [stores])
  | readBy | wroteBy | readTo | wroteTo => exact Or.inl rfl
  | stay resp => exact Or.inl h
  | added u => exact absurd (by rw [show r = .addNewUser u from hof]; rfl) hr
  | usernames us => exact absurd (by rw [show r = .getExistingUsernames from hof]; rfl) hr
  | chats u rows => exact absurd (by rw [show r = .getUserChats u from hof]; rfl) hr
  | read a b c hl => exact absurd (by rw [show r = .getUserChatMessages a b from hof]; rfl) hr
  | _ => cases h

theorem mem_userMessages_next {p : Point M} {s : Store M} {um : UserMessages M}
    (h : um ∈ (p.next toLowerCase s).1.userMessages) :
    um ∈ s.userMessages ∨ um.messages = [] ∨ p.copy? = some (um.username, um.messages) := by
  have hset {u : String} {rows : List (Row M)} (h : um ∈ (s.setRows u rows).userMessages) :
      um ∈ s.userMessages ∨ (u, rows) = (um.username, um.messages) := by
    obtain h | ⟨d, hd, rfl⟩ := mem_updateOne h
    · exact Or.inl h
    · have hu : d.username = u := by simpa using findOne_matches hd
      exact Or.inr (by rw [← hu])
  cases p with
  | updateBy create d rows => exact (hset h).imp_right fun he => Or.inr (congrArg some he)
  | updateTo create d rows => exact (hset h).imp_right fun he => Or.inr (congrArg some he)
  | insertUserMessages u =>
    obtain h | h := List.mem_append.mp h
    · exact Or.inl h
    · rw [List.mem_singleton.mp h]
      exact Or.inr (Or.inl rfl)
  | _ => exact Or.inl h

theorem copy_read {p : Point M} {s : Store M} {u : String} {rows' : List (Row M)}
    (hc : p.call? ≠ none) (h : (p.next toLowerCase s).2.copy? = some (u, rows')) :
    p.stored = true ∧ ∃ create d v rows, (∀ r, p.Of r → r.send? = some d) ∧
      s(d.sentBy, d.sentTo) = s(u, v) ∧ s.rows u = some rows ∧
      putRow create v d.message d.timeNow rows = some rows' := by
  have hg := goes toLowerCase p s
  generalize hq : (p.next toLowerCase s).2 = q at hg h
  cases hg with
  | readBy create d hr hp =>
    cases h
    exact ⟨rfl, create, d, d.sentTo, _, fun r hof => hof, rfl, hr, hp⟩
  | readTo create d hr hp =>
    cases h
    exact ⟨rfl, create, d, d.sentBy, _, fun r hof => hof, Sym2.eq_swap, hr, hp⟩
  | stay resp => exact absurd rfl hc
  | _ => cases h

end Next
end Point

def Submitted (rs : List (Request M)) (j : Nat) (e : Entry M) : Prop := ∃ P, Wrote rs P j e

/-- Each partner has one row, which shows what one of the requests `js` sent between the
two. -/
structure Genuine (rs : List (Request M)) (js : List Nat) (u : String) (rows : List (Row M)) :
    Prop where
  nodup : (names rows).Nodup
  shown : ∀ row ∈ rows, ∃ j ∈ js, ∃ sentBy,
    Wrote rs s(u, row.toUsername) j ⟨sentBy, row.lastMessage, row.lastMessageTime⟩

/-- The entries of all logs were submitted by the requests `js`, one by each of them, and the
rows, stored or about to be written, show what they sent. -/
structure Accounted (js : List Nat) (ps : PSys M) : Prop where
  of : ps.Each fun _ r p => p.Of r
  nodup : js.Nodup
  entries : ∃ es, ps.store.allEntries.Perm es ∧ List.Forall₂ (Submitted ps.issued) js es
  past : ps.Each fun j _ p => j ∈ js → p.toAppend = false
  stored : ps.Each fun j r p => r.send? ≠ none → p.stored = true → j ∈ js
  rows : ∀ um ∈ ps.store.userMessages, Genuine ps.issued js um.username um.messages
  copies : ps.Each fun _ _ p => ∀ u rows, p.copy? = some (u, rows) → Genuine ps.issued js u rows

theorem submitted_concat {rs : List (Request M)} {j : Nat} {e : Entry M} (h : Submitted rs j e)
    (r : Request M) : Submitted (rs ++ [r]) j e :=
  h.imp fun _ hw => wrote_concat hw r

theorem Genuine.mono {rs rs' : List (Request M)} {js js' : List Nat} {u : String}
    {rows : List (Row M)} (h : Genuine rs js u rows) (hjs : js ⊆ js')
    (hw : ∀ P j e, Wrote rs P j e → Wrote rs' P j e) : Genuine rs' js' u rows where
  nodup := h.nodup
  shown row hrow := by
    obtain ⟨j, hj, sentBy, hwrote⟩ := h.shown row hrow
    exact ⟨j, hjs hj, sentBy, hw _ _ _ hwrote⟩

theorem Genuine.issue {ps : PSys M} {js : List Nat} {u : String} {rows : List (Row M)}
    (h : Genuine ps.issued js u rows) (r : Request M) : Genuine (ps.issue r).issued js u rows :=
  h.mono (List.Subset.refl _) fun P j e hw => by
    rw [issued_issue]
    exact wrote_concat hw r

theorem Genuine.perm {rs : List (Request M)} {js : List Nat} {u : String} {rows rows' : List (Row M)}
    (h : Genuine rs js u rows) (hp : rows'.Perm rows) : Genuine rs js u rows' where
  nodup := (hp.map _).nodup_iff.mpr h.nodup
  shown row hrow := h.shown row (hp.subset hrow)

theorem genuine_nil (rs : List (Request M)) (js : List Nat) (u : String) : Genuine rs js u [] where
  nodup := List.nodup_nil
  shown _ h := by cases h

theorem Genuine.putRow [DecidableEq M] {rs : List (Request M)} {js : List Nat} {u v : String}
    {rows rows' : List (Row M)} (h : Genuine rs js u rows) {create : Bool} {d : Send M} {j : Nat}
    (hj : j ∈ js) (hw : Wrote rs s(d.sentBy, d.sentTo) j d.entry)
    (hpair : s(d.sentBy, d.sentTo) = s(u, v))
    (hp : putRow create v d.message d.timeNow rows = some rows') : Genuine rs js u rows' where
  nodup := nodup_putRow hp h.nodup
  shown row hrow := by
    obtain hold | rfl := mem_putRow hp hrow
    · exact h.shown row hold
    · exact ⟨j, hj, d.sentBy, hpair ▸ hw⟩

theorem accounted_init : Accounted [] (⟨Store.empty, []⟩ : PSys M) where
  of := each_init _
  nodup := List.nodup_nil
  entries := ⟨[], .refl _, .nil⟩
  past := each_init _
  stored := each_init _
  rows um h := by cases h
  copies := each_init _

namespace Accounted
variable {js : List Nat} {ps : PSys M} (h : Accounted js ps)
include h

theorem lt_length {j : Nat} (hj : j ∈ js) : j < ps.requests.length := by
  obtain ⟨es, -, hf⟩ := h.entries
  have hlt : List.Forall₂ (fun j e => j < ps.requests.length ∧ Submitted ps.issued j e) js es :=
    hf.imp fun j e hs => by
      obtain ⟨P, r, d, hr, -⟩ := id hs
      obtain ⟨hlt, -⟩ := List.getElem?_eq_some_iff.mp hr
      exact ⟨by simpa [PSys.issued] using hlt, hs⟩
  exact ((List.forall₂_and_left _ _).mp hlt).1 j hj

theorem issue (r : Request M) : Accounted js (ps.issue r) := by
  have hmono {u : String} {rows : List (Row M)} (hg : Genuine ps.issued js u rows) :
      Genuine (ps.issue r).issued js u rows := hg.issue r
  refine ⟨each_issue h.of (Point.of_start r), h.nodup, ?_, each_issue h.past ?_,
    each_issue h.stored ?_, fun um hm => hmono (h.rows um hm), each_issue ?_ ?_⟩
  · obtain ⟨es, hp, hf⟩ := h.entries
    refine ⟨es, hp, hf.imp fun j e hs => ?_⟩
    rw [issued_issue]
    exact submitted_concat hs r
  · exact fun hj => absurd (h.lt_length hj) (lt_irrefl _)
  · exact fun _ hs => by cases r <;> cases hs
  · exact fun j r' q hj u rows hq => hmono (h.copies j r' q hj u rows hq)
  · exact fun u rows hq => by cases r <;> cases hq

theorem reject {i : Nat} {r : Request M} {p : Point M} (hi : ps.requests[i]? = some (r, p)) :
    Accounted js (ps.reject i r) := by
  have hissued : (ps.reject i r).issued = ps.issued := issued_reject hi
  refine ⟨each_reject h.of trivial, h.nodup, ?_, each_reject h.past fun _ => rfl,
    each_reject h.stored ?_, ?_, ?_⟩
  · rw [hissued]
    exact h.entries
  · exact fun _ hs => by simp [Point.failed, Point.stored, Response.status] at hs
  · rw [hissued]
    exact h.rows
  · rw [hissued]
    exact each_reject h.copies fun u rows hq => by cases hq

theorem submitted {i : Nat} {r : Request M} {p : Point M} (hi : ps.requests[i]? = some (r, p)) :
    List.Forall₂ (Submitted ps.issued) ((p.stores ps.store).map fun _ => i)
      (p.stores ps.store) := by
  obtain he | ⟨d, he, -, hr⟩ := p.stores_cases ps.store
  · rw [he]
    exact .nil
  · rw [he]
    exact .cons ⟨_, r, d, issued_get hi, hr r (h.of i r p hi), rfl, rfl⟩ .nil

theorem stored_of_genuine {u : String} {rows : List (Row M)} (hg : Genuine ps.issued js u rows) :
    ∀ row ∈ rows, ∃ j, ∃ e : Entry M, e ∈ ps.store.allEntries ∧ e.message = row.lastMessage ∧
      e.time = row.lastMessageTime ∧ Wrote ps.issued s(u, row.toUsername) j e := by
  intro row hrow
  obtain ⟨j, hj, sentBy, hw⟩ := hg.shown row hrow
  refine ⟨j, _, ?_, rfl, rfl, hw⟩
  obtain ⟨es, hp, hf⟩ := h.entries
  obtain ⟨e, he, P, hwe⟩ : ∃ e ∈ es, Submitted ps.issued j e := by
    obtain ⟨k, hk, rfl⟩ := List.getElem_of_mem hj
    have hk' : k < es.length := hf.length_eq ▸ hk
    exact ⟨es[k], List.getElem_mem hk', (List.forall₂_iff_get.mp hf).2 k hk hk'⟩
  -- a request submits one entry only
  obtain ⟨r, d, hr, hd, -, hentry⟩ := hw
  obtain ⟨r', d', hr', hd', -, hentry'⟩ := hwe
  obtain rfl := Option.some.inj (hr.symm.trans hr')
  obtain rfl := Option.some.inj (hd.symm.trans hd')
  rw [← hentry, hentry']
  exact hp.mem_iff.mpr he

variable [DecidableEq M] {toLowerCase : String → String}

theorem fulfil {i : Nat} {r : Request M} {p : Point M} (hi : ps.requests[i]? = some (r, p))
    (hc : p.call? ≠ none) :
    Accounted (js ++ (p.stores ps.store).map fun _ => i) (ps.fulfil toLowerCase i r p) := by
  have hof := h.of i r p hi
  have hissued : (ps.fulfil toLowerCase i r p).issued = ps.issued := issued_fulfil hi
  have hgrow {u : String} {rows : List (Row M)} (hg : Genuine ps.issued js u rows) :
      Genuine ps.issued (js ++ (p.stores ps.store).map fun _ => i) u rows :=
    hg.mono (List.subset_append_left _ _) fun _ _ _ hw => hw
  -- request `i` is among the authors as soon as its entry is stored
  have hauthor : r.send? ≠ none → (p.stored = true ∨ p.stores ps.store ≠ []) →
      i ∈ js ++ (p.stores ps.store).map fun _ => i := by
    rintro hr (hs | hs)
    · exact List.mem_append_left _ (h.stored i r p hi hr hs)
    · obtain ⟨e, he⟩ := List.exists_mem_of_ne_nil _ hs
      exact List.mem_append_right _ (List.mem_map.mpr ⟨e, he, rfl⟩)
  refine ⟨each_fulfil (fun j r' q _ hj => h.of j r' q hj) (Point.of_next toLowerCase ps.store hof),
    ?_, ?_, each_fulfil ?_ ?_, each_fulfil ?_ ?_, ?_, ?_⟩
  · obtain he | ⟨d, he, hap, -⟩ := p.stores_cases ps.store
    · simpa [he] using h.nodup
    · have hnew : i ∉ js := fun hm => by simp [h.past i r p hi hm] at hap
      simpa [he] using List.Nodup.append h.nodup (List.nodup_singleton i) (by simpa using hnew)
  · obtain ⟨es, hp, hf⟩ := h.entries
    rw [hissued]
    exact ⟨es ++ p.stores ps.store,
      (Point.allEntries_next toLowerCase p ps.store).trans (hp.append_right _),
      List.rel_append hf (h.submitted hi)⟩
  · intro j r' q hne hj hm
    obtain hm | hm := List.mem_append.mp hm
    · exact h.past j r' q hj hm
    · obtain ⟨e, -, he⟩ := List.mem_map.mp hm
      exact absurd he.symm hne
  · intro hm
    obtain hm | hm := List.mem_append.mp hm
    · exact Point.toAppend_next toLowerCase ps.store (h.past i r p hi hm)
    · obtain ⟨e, he, -⟩ := List.mem_map.mp hm
      exact Point.toAppend_of_stores toLowerCase (List.ne_nil_of_mem he)
  · exact fun j r' q _ hj hr hs => List.mem_append_left _ (h.stored j r' q hj hr hs)
  · exact fun hr hs => hauthor hr (Point.stored_next toLowerCase hof hr hs)
  · intro um hm
    rw [hissued]
    obtain hm | he | hcopy := Point.mem_userMessages_next toLowerCase hm
    · exact hgrow (h.rows um hm)
    · rw [he]
      exact genuine_nil _ _ _
    · exact hgrow (h.copies i r p hi _ _ hcopy)
  · rw [hissued]
    refine each_fulfil (fun j r' q _ hj u rows hq => hgrow (h.copies j r' q hj u rows hq))
      fun u rows' hq => ?_
    obtain ⟨hs, create, d, v, rows, hd, hpair, hr, hput⟩ := Point.copy_read toLowerCase hc hq
    have hsend := hd r hof
    have hj : i ∈ js ++ (p.stores ps.store).map fun _ => i :=
      hauthor (by rw [hsend]; exact Option.some_ne_none d) (Or.inl hs)
    obtain ⟨um, hm, rfl, rfl⟩ := rows_mem hr
    exact (hgrow (h.rows um hm)).putRow hj ⟨r, d, issued_get hi, hsend, rfl, rfl⟩ hpair hput

end Accounted

section Runs
variable [DecidableEq M] {toLowerCase : String → String}

theorem accounted_run {s : Sys M}
    (hr : Run (Sys.step toLowerCase) (fun _ _ => True) (Sys.init Store.empty) s) :
    ∃ js ps, ps.sys toLowerCase = s ∧ Accounted js ps := by
  obtain ⟨ps, rfl, hrun⟩ := Run.lift (f := PSys.sys toLowerCase) step_sys
    (p := ⟨Store.empty, []⟩) hr
  obtain ⟨js, h⟩ : ∃ js, Accounted js ps := by
    refine hrun.invariant (I := fun ps => ∃ js, Accounted js ps) ⟨[], accounted_init⟩ ?_
    rintro ps1 a ps2 ⟨js, hI⟩ - hs
    cases steps hs with
    | issue r => exact ⟨js, hI.issue r⟩
    | fulfil i r p hi hc => exact ⟨_, hI.fulfil hi hc⟩
    | reject i r p hi hc => exact ⟨js, hI.reject hi⟩
  exact ⟨js, ps, rfl, h⟩

/-- In every run from the empty store, with any calls rejected: the entries of all logs
together were submitted by different sends, one entry by each of them, and every send that has
answered SUCCESS is one of these. -/
theorem entries_accounted (s : Sys M)
    (hr : Run (Sys.step toLowerCase) (fun _ _ => True) (Sys.init Store.empty) s) :
    ∃ js es, js.Nodup ∧ s.store.allEntries.Perm es ∧ List.Forall₂ (Submitted s.issued) js es ∧
      ∀ (i : Nat) r resp, r.send? ≠ none → s.answered i r resp → resp.status = .SUCCESS → i ∈ js := by
  obtain ⟨js, ps, rfl, h⟩ := accounted_run hr
  obtain ⟨es, hp, hf⟩ := h.entries
  refine ⟨js, es, h.nodup, hp, ?_, fun i r resp hsend hans hok => ?_⟩
  · rw [issued_sys]
    exact hf
  · exact h.stored i r _ (answered_sys hans) hsend (decide_eq_true hok)

/-- Also where two chats have come to share an id. -/
theorem entries_accounted_collide : ∃ s : Sys String, ¬ (s.store.chatIds.map (·.chatId)).Nodup ∧
    ∃ js es, js.Nodup ∧ s.store.allEntries.Perm es ∧ List.Forall₂ (Submitted s.issued) js es ∧
      ∀ (i : Nat) r resp, r.send? ≠ none → s.answered i r resp → resp.status = .SUCCESS → i ∈ js := by
  obtain ⟨s, hr, hids⟩ : ∃ s, Run (Sys.step id) (fun _ _ => True)
      (Sys.init (Store.empty : Store String)) s ∧ ¬ (s.store.chatIds.map (·.chatId)).Nodup :=
    Run.exists_of_follow collide (by decide)
  exact ⟨s, hids, entries_accounted s hr⟩

/-- In every run from the empty store, with any calls rejected, each array has one row for a
partner, which shows the text and the time of an entry that is stored in a log and was sent
between the two users. -/
theorem rows_accounted (s : Sys M)
    (hr : Run (Sys.step toLowerCase) (fun _ _ => True) (Sys.init Store.empty) s) :
    ∀ um ∈ s.store.userMessages, (names um.messages).Nodup ∧ ∀ row ∈ um.messages, ∃ j, ∃ e : Entry M,
      e ∈ s.store.allEntries ∧ e.message = row.lastMessage ∧ e.time = row.lastMessageTime ∧
        Wrote s.issued s(um.username, row.toUsername) j e := by
  obtain ⟨js, ps, rfl, h⟩ := accounted_run hr
  intro um hm
  rw [issued_sys]
  exact ⟨(h.rows um hm).nodup, h.stored_of_genuine (h.rows um hm)⟩

theorem rows_accounted_annAndBob : ∃ s : Sys String,
    ⟨"ann", [⟨"bob", "hi", 1⟩]⟩ ∈ s.store.userMessages ∧ ∃ j, ∃ e : Entry String,
      e ∈ s.store.allEntries ∧ e.message = "hi" ∧ e.time = 1 ∧
        Wrote s.issued s("ann", "bob") j e := by
  obtain ⟨s, hr, hm⟩ : ∃ s, Run (Sys.step id) (fun _ _ => True)
      (Sys.init (Store.empty : Store String)) s ∧
        ⟨"ann", [⟨"bob", "hi", 1⟩]⟩ ∈ s.store.userMessages :=
    Run.exists_of_follow readOnce (by decide)
  exact ⟨s, hm, (rows_accounted s hr _ hm).2 ⟨"bob", "hi", 1⟩ List.mem_cons_self⟩

def ListsRead (js : List Nat) (ps : PSys M) : Prop :=
  ps.Each fun _ r p => ∀ u rows, r = .getUserChats u → p = .answered (.chats rows) →
    Genuine ps.issued js u rows ∧ ((∀ r ∈ rows, IsDate r.lastMessageTime) →
      rows.Pairwise fun r r' => r'.lastMessageTime ≤ r.lastMessageTime)

omit [DecidableEq M] in
theorem listsRead_issue {js : List Nat} {ps : PSys M} (h : ListsRead js ps) (r : Request M) :
    ListsRead js (ps.issue r) := by
  refine each_issue (fun i r' p hi u rows hr hp => ?_) fun u rows hr hp => ?_
  · obtain ⟨hg, hsort⟩ := h i r' p hi u rows hr hp
    exact ⟨hg.issue r, hsort⟩
  · cases r <;> cases hp

omit [DecidableEq M] in
theorem listsRead_reject {js : List Nat} {ps : PSys M} (h : ListsRead js ps) {i : Nat}
    {r : Request M} {p : Point M} (hi : ps.requests[i]? = some (r, p)) :
    ListsRead js (ps.reject i r) := by
  have hissued : (ps.reject i r).issued = ps.issued := issued_reject hi
  rw [ListsRead, hissued]
  exact each_reject h fun u rows hr hp => by cases hp

theorem listsRead_fulfil {js : List Nat} {ps : PSys M} (ha : Accounted js ps) (h : ListsRead js ps)
    {i : Nat} {r : Request M} {p : Point M} (hi : ps.requests[i]? = some (r, p))
    (hc : p.call? ≠ none) :
    ListsRead (js ++ (p.stores ps.store).map fun _ => i) (ps.fulfil toLowerCase i r p) := by
  have hissued : (ps.fulfil toLowerCase i r p).issued = ps.issued := issued_fulfil hi
  have hgrow {u : String} {rows : List (Row M)} (hg : Genuine ps.issued js u rows) :
      Genuine ps.issued (js ++ (p.stores ps.store).map fun _ => i) u rows :=
    hg.mono (List.subset_append_left _ _) fun _ _ _ hw => hw
  rw [ListsRead, hissued]
  refine each_fulfil (fun j r' q _ hj u rows hr hq => ?_) fun u rows hr hq => ?_
  · obtain ⟨hg, hsort⟩ := h j r' q hj u rows hr hq
    exact ⟨hgrow hg, hsort⟩
  · subst hr
    have hof := ha.of i _ p hi
    cases p with
    | findRows u' =>
      obtain rfl : u = u' := Request.getUserChats.inj hof
      simp only [Point.next] at hq
      split at hq
      · rename_i stored hstored
        obtain rfl := Response.chats.inj (Point.answered.inj hq)
        have hsort := (SignSort.merge (newestFirst (M := M))).sorts stored
        obtain ⟨um, hm, rfl, rfl⟩ := rows_mem hstored
        refine ⟨hgrow ((ha.rows um hm).perm hsort.perm), fun hdates => ?_⟩
        exact newest_first_of_sorts hsort fun r hr => hdates r (hsort.perm.mem_iff.mpr hr)
      · obtain rfl := Response.chats.inj (Point.answered.inj hq)
        exact ⟨genuine_nil _ _ _, fun _ => List.Pairwise.nil⟩
    | answered resp => exact absurd rfl hc
    | _ => cases hof

/-- In every run from the empty store, with any calls rejected: each list of chats that was
answered has one row for a partner and, if the times of its rows are dates, the newest row first,
and each row shows the text and the time of an entry that is stored in a log and was sent between
the two users. -/
theorem lists_accounted (s : Sys M)
    (hr : Run (Sys.step toLowerCase) (fun _ _ => True) (Sys.init Store.empty) s) {i : Nat}
    {u : String} {rows : List (Row M)} (h : s.answered i (.getUserChats u) (.chats rows)) :
    (names rows).Nodup ∧
      ((∀ r ∈ rows, IsDate r.lastMessageTime) →
        rows.Pairwise fun r r' => r'.lastMessageTime ≤ r.lastMessageTime) ∧
      ∀ row ∈ rows, ∃ j, ∃ e : Entry M, e ∈ s.store.allEntries ∧ e.message = row.lastMessage ∧
        e.time = row.lastMessageTime ∧ Wrote s.issued s(u, row.toUsername) j e := by
  obtain ⟨ps, rfl, hrun⟩ := Run.lift (f := PSys.sys toLowerCase) step_sys
    (p := ⟨Store.empty, []⟩) hr
  obtain ⟨js, ha, hl⟩ : ∃ js, Accounted js ps ∧ ListsRead js ps := by
    refine hrun.invariant (I := fun ps => ∃ js, Accounted js ps ∧ ListsRead js ps)
      ⟨[], accounted_init, each_init _⟩ ?_
    rintro ps1 a ps2 ⟨js, hI, hJ⟩ - hs
    cases steps hs with
    | issue r => exact ⟨js, hI.issue r, listsRead_issue hJ r⟩
    | fulfil i r p hi hc => exact ⟨_, hI.fulfil hi hc, listsRead_fulfil hI hJ hi hc⟩
    | reject i r p hi hc => exact ⟨js, hI.reject hi, listsRead_reject hJ hi⟩
  obtain ⟨hg, hsort⟩ := hl i _ _ (answered_sys h) u rows rfl rfl
  rw [issued_sys]
  exact ⟨hg.nodup, hsort, ha.stored_of_genuine hg⟩

def readBetween : List (Action String) :=
  readOnce ++ [.issue (.sendMessage ⟨"bob", "ann", "hey", 2⟩)] ++ calls 4 2 ++
    [.issue (.getUserChats "ann")] ++ calls 5 1

theorem lists_accounted_annAndBob : ∃ s : Sys String,
    s.answered 5 (.getUserChats "ann") (.chats [⟨"bob", "hi", 1⟩]) ∧ ∃ j, ∃ e : Entry String,
      e ∈ s.store.allEntries ∧ e.message = "hi" ∧ e.time = 1 ∧
        Wrote s.issued s("ann", "bob") j e := by
  obtain ⟨s, hr, hans⟩ : ∃ s, Run (Sys.step id) (fun _ _ => True)
      (Sys.init (Store.empty : Store String)) s ∧
        s.answered 5 (.getUserChats "ann") (.chats [⟨"bob", "hi", 1⟩]) :=
    Run.exists_of_follow readBetween (by decide +kernel)
  exact ⟨s, hans, (lists_accounted s hr hans).2.2 ⟨"bob", "hi", 1⟩ List.mem_cons_self⟩

end Runs
end RecoupChat
