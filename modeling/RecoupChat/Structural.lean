import RecoupChat.Points

/-! The structural invariant of the store, kept by every request whatever its names and
whichever of its calls are rejected, as long as requests are served one after the other. -/
namespace RecoupChat
open Collection Promise
variable {M : Type}

def Logged (s : Store M) (u v : String) (m : M) (t : Int) : Prop :=
  ∃ doc ∈ s.chatIds, doc.pair = s(u, v) ∧
    ∃ es, s.log doc.chatId = some es ∧ ∃ e ∈ es, e.message = m ∧ e.time = t

structure Structural (s : Store M) : Prop where
  idsNodup : (s.chatIds.map (·.chatId)).Nodup
  pairsNodup : (s.chatIds.map (·.pair)).Nodup
  logIdsNodup : (s.chatMessages.map (·.chatId)).Nodup
  logNonempty : ∀ lg ∈ s.chatMessages, lg.messages ≠ []
  logChat : ∀ lg ∈ s.chatMessages, lg.chatId ∈ s.chatIds.map (·.chatId)
  logSender : ∀ lg ∈ s.chatMessages, ∀ doc ∈ s.chatIds, doc.chatId = lg.chatId →
    ∀ e ∈ lg.messages, e.sentBy = doc.user1 ∨ e.sentBy = doc.user2
  rowsNodup : ∀ um ∈ s.userMessages, (um.messages.map (·.toUsername)).Nodup
  rowLogged : ∀ um ∈ s.userMessages, ∀ r ∈ um.messages,
    Logged s um.username r.toUsername r.lastMessage r.lastMessageTime

theorem structural_empty : Structural (Store.empty : Store M) := by
  constructor <;> simp [Store.empty]

theorem Logged.symm {s : Store M} {u v : String} {m : M} {t : Int} (h : Logged s u v m t) :
    Logged s v u m t := by
  obtain ⟨doc, hd, hp, h⟩ := h
  exact ⟨doc, hd, hp.trans Sym2.eq_swap, h⟩

/-! What is logged stays logged: logs only grow. -/

theorem Logged.insertChat {s : Store M} {u v : String} {m : M} {t : Int} (h : Logged s u v m t)
    (doc : ChatId) : Logged (s.insertChat doc) u v m t := by
  obtain ⟨x, hx, h⟩ := h
  exact ⟨x, List.mem_append_left _ hx, h⟩

theorem Logged.insertLog {s : Store M} {u v : String} {m : M} {t : Int} (h : Logged s u v m t)
    (lg : ChatMessages M) : Logged (s.insertLog lg) u v m t := by
  obtain ⟨x, hx, hp, es, he, h⟩ := h
  exact ⟨x, hx, hp, es, by simp [he], h⟩

theorem Logged.push [DecidableEq M] {s : Store M} {u v : String} {m : M} {t : Int}
    (h : Logged s u v m t) (c : Nat) (e : Entry M) : Logged (s.push c e) u v m t := by
  obtain ⟨x, hx, hp, es, he, y, hy, h⟩ := h
  by_cases hc : x.chatId = c
  · exact ⟨x, hx, hp, es ++ [e], by rw [log_push, if_pos hc, ← hc, he]; rfl, y,
      List.mem_append_left _ hy, h⟩
  · exact ⟨x, hx, hp, es, by rw [log_push, if_neg hc, he], y, hy, h⟩

namespace Structural
variable {s : Store M} (h : Structural s)
include h

theorem chat_of_mem {doc : ChatId} {a b : String} (hd : doc ∈ s.chatIds)
    (hp : doc.pair = s(a, b)) : s.chat a b = some doc :=
  findOne_of_key h.pairsNodup hd (links_iff.mpr hp) fun _ hx => (links_iff.mp hx).trans hp.symm

theorem doc_eq {x y : ChatId} (hx : x ∈ s.chatIds) (hy : y ∈ s.chatIds)
    (he : x.chatId = y.chatId) : x = y := List.inj_on_of_nodup_map h.idsNodup hx hy he

theorem nodup_rows {u : String} {rows : List (Row M)} (hr : s.rows u = some rows) :
    (rows.map (·.toUsername)).Nodup := by
  obtain ⟨um, hm, -, rfl⟩ := rows_mem hr
  exact h.rowsNodup um hm

theorem logged_rows {u : String} {rows : List (Row M)} (hr : s.rows u = some rows) :
    ∀ r ∈ rows, Logged s u r.toUsername r.lastMessage r.lastMessageTime := by
  obtain ⟨um, hm, rfl, rfl⟩ := rows_mem hr
  exact h.rowLogged um hm

theorem insertUser (doc : User) : Structural (s.insertUser doc) := { h with }

theorem insertUserMessages (u : String) : Structural (s.insertUserMessages ⟨u, []⟩) where
  __ := h
  rowsNodup um hm := by
    cases List.mem_append.mp hm with
    | inl hm => exact h.rowsNodup um hm
    | inr hm => simp_all
  rowLogged um hm r hr := by
    cases List.mem_append.mp hm with
    | inl hm => exact h.rowLogged um hm r hr
    | inr hm => simp_all

theorem insertChat {n : Nat} {a b : String} (hn : n ∉ s.chatIds.map (·.chatId))
    (hc : s.chat a b = none) : Structural (s.insertChat ⟨n, a, b⟩) where
  __ := h
  idsNodup := nodup_map_concat h.idsNodup hn
  pairsNodup := nodup_map_concat h.pairsNodup (by
    intro hm
    obtain ⟨x, hx, hp⟩ := List.mem_map.mp hm
    exact chat_eq_none.mp hc x hx hp)
  logChat lg hl := by
    have hm := h.logChat lg hl
    simp only [Store.insertChat, List.map_append, List.mem_append]
    exact Or.inl hm
  logSender lg hl doc hd he := by
    cases List.mem_append.mp hd with
    | inl hd => exact h.logSender lg hl doc hd he
    | inr hd =>
      have hm := h.logChat lg hl
      have hc : n = lg.chatId := by simpa [List.mem_singleton.mp hd] using he
      exact absurd (hc ▸ hm) hn
  rowLogged um hm r hr := (h.rowLogged um hm r hr).insertChat _

theorem insertLog {doc : ChatId} {e : Entry M} (hd : doc ∈ s.chatIds)
    (hn : doc.chatId ∉ s.chatMessages.map (·.chatId)) (he : e.sentBy ∈ doc.pair) :
    Structural (s.insertLog ⟨doc.chatId, [e]⟩) where
  __ := h
  logIdsNodup := nodup_map_concat h.logIdsNodup hn
  logNonempty lg hl := by
    cases List.mem_append.mp hl with
    | inl hl => exact h.logNonempty lg hl
    | inr hl => simp_all
  logChat lg hl := by
    cases List.mem_append.mp hl with
    | inl hl => exact h.logChat lg hl
    | inr hl =>
      rw [List.mem_singleton.mp hl]
      exact List.mem_map_of_mem hd
  logSender lg hl x hx hc y hy := by
    cases List.mem_append.mp hl with
    | inl hl => exact h.logSender lg hl x hx hc y hy
    | inr hl =>
      rw [List.mem_singleton.mp hl] at hc hy
      rw [h.doc_eq hx hd hc, List.mem_singleton.mp hy]
      exact Sym2.mem_iff.mp he
  rowLogged um hm r hr := (h.rowLogged um hm r hr).insertLog _

section Update
variable [DecidableEq M]

theorem push {doc : ChatId} {e : Entry M} (hd : doc ∈ s.chatIds) (he : e.sentBy ∈ doc.pair) :
    Structural (s.push doc.chatId e) where
  __ := h
  logIdsNodup := by
    rw [Point.push_logIds]
    exact h.logIdsNodup
  logNonempty lg hl := by
    rcases mem_updateOne hl with hl | ⟨x, -, rfl⟩
    · exact h.logNonempty lg hl
    · simp
  logChat lg hl := by
    rcases mem_updateOne hl with hl | ⟨x, hx, rfl⟩
    · exact h.logChat lg hl
    · exact h.logChat x (findOne_mem hx)
  logSender lg hl x hx hc y hy := by
    rcases mem_updateOne hl with hl | ⟨z, hz, rfl⟩
    · exact h.logSender lg hl x hx hc y hy
    · cases List.mem_append.mp hy with
      | inl hy => exact h.logSender z (findOne_mem hz) x hx hc y hy
      | inr hy =>
        have hid : z.chatId = doc.chatId := by simpa using findOne_matches hz
        rw [h.doc_eq hx hd (hc.trans hid), List.mem_singleton.mp hy]
        exact Sym2.mem_iff.mp he
  rowLogged um hm r hr := (h.rowLogged um hm r hr).push _ _

theorem setRows {u : String} {rows : List (Row M)} (hn : (rows.map (·.toUsername)).Nodup)
    (hl : ∀ r ∈ rows, Logged s u r.toUsername r.lastMessage r.lastMessageTime) :
    Structural (s.setRows u rows) where
  __ := h
  rowsNodup um hm := by
    rcases mem_updateOne hm with hm | ⟨x, -, rfl⟩
    · exact h.rowsNodup um hm
    · exact hn
  rowLogged um hm r hr := by
    rcases mem_updateOne hm with hm | ⟨x, hx, rfl⟩
    · exact h.rowLogged um hm r hr
    · have hu : x.username = u := by simpa using findOne_matches hx
      rw [hu]
      exact hl r hr

end Update
end Structural

/-! A request served alone. -/

def Known (s : Store M) : Point M → Prop
  | .findLast d => s.chat d.sentBy d.sentTo = none
  | .insertChat d n => s.chat d.sentBy d.sentTo = none ∧ n ∉ s.chatIds.map (·.chatId)
  | .insertLog d n => n ∉ s.chatMessages.map (·.chatId) ∧
      ∃ doc ∈ s.chatIds, doc.chatId = n ∧ doc.pair = s(d.sentBy, d.sentTo)
  | .push d c => ∃ doc ∈ s.chatIds, doc.chatId = c ∧ doc.pair = s(d.sentBy, d.sentTo)
  | .findBy _ d | .findTo _ d => Logged s d.sentBy d.sentTo d.message d.timeNow
  | .updateBy _ d rows => Logged s d.sentBy d.sentTo d.message d.timeNow ∧
      (rows.map (·.toUsername)).Nodup ∧
      ∀ r ∈ rows, Logged s d.sentBy r.toUsername r.lastMessage r.lastMessageTime
  | .updateTo _ d rows => (rows.map (·.toUsername)).Nodup ∧
      ∀ r ∈ rows, Logged s d.sentTo r.toUsername r.lastMessage r.lastMessageTime
  | _ => True

section Alone
variable [DecidableEq M] {toLowerCase : String → String}

theorem Structural.putRow {s : Store M} (h : Structural s) {u v : String} {m : M} {t : Int}
    (hl : Logged s u v m t) {create : Bool} {rows rows' : List (Row M)}
    (hr : s.rows u = some rows) (hp : RecoupChat.putRow create v m t rows = some rows') :
    (rows'.map (·.toUsername)).Nodup ∧
      ∀ r ∈ rows', Logged s u r.toUsername r.lastMessage r.lastMessageTime := by
  refine ⟨nodup_putRow hp (h.nodup_rows hr), fun r hm => ?_⟩
  rcases mem_putRow hp hm with hm | rfl
  · exact h.logged_rows hr r hm
  · exact hl

/-- A call of a request served alone keeps the invariant and what the request knows. -/
theorem structural_next (p : Point M) (s : Store M) (h : Structural s ∧ Known s p) :
    Structural (p.next toLowerCase s).1 ∧
      Known (p.next toLowerCase s).1 (p.next toLowerCase s).2 := by
  obtain ⟨hs, hk⟩ := h
  cases p with
  | usersFind d =>
    refine ⟨hs, ?_⟩
    simp only [Point.next]
    split <;> trivial
  | findChat create d =>
    refine ⟨hs, ?_⟩
    cases hc : s.chat d.sentBy d.sentTo with
    | some doc =>
      simp only [Point.next, hc]
      exact ⟨doc, chat_mem hc, rfl, chat_pair hc⟩
    | none => cases create <;> simp [Point.next, hc, Known, Point.failed]
  | push d c =>
    obtain ⟨doc, hd, rfl, hp⟩ := hk
    have he : d.entry.sentBy ∈ doc.pair := hp ▸ Sym2.mem_mk_left _ _
    refine ⟨hs.push hd he, ?_⟩
    simp only [Point.next]
    split
    · rename_i hm
      obtain ⟨es, hes⟩ := Option.isSome_iff_exists.mp ((push_modified s _ _).mp hm)
      exact ⟨doc, hd, hp, es ++ [d.entry], by simp [hes], d.entry, by simp, rfl, rfl⟩
    · trivial
  | findLast d => exact ⟨hs, hk, newChatId_fresh s⟩
  | insertChat d n =>
    have hf : n ∉ s.chatMessages.map (·.chatId) := by
      intro hm
      obtain ⟨lg, hl, rfl⟩ := List.mem_map.mp hm
      exact hk.2 (hs.logChat lg hl)
    exact ⟨hs.insertChat hk.2 hk.1, hf, ⟨n, d.sentBy, d.sentTo⟩, by simp [Point.next, Store.insertChat],
      rfl, rfl⟩
  | insertLog d n =>
    obtain ⟨hf, doc, hd, rfl, hp⟩ := hk
    have he : d.entry.sentBy ∈ doc.pair := hp ▸ Sym2.mem_mk_left _ _
    refine ⟨hs.insertLog hd hf he, doc, hd, hp, [d.entry], ?_, d.entry, by simp, rfl, rfl⟩
    simp [Point.next, log_eq_none.mpr hf]
  | findBy create d =>
    refine ⟨hs, ?_⟩
    simp only [Point.next, Point.afterFind]
    split
    · rename_i rows' hb
      obtain ⟨rows, hr, hp⟩ := Option.bind_eq_some_iff.mp hb
      exact ⟨hk, hs.putRow hk hr hp⟩
    · trivial
  | updateBy create d rows =>
    refine ⟨hs.setRows hk.2.1 hk.2.2, ?_⟩
    simp only [Point.next]
    split
    · exact hk.1
    · trivial
  | findTo create d =>
    refine ⟨hs, ?_⟩
    simp only [Point.next, Point.afterFind]
    split
    · rename_i rows' hb
      obtain ⟨rows, hr, hp⟩ := Option.bind_eq_some_iff.mp hb
      exact hs.putRow hk.symm hr hp
    · trivial
  | updateTo create d rows =>
    refine ⟨hs.setRows hk.1 hk.2, ?_⟩
    simp only [Point.next]
    split <;> trivial
  | insertUser u => exact ⟨hs.insertUser _, trivial⟩
  | insertUserMessages u => exact ⟨hs.insertUserMessages u, trivial⟩
  | findUsernames => exact ⟨hs, trivial⟩
  | findRows u =>
    refine ⟨hs, ?_⟩
    simp only [Point.next]
    split <;> trivial
  | findIds a b =>
    refine ⟨hs, ?_⟩
    simp only [Point.next]
    split <;> trivial
  | findLog a b c =>
    refine ⟨hs, ?_⟩
    simp only [Point.next]
    split <;> trivial
  | answered resp => exact ⟨hs, trivial⟩

theorem structural_serve {s : Store M} (h : Structural s) (r : Request M) (fails : Nat → Bool) :
    Structural (s.serve toLowerCase r fails).1 := by
  have h0 : Structural s ∧ Known s (Point.start r) := ⟨h, by cases r <;> trivial⟩
  obtain ⟨resp, -, hr⟩ := Point.alone_invariant toLowerCase fails
    (I := fun p s => Structural s ∧ Known s p) (fun p s _ => structural_next p s)
    (fun _ _ _ _ hs => ⟨hs.1, trivial⟩) h0
  rw [Point.serve_eq_alone]
  exact hr.1

theorem structural_serveAll {s : Store M} (h : Structural s)
    (rs : List (Request M × (Nat → Bool))) : Structural (s.serveAll toLowerCase rs) := by
  induction rs generalizing s with
  | nil => exact h
  | cons r rs ih => exact ih (structural_serve h r.1 r.2)

/-! Without failing calls every chat has its log. -/

def Complete (s : Store M) : Prop :=
  ∀ doc ∈ s.chatIds, doc.chatId ∈ s.chatMessages.map (·.chatId)

def CompleteBut (s : Store M) (p : Point M) : Prop :=
  ∀ doc ∈ s.chatIds, doc.chatId ∈ s.chatMessages.map (·.chatId) ∨ p.newLog? = some doc.chatId

theorem completeBut_next (p : Point M) (s : Store M) (h : CompleteBut s p) :
    CompleteBut (p.next toLowerCase s).1 (p.next toLowerCase s).2 := by
  intro doc hd
  rw [Point.next_chatIds] at hd
  rw [Point.next_logIds, List.mem_append]
  cases List.mem_append.mp hd with
  | inl hd =>
    cases h doc hd with
    | inl hl => exact Or.inl (Or.inl hl)
    | inr hl => exact Or.inl (Or.inr (by simp [hl]))
  | inr hd =>
    cases p with
    | insertChat d n =>
      have he : doc = ⟨n, d.sentBy, d.sentTo⟩ := by simpa [Point.newChat?] using hd
      exact Or.inr (by simp [Point.next, Point.newLog?, he])
    | _ => simp [Point.newChat?] at hd

theorem complete_serve {s : Store M} (h : Complete s) (r : Request M) :
    Complete (s.serve toLowerCase r noFault).1 := by
  obtain ⟨resp, -, hr⟩ := Point.alone_invariant toLowerCase noFault
    (I := fun p s => CompleteBut s p) (fun p s _ => completeBut_next p s)
    (fun hf => absurd hf not_fails) (p := Point.start r) (s := s) (fun doc hd => Or.inl (h doc hd))
  rw [Point.serve_eq_alone]
  intro doc hd
  simpa [Point.newLog?] using hr doc hd

theorem complete_serveEach {s : Store M} (h : Complete s) (rs : List (Request M)) :
    Complete (s.serveEach toLowerCase rs) := by
  induction rs using List.reverseRecOn with
  | nil => exact h
  | append_singleton rs r ih =>
    rw [serveEach_concat]
    exact complete_serve ih r

/-- Every store reached by requests served one after the other, with arbitrary names and
arbitrary rejected calls, is structurally sound; without a rejected call each chat has
exactly one log. -/
theorem reachable_structural (toLowerCase : String → String)
    (rs : List (Request M × (Nat → Bool))) :
    Structural (Store.empty.serveAll toLowerCase rs) ∧
      ((∀ r ∈ rs, r.2 = noFault) → ∀ doc ∈ (Store.empty.serveAll toLowerCase rs).chatIds,
        ((Store.empty.serveAll toLowerCase rs).chatMessages.filter
          (·.chatId == doc.chatId)).length = 1) := by
  have hs : Structural (Store.empty.serveAll toLowerCase rs) :=
    structural_serveAll structural_empty rs
  refine ⟨hs, fun hf doc hd => ?_⟩
  have he : rs = (rs.map (·.1)).map fun r => (r, noFault) := by
    rw [List.map_map]
    exact (List.map_id' rs).symm.trans (List.map_congr_left fun r hr => Prod.ext rfl (hf r hr))
  have hc : Complete (Store.empty.serveAll toLowerCase rs) := by
    rw [he]
    exact complete_serveEach (s := Store.empty) (fun doc hd => by simp [Store.empty] at hd) (rs.map (·.1))
  have hn := List.count_eq_one_of_mem hs.logIdsNodup (hc doc hd)
  rw [List.count, List.countP_map, List.countP_eq_length_filter] at hn
  exact hn

end Alone
end RecoupChat
