import RecoupChat.Isolation

/-! The ids that chats are given: none is ever skipped, in whatever order ids are read and
chats are inserted, so that a shared id shows in the count of the chats. -/
namespace RecoupChat
open Promise Transition
variable {M : Type}

theorem newChatId_le {s : Store M} {n : Nat} (h : ∀ doc ∈ s.chatIds, doc.chatId < n) :
    newChatId s.lastChat ≤ n := by
  cases hl : s.lastChat with
  | nil => exact Nat.zero_le n
  | cons doc docs => exact h doc (lastChat_max hl).1

theorem newChatId_insertChat (s : Store M) (doc : ChatId) :
    newChatId (s.insertChat doc).lastChat = max (newChatId s.lastChat) (doc.chatId + 1) := by
  apply Nat.le_antisymm
  · refine newChatId_le fun x hx => ?_
    obtain hx | hx := List.mem_append.mp hx
    · exact (lt_newChatId hx).trans_le (Nat.le_max_left _ _)
    · rw [List.mem_singleton.mp hx]
      exact Nat.le_max_right (newChatId s.lastChat) (doc.chatId + 1)
  · have hold : newChatId s.lastChat ≤ newChatId (s.insertChat doc).lastChat :=
      newChatId_le fun x hx => lt_newChatId (List.mem_append_left _ hx)
    have hnew : doc.chatId < newChatId (s.insertChat doc).lastChat :=
      lt_newChatId (List.mem_append_right _ List.mem_cons_self)
    omega

theorem nodup_iff_length {l : List Nat} {k : Nat} (h : ∀ c, c ∈ l ↔ c < k) :
    l.Nodup ↔ l.length = k := by
  have hmem : ∀ c, c ∈ List.range k ↔ c ∈ l := fun c => List.mem_range.trans (h c).symm
  constructor
  · intro hn
    have hp : (List.range k).Perm l :=
      (List.perm_ext_iff_of_nodup List.nodup_range hn).mpr hmem
    exact hp.length_eq.symm.trans List.length_range
  · intro hlen
    have hsub : (List.range k).Subperm l :=
      List.subperm_of_subset List.nodup_range fun c hc => (hmem c).mp hc
    have hp : (List.range k).Perm l := hsub.perm_of_length_le (by simp [hlen])
    exact hp.nodup_iff.mp List.nodup_range

/-- The ids in use are those below the next one, and no chat is about to be inserted with a
later one. -/
structure Dense (ps : PSys M) : Prop where
  ids : ∀ c, c ∈ ps.store.chatIds.map (·.chatId) ↔ c < newChatId ps.store.lastChat
  pending : ps.Each fun _ _ p => ∀ d n, p = .insertChat d n → n ≤ newChatId ps.store.lastChat

theorem dense_init : Dense (⟨Store.empty, []⟩ : PSys M) where
  ids c := by simp [Store.empty, Store.lastChat, newChatId]
  pending := each_init _

theorem dense_insertChat {s : Store M}
    (h : ∀ c, c ∈ s.chatIds.map (·.chatId) ↔ c < newChatId s.lastChat) {doc : ChatId}
    (hd : doc.chatId ≤ newChatId s.lastChat) (c : Nat) :
    c ∈ (s.insertChat doc).chatIds.map (·.chatId) ↔ c < newChatId (s.insertChat doc).lastChat := by
  rw [newChatId_insertChat, Store.insertChat, List.map_append, List.mem_append, h c]
  simp only [List.map_cons, List.map_nil, List.mem_singleton]
  omega

variable [DecidableEq M] {toLowerCase : String → String}

theorem Dense.fulfil {ps : PSys M} (h : Dense ps) {i : Nat} {r : Request M} {p : Point M}
    (hi : ps.requests[i]? = some (r, p)) : Dense (ps.fulfil toLowerCase i r p) := by
  have hids := Point.next_chatIds toLowerCase p ps.store
  cases hp : p.newChat? with
  | none =>
    have hsame : (p.next toLowerCase ps.store).1.chatIds = ps.store.chatIds := by
      rw [hids, hp]
      exact List.append_nil _
    have hlast := lastChat_congr hsame
    refine ⟨?_, each_fulfil (fun j r' q _ hj d n hq => ?_) fun d n hq => ?_⟩
    · rw [PSys.fulfil, hsame, hlast]
      exact h.ids
    · rw [PSys.fulfil, hlast]
      exact h.pending j r' q hj d n hq
    · rw [PSys.fulfil, hlast, insertChat_next hq]
  | some doc =>
    obtain ⟨d, n, rfl⟩ : ∃ d n, p = .insertChat d n := by
      cases p with
      | insertChat d n => exact ⟨d, n, rfl⟩
      | _ => cases hp
    have hn : n ≤ newChatId ps.store.lastChat := h.pending i r _ hi d n rfl
    refine ⟨dense_insertChat h.ids hn, each_fulfil (fun j r' q _ hj d' n' hq => ?_)
      fun d' n' hq => by cases hq⟩
    have hle : n' ≤ newChatId ps.store.lastChat := h.pending j r' q hj d' n' hq
    exact hle.trans ((Nat.le_max_left _ _).trans_eq (newChatId_insertChat ps.store _).symm)

theorem dense_step {ps ps' : PSys M} {a : Action M} (h : Dense ps)
    (hs : ps.step toLowerCase a = some ps') : Dense ps' := by
  cases steps hs with
  | issue r =>
    exact ⟨h.ids, each_issue h.pending fun d n hp => by cases r <;> cases hp⟩
  | fulfil i r p hi hc => exact h.fulfil hi
  | reject i r p hi hc => exact ⟨h.ids, each_reject h.pending fun d n hp => by cases hp⟩

/-- In every run from the empty store, with any calls rejected, the ids in use are exactly those
below the one that the next chat will get. So ids are unique as long as that one is the number
of chats. -/
theorem ids_dense (s : Sys M)
    (hr : Run (Sys.step toLowerCase) (fun _ _ => True) (Sys.init Store.empty) s) :
    (∀ c, c ∈ s.store.chatIds.map (·.chatId) ↔ c < newChatId s.store.lastChat) ∧
      ((s.store.chatIds.map (·.chatId)).Nodup ↔
        s.store.chatIds.length = newChatId s.store.lastChat) := by
  obtain ⟨ps, rfl, hrun⟩ := Run.lift (f := PSys.sys toLowerCase) step_sys
    (p := ⟨Store.empty, []⟩) hr
  have h : Dense ps := hrun.invariant dense_init fun _ _ _ hI _ hs => dense_step hI hs
  refine ⟨h.ids, (nodup_iff_length h.ids).trans ?_⟩
  rw [List.length_map]
  rfl

/-- After two chats have got one id. -/
theorem ids_dense_collide : ∃ s : Sys String, s.store.chatIds.length = 2 ∧
    newChatId s.store.lastChat = 1 ∧
    (∀ c, c ∈ s.store.chatIds.map (·.chatId) ↔ c < newChatId s.store.lastChat) ∧
    ((s.store.chatIds.map (·.chatId)).Nodup ↔
      s.store.chatIds.length = newChatId s.store.lastChat) := by
  obtain ⟨s, hr, hlen, hnext⟩ : ∃ s, Run (Sys.step id) (fun _ _ => True)
      (Sys.init (Store.empty : Store String)) s ∧
        s.store.chatIds.length = 2 ∧ newChatId s.store.lastChat = 1 :=
    Run.exists_of_follow collide (by decide)
  exact ⟨s, hlen, hnext, ids_dense s hr⟩

end RecoupChat
