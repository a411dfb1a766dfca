import RecoupChat.ChatList
import RecoupChat.LogTimes

/-! The times of the rows only grow as long as no send writes an array back before one with
an earlier reading has read it, or over the copies that others are about to write. -/
namespace RecoupChat
open Promise Transition Collection
variable {M : Type}

/-- Each row of `rows` has its row in `rows'`, which shows the same time or a later one. -/
def Advances (rows rows' : List (Row M)) : Prop :=
  ∀ r ∈ rows, ∃ r' ∈ rows', r'.toUsername = r.toUsername ∧ r.lastMessageTime ≤ r'.lastMessageTime

instance [DecidableEq M] (rows rows' : List (Row M)) : Decidable (Advances rows rows') :=
  inferInstanceAs (Decidable (∀ r ∈ rows, ∃ r' ∈ rows', _))

theorem Advances.refl (rows : List (Row M)) : Advances rows rows :=
  fun r hr => ⟨r, hr, rfl, le_refl _⟩

theorem Advances.trans {rows rows1 rows2 : List (Row M)} (h : Advances rows rows1)
    (h1 : Advances rows1 rows2) : Advances rows rows2 := by
  intro r hr
  obtain ⟨r1, hr1, hn1, ht1⟩ := h r hr
  obtain ⟨r2, hr2, hn2, ht2⟩ := h1 r1 hr1
  exact ⟨r2, hr2, hn2.trans hn1, le_trans ht1 ht2⟩

def Store.chronological (s : Store M) : Prop :=
  ∀ lg ∈ s.chatMessages, lg.messages.Pairwise fun e e' => e.time ≤ e'.time

instance (s : Store M) : Decidable s.chronological :=
  inferInstanceAs (Decidable (∀ lg ∈ s.chatMessages, _))

/-- Every document of `user_messages` keeps its place and its rows. -/
def Store.rowsAdvance (s s' : Store M) : Prop :=
  ∀ (k : Nat) um, s.userMessages[k]? = some um → ∃ um', s'.userMessages[k]? = some um' ∧
    um'.username = um.username ∧ Advances um.messages um'.messages

theorem rowsAdvance_refl (s : Store M) : s.rowsAdvance s :=
  fun _ um hk => ⟨um, hk, rfl, .refl _⟩

theorem rowsAdvance_trans {s s1 s2 : Store M} (h : s.rowsAdvance s1) (h1 : s1.rowsAdvance s2) :
    s.rowsAdvance s2 := by
  intro k um hk
  obtain ⟨um1, hk1, hn1, ha1⟩ := h k um hk
  obtain ⟨um2, hk2, hn2, ha2⟩ := h1 k um1 hk1
  exact ⟨um2, hk2, hn2.trans hn1, ha1.trans ha2⟩

def Sys.sender? (s : Sys M) (i : Nat) : Option (Send M) := s.issued[i]?.bind (·.send?)

def Send.partner (d : Send M) (u : String) : String := if u = d.sentBy then d.sentTo else d.sentBy

/-- Send `d`, which waits for the given call, has still to read the array of `u`, one of its
two users. -/
def Call.beforeRead (d : Send M) (u : String) : Call M → Prop
  | .usersFind | .chatIdsFindOne _ _ | .chatIdsFindLast | .chatIdsInsertOne _
  | .chatMessagesPush _ _ | .chatMessagesInsertOne _ => True
  | .userMessagesFindOne x => x = u ∨ d.sentTo = u
  | .userMessagesSet x _ => x = d.sentBy ∧ d.sentTo = u
  | .usersInsertOne _ | .userMessagesInsertOne _ | .chatMessagesFindOne _ => False

instance (d : Send M) (u : String) : DecidablePred (Call.beforeRead d u)
  | .usersFind | .chatIdsFindOne _ _ | .chatIdsFindLast | .chatIdsInsertOne _
  | .chatMessagesPush _ _ | .chatMessagesInsertOne _ => isTrue trivial
  | .userMessagesFindOne x => inferInstanceAs (Decidable (x = u ∨ d.sentTo = u))
  | .userMessagesSet x _ => inferInstanceAs (Decidable (x = d.sentBy ∧ d.sentTo = u))
  | .usersInsertOne _ | .userMessagesInsertOne _ | .chatMessagesFindOne _ => isFalse id

/-- Send `d` may write the array of `u` while another request waits for `call`: an array
which that one is about to write has a row for the same partner, as late as this one, and if
it is a send of the same two users that has still to read the array, it has a reading as
late. -/
def Send.writesBefore (d : Send M) (u : String) (other : Request M) (call : Call M) : Prop :=
  (∀ w ∈ call.copy?, w.1 = u →
      ∃ row ∈ w.2, row.toUsername = d.partner u ∧ d.timeNow ≤ row.lastMessageTime) ∧
    ∀ d' ∈ other.send?, s(d'.sentBy, d'.sentTo) = s(d.sentBy, d.sentTo) →
      call.beforeRead d' u → d.timeNow ≤ d'.timeNow

instance (d : Send M) (u : String) (other : Request M) (call : Call M) :
    Decidable (d.writesBefore u other call) := inferInstanceAs (Decidable (_ ∧ _))

/-- Arrays are written in the order of the readings. -/
def writesInTurn (s : Sys M) (i : Nat) : Call M → Prop
  | .userMessagesSet u _ => ∀ d ∈ s.sender? i, ∀ x ∈ s.others i, d.writesBefore u x.1 x.2
  | _ => True

instance (s : Sys M) (i : Nat) : DecidablePred (writesInTurn s i)
  | .userMessagesSet _ _ => inferInstanceAs (Decidable (∀ d ∈ s.sender? i, _))
  | .usersFind | .usersInsertOne _ | .userMessagesFindOne _ | .userMessagesInsertOne _
  | .chatIdsFindOne _ _ | .chatIdsFindLast | .chatIdsInsertOne _ | .chatMessagesPush _ _
  | .chatMessagesFindOne _ | .chatMessagesInsertOne _ => isTrue trivial

/-- Sends read a clock that never goes back, append in the order of their readings and write
arrays in that order. -/
def inTurn (s : Sys M) (a : Action M) : Prop :=
  clocked s a ∧ onCalls appendsInTurn s a ∧ onCalls writesInTurn s a

instance (s : Sys M) (a : Action M) : Decidable (inTurn s a) :=
  inferInstanceAs (Decidable (_ ∧ _))

structure Slot where
  owner : String
  partner : String
  time : Int

def Send.slotBy (d : Send M) : Slot := ⟨d.sentBy, d.sentTo, d.timeNow⟩

def Send.slotTo (d : Send M) : Slot := ⟨d.sentTo, d.sentBy, d.timeNow⟩

def Store.array (s : Store M) (u : String) : List (Row M) := (s.rows u).getD []

namespace Point

def toRead : Point M → List Slot
  | .usersFind d | .findChat _ d | .push d _ | .findLast d | .insertChat d _ | .insertLog d _
  | .findBy _ d => [d.slotBy, d.slotTo]
  | .updateBy _ d _ | .findTo _ d => [d.slotTo]
  | _ => []

def draft? : Point M → Option (Slot × List (Row M))
  | .updateBy _ d rows => some (d.slotBy, rows)
  | .updateTo _ d rows => some (d.slotTo, rows)
  | _ => none

theorem copy_of_draft {p : Point M} {w : Slot} {rows : List (Row M)}
    (h : p.draft? = some (w, rows)) : p.copy? = some (w.owner, rows) := by
  cases p with
  | updateBy create d rows' =>
    cases h
    rfl
  | updateTo create d rows' =>
    cases h
    rfl
  | _ => cases h

theorem send_of_draft {p : Point M} {r : Request M} {w : Slot} {rows : List (Row M)}
    (hof : p.Of r) (h : p.draft? = some (w, rows)) :
    ∃ d, r.send? = some d ∧ (w = d.slotBy ∨ w = d.slotTo) := by
  cases p with
  | updateBy create d rows' =>
    cases h
    exact ⟨d, hof, Or.inl rfl⟩
  | updateTo create d rows' =>
    cases h
    exact ⟨d, hof, Or.inr rfl⟩
  | _ => cases h

theorem send_of_toRead {p : Point M} {r : Request M} {w : Slot} (hof : p.Of r)
    (h : w ∈ p.toRead) : ∃ d, r.send? = some d ∧ (w = d.slotBy ∨ w = d.slotTo) := by
  cases p with
  | updateBy create d rows => exact ⟨d, hof, Or.inr (List.mem_singleton.mp h)⟩
  | findTo create d => exact ⟨d, hof, Or.inr (List.mem_singleton.mp h)⟩
  | usersFind d | findChat create d | push d c | findLast d | insertChat d n | insertLog d n
  | findBy create d => exact ⟨d, hof, by simpa [toRead] using h⟩
  | _ => cases h

theorem toRead_of_draft {p : Point M} {w x : Slot} {rows : List (Row M)}
    (h : p.draft? = some (w, rows)) (hx : x ∈ p.toRead) : x.time = w.time := by
  cases p with
  | updateBy create d rows' =>
    cases h
    rw [List.mem_singleton.mp hx]
    rfl
  | updateTo create d rows' => cases hx
  | _ => cases h

end Point

structure Drafted (cur : List (Row M)) (w : Slot) (rows : List (Row M)) : Prop where
  nodup : (names rows).Nodup
  advances : Advances cur rows
  others : ∀ r ∈ rows, r.toUsername ≠ w.partner →
    ∃ r' ∈ cur, r'.toUsername = r.toUsername ∧ r.lastMessageTime ≤ r'.lastMessageTime
  own : ∀ r ∈ rows, r.toUsername = w.partner → r.lastMessageTime ≤ w.time

theorem Drafted.rebase {cur rows rows' : List (Row M)} {w x : Slot} (h : Drafted cur w rows)
    (hx : Drafted cur x rows')
    (hrow : ∃ r ∈ rows', r.toUsername = w.partner ∧ w.time ≤ r.lastMessageTime) :
    Drafted rows x rows' where
  nodup := hx.nodup
  advances r hr := by
    by_cases hn : r.toUsername = w.partner
    · obtain ⟨r', hr', hn', ht'⟩ := hrow
      exact ⟨r', hr', hn'.trans hn.symm, le_trans (h.own r hr hn) ht'⟩
    · obtain ⟨r1, hr1, hn1, ht1⟩ := h.others r hr hn
      obtain ⟨r2, hr2, hn2, ht2⟩ := hx.advances r1 hr1
      exact ⟨r2, hr2, hn2.trans hn1, le_trans ht1 ht2⟩
  others r hr hn := by
    obtain ⟨r1, hr1, hn1, ht1⟩ := hx.others r hr hn
    obtain ⟨r2, hr2, hn2, ht2⟩ := h.advances r1 hr1
    exact ⟨r2, hr2, hn2.trans hn1, le_trans ht1 ht2⟩
  own := hx.own

def upTo (rows : List (Row M)) (w : Slot) : Prop :=
  ∀ r ∈ rows, r.toUsername = w.partner → r.lastMessageTime ≤ w.time

theorem Drafted.upTo {cur rows : List (Row M)} {w x : Slot} (h : Drafted cur w rows)
    (hx : upTo cur x) (ht : x.partner = w.partner → w.time ≤ x.time) : upTo rows x := by
  intro r hr hn
  by_cases hw : r.toUsername = w.partner
  · exact le_trans (h.own r hr hw) (ht (hn.symm.trans hw))
  · obtain ⟨r', hr', hn', ht'⟩ := h.others r hr hw
    exact le_trans ht' (hx r' hr' (hn'.trans hn))

/-- Times of a store's arrays are readings of issued sends, arrays have one row a partner,
no row is later than a send that has still to read it, and what is about to be written
keeps every row. -/
structure RowsInOrder (ps : PSys M) : Prop where
  of : ps.Each fun _ r p => p.Of r
  past : ∀ u, ∀ r ∈ ps.store.array u, ps.read r.lastMessageTime
  nodup : ∀ um ∈ ps.store.userMessages, (names um.messages).Nodup
  fresh : ps.Each fun _ _ p => ∀ w ∈ p.toRead, upTo (ps.store.array w.owner) w
  drafts : ps.Each fun _ _ p => ∀ w rows, p.draft? = some (w, rows) →
    Drafted (ps.store.array w.owner) w rows

theorem rowsInOrder_init : RowsInOrder (⟨Store.empty, []⟩ : PSys M) where
  of := each_init _
  past u r hr := by simp [Store.array, Store.rows, Store.rowsDoc, Store.empty, findOne] at hr
  nodup := by simp [Store.empty]
  fresh := each_init _
  drafts := each_init _

theorem RowsInOrder.issue {ps : PSys M} (h : RowsInOrder ps) {r : Request M}
    (hclock : ∀ d, r.send? = some d → ∀ t, ps.read t → t ≤ d.timeNow) :
    RowsInOrder (ps.issue r) where
  of := each_issue h.of (Point.of_start r)
  past u x hx := read_issue (h.past u x hx) r
  nodup := h.nodup
  fresh := by
    refine each_issue h.fresh fun w hw x hx _ => ?_
    obtain ⟨d, hd, hslot⟩ := Point.send_of_toRead (Point.of_start r) hw
    have ht : w.time = d.timeNow := by rcases hslot with rfl | rfl <;> rfl
    rw [ht]
    exact hclock d hd _ (h.past w.owner x hx)
  drafts := each_issue h.drafts fun w rows hp => by cases r <;> cases hp

theorem RowsInOrder.reject {ps : PSys M} (h : RowsInOrder ps) {i : Nat} {r : Request M}
    {p : Point M} (hi : ps.requests[i]? = some (r, p)) : RowsInOrder (ps.reject i r) where
  of := each_reject h.of trivial
  past u x hx := read_congr (issued_reject hi) (h.past u x hx)
  nodup := h.nodup
  fresh := each_reject h.fresh fun w hw => by cases hw
  drafts := each_reject h.drafts fun w rows hp => by cases hp

section Step
variable [DecidableEq M] {toLowerCase : String → String}

theorem drafted {create : Bool} {w : Slot} {m : M} {cur rows : List (Row M)}
    (h : putRow create w.partner m w.time cur = some rows) (hn : (names cur).Nodup)
    (hcur : upTo cur w) : Drafted cur w rows where
  nodup := nodup_putRow h hn
  advances r hr := by
    by_cases hw : r.toUsername = w.partner
    · have hf := rowFor_putRow h w.partner
      rw [if_pos rfl] at hf
      exact ⟨_, List.mem_of_find?_eq_some hf, hw.symm, hcur r hr hw⟩
    · have hf := filter_putRow h (q := fun x => x.toUsername ≠ w.partner) fun x hx => by simp [hx]
      have hm : r ∈ cur.filter fun x => x.toUsername ≠ w.partner :=
        List.mem_filter.mpr ⟨hr, decide_eq_true hw⟩
      rw [← hf] at hm
      exact ⟨r, List.mem_of_mem_filter hm, rfl, le_refl _⟩
  others r hr hw := by
    cases mem_putRow h hr with
    | inl hm => exact ⟨r, hm, rfl, le_refl _⟩
    | inr hm => exact absurd (by rw [hm]) hw
  own r hr hw := by
    cases mem_putRow h hr with
    | inl hm => exact hcur r hm hw
    | inr hm => rw [hm]

theorem array_setRows (s : Store M) (u v : String) (rows : List (Row M)) :
    (s.setRows u rows).array v = s.array v ∨ u = v ∧ (s.setRows u rows).array v = rows := by
  by_cases hv : v = u
  · subst hv
    cases hr : s.rows v with
    | none => simp [Store.array, hr]
    | some cur => simp [Store.array, hr]
  · simp [Store.array, hv]

theorem array_next (toLowerCase : String → String) (p : Point M) (s : Store M) (u : String) :
    (p.next toLowerCase s).1.array u = s.array u ∨ ∃ w rows, p.draft? = some (w, rows) ∧
      w.owner = u ∧ (p.next toLowerCase s).1.array u = rows := by
  cases p with
  | updateBy create d rows =>
    exact (array_setRows s d.sentBy u rows).imp_right fun h => ⟨d.slotBy, rows, rfl, h⟩
  | updateTo create d rows =>
    exact (array_setRows s d.sentTo u rows).imp_right fun h => ⟨d.slotTo, rows, rfl, h⟩
  | insertUserMessages v =>
    refine Or.inl ?_
    simp only [Point.next, Store.array, rows_insertUserMessages]
    cases s.rows u with
    | some rows => rfl
    | none => by_cases hu : v = u <;> simp [hu]
  | _ => exact Or.inl rfl

theorem toRead_next {p : Point M} {s : Store M} {w : Slot}
    (h : w ∈ (p.next toLowerCase s).2.toRead) : w ∈ p.toRead := by
  have hg := Point.goes toLowerCase p s
  generalize (p.next toLowerCase s).2 = q at hg h
  cases hg with
  | readBy create d hr hp => exact List.mem_cons_of_mem _ h
  | known | chat | noChat | newId | chatInserted | pushed | logInserted | wroteBy => exact h
  | _ => cases h

theorem draft_next {p : Point M} {s : Store M} {w : Slot} {rows : List (Row M)}
    (h : (p.next toLowerCase s).2.draft? = some (w, rows)) :
    (p.next toLowerCase s).1 = s ∧ w ∈ p.toRead ∧ ∃ create m cur, s.rows w.owner = some cur ∧
      putRow create w.partner m w.time cur = some rows := by
  have hg := Point.goes toLowerCase p s
  generalize hq : (p.next toLowerCase s).2 = q at hg h
  cases hg with
  | readBy create d hr hp =>
    cases h
    exact ⟨rfl, List.mem_cons_self, create, d.message, _, hr, hp⟩
  | readTo create d hr hp =>
    cases h
    exact ⟨rfl, List.mem_cons_self, create, d.message, _, hr, hp⟩
  | stay resp => cases h
  | _ => cases h

theorem rowsAdvance_setRows {s : Store M} {u : String} {rows : List (Row M)}
    (h : Advances (s.array u) rows) : s.rowsAdvance (s.setRows u rows) := by
  intro k um hk
  rcases getElem_updateOne (p := fun d : UserMessages M => d.username == u)
    (f := fun d => { d with messages := rows }) hk with hsame | ⟨hf, hnew⟩
  · exact ⟨um, hsame, rfl, .refl _⟩
  · have ha : s.array u = um.messages := by simp [Store.array, Store.rows, Store.rowsDoc, hf]
    exact ⟨_, hnew, rfl, ha ▸ h⟩

namespace RowsInOrder
variable {ps : PSys M} (h : RowsInOrder ps) {i : Nat} {r : Request M} {p : Point M}
  (hi : ps.requests[i]? = some (r, p))
include h hi

theorem rowsAdvance_next : ps.store.rowsAdvance (p.next toLowerCase ps.store).1 := by
  cases p with
  | updateBy create d rows =>
    exact rowsAdvance_setRows (h.drafts i r _ hi d.slotBy rows rfl).advances
  | updateTo create d rows =>
    exact rowsAdvance_setRows (h.drafts i r _ hi d.slotTo rows rfl).advances
  | insertUserMessages u =>
    intro k um hk
    obtain ⟨hlt, -⟩ := List.getElem?_eq_some_iff.mp hk
    exact ⟨um, (List.getElem?_append_left hlt).trans hk, rfl, .refl _⟩
  | _ => exact rowsAdvance_refl _

theorem nodup_next {um : UserMessages M} (hum : um ∈ (p.next toLowerCase ps.store).1.userMessages) :
    (names um.messages).Nodup := by
  have hset (w : Slot) (rows : List (Row M)) (hw : p.draft? = some (w, rows))
      (hm : um ∈ (ps.store.setRows w.owner rows).userMessages) : (names um.messages).Nodup := by
    rcases mem_updateOne hm with hold | ⟨um', -, rfl⟩
    · exact h.nodup um hold
    · exact (h.drafts i r p hi w rows hw).nodup
  cases p with
  | updateBy create d rows => exact hset d.slotBy rows rfl hum
  | updateTo create d rows => exact hset d.slotTo rows rfl hum
  | insertUserMessages u =>
    cases List.mem_append.mp hum with
    | inl hold => exact h.nodup um hold
    | inr hnew =>
      obtain rfl := List.mem_singleton.mp hnew
      exact List.nodup_nil
  | _ => exact h.nodup um hum

omit [DecidableEq M] in
theorem draft_read {w : Slot} {rows : List (Row M)} (hw : p.draft? = some (w, rows)) :
    ps.read w.time := by
  obtain ⟨d, hd, hslot⟩ := Point.send_of_draft (h.of i r p hi) hw
  have ht : w.time = d.timeNow := by rcases hslot with rfl | rfl <;> rfl
  exact ⟨r, List.mem_of_getElem? (issued_get hi), d, hd, le_of_eq ht⟩

theorem past_next (u : String) {x : Row M} (hx : x ∈ (p.next toLowerCase ps.store).1.array u) :
    ps.read x.lastMessageTime := by
  rcases array_next toLowerCase p ps.store u with he | ⟨w, rows, hw, rfl, he⟩
  · exact h.past u x (he ▸ hx)
  · rw [he] at hx
    have hd := h.drafts i r p hi w rows hw
    by_cases hn : x.toUsername = w.partner
    · obtain ⟨y, hy, d, hyd, ht⟩ := h.draft_read hi hw
      exact ⟨y, hy, d, hyd, le_trans (hd.own x hx hn) ht⟩
    · obtain ⟨x', hx', -, ht'⟩ := hd.others x hx hn
      obtain ⟨y, hy, d, hyd, ht⟩ := h.past w.owner x' hx'
      exact ⟨y, hy, d, hyd, le_trans ht' ht⟩

theorem fresh_next {j : Nat} {r' : Request M} {q : Point M} (hj : ps.requests[j]? = some (r', q))
    {x : Slot} (hx : x ∈ q.toRead)
    (hturn : ∀ w rows, p.draft? = some (w, rows) → x.owner = w.owner → x.partner = w.partner →
      w.time ≤ x.time) :
    upTo ((p.next toLowerCase ps.store).1.array x.owner) x := by
  have hold := h.fresh j r' q hj x hx
  rcases array_next toLowerCase p ps.store x.owner with he | ⟨w, rows, hw, ho, he⟩
  · rw [he]
    exact hold
  · rw [he]
    refine (h.drafts i r p hi w rows hw).upTo ?_ (hturn w rows hw ho.symm)
    rw [ho]
    exact hold

theorem drafts_next {j : Nat} {r' : Request M} {q : Point M} (hj : ps.requests[j]? = some (r', q))
    {x : Slot} {rows' : List (Row M)} (hq : q.draft? = some (x, rows'))
    (hturn : ∀ w rows, p.draft? = some (w, rows) → x.owner = w.owner →
      ∃ y ∈ rows', y.toUsername = w.partner ∧ w.time ≤ y.lastMessageTime) :
    Drafted ((p.next toLowerCase ps.store).1.array x.owner) x rows' := by
  have hold := h.drafts j r' q hj x rows' hq
  rcases array_next toLowerCase p ps.store x.owner with he | ⟨w, rows, hw, ho, he⟩
  · rw [he]
    exact hold
  · rw [he]
    rw [← ho] at hold
    exact (h.drafts i r p hi w rows hw).rebase hold (hturn w rows hw ho.symm)

omit hi [DecidableEq M] in
theorem array_nodup (u : String) : (names (ps.store.array u)).Nodup := by
  cases hr : ps.store.rows u with
  | none => simp [Store.array, hr, names]
  | some rows =>
    obtain ⟨um, hm, -, rfl⟩ := rows_mem hr
    simpa [Store.array, hr] using h.nodup um hm

theorem draft_own {w : Slot} {rows : List (Row M)}
    (hq : (p.next toLowerCase ps.store).2.draft? = some (w, rows)) :
    Drafted ((p.next toLowerCase ps.store).1.array w.owner) w rows := by
  obtain ⟨hs, hw, create, m, cur, hr, hp⟩ := draft_next hq
  have hcur : ps.store.array w.owner = cur := by rw [Store.array, hr, Option.getD_some]
  rw [hs, hcur]
  exact drafted hp (hcur ▸ h.array_nodup w.owner) (hcur ▸ h.fresh i r p hi w hw)

theorem fulfil
    (hturn : ∀ w rows, p.draft? = some (w, rows) → ∀ j r' q, j ≠ i →
      ps.requests[j]? = some (r', q) →
        (∀ x rows', q.draft? = some (x, rows') → x.owner = w.owner →
          ∃ y ∈ rows', y.toUsername = w.partner ∧ w.time ≤ y.lastMessageTime) ∧
        ∀ x ∈ q.toRead, x.owner = w.owner → x.partner = w.partner → w.time ≤ x.time) :
    RowsInOrder (ps.fulfil toLowerCase i r p) where
  of := each_fulfil (fun j r' q _ hj => h.of j r' q hj)
    (Point.of_next toLowerCase ps.store (h.of i r p hi))
  past u x hx := read_congr (issued_fulfil hi) (h.past_next hi u hx)
  nodup um hum := h.nodup_next hi hum
  fresh := by
    refine each_fulfil (fun j r' q hne hj x hx => ?_) fun x hx => ?_
    · exact h.fresh_next hi hj hx fun w rows hw => (hturn w rows hw j r' q hne hj).2 x hx
    · have hp : x ∈ p.toRead := toRead_next hx
      exact h.fresh_next hi hi hp fun w rows hw _ _ => le_of_eq (Point.toRead_of_draft hw hp).symm
  drafts := by
    refine each_fulfil (fun j r' q hne hj x rows' hq => ?_) fun x rows' hq => h.draft_own hi hq
    exact h.drafts_next hi hj hq fun w rows hw => (hturn w rows hw j r' q hne hj).1 x rows' hq

end RowsInOrder

/-! The condition on the calls. -/

omit [DecidableEq M] in
theorem slot_partner {d : Send M} {w : Slot} (h : w = d.slotBy ∨ w = d.slotTo) :
    d.partner w.owner = w.partner ∧ s(w.owner, w.partner) = s(d.sentBy, d.sentTo) ∧
      w.time = d.timeNow := by
  cases h with
  | inl h =>
    subst h
    exact ⟨if_pos rfl, rfl, rfl⟩
  | inr h =>
    subst h
    refine ⟨?_, Sym2.eq_swap, rfl⟩
    by_cases he : d.sentTo = d.sentBy
    · exact (if_pos he).trans he
    · exact if_neg he

omit [DecidableEq M] in
theorem beforeRead_of_toRead {q : Point M} {r : Request M} {d : Send M} {x : Slot}
    (hof : q.Of r) (hd : r.send? = some d) (hx : x ∈ q.toRead) :
    ∃ call, q.call? = some call ∧ call.beforeRead d x.owner := by
  cases q with
  | findBy create d' =>
    obtain rfl : d' = d := Option.some.inj (hof.symm.trans hd)
    refine ⟨_, rfl, ?_⟩
    rcases List.mem_pair.mp hx with rfl | rfl
    · exact Or.inl rfl
    · exact Or.inr rfl
  | updateBy create d' rows =>
    obtain rfl : d' = d := Option.some.inj (hof.symm.trans hd)
    rw [List.mem_singleton.mp hx]
    exact ⟨_, rfl, rfl, rfl⟩
  | findTo create d' =>
    obtain rfl : d' = d := Option.some.inj (hof.symm.trans hd)
    rw [List.mem_singleton.mp hx]
    exact ⟨_, rfl, Or.inl rfl⟩
  | usersFind | findChat | push | findLast | insertChat | insertLog => exact ⟨_, rfl, trivial⟩
  | _ => cases hx

theorem writesBefore_sys {ps : PSys M} (h : RowsInOrder ps) {i : Nat} {r : Request M} {p : Point M}
    (hi : ps.requests[i]? = some (r, p))
    (hturn : ∀ c ∈ (ps.sys toLowerCase).call? i 0, writesInTurn (ps.sys toLowerCase) i c)
    {w : Slot} {rows : List (Row M)} (hw : p.draft? = some (w, rows)) :
    ∃ d : Send M, (w = d.slotBy ∨ w = d.slotTo) ∧
      ∀ x ∈ (ps.sys toLowerCase).others i, d.writesBefore w.owner x.1 x.2 := by
  obtain ⟨d, hd, hslot⟩ := Point.send_of_draft (h.of i r p hi) hw
  have hsend : (ps.sys toLowerCase).sender? i = some d := by
    rw [Sys.sender?, issued_sys, issued_get hi]
    exact hd
  rw [call_sys hi, Point.call_copy (Point.copy_of_draft hw)] at hturn
  exact ⟨d, hslot, hturn _ rfl d hsend⟩

theorem rowsInOrder_step {ps ps' : PSys M} {a : Action M} (h : RowsInOrder ps)
    (hclock : clocked (ps.sys toLowerCase) a)
    (hturn : onCalls writesInTurn (ps.sys toLowerCase) a)
    (hs : ps.step toLowerCase a = some ps') :
    RowsInOrder ps' ∧ ps.store.rowsAdvance ps'.store := by
  cases steps hs with
  | issue r =>
    exact ⟨h.issue fun d hd t ht => clocked_sys hclock hd ht, rowsAdvance_refl _⟩
  | fulfil i r p hi hc =>
    refine ⟨h.fulfil hi fun w rows hw j r' q hne hj => ?_, h.rowsAdvance_next hi⟩
    obtain ⟨d, hslot, hbefore⟩ := writesBefore_sys h hi hturn hw
    obtain ⟨hpartner, hpair, htime⟩ := slot_partner hslot
    refine ⟨fun x rows' hq ho => ?_, fun x hx ho hp => ?_⟩
    · have hcopy := Point.copy_of_draft hq
      have hother : (r', .userMessagesSet x.owner rows') ∈ (ps.sys toLowerCase).others i :=
        others_sys.mpr ⟨j, q, hne, hj, Point.call_copy hcopy⟩
      have hrow := (hbefore _ hother).1 (x.owner, rows') rfl ho
      rwa [hpartner, ← htime] at hrow
    · obtain ⟨d', hd', hslot'⟩ := Point.send_of_toRead (h.of j r' q hj) hx
      obtain ⟨-, hpair', htime'⟩ := slot_partner hslot'
      obtain ⟨call, hq, hread⟩ := beforeRead_of_toRead (h.of j r' q hj) hd' hx
      have hother : (r', call) ∈ (ps.sys toLowerCase).others i :=
        others_sys.mpr ⟨j, q, hne, hj, hq⟩
      have hsame : s(d'.sentBy, d'.sentTo) = s(d.sentBy, d.sentTo) := by
        rw [← hpair', ← hpair, ho, hp]
      rw [htime, htime']
      exact (hbefore _ hother).2 d' hd' hsame (ho ▸ hread)
  | reject i r p hi hc => exact ⟨h.reject hi, rowsAdvance_refl _⟩

theorem order_run {ps ps' : PSys M} (h : InOrder ps ∧ RowsInOrder ps)
    (hr : Run (PSys.step toLowerCase) (fun ps a => inTurn (ps.sys toLowerCase) a) ps ps') :
    (InOrder ps' ∧ RowsInOrder ps') ∧ ps.store.rowsAdvance ps'.store := by
  refine hr.invariant
    (I := fun x => (InOrder x ∧ RowsInOrder x) ∧ ps.store.rowsAdvance x.store)
    ⟨h, rowsAdvance_refl _⟩ fun x a x' hI hok hs => ?_
  obtain ⟨⟨hlogs, hrows⟩, hadv⟩ := hI
  obtain ⟨hclock, happend, hwrite⟩ := hok
  obtain ⟨hrows', hstep⟩ := rowsInOrder_step hrows hclock hwrite hs
  exact ⟨⟨inOrder_step hlogs hclock happend hs, hrows'⟩, rowsAdvance_trans hadv hstep⟩

/-- In every run from the empty store in which the clock never goes back and messages and
arrays are written in the order of the readings: each list of messages is ordered by its
times, each array has one row a partner, and every later state has every row, with the same
time or a later one. -/
theorem times_in_order (s : Sys M)
    (hr : Run (Sys.step toLowerCase) inTurn (Sys.init Store.empty) s) :
    s.store.chronological ∧ (∀ um ∈ s.store.userMessages, (names um.messages).Nodup) ∧
      ∀ s', Run (Sys.step toLowerCase) inTurn s s' → s.store.rowsAdvance s'.store := by
  obtain ⟨ps, rfl, hrun⟩ := Run.lift (f := PSys.sys toLowerCase) step_sys
    (p := ⟨Store.empty, []⟩) hr
  have h : InOrder ps ∧ RowsInOrder ps := (order_run ⟨inOrder_init, rowsInOrder_init⟩ hrun).1
  refine ⟨h.1.logs, h.2.nodup, fun s' hr' => ?_⟩
  obtain ⟨ps', rfl, hrun'⟩ := Run.lift (f := PSys.sys toLowerCase) step_sys hr'
  exact (order_run h hrun').2

end Step

/-! Runs of two messages in one chat. -/

def issueTwoMessages : List (Action String) :=
  [.issue (.addNewUser "ann"), .issue (.addNewUser "bob")] ++ calls 0 2 ++ calls 1 2 ++
    [.issue (.sendNewMessage ⟨"ann", "bob", "hi", 1⟩)] ++ calls 2 9 ++
    [.issue (.sendMessage ⟨"ann", "bob", "yo", 2⟩),
      .issue (.sendMessage ⟨"bob", "ann", "hey", 3⟩)]

/-- The second of two messages is sent while the first is on its way, but appended and shown
after it. -/
theorem times_in_order_two : ∃ s, Run (Sys.step id) inTurn
    (Sys.init (Store.empty : Store String)) s ∧
      s.store.conversation "ann" "bob" = [⟨"ann", "hi", 1⟩, ⟨"ann", "yo", 2⟩, ⟨"bob", "hey", 3⟩] ∧
      s.store.chronological ∧ (∀ um ∈ s.store.userMessages, (names um.messages).Nodup) ∧
      ∀ s', Run (Sys.step id) inTurn s s' → s.store.rowsAdvance s'.store := by
  obtain ⟨s, hr, hlog⟩ : ∃ s, Run (Sys.step id) inTurn (Sys.init (Store.empty : Store String)) s ∧
      s.store.conversation "ann" "bob" =
        [⟨"ann", "hi", 1⟩, ⟨"ann", "yo", 2⟩, ⟨"bob", "hey", 3⟩] :=
    Run.exists_of_follow
      (issueTwoMessages ++ calls 4 1 ++ calls 3 6 ++ calls 4 1 ++ calls 4 4) (by decide)
  exact ⟨s, hr, hlog, times_in_order s hr⟩

theorem not_rowsAdvance {s s' : Store M} {k : Nat} {um um' : UserMessages M}
    (h : s.userMessages[k]? = some um) (h' : s'.userMessages[k]? = some um')
    (hn : ¬ Advances um.messages um'.messages) : ¬ s.rowsAdvance s' := by
  intro hadv
  obtain ⟨x, hx, -, ha⟩ := hadv k um h
  obtain rfl : um' = x := Option.some.inj (h'.symm.trans hx)
  exact hn ha

/-- The second message overtakes the first: the list is out of order, and the row of each of
the two users goes back to the earlier time. -/
theorem overtaken : ∃ s s', Run (Sys.step id) (fun s a => clocked s a ∧ a.faultFree)
    (Sys.init (Store.empty : Store String)) s ∧
      Run (Sys.step id) (fun s a => clocked s a ∧ a.faultFree) s s' ∧
      s'.store.conversation "ann" "bob" = [⟨"ann", "hi", 1⟩, ⟨"bob", "hey", 3⟩, ⟨"ann", "yo", 2⟩] ∧
      ¬ s'.store.chronological ∧ ¬ s.store.rowsAdvance s'.store := by
  obtain ⟨s, hr, hs, hlate⟩ : ∃ s, Run (Sys.step id) (fun s a => clocked s a ∧ a.faultFree)
      (Sys.init (Store.empty : Store String)) s ∧
        s.store.userMessages[0]? = some (UserMessages.mk "ann" [⟨"bob", "hey", 3⟩]) ∧
        (follow (Sys.step id) (fun s a => decide (clocked s a ∧ a.faultFree)) (calls 3 5) s).any
          (fun s' => decide (s'.store.conversation "ann" "bob" =
              [⟨"ann", "hi", 1⟩, ⟨"bob", "hey", 3⟩, ⟨"ann", "yo", 2⟩] ∧
            ¬ s'.store.chronological ∧
            s'.store.userMessages[0]? = some (UserMessages.mk "ann" [⟨"bob", "yo", 2⟩]))) = true :=
    Run.exists_of_follow (issueTwoMessages ++ calls 3 1 ++ calls 4 6) (by decide)
  obtain ⟨s', hr', hlist, hnot, hs'⟩ := Run.exists_of_follow _ hlate
  exact ⟨s, s', hr, hr', hlist, hnot, not_rowsAdvance hs hs' (by decide)⟩

end RecoupChat
