import RecoupChat.Points

/-! Where the messages and the times of the rows come from. A row shows those of a send, so what
holds of all sends and of the first rows holds of all rows. -/
namespace RecoupChat
open Collection
variable {M : Type} {P : M → Int → Prop}

def RowsAll (P : M → Int → Prop) (s : Store M) : Prop :=
  ∀ um ∈ s.userMessages, ∀ r ∈ um.messages, P r.lastMessage r.lastMessageTime

def Point.Carries (P : M → Int → Prop) : Point M → Prop
  | .usersFind d | .findChat _ d | .push d _ | .findLast d | .insertChat d _ | .insertLog d _
  | .findBy _ d | .findTo _ d => P d.message d.timeNow
  | .updateBy _ d rows | .updateTo _ d rows =>
    P d.message d.timeNow ∧ ∀ r ∈ rows, P r.lastMessage r.lastMessageTime
  | _ => True

theorem RowsAll.rows {s : Store M} (h : RowsAll P s) {u : String} {rows : List (Row M)}
    (hr : s.rows u = some rows) : ∀ r ∈ rows, P r.lastMessage r.lastMessageTime := by
  obtain ⟨um, hm, -, rfl⟩ := rows_mem hr
  exact h um hm

theorem RowsAll.insertUserMessages {s : Store M} (h : RowsAll P s) (u : String) :
    RowsAll P (s.insertUserMessages ⟨u, []⟩) := by
  intro um hm r hr
  cases List.mem_append.mp hm with
  | inl hm => exact h um hm r hr
  | inr hm => simp_all

theorem carries_start {r : Request M} (h : ∀ d, r.send? = some d → P d.message d.timeNow) :
    (Point.start r).Carries P := by
  cases r with
  | sendMessage d => exact h d rfl
  | sendNewMessage d => exact h d rfl
  | _ => trivial

section Calls
variable [DecidableEq M] {toLowerCase : String → String}

theorem RowsAll.setRows {s : Store M} (h : RowsAll P s) (u : String) {rows : List (Row M)}
    (hr : ∀ r ∈ rows, P r.lastMessage r.lastMessageTime) : RowsAll P (s.setRows u rows) := by
  intro um hm
  rcases mem_updateOne hm with hm | ⟨x, -, rfl⟩
  · exact h um hm
  · exact hr

theorem RowsAll.putRow {s : Store M} (h : RowsAll P s) {create : Bool} {u v : String} {m : M}
    {t : Int} {rows rows' : List (Row M)} (hm : P m t) (hr : s.rows u = some rows)
    (hp : RecoupChat.putRow create v m t rows = some rows') :
    ∀ r ∈ rows', P r.lastMessage r.lastMessageTime := by
  intro r hmem
  rcases mem_putRow hp hmem with hmem | rfl
  · exact h.rows hr r hmem
  · exact hm

/-- A call moves messages and times from the store and the request only. -/
theorem carries_next (p : Point M) (s : Store M) (h : RowsAll P s ∧ p.Carries P) :
    RowsAll P (p.next toLowerCase s).1 ∧ (p.next toLowerCase s).2.Carries P := by
  obtain ⟨hs, hp⟩ := h
  have hstore : RowsAll P (p.next toLowerCase s).1 := by
    cases p with
    | updateBy create d rows => exact hs.setRows _ hp.2
    | updateTo create d rows => exact hs.setRows _ hp.2
    | insertUserMessages u => exact hs.insertUserMessages u
    | _ => exact hs
  refine ⟨hstore, ?_⟩
  have hg := Point.goes toLowerCase p s
  generalize (p.next toLowerCase s).2 = q at hg ⊢
  cases hg with
  | readBy create d hr hput => exact ⟨hp, hs.putRow hp hr hput⟩
  | readTo create d hr hput => exact ⟨hp, hs.putRow hp hr hput⟩
  | wroteBy create d rows hm => exact hp.1
  | known d => exact hp
  | chat create d hc => exact hp
  | noChat d hc => exact hp
  | newId d => exact hp
  | chatInserted d n => exact hp
  | pushed d c hl => exact hp
  | logInserted d n => exact hp
  | _ => trivial

end Calls
end RecoupChat
