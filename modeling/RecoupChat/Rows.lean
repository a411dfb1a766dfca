import RecoupChat.Store

/-! `toUpdate`: the `messages` array that a row update reads, changes in memory and writes
back whole. -/
namespace RecoupChat
open Collection
variable {M : Type}

def Row.setLast (message : M) (timeNow : Int) (row : Row M) : Row M :=
  { row with lastMessage := message, lastMessageTime := timeNow }

/-- `toUpdate.findIndex(obj => obj.toUsername === v)`, with `none` for -1 -/
def findIndex (v : String) (toUpdate : List (Row M)) : Option Nat :=
  toUpdate.findIdx? (·.toUsername == v)

/-- Assign to the fields of `toUpdate[idx]` without testing `idx`; `none` is the TypeError. -/
def setLastMessage (v : String) (message : M) (timeNow : Int) (toUpdate : List (Row M)) :
    Option (List (Row M)) :=
  (findIndex v toUpdate).map fun idx => toUpdate.modify idx (Row.setLast message timeNow)

/-- The same with the test `idx != -1`, pushing a row otherwise. -/
def setOrPushLastMessage (v : String) (message : M) (timeNow : Int) (toUpdate : List (Row M)) :
    List (Row M) :=
  match findIndex v toUpdate with
  | some idx => toUpdate.modify idx (Row.setLast message timeNow)
  | none => toUpdate ++ [⟨v, message, timeNow⟩]

/-- The two ways in which the source changes the array: the branch that creates a chat
pushes a missing row, the others throw. -/
def putRow (create : Bool) (v : String) (message : M) (timeNow : Int) (toUpdate : List (Row M)) :
    Option (List (Row M)) :=
  if create then some (setOrPushLastMessage v message timeNow toUpdate)
  else setLastMessage v message timeNow toUpdate

section Lemmas
variable [DecidableEq M] {create : Bool} {v : String} {m : M} {t : Int}
  {rows rows' : List (Row M)}

def showIn (v : String) (m : M) (t : Int) (rows : List (Row M)) : List (Row M) :=
  (updateOne (·.toUsername == v) (Row.setLast m t) rows).1

theorem putRow_eq (create : Bool) (v : String) (m : M) (t : Int) (rows : List (Row M)) :
    putRow create v m t rows =
      match rowFor v rows with
      | some _ => some (showIn v m t rows)
      | none => if create then some (rows ++ [⟨v, m, t⟩]) else none := by
  have h := modify_findIdx (fun r : Row M => r.toUsername == v) (Row.setLast m t) rows
  have hrow : rowFor v rows = findOne (fun r : Row M => r.toUsername == v) rows := rfl
  simp only [putRow, setOrPushLastMessage, setLastMessage, findIndex, hrow, showIn]
  cases hf : findOne (fun r : Row M => r.toUsername == v) rows <;>
    cases hi : rows.findIdx? (fun r : Row M => r.toUsername == v) <;>
    cases create <;> simp_all

theorem rowFor_showIn (w : String) (h : rowFor v rows = some r) :
    rowFor w (showIn v m t rows) = if w = v then some ⟨v, m, t⟩ else rowFor w rows := by
  by_cases hw : w = v
  · subst hw
    have he := findOne_updateOne (p := fun r : Row M => r.toUsername == w)
      (f := Row.setLast m t) (fun r hr => hr) rows
    have hn := rowFor_name h
    simp only [rowFor, findOne] at h he
    simp [rowFor, showIn, he, h, Row.setLast, hn]
  · have he := findOne_updateOne_of_ne (p := fun r : Row M => r.toUsername == v)
      (q := fun r => r.toUsername == w) (f := Row.setLast m t)
      (fun r hr => by simp_all [Row.setLast, Ne.symm hw]) rows
    simp only [findOne] at he
    simp [rowFor, showIn, he, hw]

theorem names_showIn (v : String) (m : M) (t : Int) (rows : List (Row M)) :
    (showIn v m t rows).map (·.toUsername) = rows.map (·.toUsername) :=
  map_updateOne (f := Row.setLast m t) (g := (·.toUsername)) (fun _ _ => rfl) rows

theorem showIn_eq_self (h : rowFor v rows = some r) :
    showIn v m t rows = rows ↔ r = ⟨v, m, t⟩ := by
  constructor
  · intro he
    have hr := rowFor_showIn (m := m) (t := t) v h
    rw [he, h, if_pos rfl] at hr
    exact Option.some.inj hr
  · intro he
    apply updateOne_unmodified
    have hc := modifiedCount_eq (p := fun r : Row M => r.toUsername == v)
      (f := Row.setLast m t) rows
    simp only [rowFor] at h
    rw [hc, findOne, h]
    simp [he, Row.setLast]

theorem rowFor_putRow (h : putRow create v m t rows = some rows') (w : String) :
    rowFor w rows' = if w = v then some ⟨v, m, t⟩ else rowFor w rows := by
  rw [putRow_eq] at h
  cases hr : rowFor v rows with
  | some r =>
    rw [hr] at h
    rw [← Option.some.inj h]
    exact rowFor_showIn w hr
  | none =>
    rw [hr] at h
    cases create with
    | false => simp at h
    | true =>
      simp only [if_true, Option.some.injEq] at h
      have ha := findOne_insert (fun r : Row M => r.toUsername == w) rows ⟨v, m, t⟩
      simp only [findOne] at ha
      rw [← h, rowFor, ha]
      by_cases hw : w = v
      · subst hw
        simp only [rowFor] at hr
        simp [hr]
      · simp [rowFor, hw, Ne.symm hw]

theorem names_putRow (h : putRow create v m t rows = some rows') :
    rows'.map (·.toUsername) =
      if v ∈ rows.map (·.toUsername) then rows.map (·.toUsername)
      else rows.map (·.toUsername) ++ [v] := by
  rw [putRow_eq] at h
  cases hr : rowFor v rows with
  | some r =>
    have hv : v ∈ rows.map (·.toUsername) := by
      by_contra hn
      rw [rowFor_eq_none.mpr hn] at hr
      cases hr
    rw [hr] at h
    rw [← Option.some.inj h, names_showIn, if_pos hv]
  | none =>
    rw [hr] at h
    rw [if_neg (rowFor_eq_none.mp hr)]
    cases create with
    | false => simp at h
    | true =>
      simp only [if_true, Option.some.injEq] at h
      simp [← h]

theorem nodup_putRow (h : putRow create v m t rows = some rows')
    (hn : (rows.map (·.toUsername)).Nodup) : (rows'.map (·.toUsername)).Nodup := by
  rw [names_putRow h]
  split
  · exact hn
  · rename_i hv
    exact List.Nodup.append hn (List.nodup_singleton v) (by simpa using hv)

theorem mem_putRow (h : putRow create v m t rows = some rows') {r : Row M} (hr : r ∈ rows') :
    r ∈ rows ∨ r = ⟨v, m, t⟩ := by
  rw [putRow_eq] at h
  cases hv : rowFor v rows with
  | some x =>
    rw [hv] at h
    rw [← Option.some.inj h] at hr
    rcases mem_updateOne hr with hm | ⟨y, hy, rfl⟩
    · exact Or.inl hm
    · have hn : y.toUsername = v := by simpa using findOne_matches hy
      exact Or.inr (by simp [Row.setLast, hn])
  | none =>
    rw [hv] at h
    cases create with
    | false => simp at h
    | true =>
      simp only [if_true, Option.some.injEq] at h
      simpa [← h] using hr

theorem filter_putRow (h : putRow create v m t rows = some rows') {q : Row M → Bool}
    (hq : ∀ r : Row M, r.toUsername = v → q r = false) : rows'.filter q = rows.filter q := by
  rw [putRow_eq] at h
  cases hr : rowFor v rows with
  | some r =>
    rw [hr] at h
    rw [← Option.some.inj h]
    refine filter_updateOne (fun x hx => ?_) rows
    have hn : x.toUsername = v := by simpa using hx
    exact ⟨hq x hn, hq _ hn⟩
  | none =>
    rw [hr] at h
    cases create with
    | false => simp at h
    | true =>
      simp only [if_true, Option.some.injEq] at h
      have hnew := hq ⟨v, m, t⟩ rfl
      simp [← h, hnew]

theorem putRow_eq_self (h : putRow create v m t rows = some rows') :
    rows = rows' ↔ rowFor v rows = some ⟨v, m, t⟩ := by
  rw [putRow_eq] at h
  cases hr : rowFor v rows with
  | some r =>
    rw [hr] at h
    rw [← Option.some.inj h, eq_comm, showIn_eq_self hr]
    simp
  | none =>
    rw [hr] at h
    cases create with
    | false => simp at h
    | true =>
      simp only [if_true, Option.some.injEq] at h
      simp [← h]

theorem putRow_eq_none :
    putRow create v m t rows = none ↔ create = false ∧ rowFor v rows = none := by
  rw [putRow_eq]
  cases rowFor v rows <;> cases create <;> simp

theorem putRow_putRow {create' : Bool} {m' : M} {t' : Int} (hv : rowFor v rows ≠ none)
    (h : putRow create' v m' t' rows = some rows') :
    putRow create v m t rows' = putRow create v m t rows := by
  obtain ⟨r, hr⟩ := Option.ne_none_iff_exists'.mp hv
  rw [putRow_eq, hr] at h
  obtain rfl : showIn v m' t' rows = rows' := Option.some.inj h
  rw [putRow_eq, putRow_eq, hr, rowFor_showIn v hr, if_pos rfl]
  have he := updateOne_updateOne (p := fun r : Row M => r.toUsername == v)
    (f := Row.setLast m t) (g := Row.setLast m' t') (fun r hr => hr) (fun r => rfl) rows
  exact congrArg some he

end Lemmas
end RecoupChat
