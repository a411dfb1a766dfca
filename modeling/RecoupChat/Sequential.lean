import RecoupChat.Points

/-! The handlers in direct style: what a request served alone, without a failing call,
leaves and answers. -/
namespace RecoupChat
open Promise Collection
variable {M : Type}

def Store.shows (s : Store M) (u v : String) (m : M) (t : Int) : Prop :=
  s.row u v = some ⟨v, m, t⟩

def Store.createChat (s : Store M) (d : Send M) : Store M :=
  (s.insertChat ⟨newChatId s.lastChat, d.sentBy, d.sentTo⟩).insertLog
    ⟨newChatId s.lastChat, [d.entry]⟩

structure RowsFrame (d : Send M) (s s' : Store M) : Prop where
  users : s'.users = s.users
  chatIds : s'.chatIds = s.chatIds
  chatMessages : s'.chatMessages = s.chatMessages
  docs : s'.userMessages.map (·.username) = s.userMessages.map (·.username)
  row : ∀ u v, s(u, v) ≠ s(d.sentBy, d.sentTo) → s'.row u v = s.row u v

theorem RowsFrame.refl (d : Send M) (s : Store M) : RowsFrame d s s :=
  ⟨rfl, rfl, rfl, rfl, fun _ _ _ => rfl⟩

theorem RowsFrame.trans {d : Send M} {s s1 s2 : Store M} (h : RowsFrame d s s1)
    (h1 : RowsFrame d s1 s2) : RowsFrame d s s2 :=
  ⟨h1.users.trans h.users, h1.chatIds.trans h.chatIds, h1.chatMessages.trans h.chatMessages,
    h1.docs.trans h.docs, fun u v hne => (h1.row u v hne).trans (h.row u v hne)⟩

theorem RowsFrame.conversation {d : Send M} {s s' : Store M} (h : RowsFrame d s s')
    (u v : String) : s'.conversation u v = s.conversation u v := by
  simp only [Store.conversation, Store.chat, Store.log, Store.logDoc, h.chatIds, h.chatMessages]

variable [DecidableEq M]

/-- Read the rows of `u`, change the row for `v` in memory and write the array back; `none`
where the handler gives up before writing. -/
def Store.showRow (s : Store M) (create : Bool) (u v : String) (m : M) (t : Int) :
    Option (Store M) :=
  ((s.rows u).bind (putRow create v m t)).map (s.setRows u)

def Store.showRows (s : Store M) (create : Bool) (d : Send M) : Option (Store M) :=
  (s.showRow create d.sentBy d.sentTo d.message d.timeNow).bind fun s1 =>
    s1.showRow create d.sentTo d.sentBy d.message d.timeNow

instance (s : Store M) (u v : String) (m : M) (t : Int) : Decidable (s.shows u v m t) :=
  inferInstanceAs (Decidable (_ = _))

theorem setRows_self {s : Store M} {u : String} {rows : List (Row M)} (h : s.rows u = some rows) :
    s.setRows u rows = s := by
  have hm : (setRowsIn u rows s.userMessages).2.modifiedCount ≠ 1 := by
    intro hm
    obtain ⟨cur, hc, hne⟩ := (setRows_modified s u rows).mp hm
    exact hne (Option.some.inj (hc.symm.trans h))
  have he := updateOne_unmodified hm
  simp only [Store.setRows, setRowsIn] at he ⊢
  rw [he]

theorem push_none {s : Store M} {c : Nat} {e : Entry M} (h : s.log c = none) :
    s.push c e = s := by
  have hm : (pushIn c e s.chatMessages).2.modifiedCount ≠ 1 := by
    intro hm
    have hs := (push_modified s c e).mp hm
    simp [h] at hs
  have he := updateOne_unmodified hm
  simp only [Store.push, pushIn] at he ⊢
  rw [he]

section Rows
variable {s s' : Store M} {create : Bool} {u v : String} {m : M} {t : Int}

theorem showRow_eq_none :
    s.showRow create u v m t = none ↔
      s.rows u = none ∨ create = false ∧ s.row u v = none := by
  cases hr : s.rows u with
  | none => simp [Store.showRow, hr]
  | some rows => simp [Store.showRow, Store.row, hr, putRow_eq_none]

theorem showRow_some (h : s.showRow create u v m t = some s') :
    ∃ rows rows', s.rows u = some rows ∧ putRow create v m t rows = some rows' ∧
      s' = s.setRows u rows' := by
  obtain ⟨rows', hb, rfl⟩ := Option.map_eq_some_iff.mp h
  obtain ⟨rows, hr, hp⟩ := Option.bind_eq_some_iff.mp hb
  exact ⟨rows, rows', hr, hp, rfl⟩

theorem row_showRow (h : s.showRow create u v m t = some s') (u' v' : String) :
    s'.row u' v' = if u' = u ∧ v' = v then some ⟨v, m, t⟩ else s.row u' v' := by
  obtain ⟨rows, rows', hr, hp, rfl⟩ := showRow_some h
  by_cases hu : u' = u
  · subst hu
    have hv := rowFor_putRow hp v'
    simp [Store.row, hr, hv]
  · simp [Store.row, hu]

theorem showRow_userMessages (h : s.showRow create u v m t = some s') :
    s'.userMessages.map (·.username) = s.userMessages.map (·.username) := by
  obtain ⟨rows, rows', -, -, rfl⟩ := showRow_some h
  exact map_updateOne (f := fun d : UserMessages M => { d with messages := rows' })
    (g := (·.username)) (fun _ _ => rfl) s.userMessages

theorem showRow_frame (h : s.showRow create u v m t = some s') :
    s'.users = s.users ∧ s'.chatIds = s.chatIds ∧ s'.chatMessages = s.chatMessages := by
  obtain ⟨rows, rows', -, -, rfl⟩ := showRow_some h
  exact ⟨rfl, rfl, rfl⟩

theorem rows_isSome_showRow (h : s.showRow create u v m t = some s') (u' : String) :
    (s'.rows u').isSome = (s.rows u').isSome := by
  obtain ⟨rows, rows', hr, -, rfl⟩ := showRow_some h
  by_cases hu : u' = u
  · subst hu
    simp [hr]
  · simp [hu]

end Rows

namespace Point
variable (toLowerCase : String → String)

theorem showRow_modified {s : Store M} {create : Bool} {u v : String} {m : M} {t : Int}
    {rows rows' : List (Row M)} (hr : s.rows u = some rows)
    (hp : putRow create v m t rows = some rows') :
    (setRowsIn u rows' s.userMessages).2.modifiedCount = 1 ↔ ¬ s.shows u v m t := by
  rw [setRows_modified, Store.shows, Store.row, hr, Option.bind_some, ← putRow_eq_self hp]
  simp

theorem alone_findTo (create : Bool) (d : Send M) (s : Store M) :
    (findTo create d).alone toLowerCase s noFault =
      match s.showRow create d.sentTo d.sentBy d.message d.timeNow with
      | none => (s, [.error "DB_ERR"])
      | some s' =>
        if s.shows d.sentTo d.sentBy d.message d.timeNow then (s, [.error "DB_ERR"])
        else (s', [if create then .success else .sent d.sentTo]) := by
  rw [alone_noFault toLowerCase (by simp [call?])]
  simp only [next, afterFind, Store.showRow]
  cases hb : (s.rows d.sentTo).bind (putRow create d.sentBy d.message d.timeNow) with
  | none => rfl
  | some rows' =>
    obtain ⟨rows, hr, hp⟩ := Option.bind_eq_some_iff.mp hb
    have hm := showRow_modified hr hp
    simp only [Option.map_some]
    rw [alone_noFault toLowerCase (by simp [call?])]
    by_cases hs : s.shows d.sentTo d.sentBy d.message d.timeNow
    · have he : rows = rows' := (putRow_eq_self hp).mpr (by simpa [Store.shows, Store.row, hr] using hs)
      simp only [next, hm, hs, not_true, if_false, if_true]
      rw [← he, setRows_self hr]
      rfl
    · simp only [next, hm, hs, not_false_eq_true, if_true, if_false]
      rfl

theorem alone_findBy (create : Bool) (d : Send M) (s : Store M) :
    (findBy create d).alone toLowerCase s noFault =
      match s.showRow create d.sentBy d.sentTo d.message d.timeNow with
      | none => (s, [.error "DB_ERR"])
      | some s' =>
        if s.shows d.sentBy d.sentTo d.message d.timeNow then (s, [.error "DB_ERR"])
        else (findTo create d).alone toLowerCase s' noFault := by
  rw [alone_noFault toLowerCase (by simp [call?])]
  simp only [next, afterFind, Store.showRow]
  cases hb : (s.rows d.sentBy).bind (putRow create d.sentTo d.message d.timeNow) with
  | none => rfl
  | some rows' =>
    obtain ⟨rows, hr, hp⟩ := Option.bind_eq_some_iff.mp hb
    have hm := showRow_modified hr hp
    simp only [Option.map_some]
    rw [alone_noFault toLowerCase (by simp [call?])]
    by_cases hs : s.shows d.sentBy d.sentTo d.message d.timeNow
    · have he : rows = rows' := (putRow_eq_self hp).mpr (by simpa [Store.shows, Store.row, hr] using hs)
      simp only [next, hm, hs, not_true, if_false, if_true]
      rw [← he, setRows_self hr]
      rfl
    · simp only [next, hm, hs, not_false_eq_true, if_true, if_false]

theorem alone_push (d : Send M) (c : Nat) (s : Store M) :
    (push d c).alone toLowerCase s noFault =
      if (s.log c).isSome then (findBy false d).alone toLowerCase (s.push c d.entry) noFault
      else (s, [.error "DB_ERR"]) := by
  rw [alone_noFault toLowerCase (by simp [call?])]
  simp only [next, push_modified]
  cases hl : s.log c with
  | none =>
    rw [push_none hl]
    rfl
  | some es => simp

end Point

/-- How the two row updates of a send can go: both documents written, or given up before the
first write, at a first write that modifies nothing, before the second or at the second. -/
inductive RowsRun (create : Bool) (d : Send M) (s : Store M) : Store M → Response M → Prop
  | noRowBy (h : s.showRow create d.sentBy d.sentTo d.message d.timeNow = none) :
      RowsRun create d s s (.error "DB_ERR")
  | sameBy {s1 : Store M} (h : s.showRow create d.sentBy d.sentTo d.message d.timeNow = some s1)
      (hs : s.shows d.sentBy d.sentTo d.message d.timeNow) :
      RowsRun create d s s (.error "DB_ERR")
  | noRowTo {s1 : Store M} (h : s.showRow create d.sentBy d.sentTo d.message d.timeNow = some s1)
      (hs : ¬ s.shows d.sentBy d.sentTo d.message d.timeNow)
      (h1 : s1.showRow create d.sentTo d.sentBy d.message d.timeNow = none) :
      RowsRun create d s s1 (.error "DB_ERR")
  | sameTo {s1 s2 : Store M}
      (h : s.showRow create d.sentBy d.sentTo d.message d.timeNow = some s1)
      (hs : ¬ s.shows d.sentBy d.sentTo d.message d.timeNow)
      (h1 : s1.showRow create d.sentTo d.sentBy d.message d.timeNow = some s2)
      (hs1 : s1.shows d.sentTo d.sentBy d.message d.timeNow) :
      RowsRun create d s s1 (.error "DB_ERR")
  | both {s1 s2 : Store M} (h : s.showRow create d.sentBy d.sentTo d.message d.timeNow = some s1)
      (hs : ¬ s.shows d.sentBy d.sentTo d.message d.timeNow)
      (h1 : s1.showRow create d.sentTo d.sentBy d.message d.timeNow = some s2)
      (hs1 : ¬ s1.shows d.sentTo d.sentBy d.message d.timeNow) :
      RowsRun create d s s2 (if create then .success else .sent d.sentTo)

theorem alone_findBy_rowsRun (toLowerCase : String → String) (create : Bool) (d : Send M)
    (s : Store M) :
    ∃ s' resp, (Point.findBy create d).alone toLowerCase s noFault = (s', [resp]) ∧
      RowsRun create d s s' resp := by
  rw [Point.alone_findBy]
  cases h : s.showRow create d.sentBy d.sentTo d.message d.timeNow with
  | none => exact ⟨s, _, rfl, .noRowBy h⟩
  | some s1 =>
    by_cases hs : s.shows d.sentBy d.sentTo d.message d.timeNow
    · exact ⟨s, _, if_pos hs, .sameBy h hs⟩
    · simp only [if_neg hs]
      rw [Point.alone_findTo]
      cases h1 : s1.showRow create d.sentTo d.sentBy d.message d.timeNow with
      | none => exact ⟨s1, _, rfl, .noRowTo h hs h1⟩
      | some s2 =>
        by_cases hs1 : s1.shows d.sentTo d.sentBy d.message d.timeNow
        · exact ⟨s1, _, if_pos hs1, .sameTo h hs h1 hs1⟩
        · exact ⟨s2, _, if_neg hs1, .both h hs h1 hs1⟩

section After
variable {s s1 : Store M} {create : Bool} {u v : String} {m : M} {t : Int}

theorem shows_showRow (h : s.showRow create u v m t = some s1) :
    s1.shows v u m t ↔ u = v ∨ s.shows v u m t := by
  rw [Store.shows, row_showRow h]
  by_cases he : u = v
  · simp [he]
  · simp [Store.shows, Ne.symm he, he]

theorem showRow_showRow (h : s.showRow create u v m t = some s1)
    (h1 : s1.showRow create v u m t = none) : s.showRow create v u m t = none := by
  have hi := rows_isSome_showRow h v
  rcases showRow_eq_none.mp h1 with hn | ⟨hc, hn⟩
  · exact showRow_eq_none.mpr (Or.inl (by simpa [hn] using hi))
  · rw [row_showRow h] at hn
    split at hn
    · cases hn
    · exact showRow_eq_none.mpr (Or.inr ⟨hc, hn⟩)

theorem showRow_of_ne (h : s.showRow create u v m t = some s1) (hne : u ≠ v)
    (h0 : s.showRow create v u m t = none) : s1.showRow create v u m t = none := by
  have hi := rows_isSome_showRow h v
  rcases showRow_eq_none.mp h0 with hn | ⟨hc, hn⟩
  · exact showRow_eq_none.mpr (Or.inl (by simpa [hn] using hi))
  · have hr := row_showRow h v u
    rw [if_neg (fun hq => hne hq.1.symm), hn] at hr
    exact showRow_eq_none.mpr (Or.inr ⟨hc, hr⟩)

end After

def Store.canShow (s : Store M) (create : Bool) (u v : String) (m : M) (t : Int) : Prop :=
  s.showRow create u v m t ≠ none ∧ ¬ s.shows u v m t

theorem RowsRun.status_iff {create : Bool} {d : Send M} {s s' : Store M} {resp : Response M}
    (h : RowsRun create d s s' resp) :
    resp.status = .SUCCESS ↔ d.sentBy ≠ d.sentTo ∧
      s.canShow create d.sentBy d.sentTo d.message d.timeNow ∧
      s.canShow create d.sentTo d.sentBy d.message d.timeNow := by
  cases h with
  | noRowBy h => simp [Response.status, Store.canShow, h]
  | sameBy h hs => simp [Response.status, Store.canShow, hs]
  | noRowTo h hs h1 => simp [Response.status, Store.canShow, showRow_showRow h h1]
  | sameTo h hs h1 hs1 =>
    cases (shows_showRow h).mp hs1 with
    | inl he => simp [Response.status, he]
    | inr hs' => simp [Response.status, Store.canShow, hs']
  | both h hs h1 hs1 =>
    have hne : d.sentBy ≠ d.sentTo := fun he => hs1 ((shows_showRow h).mpr (Or.inl he))
    have hs' : ¬ s.shows d.sentTo d.sentBy d.message d.timeNow :=
      fun hv => hs1 ((shows_showRow h).mpr (Or.inr hv))
    have h2 : s.showRow create d.sentTo d.sentBy d.message d.timeNow ≠ none := by
      intro hn
      simp [showRow_of_ne h hne hn] at h1
    have h0 : s.showRow create d.sentBy d.sentTo d.message d.timeNow ≠ none := by simp [h]
    cases create <;> simp [Response.status, Store.canShow, hne, hs, hs', h0, h2]

theorem rowsFrame_showRow {d : Send M} {s s1 : Store M} {create : Bool} {u v : String}
    (hp : s(u, v) = s(d.sentBy, d.sentTo))
    (h : s.showRow create u v d.message d.timeNow = some s1) : RowsFrame d s s1 := by
  obtain ⟨hu, hc, hl⟩ := showRow_frame h
  refine ⟨hu, hc, hl, showRow_userMessages h, fun u' v' hne => ?_⟩
  rw [row_showRow h, if_neg]
  rintro ⟨rfl, rfl⟩
  exact hne hp

theorem RowsRun.frame {create : Bool} {d : Send M} {s s' : Store M} {resp : Response M}
    (h : RowsRun create d s s' resp) : RowsFrame d s s' := by
  cases h with
  | noRowBy h => exact .refl d s
  | sameBy h hs => exact .refl d s
  | noRowTo h hs h1 => exact rowsFrame_showRow rfl h
  | sameTo h hs h1 hs1 => exact rowsFrame_showRow rfl h
  | both h hs h1 hs1 =>
    exact (rowsFrame_showRow rfl h).trans (rowsFrame_showRow Sym2.eq_swap h1)

theorem RowsRun.rows_isSome {create : Bool} {d : Send M} {s s' : Store M} {resp : Response M}
    (h : RowsRun create d s s' resp) (u : String) : (s'.rows u).isSome = (s.rows u).isSome := by
  cases h with
  | noRowBy h => rfl
  | sameBy h hs => rfl
  | noRowTo h hs h1 => exact rows_isSome_showRow h u
  | sameTo h hs h1 hs1 => exact rows_isSome_showRow h u
  | both h hs h1 hs1 => exact (rows_isSome_showRow h1 u).trans (rows_isSome_showRow h u)

theorem shows_showRows {create : Bool} {d : Send M} {s s' : Store M}
    (h : s.showRows create d = some s') :
    s'.shows d.sentBy d.sentTo d.message d.timeNow ∧
      s'.shows d.sentTo d.sentBy d.message d.timeNow := by
  obtain ⟨s1, h, h1⟩ := Option.bind_eq_some_iff.mp h
  refine ⟨?_, by rw [Store.shows, row_showRow h1, if_pos ⟨rfl, rfl⟩]⟩
  rw [Store.shows, row_showRow h1]
  split
  · rename_i hq
    rw [hq.1]
  · rw [row_showRow h, if_pos ⟨rfl, rfl⟩]

theorem RowsRun.shows {create : Bool} {d : Send M} {s s' : Store M} {resp : Response M}
    (h : RowsRun create d s s' resp) (hok : resp.status = .SUCCESS) :
    s'.shows d.sentBy d.sentTo d.message d.timeNow ∧
      s'.shows d.sentTo d.sentBy d.message d.timeNow := by
  cases h with
  | both h hs h1 hs1 => exact shows_showRows (Option.bind_eq_some_iff.mpr ⟨_, h, h1⟩)
  | _ => simp [Response.status] at hok

theorem showRow_of_shows {create : Bool} {s : Store M} {u v : String} {m : M} {t : Int}
    (h : s.shows u v m t) : s.showRow create u v m t = some s := by
  obtain ⟨rows, hr, hrow⟩ := Option.bind_eq_some_iff.mp h
  cases hp : putRow create v m t rows with
  | none => simp [(putRow_eq_none.mp hp).2] at hrow
  | some rows' =>
    obtain rfl : rows = rows' := (putRow_eq_self hp).mpr hrow
    simp [Store.showRow, hr, hp, setRows_self hr]

/-- Where both rows can be written and show the same entry before, the two row updates
always end as if both were written: an update is skipped, or modifies nothing, only where
its row shows the message already. -/
theorem RowsRun.showRows {create : Bool} {d : Send M} {s s' : Store M} {resp : Response M}
    (h : RowsRun create d s s' resp)
    (hby : s.showRow create d.sentBy d.sentTo d.message d.timeNow ≠ none)
    (hto : s.showRow create d.sentTo d.sentBy d.message d.timeNow ≠ none)
    (hsync : s.shows d.sentBy d.sentTo d.message d.timeNow ↔
      s.shows d.sentTo d.sentBy d.message d.timeNow) : s.showRows create d = some s' := by
  cases h with
  | noRowBy h => exact absurd h hby
  | sameBy h hs =>
    exact Option.bind_eq_some_iff.mpr ⟨s, showRow_of_shows hs, showRow_of_shows (hsync.mp hs)⟩
  | noRowTo h hs h1 => exact absurd (showRow_showRow h h1) hto
  | sameTo h hs h1 hs1 => exact Option.bind_eq_some_iff.mpr ⟨_, h, showRow_of_shows hs1⟩
  | both h hs h1 hs1 => exact Option.bind_eq_some_iff.mpr ⟨_, h, h1⟩

theorem RowsRun.answer {create : Bool} {d : Send M} {s s' : Store M} {resp : Response M}
    (h : RowsRun create d s s' resp) :
    resp.status = .SUCCESS ∧ resp = (if create then .success else .sent d.sentTo) ∨
      resp.status ≠ .SUCCESS ∧ resp = .error "DB_ERR" := by
  cases h with
  | both h hs h1 hs1 => exact Or.inl ⟨by cases create <;> rfl, rfl⟩
  | _ => exact Or.inr ⟨by simp [Response.status], rfl⟩

/-! The same frame when calls are rejected. -/

def RowsKnown (d : Send M) (s : Store M) : Point M → Prop
  | .findBy _ x | .findTo _ x => x = d
  | .updateBy create x rows' => x = d ∧ ∃ rows, s.rows d.sentBy = some rows ∧
      putRow create d.sentTo d.message d.timeNow rows = some rows'
  | .updateTo create x rows' => x = d ∧ ∃ rows, s.rows d.sentTo = some rows ∧
      putRow create d.sentBy d.message d.timeNow rows = some rows'
  | .answered _ => True
  | _ => False

theorem rowsKnown_next (toLowerCase : String → String) {d : Send M} {s : Store M} {p : Point M}
    (h : RowsKnown d s p) : RowsFrame d s (p.next toLowerCase s).1 ∧
      RowsKnown d (p.next toLowerCase s).1 (p.next toLowerCase s).2 := by
  cases p with
  | findBy create x =>
    obtain rfl := h
    refine ⟨.refl x s, ?_⟩
    simp only [Point.next, Point.afterFind]
    split
    · rename_i rows' hb
      obtain ⟨rows, hr, hp⟩ := Option.bind_eq_some_iff.mp hb
      exact ⟨rfl, rows, hr, hp⟩
    · trivial
  | updateBy create x rows' =>
    obtain ⟨rfl, rows, hr, hp⟩ := h
    have hshow : s.showRow create x.sentBy x.sentTo x.message x.timeNow =
        some (s.setRows x.sentBy rows') := by simp [Store.showRow, hr, hp]
    refine ⟨rowsFrame_showRow rfl hshow, ?_⟩
    simp only [Point.next]
    split <;> trivial
  | findTo create x =>
    obtain rfl := h
    refine ⟨.refl x s, ?_⟩
    simp only [Point.next, Point.afterFind]
    split
    · rename_i rows' hb
      obtain ⟨rows, hr, hp⟩ := Option.bind_eq_some_iff.mp hb
      exact ⟨rfl, rows, hr, hp⟩
    · trivial
  | updateTo create x rows' =>
    obtain ⟨rfl, rows, hr, hp⟩ := h
    have hshow : s.showRow create x.sentTo x.sentBy x.message x.timeNow =
        some (s.setRows x.sentTo rows') := by simp [Store.showRow, hr, hp]
    refine ⟨rowsFrame_showRow Sym2.eq_swap hshow, ?_⟩
    simp only [Point.next]
    split <;> trivial
  | answered resp => exact ⟨.refl d s, trivial⟩
  | _ => exact h.elim

theorem rowsFrame_alone (toLowerCase : String → String) (create : Bool) (d : Send M)
    (s : Store M) (fails : Nat → Bool) :
    RowsFrame d s ((Point.findBy create d).alone toLowerCase s fails).1 := by
  obtain ⟨resp, -, hr⟩ := Point.alone_invariant toLowerCase fails
    (I := fun p s' => RowsFrame d s s' ∧ RowsKnown d s' p)
    (fun p s' _ hI => ⟨hI.1.trans (rowsKnown_next toLowerCase hI.2).1,
      (rowsKnown_next toLowerCase hI.2).2⟩)
    (fun _ _ _ _ hI => ⟨hI.1, trivial⟩) (p := .findBy create d) (s := s) ⟨.refl d s, rfl⟩
  exact hr.1

/-! The requests. -/
variable (toLowerCase : String → String) (s : Store M)

theorem serve_sendMessage (d : Send M) :
    s.serve toLowerCase (.sendMessage d) noFault =
      match s.chat d.sentBy d.sentTo with
      | none => (s, [.error "DB_ERR"])
      | some doc => (Point.push d doc.chatId).alone toLowerCase s noFault := by
  rw [Point.serve_eq_alone, Point.start, Point.alone_noFault toLowerCase (by simp [Point.call?])]
  simp only [Point.next]
  cases s.chat d.sentBy d.sentTo <;> rfl

theorem serve_sendNewMessage (d : Send M) :
    s.serve toLowerCase (.sendNewMessage d) noFault =
      if userExists toLowerCase d.sentTo s.users then
        match s.chat d.sentBy d.sentTo with
        | some doc => (Point.push d doc.chatId).alone toLowerCase s noFault
        | none => (Point.findBy true d).alone toLowerCase (s.createChat d) noFault
      else (s, [.error "USER DOES NOT EXIST"]) := by
  rw [Point.serve_eq_alone, Point.start, Point.alone_noFault toLowerCase (by simp [Point.call?])]
  simp only [Point.next]
  split
  · rw [Point.alone_noFault toLowerCase (by simp [Point.call?])]
    simp only [Point.next]
    cases s.chat d.sentBy d.sentTo with
    | some doc => rfl
    | none =>
      simp only [if_true]
      rw [Point.alone_noFault toLowerCase (by simp [Point.call?]), Point.next,
        Point.alone_noFault toLowerCase (by simp [Point.call?]), Point.next,
        Point.alone_noFault toLowerCase (by simp [Point.call?]), Point.next]
      rfl
  · rfl

theorem serve_addNewUser (u : String) :
    s.serve toLowerCase (.addNewUser u) noFault =
      ((s.insertUser ⟨u⟩).insertUserMessages ⟨u, []⟩, [.success]) := by
  rw [Point.serve_eq_alone, Point.start, Point.alone_noFault toLowerCase (by simp [Point.call?]),
    Point.next, Point.alone_noFault toLowerCase (by simp [Point.call?]), Point.next]
  rfl

theorem serve_getUserChatMessages (a b : String) :
    s.serve toLowerCase (.getUserChatMessages a b) noFault =
      (s, [match (s.chat a b).bind fun doc => s.log doc.chatId with
        | some es => .messages es
        | none => .error "DB_ERR"]) := by
  rw [Point.serve_eq_alone, Point.start, Point.alone_noFault toLowerCase (by simp [Point.call?])]
  simp only [Point.next]
  cases s.chat a b with
  | none => rfl
  | some doc =>
    simp only [Option.bind_some]
    rw [Point.alone_noFault toLowerCase (by simp [Point.call?])]
    simp only [Point.next]
    cases s.log doc.chatId <;> rfl

theorem serve_getUserChats (u : String) :
    s.serve toLowerCase (.getUserChats u) noFault =
      (s, [.chats (jsSort newestFirst ((s.rows u).getD []))]) := by
  rw [Point.serve_eq_alone, Point.start, Point.alone_noFault toLowerCase (by simp [Point.call?])]
  simp only [Point.next]
  cases s.rows u with
  | none => simp [Point.alone_answered, jsSort]
  | some rows => rfl

theorem serve_getExistingUsernames :
    s.serve toLowerCase .getExistingUsernames noFault =
      (s, [.usernames (s.users.map (·.username))]) := rfl

inductive Served : Request M → Store M → Response M → Prop
  | read {r : Request M} {resp : Response M} (hr : r.send? = none)
      (hn : ∀ u, r ≠ .addNewUser u) : Served r s resp
  | added (u : String) :
      Served (.addNewUser u) ((s.insertUser ⟨u⟩).insertUserMessages ⟨u, []⟩) .success
  | unknown {d : Send M} (hu : userExists toLowerCase d.sentTo s.users = false) :
      Served (.sendNewMessage d) s (.error "USER DOES NOT EXIST")
  | noChat {d : Send M} (hc : s.chat d.sentBy d.sentTo = none) :
      Served (.sendMessage d) s (.error "DB_ERR")
  | noLog {r : Request M} {d : Send M} {doc : ChatId} (hr : r.send? = some d)
      (hc : s.chat d.sentBy d.sentTo = some doc) (hl : s.log doc.chatId = none) :
      Served r s (.error "DB_ERR")
  | pushed {r : Request M} {d : Send M} {doc : ChatId} {s' : Store M} {resp : Response M}
      (hr : r.send? = some d)
      (hu : r = .sendNewMessage d → userExists toLowerCase d.sentTo s.users = true)
      (hc : s.chat d.sentBy d.sentTo = some doc) (hl : (s.log doc.chatId).isSome)
      (h : RowsRun false d (s.push doc.chatId d.entry) s' resp) : Served r s' resp
  | created {d : Send M} {s' : Store M} {resp : Response M}
      (hu : userExists toLowerCase d.sentTo s.users = true)
      (hc : s.chat d.sentBy d.sentTo = none)
      (h : RowsRun true d (s.createChat d) s' resp) : Served (.sendNewMessage d) s' resp

theorem served_push {r : Request M} {d : Send M} {doc : ChatId} (hr : r.send? = some d)
    (hu : r = .sendNewMessage d → userExists toLowerCase d.sentTo s.users = true)
    (hc : s.chat d.sentBy d.sentTo = some doc)
    (he : s.serve toLowerCase r noFault =
      (Point.push d doc.chatId).alone toLowerCase s noFault) :
    ∃ s' resp, s.serve toLowerCase r noFault = (s', [resp]) ∧
      Served toLowerCase s r s' resp := by
  rw [Point.alone_push] at he
  by_cases hl : (s.log doc.chatId).isSome
  · obtain ⟨s', resp, ha, h⟩ :=
      alone_findBy_rowsRun toLowerCase false d (s.push doc.chatId d.entry)
    rw [if_pos hl, ha] at he
    exact ⟨s', resp, he, .pushed hr hu hc hl h⟩
  · rw [if_neg hl] at he
    exact ⟨s, _, he, .noLog hr hc (by simpa using hl)⟩

theorem served (r : Request M) :
    ∃ s' resp, s.serve toLowerCase r noFault = (s', [resp]) ∧
      Served toLowerCase s r s' resp := by
  cases r with
  | getExistingUsernames => exact ⟨s, _, rfl, .read rfl (by simp)⟩
  | getUserChats u => exact ⟨s, _, serve_getUserChats toLowerCase s u, .read rfl (by simp)⟩
  | getUserChatMessages u v =>
    exact ⟨s, _, serve_getUserChatMessages toLowerCase s u v, .read rfl (by simp)⟩
  | addNewUser u => exact ⟨_, _, serve_addNewUser toLowerCase s u, .added u⟩
  | sendMessage d =>
    have he := serve_sendMessage toLowerCase s d
    cases hc : s.chat d.sentBy d.sentTo with
    | none => exact ⟨s, _, by rw [he, hc], .noChat hc⟩
    | some doc => exact served_push toLowerCase s rfl (by simp) hc (by rw [he, hc])
  | sendNewMessage d =>
    have he := serve_sendNewMessage toLowerCase s d
    cases hu : userExists toLowerCase d.sentTo s.users with
    | false => exact ⟨s, _, by simp [he, hu], .unknown hu⟩
    | true =>
      rw [hu, if_pos rfl] at he
      cases hc : s.chat d.sentBy d.sentTo with
      | none =>
        obtain ⟨s', resp, ha, h⟩ := alone_findBy_rowsRun toLowerCase true d (s.createChat d)
        exact ⟨s', resp, by rw [he, hc, ha], .created hu hc h⟩
      | some doc => exact served_push toLowerCase s rfl (fun _ => hu) hc (by rw [he, hc])

end RecoupChat
