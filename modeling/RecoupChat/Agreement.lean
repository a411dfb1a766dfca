import RecoupChat.Attribution
import RecoupChat.ChatList
import RecoupChat.Mirror
import RecoupChat.Refinement

/-! The two rows of a pair show the last entry of its log at rest, as long as requests update
each array in the order in which they appended to the log. -/
namespace RecoupChat
open Promise Transition Collection
variable {M : Type}

def Entry.shown (e : Entry M) : M × Int := (e.message, e.time)

/-- What the row of `u` for `v` shows. -/
def Store.shown (s : Store M) (u v : String) : Option (M × Int) :=
  (s.row u v).map fun r => (r.lastMessage, r.lastMessageTime)

theorem shown_iff {s : Store M} {u v : String} {m : M} {t : Int} :
    s.shown u v = some (m, t) ↔ s.shows u v m t := by
  rw [Store.shown, Store.shows]
  constructor
  · intro h
    obtain ⟨r, hr, he⟩ := Option.map_eq_some_iff.mp h
    have hn := row_name hr
    cases r
    simp_all
  · intro h
    rw [h]
    rfl

/-- Both rows of a pair show the message and the time of the last entry of its list. -/
def Store.agrees (s : Store M) (x y : String) : Prop :=
  ∃ e ∈ (s.conversation x y).getLast?,
    s.shows x y e.message e.time ∧ s.shows y x e.message e.time

instance [DecidableEq M] (s : Store M) (x y : String) : Decidable (s.agrees x y) :=
  inferInstanceAs (Decidable (∃ e ∈ (s.conversation x y).getLast?, _))

def Action.between (x y : String) : Action M → Prop
  | .issue r => ∃ d ∈ r.send?, s(d.sentBy, d.sentTo) = s(x, y)
  | .fulfil _ _ => True
  | .reject _ _ => False

instance (x y : String) : DecidablePred (Action.between (M := M) x y)
  | .issue r => inferInstanceAs (Decidable (∃ d ∈ r.send?, _))
  | .fulfil _ _ => isTrue trivial
  | .reject _ _ => isFalse id

theorem Represents.agrees {a : Service M} {s : Store M} (h : Represents a s) {x y : String}
    (hc : a.conv s(x, y) ≠ []) : s.agrees x y := by
  have hlast : (s.conversation x y).getLast? = some ((a.conv s(x, y)).getLast hc) := by
    rw [h.conversation, List.getLast?_eq_some_getLast hc]
  refine ⟨_, hlast, ?_, ?_⟩
  · rw [Store.shows, h.row, List.getLast?_eq_some_getLast hc]
    rfl
  · rw [Store.shows, h.row, Sym2.eq_swap, List.getLast?_eq_some_getLast hc]
    rfl

def Call.pushed? : Call M → Option (Entry M)
  | .chatMessagesPush _ e => some e
  | _ => none

def Call.rowsOf? : Call M → Option String
  | .userMessagesFindOne u | .userMessagesSet u _ => some u
  | _ => none

/-- The history of a run: the entries appended so far, each with the request that did it. -/
def appended (log : List (Nat × Entry M)) (s : Sys M) : Action M → List (Nat × Entry M)
  | .fulfil i j => log ++ ((s.call? i j).bind Call.pushed?).toList.map fun e => (i, e)
  | _ => log

/-- The rows, by user and partner, that a send has still to update when it waits for `c`. -/
def Send.toUpdate (d : Send M) (c : Call M) : List (String × String) :=
  if c.rowsOf? = some d.sentBy then [(d.sentBy, d.sentTo), (d.sentTo, d.sentBy)]
  else if c.rowsOf? = some d.sentTo then [(d.sentTo, d.sentBy)]
  else []

def Sys.toUpdate (s : Sys M) (i : Nat) : List (String × String) :=
  s.requests[i]?.toList.flatMap fun x => x.1.send?.toList.flatMap fun d =>
    (x.2.pending.map (·.call)).flatMap d.toUpdate

/-- An array is written only when no request that appended earlier has still to update it. -/
def inOrder (log : List (Nat × Entry M)) (s : Sys M) : Action M → Prop :=
  onCalls (fun s i c => ∀ w ∈ c.copy?, ∀ k ∈ log.takeWhile fun k => k.1 ≠ i,
    ∀ row ∈ s.toUpdate k.1, row.1 ≠ w.1) s

instance (log : List (Nat × Entry M)) (s : Sys M) : DecidablePred (inOrder log s) := fun a => by
  unfold inOrder
  infer_instance

def Point.toUpdate : Point M → List (String × String)
  | .findBy _ d | .updateBy _ d _ => [(d.sentBy, d.sentTo), (d.sentTo, d.sentBy)]
  | .findTo _ d | .updateTo _ d _ => [(d.sentTo, d.sentBy)]
  | _ => []

def PSys.toUpdate (ps : PSys M) (i : Nat) : List (String × String) :=
  (ps.requests[i]?.map (·.2.toUpdate)).getD []

theorem toUpdate_get {ps : PSys M} {i : Nat} {r : Request M} {p : Point M}
    (hi : ps.requests[i]? = some (r, p)) : ps.toUpdate i = p.toUpdate := by
  simp [PSys.toUpdate, hi]

theorem toUpdate_issue (ps : PSys M) (r : Request M) : (ps.issue r).toUpdate = ps.toUpdate := by
  funext i
  rw [PSys.toUpdate, PSys.issue, PSys.toUpdate, List.getElem?_append]
  split
  · rfl
  · rename_i hlen
    rw [List.getElem?_eq_none (l := ps.requests) (by omega), List.getElem?_singleton]
    split
    · cases r <;> rfl
    · rfl

theorem toUpdate_set {ps : PSys M} {i : Nat} {r : Request M} {p : Point M}
    (hi : ps.requests[i]? = some (r, p)) (store : Store M) (q : Point M) :
    PSys.toUpdate ⟨store, ps.requests.set i (r, q)⟩ =
      Function.update ps.toUpdate i q.toUpdate := by
  funext j
  obtain ⟨hlt, -⟩ := List.getElem?_eq_some_iff.mp hi
  by_cases hj : j = i
  · subst hj
    simp [PSys.toUpdate, hlt]
  · simp [PSys.toUpdate, hj, Ne.symm hj]

def mirror (log : List (Nat × Entry M)) (ps : PSys M) :
    Mirror.State Nat (String × String) (Option (M × Int)) where
  log := log.map fun w => (w.1, some w.2.shown)
  todo := ps.toUpdate
  cell w := ps.store.shown w.1 w.2

theorem latest_shown (es : List (Entry M)) {e0 : Entry M} (h : es.getLast? = some e0)
    (log : List (Nat × Entry M)) : ∃ e ∈ (es ++ log.map (·.2)).getLast?,
      Mirror.latest (some e0.shown) (log.map fun w => (w.1, some w.2.shown)) = some e.shown := by
  induction log using List.reverseRecOn with
  | nil => exact ⟨e0, by simpa using h, rfl⟩
  | append_singleton log w ih => exact ⟨w.2, by simp [← List.append_assoc], by simp⟩

def Point.ofPair [DecidableEq M] (s : Store M) (c : Nat) (P : Sym2 String)
    (log : List (Nat × Entry M)) (i : Nat) : Point M → Prop
  | .usersFind d | .findChat _ d => s(d.sentBy, d.sentTo) = P ∧ i ∉ log.map (·.1)
  | .push d c' => s(d.sentBy, d.sentTo) = P ∧ i ∉ log.map (·.1) ∧ c' = c
  | .findBy _ d | .findTo _ d => s(d.sentBy, d.sentTo) = P ∧ (i, d.entry) ∈ log
  | .updateBy create d rows => s(d.sentBy, d.sentTo) = P ∧ (i, d.entry) ∈ log ∧
      (s.rows d.sentBy).bind (putRow create d.sentTo d.message d.timeNow) = some rows
  | .updateTo create d rows => s(d.sentBy, d.sentTo) = P ∧ (i, d.entry) ∈ log ∧
      (s.rows d.sentTo).bind (putRow create d.sentBy d.message d.timeNow) = some rows
  | .answered _ => True
  | _ => False

section Step
variable [DecidableEq M] {toLowerCase : String → String}

theorem ofPair_mono {s s' : Store M} {c : Nat} {P : Sym2 String} {log log' : List (Nat × Entry M)}
    {i : Nat} {p : Point M} (h : p.ofPair s c P log i) (hlog : log ⊆ log')
    (hnew : i ∈ log'.map (·.1) → i ∈ log.map (·.1))
    (hrows : ∀ u v, s(u, v) = P → ∀ create m t,
      (s'.rows u).bind (putRow create v m t) = (s.rows u).bind (putRow create v m t)) :
    p.ofPair s' c P log' i := by
  cases p with
  | usersFind d => exact ⟨h.1, fun hi => h.2 (hnew hi)⟩
  | findChat create d => exact ⟨h.1, fun hi => h.2 (hnew hi)⟩
  | push d c' => exact ⟨h.1, fun hi => h.2.1 (hnew hi), h.2.2⟩
  | findBy create d => exact ⟨h.1, hlog h.2⟩
  | findTo create d => exact ⟨h.1, hlog h.2⟩
  | updateBy create d rows =>
    obtain ⟨hp, hi, hb⟩ := h
    exact ⟨hp, hlog hi, (hrows _ _ hp _ _ _).trans hb⟩
  | updateTo create d rows =>
    obtain ⟨hp, hi, hb⟩ := h
    exact ⟨hp, hlog hi, (hrows _ _ (Sym2.eq_swap.trans hp) _ _ _).trans hb⟩
  | answered resp => trivial
  | _ => exact h.elim

theorem computed_showRow {s s' : Store M} {create : Bool} {u v : String} {m : M} {t : Int}
    (h : s.showRow create u v m t = some s') (hv : s.row u v ≠ none) {u' v' : String}
    (hp : s(u', v') = s(u, v)) (create' : Bool) (m' : M) (t' : Int) :
    (s'.rows u').bind (putRow create' v' m' t') = (s.rows u').bind (putRow create' v' m' t') := by
  obtain ⟨rows, rows', hr, hput, rfl⟩ := showRow_some h
  by_cases hu : u' = u
  · subst hu
    obtain rfl : v' = v := Sym2.congr_right.mp hp
    have hrow : rowFor v' rows ≠ none := by simpa [Store.row, hr] using hv
    simp [hr, putRow_putRow hrow hput]
  · simp [hu]

theorem shown_showRow {s s' : Store M} {create : Bool} {u v : String} {m : M} {t : Int}
    (h : s.showRow create u v m t = some s') :
    (fun w : String × String => s'.shown w.1 w.2) =
      Function.update (fun w => s.shown w.1 w.2) (u, v) (some (m, t)) := by
  funext w
  rw [Store.shown, row_showRow h, Function.update_apply]
  by_cases hw : w.1 = u ∧ w.2 = v
  · rw [if_pos hw, if_pos (Prod.ext hw.1 hw.2)]
    rfl
  · rw [if_neg hw, if_neg fun he => hw ⟨by rw [he], by rw [he]⟩]
    rfl

/-- The invariant: the pair has its chat, its log is what it was at the start and `log`, both
of its rows exist, and the rows mirror the log. -/
structure Mirrored (x y : String) (c : Nat) (es : List (Entry M)) (v0 : M × Int)
    (log : List (Nat × Entry M)) (ps : PSys M) : Prop where
  chat : (ps.store.chat x y).map (·.chatId) = some c
  entries : ps.store.log c = some (es ++ log.map (·.2))
  rows : ∀ u v, s(u, v) = s(x, y) → ps.store.row u v ≠ none
  of : ps.Each fun _ r p => p.Of r
  points : ps.Each fun i _ p => p.ofPair ps.store c s(x, y) log i
  bound : ∀ k ∈ log, k.1 < ps.requests.length
  shows : (mirror log ps).Shows (x, y) (y, x) (some v0)

namespace Mirrored
variable {x y : String} {c : Nat} {es : List (Entry M)} {v0 : M × Int}
  {log : List (Nat × Entry M)} {ps : PSys M} (h : Mirrored x y c es v0 log ps)
include h

theorem toUpdate_sys (hxy : x ≠ y) : (ps.sys toLowerCase).toUpdate = ps.toUpdate := by
  funext i
  cases hi : ps.requests[i]? with
  | none => simp [Sys.toUpdate, PSys.toUpdate, PSys.sys, hi]
  | some z =>
    obtain ⟨r, p⟩ := z
    have hne {d : Send M} (hp : s(d.sentBy, d.sentTo) = s(x, y)) : d.sentTo ≠ d.sentBy :=
      of_pair (P := fun u v => v ≠ u) hp hxy.symm hxy
    have hof := h.of i r p hi
    have hp := h.points i r p hi
    have hsys : (ps.sys toLowerCase).toUpdate i =
        r.send?.toList.flatMap fun d => p.call?.toList.flatMap d.toUpdate := by
      simp [Sys.toUpdate, PSys.sys, hi, ← pending_calls toLowerCase p]
    rw [hsys, toUpdate_get hi]
    cases p with
    | answered resp => cases r.send? <;> rfl
    | findBy create d =>
      rw [show r.send? = some d from hof]
      simp [Point.call?, Send.toUpdate, Call.rowsOf?, Point.toUpdate]
    | updateBy create d rows =>
      rw [show r.send? = some d from hof]
      simp [Point.call?, Send.toUpdate, Call.rowsOf?, Point.toUpdate]
    | findTo create d =>
      rw [show r.send? = some d from hof]
      simp [Point.call?, Send.toUpdate, Call.rowsOf?, Point.toUpdate, hne hp.1]
    | updateTo create d rows =>
      rw [show r.send? = some d from hof]
      simp [Point.call?, Send.toUpdate, Call.rowsOf?, Point.toUpdate, hne hp.1]
    | usersFind d => cases r.send? <;> rfl
    | findChat create d => cases r.send? <;> rfl
    | push d c' => cases r.send? <;> rfl
    | _ => exact hp.elim

theorem issue {r : Request M} {d : Send M} (hd : r.send? = some d)
    (hp : s(d.sentBy, d.sentTo) = s(x, y)) : Mirrored x y c es v0 log (ps.issue r) where
  chat := h.chat
  entries := h.entries
  rows := h.rows
  of := each_issue h.of (Point.of_start r)
  points := by
    have hnew : ps.requests.length ∉ log.map (·.1) := by
      intro hm
      obtain ⟨k, hk, he⟩ := List.mem_map.mp hm
      have hlt := h.bound k hk
      omega
    refine each_issue h.points ?_
    cases r with
    | sendMessage d' =>
      cases hd
      exact ⟨hp, hnew⟩
    | sendNewMessage d' =>
      cases hd
      exact ⟨hp, hnew⟩
    | _ => cases hd
  bound k hk := by
    have hlt := h.bound k hk
    simp only [PSys.issue, List.length_append, List.length_singleton]
    omega
  shows := by
    have he : mirror log (ps.issue r) = mirror log ps := by
      rw [mirror, toUpdate_issue]
      rfl
    rw [he]
    exact h.shows

theorem chat_eq {u v : String} (hp : s(u, v) = s(x, y)) :
    ∃ doc, ps.store.chat u v = some doc ∧ doc.chatId = c := by
  obtain ⟨doc, hd, hc⟩ := Option.map_eq_some_iff.mp h.chat
  exact ⟨doc, of_pair (P := fun u v => ps.store.chat u v = some doc) hp hd
    ((chat_comm ps.store y x).trans hd), hc⟩

theorem computed {u v : String} (hp : s(u, v) = s(x, y)) (create : Bool) (m : M) (t : Int) :
    ∃ rows, (ps.store.rows u).bind (putRow create v m t) = some rows := by
  have hrow := h.rows u v hp
  have hs : ps.store.showRow create u v m t ≠ none := by
    intro hs
    rcases showRow_eq_none.mp hs with hn | ⟨-, hn⟩
    · exact hrow (by simp [Store.row, hn])
    · exact hrow hn
  obtain ⟨s', hs⟩ := Option.ne_none_iff_exists'.mp hs
  obtain ⟨rows, hb, -⟩ := Option.map_eq_some_iff.mp hs
  exact ⟨rows, hb⟩

variable {i : Nat} {r : Request M} {p q : Point M} (hi : ps.requests[i]? = some (r, p))
include hi

theorem stay (hq : q.ofPair ps.store c s(x, y) log i) (hof : q.Of r)
    (hu : q.toUpdate = p.toUpdate) :
    Mirrored x y c es v0 log ⟨ps.store, ps.requests.set i (r, q)⟩ where
  chat := h.chat
  entries := h.entries
  rows := h.rows
  of := each_set (fun j r' q' _ hj => h.of j r' q' hj) hof
  points := each_set (fun j r' q' _ hj => h.points j r' q' hj) hq
  bound := by simpa using h.bound
  shows := by
    have he : mirror log ⟨ps.store, ps.requests.set i (r, q)⟩ = mirror log ps := by
      rw [mirror, toUpdate_set hi, hu, ← toUpdate_get hi, Function.update_eq_self]
      rfl
    rw [he]
    exact h.shows

theorem push {d : Send M} (hp : s(d.sentBy, d.sentTo) = s(x, y)) (hnew : i ∉ log.map (·.1))
    (hof : r.send? = some d) (create : Bool) :
    Mirrored x y c es v0 (log ++ [(i, d.entry)])
      ⟨ps.store.push c d.entry, ps.requests.set i (r, .findBy create d)⟩ where
  chat := h.chat
  entries := by simp [log_push, h.entries]
  rows := h.rows
  of := each_set (fun j r' q' _ hj => h.of j r' q' hj) hof
  points := by
    refine each_set (fun j r' q' hne hj => ?_) ⟨hp, by simp⟩
    exact ofPair_mono (h.points j r' q' hj) (List.subset_append_left _ _)
      (by simpa using fun hm : j ∈ log.map (·.1) ∨ j = i => hm.resolve_right hne)
      fun _ _ _ _ _ _ => rfl
  bound k hk := by
    obtain ⟨hlt, -⟩ := List.getElem?_eq_some_iff.mp hi
    rw [List.length_set]
    cases List.mem_append.mp hk with
    | inl hk => exact h.bound k hk
    | inr hk =>
      rw [List.mem_singleton.mp hk]
      exact hlt
  shows := by
    have he : mirror (log ++ [(i, d.entry)])
        ⟨ps.store.push c d.entry, ps.requests.set i (r, .findBy create d)⟩ =
        (mirror log ps).append i (some d.entry.shown)
          [(d.sentBy, d.sentTo), (d.sentTo, d.sentBy)] := by
      rw [mirror, toUpdate_set hi, List.map_append]
      rfl
    rw [he]
    refine h.shows.append (by simpa [mirror] using hnew) ?_
    exact of_pair (P := fun u v => Mirror.fresh (x, y) (y, x) [(u, v), (v, u)]) hp
      (Or.inl rfl) (Or.inr rfl)

theorem write (hxy : x ≠ y) {create : Bool} {u v : String} {us : List (String × String)}
    {e : Entry M} {s' : Store M} (hp : s(u, v) = s(x, y)) (hu : p.toUpdate = (u, v) :: us)
    (he : (i, e) ∈ log) (hshow : ps.store.showRow create u v e.message e.time = some s')
    (hturn : ∀ k ∈ log.takeWhile fun k => k.1 ≠ i, ∀ row ∈ ps.toUpdate k.1, row.1 ≠ u)
    (hq : q.ofPair s' c s(x, y) log i) (hof : q.Of r)
    (hqu : q.toUpdate = if ps.store.shows u v e.message e.time then [] else us) :
    Mirrored x y c es v0 log ⟨s', ps.requests.set i (r, q)⟩ := by
  obtain ⟨-, hids, hlogs⟩ := showRow_frame hshow
  refine ⟨?_, ?_, fun u' v' hp' => ?_, each_set (fun j r' q' _ hj => h.of j r' q' hj) hof,
    each_set (fun j r' q' _ hj => ?_) hq, by simpa using h.bound, ?_⟩
  · simpa only [Store.chat, hids] using h.chat
  · simpa only [Store.log, Store.logDoc, hlogs] using h.entries
  · rw [row_showRow hshow]
    split
    · simp
    · exact h.rows u' v' hp'
  · exact ofPair_mono (h.points j r' q' hj) (List.Subset.refl _) id
      fun u' v' hp' => computed_showRow hshow (h.rows u v hp) (hp'.trans hp.symm)
  · have htodo : (mirror log ps).todo i = (u, v) :: us := (toUpdate_get hi).trans hu
    have hmirror : mirror log ⟨s', ps.requests.set i (r, q)⟩ =
        (mirror log ps).write i (some e.shown) := by
      have hcell : (mirror log ps).cell (u, v) = some e.shown ↔
          ps.store.shows u v e.message e.time := shown_iff
      rw [Mirror.State.write, htodo, mirror, toUpdate_set hi, hqu, shown_showRow hshow]
      by_cases hs : ps.store.shows u v e.message e.time
      · have hsame : Function.update (fun w : String × String => ps.store.shown w.1 w.2) (u, v)
            (some (e.message, e.time)) = fun w => ps.store.shown w.1 w.2 := by
          rw [← shown_iff.mpr hs]
          exact Function.update_eq_self (u, v) _
        simp only [if_pos hs, if_pos (hcell.mpr hs), hsame]
        rfl
      · simp only [if_neg hs, if_neg (mt hcell.mp hs)]
        rfl
    rw [hmirror]
    refine h.shows.write (by simp [hxy]) htodo (List.mem_map.mpr ⟨(i, e), he, rfl⟩) fun w hw hm => ?_
    simp only [mirror, List.takeWhile_map, List.mem_map] at hw
    obtain ⟨k, hk, rfl⟩ := hw
    exact hturn k hk _ hm rfl

theorem writeArray (hxy : x ≠ y) {create : Bool} {u v : String} {us : List (String × String)}
    {d : Send M} {rows : List (Row M)} (hp : s(u, v) = s(x, y))
    (hu : p.toUpdate = (u, v) :: us) (hd : (i, d.entry) ∈ log)
    (hb : (ps.store.rows u).bind (putRow create v d.message d.timeNow) = some rows)
    (hturn : ∀ k ∈ log.takeWhile fun k => k.1 ≠ i, ∀ row ∈ ps.toUpdate k.1, row.1 ≠ u)
    (hq : q.ofPair (ps.store.setRows u rows) c s(x, y) log i) (hof : q.Of r)
    (hqu : q.toUpdate = us) :
    Mirrored x y c es v0 log ⟨ps.store.setRows u rows, ps.requests.set i (r,
      if (setRowsIn u rows ps.store.userMessages).2.modifiedCount = 1 then q else .failed)⟩ := by
  have hshow : ps.store.showRow create u v d.entry.message d.entry.time =
      some (ps.store.setRows u rows) := congrArg (Option.map (ps.store.setRows u)) hb
  obtain ⟨cur, hr, hput⟩ := Option.bind_eq_some_iff.mp hb
  have hm := Point.showRow_modified hr hput
  by_cases hs : ps.store.shows u v d.message d.timeNow
  · rw [if_neg fun hm' => hm.mp hm' hs]
    exact h.write hi hxy hp hu hd hshow hturn trivial trivial (if_pos hs).symm
  · rw [if_pos (hm.mpr hs)]
    exact h.write hi hxy hp hu hd hshow hturn hq hof (hqu.trans (if_neg hs).symm)

theorem fulfil (hxy : x ≠ y) (hturn : ∀ w ∈ p.copy?, ∀ k ∈ log.takeWhile fun k => k.1 ≠ i,
      ∀ row ∈ ps.toUpdate k.1, row.1 ≠ w.1) :
    Mirrored x y c es v0 (log ++ (p.call?.bind Call.pushed?).toList.map fun e => (i, e))
      (ps.fulfil toLowerCase i r p) := by
  have hof := h.of i r p hi
  have hp := h.points i r p hi
  rw [PSys.fulfil]
  cases p with
  | usersFind d =>
    refine (List.append_nil log).symm ▸ ?_
    rw [Point.next]
    by_cases hu : userExists toLowerCase d.sentTo ps.store.users = true
    · rw [if_pos hu]
      exact h.stay hi hp hof rfl
    · rw [if_neg hu]
      exact h.stay hi trivial trivial rfl
  | findChat create d =>
    refine (List.append_nil log).symm ▸ ?_
    obtain ⟨doc, hd, hc⟩ := h.chat_eq hp.1
    rw [Point.next, hd]
    exact h.stay hi ⟨hp.1, hp.2, hc⟩ hof rfl
  | push d c' =>
    obtain ⟨hp, hn, rfl⟩ := hp
    have hm := (push_modified ps.store c' d.entry).mpr (by rw [h.entries]; rfl)
    rw [Point.next, if_pos hm]
    exact h.push hi hp hn hof false
  | findBy create d =>
    refine (List.append_nil log).symm ▸ ?_
    obtain ⟨rows, hb⟩ := h.computed hp.1 create d.message d.timeNow
    rw [Point.next, Point.afterFind, hb]
    exact h.stay hi ⟨hp.1, hp.2, hb⟩ hof rfl
  | updateBy create d rows =>
    refine (List.append_nil log).symm ▸ ?_
    obtain ⟨hp, hd, hb⟩ := hp
    exact h.writeArray hi hxy hp rfl hd hb (hturn _ rfl) ⟨hp, hd⟩ hof rfl
  | findTo create d =>
    refine (List.append_nil log).symm ▸ ?_
    obtain ⟨rows, hb⟩ := h.computed (Sym2.eq_swap.trans hp.1) create d.message d.timeNow
    rw [Point.next, Point.afterFind, hb]
    exact h.stay hi ⟨hp.1, hp.2, hb⟩ hof rfl
  | updateTo create d rows =>
    refine (List.append_nil log).symm ▸ ?_
    obtain ⟨hp, hd, hb⟩ := hp
    exact h.writeArray hi hxy (Sym2.eq_swap.trans hp) rfl hd hb (hturn _ rfl) trivial trivial rfl
  | answered resp =>
    refine (List.append_nil log).symm ▸ ?_
    exact h.stay hi trivial trivial rfl
  | _ => exact hp.elim

end Mirrored

theorem mirrored_init {x y : String} {s0 : Store M} (h : s0.agrees x y) :
    ∃ c es e0, es.getLast? = some e0 ∧ Mirrored x y c es e0.shown [] (⟨s0, []⟩ : PSys M) := by
  obtain ⟨e0, hlast, hxy, hyx⟩ := h
  have hrow {u v : String} (hp : s(u, v) = s(x, y)) : s0.shows u v e0.message e0.time :=
    of_pair (P := fun u v => s0.shows u v e0.message e0.time) hp hxy hyx
  cases hc : s0.chat x y with
  | none => simp [Store.conversation, hc] at hlast
  | some doc =>
    cases hl : s0.log doc.chatId with
    | none => simp [Store.conversation, hc, hl] at hlast
    | some es =>
      refine ⟨doc.chatId, es, e0, by simpa [Store.conversation, hc, hl] using hlast,
        by simp [hc], by simp [hl], fun u v hp => ?_, each_init s0, each_init s0, by simp, ?_⟩
      · rw [hrow hp]
        simp
      · refine Mirror.State.Shows.init fun w hw => ?_
        rcases List.mem_pair.mp hw with rfl | rfl
        · exact shown_iff.mpr hxy
        · exact shown_iff.mpr hyx

theorem Mirrored.rest {x y : String} {c : Nat} {es : List (Entry M)} {e0 : Entry M}
    {log : List (Nat × Entry M)} {ps : PSys M} (h : Mirrored x y c es e0.shown log ps)
    (he : es.getLast? = some e0) (hq : (ps.sys toLowerCase).quiet) : ps.store.agrees x y := by
  have hidle (i : Nat) : ps.toUpdate i = [] := by
    cases hi : ps.requests[i]? with
    | none => simp [PSys.toUpdate, hi]
    | some z =>
      obtain ⟨resp, hp⟩ := Point.call?_eq_none (quiet_sys hq hi)
      rw [toUpdate_get hi, hp]
      rfl
  obtain ⟨hx, hy⟩ := h.shows.rest hidle
  obtain ⟨doc, hd, hc⟩ := h.chat_eq rfl
  obtain ⟨e, hlast, hlatest⟩ := latest_shown es he log
  have hconv : ps.store.conversation x y = es ++ log.map (·.2) := by
    simp [Store.conversation, hd, hc, h.entries]
  exact ⟨e, hconv ▸ hlast, shown_iff.mp (hx.trans hlatest), shown_iff.mp (hy.trans hlatest)⟩

theorem mirrored_step {x y : String} {c : Nat} {es : List (Entry M)} {v0 : M × Int}
    (hxy : x ≠ y) {log : List (Nat × Entry M)} {ps ps' : PSys M} {a : Action M}
    (h : Mirrored x y c es v0 log ps) (hb : a.between x y)
    (ho : inOrder log (ps.sys toLowerCase) a) (hs : ps.step toLowerCase a = some ps') :
    Mirrored x y c es v0 (appended log (ps.sys toLowerCase) a) ps' := by
  cases steps hs with
  | issue r =>
    obtain ⟨d, hd, hp⟩ := hb
    exact h.issue hd hp
  | fulfil i r p hi hc =>
    rw [appended, call_sys hi]
    refine h.fulfil hi hxy fun w hw => ?_
    have hcall := ho (.userMessagesSet w.1 w.2) ((call_sys hi).trans (Point.call_copy hw)) w rfl
    rwa [h.toUpdate_sys hxy] at hcall
  | reject i r p hi hc => exact hb.elim

/-- When the rows of `x` and `y` agree with their log, and sends between the two run in any
interleaving in which no array is written while a request that appended earlier has still to
update it, the rows agree with the log again at rest. -/
theorem agrees_at_rest {x y : String} (hxy : x ≠ y) (s0 : Store M) (h0 : s0.agrees x y)
    {log : List (Nat × Entry M)} {s : Sys M}
    (hr : Run (observe appended (Sys.step toLowerCase))
      (fun z a => a.between x y ∧ inOrder z.1 z.2 a) ([], Sys.init s0) (log, s))
    (hq : s.quiet) : s.store.agrees x y := by
  obtain ⟨c, es, e0, hlast, hinit⟩ := mirrored_init h0
  obtain ⟨⟨log', ps⟩, he, hrun⟩ := Run.lift (f := fun z => (z.1, PSys.sys toLowerCase z.2))
    (observe_map step_sys) (p := ([], ⟨s0, []⟩)) hr
  obtain ⟨rfl, rfl⟩ := Prod.mk.inj he
  have hm : Mirrored x y c es e0.shown log' ps := by
    refine hrun.invariant (I := fun z => Mirrored x y c es e0.shown z.1 z.2) hinit ?_
    intro z a z' hI hok hs
    obtain ⟨ps', hstep, rfl⟩ := Option.map_eq_some_iff.mp hs
    exact mirrored_step hxy hI hok.1 hok.2 hstep
  exact hm.rest hlast hq

end Step

/-! Runs of two messages after the first one of "ann" to "bob". -/

def greeted : Store String := Store.empty.serveEach id
  [.addNewUser "ann", .addNewUser "bob", .sendNewMessage ⟨"ann", "bob", "hi", 1⟩]

def issueBoth : List (Action String) :=
  [.issue (.sendMessage ⟨"ann", "bob", "how are you", 2⟩),
    .issue (.sendNewMessage ⟨"bob", "ann", "fine", 3⟩)]

/-- The second request reads an array before the first one has written it, but writes it
after. -/
theorem agrees_overtaken : ∃ z, Run (observe appended (Sys.step id))
    (fun z a => a.between "ann" "bob" ∧ inOrder z.1 z.2 a) ([], Sys.init greeted) z ∧
      z.2.quiet ∧ z.2.store.agrees "ann" "bob" := by
  obtain ⟨⟨log, s⟩, hr, hq⟩ : ∃ z, Run (observe appended (Sys.step id))
      (fun z a => a.between "ann" "bob" ∧ inOrder z.1 z.2 a) ([], Sys.init greeted) z ∧
        z.2.quiet :=
    Run.exists_of_follow (issueBoth ++ calls 0 2 ++ calls 1 4 ++ calls 0 4 ++ calls 1 3)
      (by decide)
  exact ⟨(log, s), hr, hq, agrees_at_rest (by decide) greeted (by decide) hr hq⟩

/-- The second request appends after the first and updates the rows before it: at rest the
log ends with "fine", and both rows show "how are you". -/
theorem rows_outdated : greeted.agrees "ann" "bob" ∧ ∃ s, Run (Sys.step id)
    (fun _ a => a.between "ann" "bob") (Sys.init greeted) s ∧ s.quiet ∧
      s.answered 0 (.sendMessage ⟨"ann", "bob", "how are you", 2⟩) (.sent "bob") ∧
      s.answered 1 (.sendNewMessage ⟨"bob", "ann", "fine", 3⟩) (.sent "ann") ∧
      (s.store.conversation "ann" "bob").getLast? = some ⟨"bob", "fine", 3⟩ ∧
      s.store.shows "ann" "bob" "how are you" 2 ∧ s.store.shows "bob" "ann" "how are you" 2 ∧
      ¬ s.store.agrees "ann" "bob" :=
  ⟨by decide, Run.exists_of_follow (issueBoth ++ calls 0 2 ++ calls 1 7 ++ calls 0 4) (by decide)⟩

end RecoupChat
