import RecoupChat.Points

/-! Runs of the system as runs over control points. -/
namespace RecoupChat
open Promise Transition
variable {M : Type}

structure PSys (M : Type) where
  store : Store M
  requests : List (Request M × Point M)

def PSys.sys (toLowerCase : String → String) (ps : PSys M) : Sys M :=
  ⟨ps.store, ps.requests.map fun x => (x.1, x.2.thread toLowerCase)⟩

def PSys.fulfil [DecidableEq M] (toLowerCase : String → String) (ps : PSys M) (i : Nat) (r : Request M)
    (p : Point M) : PSys M :=
  ⟨(p.next toLowerCase ps.store).1, ps.requests.set i (r, (p.next toLowerCase ps.store).2)⟩

def PSys.reject (ps : PSys M) (i : Nat) (r : Request M) : PSys M :=
  { ps with requests := ps.requests.set i (r, .failed) }

def PSys.issue (ps : PSys M) (r : Request M) : PSys M :=
  { ps with requests := ps.requests ++ [(r, .start r)] }

def PSys.waiting? (ps : PSys M) (i j : Nat) : Option (Request M × Point M) :=
  ps.requests[i]?.bind fun x => if x.2.call?.isSome ∧ j = 0 then some x else none

def PSys.step [DecidableEq M] (toLowerCase : String → String) (ps : PSys M) : Action M → Option (PSys M)
  | .issue r => some (ps.issue r)
  | .fulfil i j => (ps.waiting? i j).map fun (r, p) => ps.fulfil toLowerCase i r p
  | .reject i j => (ps.waiting? i j).map fun (r, _) => ps.reject i r

variable {toLowerCase : String → String}

theorem waiting_spec {ps : PSys M} {i j : Nat} {r : Request M} {p : Point M}
    (h : ps.waiting? i j = some (r, p)) :
    ps.requests[i]? = some (r, p) ∧ p.call? ≠ none ∧ j = 0 := by
  obtain ⟨x, hx, h⟩ := Option.bind_eq_some_iff.mp h
  split at h
  · rename_i hc
    cases h
    exact ⟨hx, Option.isSome_iff_ne_none.mp hc.1, hc.2⟩
  · cases h

def PSys.issued (ps : PSys M) : List (Request M) := ps.requests.map (·.1)

theorem issued_sys (ps : PSys M) : (ps.sys toLowerCase).issued = ps.issued := by
  simp [Sys.issued, PSys.issued, PSys.sys]

theorem issued_issue (ps : PSys M) (r : Request M) : (ps.issue r).issued = ps.issued ++ [r] := by
  simp [PSys.issued, PSys.issue]

theorem issued_set {ps : PSys M} {i : Nat} {r : Request M} {p : Point M} (q : Point M)
    (hi : ps.requests[i]? = some (r, p)) :
    (ps.requests.set i (r, q)).map (·.1) = ps.issued := by
  rw [List.map_set]
  have hr : ps.issued[i]? = some r := by simp [PSys.issued, hi]
  obtain ⟨hlt, hget⟩ := List.getElem?_eq_some_iff.mp hr
  exact hget ▸ List.set_getElem_self hlt

theorem issued_reject {ps : PSys M} {i : Nat} {r : Request M} {p : Point M}
    (hi : ps.requests[i]? = some (r, p)) : (ps.reject i r).issued = ps.issued := issued_set _ hi

theorem issued_get {ps : PSys M} {i : Nat} {r : Request M} {p : Point M}
    (hi : ps.requests[i]? = some (r, p)) : ps.issued[i]? = some r := by
  simp [PSys.issued, hi]

variable [DecidableEq M]

theorem chain_sys (toLowerCase : String → String) (ps : PSys M) (i j : Nat) :
    match ps.waiting? i j with
    | none => (ps.sys toLowerCase).chain? i j = none
    | some (r, p) => ∃ c f, p.Waits toLowerCase ps.store c f ∧
        (ps.sys toLowerCase).chain? i j = some (r, ⟨[⟨c, f, dbErr⟩], []⟩, ⟨c, f, dbErr⟩) := by
  cases hi : ps.requests[i]? with
  | none => simp [PSys.waiting?, Sys.chain?, PSys.sys, hi]
  | some x =>
    obtain ⟨r, p⟩ := x
    by_cases hc : p.call? = none
    · obtain ⟨resp, rfl⟩ := Point.call?_eq_none hc
      simp [PSys.waiting?, Sys.chain?, PSys.sys, hi, Point.call?]
    · obtain ⟨c, f, hw⟩ := Point.waits toLowerCase p ps.store hc
      have ht : p.thread toLowerCase = ⟨[⟨c, f, dbErr⟩], []⟩ := by
        rw [Point.thread, hw.code]
        rfl
      cases j with
      | zero =>
        simp only [PSys.waiting?, hi, Option.bind_some, hw.call, Option.isSome_some]
        exact ⟨c, f, hw, by simp [Sys.chain?, PSys.sys, hi, ht]⟩
      | succ j => simp [PSys.waiting?, Sys.chain?, PSys.sys, hi, ht]

theorem step_sys (ps : PSys M) (a : Action M) :
    (ps.sys toLowerCase).step toLowerCase a =
      (ps.step toLowerCase a).map (PSys.sys toLowerCase) := by
  cases a with
  | issue r =>
    simp [Sys.step, PSys.step, PSys.issue, PSys.sys, Point.thread_start]
  | fulfil i j =>
    have h := chain_sys toLowerCase ps i j
    cases hw : ps.waiting? i j with
    | none =>
      rw [hw] at h
      simp [Sys.step, PSys.step, hw, h]
    | some x =>
      obtain ⟨r, p⟩ := x
      rw [hw] at h
      obtain ⟨-, -, rfl⟩ := waiting_spec hw
      obtain ⟨c, f, hp, hch⟩ := h
      have hset := Point.settle_fulfilled toLowerCase hp
      simp only [Sys.step, PSys.step, hw, hch, Option.map_some, settleAt]
      simp [PSys.fulfil, PSys.sys, hp.store, List.map_set, ← hset, Thread.idle]
  | reject i j =>
    have h := chain_sys toLowerCase ps i j
    cases hw : ps.waiting? i j with
    | none =>
      rw [hw] at h
      simp [Sys.step, PSys.step, hw, h]
    | some x =>
      obtain ⟨r, p⟩ := x
      rw [hw] at h
      obtain ⟨-, -, rfl⟩ := waiting_spec hw
      obtain ⟨c, f, hp, hch⟩ := h
      simp only [Sys.step, PSys.step, hw, hch, Option.map_some, settleAt]
      simp [PSys.reject, PSys.sys, List.map_set, Point.failed, Chain.settle, dbErr]

/-! What the system's observations are at the points. -/

theorem pending_calls (toLowerCase : String → String) (p : Point M) :
    (p.thread toLowerCase).pending.map (·.call) = p.call?.toList := by
  by_cases hc : p.call? = none
  · obtain ⟨resp, rfl⟩ := Point.call?_eq_none hc
    rfl
  · obtain ⟨c, f, hw⟩ := Point.waits toLowerCase p Store.empty hc
    rw [Point.thread, hw.code, hw.call]
    rfl

theorem others_sys {ps : PSys M} {i : Nat} {r : Request M} {c : Call M} :
    (r, c) ∈ (ps.sys toLowerCase).others i ↔
      ∃ j p, j ≠ i ∧ ps.requests[j]? = some (r, p) ∧ p.call? = some c := by
  simp only [Sys.others, PSys.sys, List.mem_flatMap, List.mem_eraseIdx_iff_getElem?,
    List.getElem?_map, Option.map_eq_some_iff, List.mem_map, Prod.mk.injEq]
  constructor
  · rintro ⟨x, ⟨j, hne, ⟨r', p⟩, hj, rfl⟩, ch, hch, rfl, rfl⟩
    have hc : ch.call ∈ (p.thread toLowerCase).pending.map (·.call) := List.mem_map_of_mem hch
    rw [pending_calls] at hc
    exact ⟨j, p, hne, hj, by simpa using hc⟩
  · rintro ⟨j, p, hne, hj, hc⟩
    have hm : c ∈ (p.thread toLowerCase).pending.map (·.call) := by
      rw [pending_calls, hc]
      simp
    obtain ⟨ch, hch, rfl⟩ := List.mem_map.mp hm
    exact ⟨(r, p.thread toLowerCase), ⟨j, hne, (r, p), hj, rfl⟩, ch, hch, rfl, rfl⟩

theorem call_sys {ps : PSys M} {i : Nat} {r : Request M} {p : Point M}
    (hi : ps.requests[i]? = some (r, p)) :
    (ps.sys toLowerCase).call? i 0 = p.call? := by
  have hp := pending_calls toLowerCase p
  have hch : (ps.sys toLowerCase).call? i 0 = (p.thread toLowerCase).pending[0]?.map (·.call) := by
    simp [Sys.call?, Sys.chain?, PSys.sys, hi, Function.comp_def]
  rw [hch, ← List.getElem?_map, hp]
  cases p.call? <;> rfl

theorem answered_sys {ps : PSys M} {i : Nat} {r : Request M} {resp : Response M}
    (h : (ps.sys toLowerCase).answered i r resp) : ps.requests[i]? = some (r, .answered resp) := by
  simp only [Sys.answered, Sys.outcome, PSys.sys, List.map_map, List.getElem?_map,
    Option.map_eq_some_iff, Function.comp_apply, Prod.mk.injEq] at h
  obtain ⟨⟨r', p⟩, hx, rfl, hs⟩ := h
  by_cases hc : p.call? = none
  · obtain ⟨resp', rfl⟩ := Point.call?_eq_none hc
    obtain rfl : resp' = resp := by simpa [Point.thread, Point.code] using hs
    exact hx
  · obtain ⟨c, f, hw⟩ := Point.waits toLowerCase p Store.empty hc
    simp [Point.thread, hw.code] at hs

theorem quiet_sys {ps : PSys M} (h : (ps.sys toLowerCase).quiet) {i : Nat} {r : Request M}
    {p : Point M} (hi : ps.requests[i]? = some (r, p)) : p.call? = none := by
  have hm : (r, p.thread toLowerCase) ∈ (ps.sys toLowerCase).requests :=
    List.mem_map.mpr ⟨(r, p), List.mem_of_getElem? hi, rfl⟩
  have hp := pending_calls toLowerCase p
  rw [h _ hm] at hp
  cases hc : p.call? with
  | none => rfl
  | some c => simp [hc] at hp

inductive PSys.Steps (toLowerCase : String → String) (ps : PSys M) : Action M → PSys M → Prop
  | issue (r : Request M) : Steps toLowerCase ps (.issue r) (ps.issue r)
  | fulfil (i : Nat) (r : Request M) (p : Point M) (hi : ps.requests[i]? = some (r, p))
      (hc : p.call? ≠ none) : Steps toLowerCase ps (.fulfil i 0) (ps.fulfil toLowerCase i r p)
  | reject (i : Nat) (r : Request M) (p : Point M) (hi : ps.requests[i]? = some (r, p))
      (hc : p.call? ≠ none) : Steps toLowerCase ps (.reject i 0) (ps.reject i r)

theorem steps {ps ps' : PSys M} {a : Action M} (h : ps.step toLowerCase a = some ps') :
    ps.Steps toLowerCase a ps' := by
  cases a with
  | issue r =>
    obtain rfl : ps.issue r = ps' := Option.some.inj h
    exact .issue r
  | fulfil i j =>
    obtain ⟨⟨r, p⟩, hw, rfl⟩ := Option.map_eq_some_iff.mp h
    obtain ⟨hi, hc, rfl⟩ := waiting_spec hw
    exact .fulfil i r p hi hc
  | reject i j =>
    obtain ⟨⟨r, p⟩, hw, rfl⟩ := Option.map_eq_some_iff.mp h
    obtain ⟨hi, hc, rfl⟩ := waiting_spec hw
    exact .reject i r p hi hc

/-! Facts about each request at its point. -/

def PSys.Each (A : Nat → Request M → Point M → Prop) (ps : PSys M) : Prop :=
  ∀ i r p, ps.requests[i]? = some (r, p) → A i r p

section Each
omit [DecidableEq M]
variable {A : Nat → Request M → Point M → Prop} {ps : PSys M}

theorem each_init (store : Store M) : PSys.Each A (⟨store, []⟩ : PSys M) :=
  fun i r p h => by simp at h

theorem each_issue {r : Request M} (hold : ps.Each A)
    (hnew : A ps.requests.length r (.start r)) : (ps.issue r).Each A := by
  intro i r' p hi
  rw [PSys.issue, List.getElem?_append] at hi
  split at hi
  · exact hold i r' p hi
  · rename_i hlen
    rw [List.getElem?_singleton] at hi
    split at hi
    · obtain rfl : i = ps.requests.length := by omega
      cases hi
      exact hnew
    · cases hi

theorem each_set {store : Store M} {i : Nat} {r : Request M} {p : Point M}
    (hold : ∀ j r' q, j ≠ i → ps.requests[j]? = some (r', q) → A j r' q) (hnew : A i r p) :
    PSys.Each A ⟨store, ps.requests.set i (r, p)⟩ := by
  intro j r' q hj
  rw [List.getElem?_set] at hj
  split at hj
  · rename_i he
    split at hj
    · cases hj
      exact he ▸ hnew
    · cases hj
  · rename_i hne
    exact hold j r' q (Ne.symm hne) hj

theorem each_reject {i : Nat} {r : Request M} (hold : ps.Each A) (hnew : A i r .failed) :
    (ps.reject i r).Each A := each_set (fun j r' q _ hj => hold j r' q hj) hnew

end Each

theorem each_fulfil {A : Nat → Request M → Point M → Prop} {ps : PSys M} {i : Nat}
    {r : Request M} {p : Point M}
    (hold : ∀ j r' q, j ≠ i → ps.requests[j]? = some (r', q) → A j r' q)
    (hnew : A i r (p.next toLowerCase ps.store).2) : (ps.fulfil toLowerCase i r p).Each A :=
  each_set hold hnew

theorem issued_fulfil {ps : PSys M} {i : Nat} {r : Request M} {p : Point M}
    (hi : ps.requests[i]? = some (r, p)) :
    (ps.fulfil toLowerCase i r p).issued = ps.issued := issued_set _ hi

end RecoupChat
