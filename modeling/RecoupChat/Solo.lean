import RecoupChat.Interleaving
import RecoupChat.Regrouping

/-! One request at a time. The actions of one request run it on as it runs when served
alone, so the runs that issue no request before the earlier ones have answered are the
sequential semantics. -/
namespace RecoupChat
open Promise Transition
variable {M : Type}

def Action.who : Action M → Option Nat
  | .issue _ => none
  | .fulfil i _ | .reject i _ => some i

def Action.rejected : Action M → Bool
  | .reject _ _ => true
  | _ => false

def Action.settle (i : Nat) (rejected : Bool) : Action M :=
  if rejected then .reject i 0 else .fulfil i 0

@[simp] theorem who_issue (r : Request M) : (Action.issue r).who = none := rfl

@[simp] theorem who_settle (i : Nat) (b : Bool) : (Action.settle i b : Action M).who = some i := by
  cases b <;> rfl

@[simp] theorem rejected_settle (i : Nat) (b : Bool) :
    (Action.settle i b : Action M).rejected = b := by
  cases b <;> rfl

def rejectedAs : List Bool → (Nat → Bool) → Nat → Bool
  | [], fails, n => fails n
  | b :: _, _, 0 => b
  | _ :: bs, fails, n + 1 => rejectedAs bs fails n

/-- For each call of request `i` that the actions settle: is it rejected? -/
def rejections (i : Nat) (as : List (Action M)) : Nat → Bool :=
  rejectedAs ((as.filter fun a => a.who = some i).map Action.rejected) noFault

/-- No request is issued before the earlier ones have answered. -/
def issuesAlone (s : Sys M) : Action M → Prop
  | .issue _ => s.quiet
  | _ => True

theorem outcome_sys (toLowerCase : String → String) (ps : PSys M) :
    (ps.sys toLowerCase).outcome =
      ps.requests.map fun x => (x.1, (x.2.thread toLowerCase).sent) := by
  simp [Sys.outcome, PSys.sys, Function.comp_def]

variable [DecidableEq M]

/-- What a request served alone answers, for each of the requests served one after the
other. -/
def Store.outcomes (toLowerCase : String → String) (s : Store M) :
    List (Request M × (Nat → Bool)) → List (Request M × List (Response M))
  | [] => []
  | (r, fails) :: rs => (r, (s.serve toLowerCase r fails).2) ::
      Store.outcomes toLowerCase (s.serve toLowerCase r fails).1 rs

theorem quiet_iff (toLowerCase : String → String) (ps : PSys M) :
    (ps.sys toLowerCase).quiet ↔ ∀ x ∈ ps.requests, x.2.call? = none := by
  have hcall (p : Point M) : (p.thread toLowerCase).pending = [] ↔ p.call? = none := by
    rw [← List.map_eq_nil_iff (f := (·.call)), pending_calls]
    cases p.call? <;> simp
  simp only [Sys.quiet, PSys.sys, List.forall_mem_map, hcall]

variable {toLowerCase : String → String}

theorem serveAll_concat (s : Store M) (rs : List (Request M × (Nat → Bool))) (r : Request M)
    (fails : Nat → Bool) :
    s.serveAll toLowerCase (rs ++ [(r, fails)]) =
      ((s.serveAll toLowerCase rs).serve toLowerCase r fails).1 := by
  rw [serveAll_append]
  rfl

theorem outcomes_concat (s : Store M) (rs : List (Request M × (Nat → Bool))) (r : Request M)
    (fails : Nat → Bool) :
    s.outcomes toLowerCase (rs ++ [(r, fails)]) =
      s.outcomes toLowerCase rs ++ [(r, ((s.serveAll toLowerCase rs).serve toLowerCase r fails).2)] := by
  induction rs generalizing s with
  | nil => rfl
  | cons x rs ih => exact congrArg (List.cons _) (ih _)

/-! The two ways to settle a call as one step. -/

def Point.settle (toLowerCase : String → String) (p : Point M) (s : Store M) (rejected : Bool) :
    Store M × Point M :=
  if rejected then (s, failed) else p.next toLowerCase s

def PSys.settle (toLowerCase : String → String) (ps : PSys M) (i : Nat) (r : Request M)
    (p : Point M) (rejected : Bool) : PSys M :=
  ⟨(p.settle toLowerCase ps.store rejected).1,
    ps.requests.set i (r, (p.settle toLowerCase ps.store rejected).2)⟩

theorem step_settle {ps : PSys M} {i : Nat} {r : Request M} {p : Point M}
    (hi : ps.requests[i]? = some (r, p)) (hc : p.call? ≠ none) (b : Bool) :
    ps.step toLowerCase (.settle i b) = some (ps.settle toLowerCase i r p b) := by
  have hw : ps.waiting? i 0 = some (r, p) := by
    simp [PSys.waiting?, hi, Option.isSome_iff_ne_none.mpr hc]
  cases b <;> simp [Action.settle, PSys.step, hw] <;> rfl

theorem step_cases {ps ps' : PSys M} {a : Action M} (h : ps.step toLowerCase a = some ps') :
    (∃ r, a = .issue r ∧ ps' = ps.issue r) ∨
      ∃ i b r p, a = .settle i b ∧ ps.requests[i]? = some (r, p) ∧ p.call? ≠ none ∧
        ps' = ps.settle toLowerCase i r p b := by
  cases steps h with
  | issue r => exact Or.inl ⟨r, rfl, rfl⟩
  | fulfil i r p hi hc => exact Or.inr ⟨i, false, r, p, rfl, hi, hc, rfl⟩
  | reject i r p hi hc => exact Or.inr ⟨i, true, r, p, rfl, hi, hc, rfl⟩

theorem alone_settle {p : Point M} (h : p.call? ≠ none) (s : Store M) (b : Bool) (bs : List Bool)
    (fails : Nat → Bool) :
    p.alone toLowerCase s (rejectedAs (b :: bs) fails) =
      (p.settle toLowerCase s b).2.alone toLowerCase (p.settle toLowerCase s b).1
        (rejectedAs bs fails) := by
  rw [Point.alone_next toLowerCase h]
  cases b <;> rfl

/-! From the runs to the sequential semantics. -/

/-- The actions of request `i` change nothing but its point and the store, and what is left
of the request is what is left of it served alone. -/
theorem solo_run {ps ps' : PSys M} {as : List (Action M)} {i : Nat} {r : Request M} {p : Point M}
    (hi : ps.requests[i]? = some (r, p)) (hown : ∀ a ∈ as, a.who = some i)
    (h : after (PSys.step toLowerCase) ps as = some ps') :
    ∃ q, ps'.requests = ps.requests.set i (r, q) ∧ ∀ fails,
      p.alone toLowerCase ps.store (rejectedAs (as.map Action.rejected) fails) =
        q.alone toLowerCase ps'.store fails := by
  induction as generalizing ps p with
  | nil =>
    cases h
    obtain ⟨hlt, hget⟩ := List.getElem?_eq_some_iff.mp hi
    exact ⟨p, by rw [← hget, List.set_getElem_self], fun _ => rfl⟩
  | cons a as ih =>
    obtain ⟨ps1, hs, ha⟩ := after_cons_eq_some.mp h
    have hwho := hown a List.mem_cons_self
    obtain ⟨hlt, -⟩ := List.getElem?_eq_some_iff.mp hi
    obtain ⟨r', rfl, -⟩ | ⟨k, b, r', p', rfl, hk, hc, rfl⟩ := step_cases hs
    · cases hwho
    · obtain rfl : k = i := by simpa using hwho
      obtain ⟨rfl, rfl⟩ : r' = r ∧ p' = p := by simpa using hk.symm.trans hi
      have hi1 : (ps.settle toLowerCase k r' p' b).requests[k]? =
          some (r', (p'.settle toLowerCase ps.store b).2) := by simp [PSys.settle, hlt]
      obtain ⟨q, hq, halone⟩ := ih hi1 (fun x hx => hown x (List.mem_cons_of_mem _ hx)) ha
      refine ⟨q, by rw [hq]; exact List.set_set .., fun fails => ?_⟩
      rw [List.map_cons, rejected_settle, alone_settle hc]
      exact halone fails

structure ServedAll (toLowerCase : String → String) (s0 : Store M)
    (rs : List (Request M × (Nat → Bool))) (ps : PSys M) : Prop where
  store : ps.store = s0.serveAll toLowerCase rs
  outcome : (ps.sys toLowerCase).outcome = s0.outcomes toLowerCase rs

structure Serving (toLowerCase : String → String) (s0 : Store M)
    (rs : List (Request M × (Nat → Bool))) (r : Request M) (p : Point M) (ps : PSys M) : Prop where
  requests : ∃ before, ps.requests = before ++ [(r, p)] ∧ (∀ x ∈ before, x.2.call? = none) ∧
    before.map (fun x => (x.1, (x.2.thread toLowerCase).sent)) = s0.outcomes toLowerCase rs
  rest : ∀ fails, ∃ fails', (s0.serveAll toLowerCase rs).serve toLowerCase r fails' =
    p.alone toLowerCase ps.store fails

def OneByOne (toLowerCase : String → String) (s0 : Store M) (ps : PSys M) : Prop :=
  ps = ⟨s0, []⟩ ∨ ∃ rs r p, Serving toLowerCase s0 rs r p ps

namespace Serving
variable {s0 : Store M} {rs : List (Request M × (Nat → Bool))} {r : Request M} {p : Point M}
  {ps : PSys M} (h : Serving toLowerCase s0 rs r p ps)
include h

theorem servedAll (hq : (ps.sys toLowerCase).quiet) :
    ∃ fails, ServedAll toLowerCase s0 (rs ++ [(r, fails)]) ps := by
  obtain ⟨before, hreqs, -, hout⟩ := h.requests
  have hp : p.call? = none := (quiet_iff toLowerCase ps).mp hq (r, p) (by simp [hreqs])
  obtain ⟨resp, rfl⟩ := Point.call?_eq_none hp
  obtain ⟨fails, hserve⟩ := h.rest noFault
  rw [Point.alone_answered] at hserve
  refine ⟨fails, ?_, ?_⟩
  · rw [serveAll_concat, hserve]
  · rw [outcome_sys, hreqs, List.map_append, hout, outcomes_concat, hserve]
    rfl

theorem last {i : Nat} {r' : Request M} {p' : Point M} (hi : ps.requests[i]? = some (r', p'))
    (hc : p'.call? ≠ none) :
    r' = r ∧ p' = p ∧ ∃ before : List (Request M × Point M), i = before.length ∧
      ps.requests = before ++ [(r, p)] ∧ (∀ x ∈ before, x.2.call? = none) ∧
      before.map (fun x => (x.1, (x.2.thread toLowerCase).sent)) = s0.outcomes toLowerCase rs := by
  obtain ⟨before, hreqs, hquiet, hout⟩ := h.requests
  rw [hreqs, List.getElem?_append] at hi
  split at hi
  · exact absurd (hquiet _ (List.mem_of_getElem? hi)) hc
  · rename_i hlen
    rw [List.getElem?_singleton] at hi
    split at hi
    · obtain ⟨rfl, rfl⟩ : r = r' ∧ p = p' := by simpa using hi
      exact ⟨rfl, rfl, before, by omega, hreqs, hquiet, hout⟩
    · cases hi

theorem settle {i : Nat} {r' : Request M} {p' : Point M} (hi : ps.requests[i]? = some (r', p'))
    (hc : p'.call? ≠ none) (b : Bool) :
    Serving toLowerCase s0 rs r (p.settle toLowerCase ps.store b).2
      (ps.settle toLowerCase i r' p' b) := by
  obtain ⟨rfl, rfl, before, rfl, hreqs, hquiet, hout⟩ := h.last hi hc
  refine ⟨⟨before, ?_, hquiet, hout⟩, fun fails => ?_⟩
  · simp [PSys.settle, hreqs]
  · obtain ⟨fails', hserve⟩ := h.rest (rejectedAs [b] fails)
    exact ⟨fails', hserve.trans (alone_settle hc ps.store b [] fails)⟩

end Serving

theorem ServedAll.issue {s0 : Store M} {rs : List (Request M × (Nat → Bool))} {ps : PSys M}
    (h : ServedAll toLowerCase s0 rs ps) (hq : (ps.sys toLowerCase).quiet) (r : Request M) :
    Serving toLowerCase s0 rs r (.start r) (ps.issue r) where
  requests := ⟨ps.requests, rfl, (quiet_iff toLowerCase ps).mp hq,
    (outcome_sys toLowerCase ps).symm.trans h.outcome⟩
  rest fails := ⟨fails, by rw [← h.store]; exact Point.serve_eq_alone toLowerCase ps.store r fails⟩

theorem OneByOne.servedAll {s0 : Store M} {ps : PSys M} (h : OneByOne toLowerCase s0 ps)
    (hq : (ps.sys toLowerCase).quiet) : ∃ rs, ServedAll toLowerCase s0 rs ps := by
  obtain rfl | ⟨rs, r, p, h⟩ := h
  · exact ⟨[], rfl, rfl⟩
  · obtain ⟨fails, hall⟩ := h.servedAll hq
    exact ⟨_, hall⟩

theorem oneByOne_step {s0 : Store M} {ps ps' : PSys M} {a : Action M}
    (h : OneByOne toLowerCase s0 ps) (ha : issuesAlone (ps.sys toLowerCase) a)
    (hs : ps.step toLowerCase a = some ps') : OneByOne toLowerCase s0 ps' := by
  obtain ⟨r, rfl, rfl⟩ | ⟨i, b, r, p, -, hi, hc, rfl⟩ := step_cases hs
  · obtain ⟨rs, hall⟩ := h.servedAll ha
    exact Or.inr ⟨rs, r, _, hall.issue ha r⟩
  · obtain rfl | ⟨rs, r', p', h⟩ := h
    · simp at hi
    · exact Or.inr ⟨rs, r', _, h.settle hi hc b⟩

/-! From the sequential semantics to the runs. -/

abbrev SoloRun (toLowerCase : String → String) : PSys M → PSys M → Prop :=
  Run (PSys.step toLowerCase) fun ps a => issuesAlone (ps.sys toLowerCase) a

theorem solo_exists (fails : Nat → Bool) {ps : PSys M} {i : Nat} {r : Request M} {p : Point M}
    (hi : ps.requests[i]? = some (r, p)) :
    ∃ ps' resp, SoloRun toLowerCase ps ps' ∧
      ps'.requests = ps.requests.set i (r, .answered resp) ∧
      p.alone toLowerCase ps.store fails = (ps'.store, [resp]) := by
  obtain ⟨hlt, hget⟩ := List.getElem?_eq_some_iff.mp hi
  induction hn : p.rank using Nat.strong_induction_on generalizing p ps fails with
  | _ n ih =>
    by_cases hc : p.call? = none
    · obtain ⟨resp, rfl⟩ := Point.call?_eq_none hc
      exact ⟨ps, resp, Run.refl ps, by rw [← hget, List.set_getElem_self], rfl⟩
    · have hs (b : Bool) : ps.step toLowerCase (.settle i b) =
          some (ps.settle toLowerCase i r p b) := step_settle hi hc b
      have hok (b : Bool) : issuesAlone (ps.sys toLowerCase) (.settle i b) := by cases b <;> trivial
      rw [Point.alone_next toLowerCase hc]
      by_cases hf : fails 0 = true
      · rw [if_pos hf]
        exact ⟨_, _, (Run.refl ps).tail (hok true) (hs true), rfl, rfl⟩
      · have hi1 : (ps.settle toLowerCase i r p false).requests[i]? =
            some (r, (p.next toLowerCase ps.store).2) := by
          simp [PSys.settle, Point.settle, hlt]
        obtain ⟨hlt1, hget1⟩ := List.getElem?_eq_some_iff.mp hi1
        obtain ⟨ps', resp, hrun, hreqs, halone⟩ := ih _
          (hn ▸ Point.rank_next toLowerCase p ps.store hc) (fun n => fails (n + 1)) hi1 hlt1 hget1 rfl
        rw [if_neg hf]
        refine ⟨ps', resp, ((Run.refl ps).tail (hok false) (hs false)).trans hrun, ?_, halone⟩
        rw [hreqs]
        exact List.set_set ..

theorem servedAll_exists (s0 : Store M) (rs : List (Request M × (Nat → Bool))) :
    ∃ ps, SoloRun toLowerCase ⟨s0, []⟩ ps ∧ (ps.sys toLowerCase).quiet ∧
      ServedAll toLowerCase s0 rs ps := by
  induction rs using List.reverseRecOn with
  | nil => exact ⟨_, Run.refl _, by simp [Sys.quiet, PSys.sys], rfl, rfl⟩
  | append_singleton rs x ih =>
    obtain ⟨r, fails⟩ := x
    obtain ⟨ps, hrun, hq, hall⟩ := ih
    have hs : ps.step toLowerCase (.issue r) = some (ps.issue r) := rfl
    have hok : issuesAlone (ps.sys toLowerCase) (.issue r) := hq
    have hi : (ps.issue r).requests[ps.requests.length]? = some (r, .start r) := by
      simp [PSys.issue]
    obtain ⟨ps', resp, hrun', hreqs, halone⟩ : ∃ ps' resp, SoloRun toLowerCase (ps.issue r) ps' ∧
        ps'.requests = (ps.issue r).requests.set ps.requests.length (r, .answered resp) ∧
        (Point.start r).alone toLowerCase ps.store fails = (ps'.store, [resp]) :=
      solo_exists fails hi
    have hset : ps'.requests = ps.requests ++ [(r, .answered resp)] := by
      simp [hreqs, PSys.issue]
    have hserve : (s0.serveAll toLowerCase rs).serve toLowerCase r fails = (ps'.store, [resp]) := by
      rw [← hall.store, Point.serve_eq_alone]
      exact halone
    refine ⟨ps', (hrun.tail hok hs).trans hrun', ?_, ?_, ?_⟩
    · rw [quiet_iff] at hq ⊢
      intro x hx
      rw [hset] at hx
      obtain hx | hx := List.mem_append.mp hx
      · exact hq x hx
      · rw [List.mem_singleton.mp hx]
        rfl
    · rw [serveAll_concat, hserve]
    · rw [outcome_sys, hset, List.map_append, ← outcome_sys toLowerCase ps, hall.outcome,
        outcomes_concat, hserve]
      rfl

/-- The store and the answers that runs issuing one request at a time can end with, whatever
calls are rejected, are those of serving requests one after the other, each one whole. -/
theorem one_by_one_iff (s0 t : Store M) (answers : List (Request M × List (Response M))) :
    (∃ s, Run (Sys.step toLowerCase) issuesAlone (Sys.init s0) s ∧ s.quiet ∧ s.store = t ∧
      s.outcome = answers) ↔
      ∃ rs, s0.serveAll toLowerCase rs = t ∧ s0.outcomes toLowerCase rs = answers := by
  constructor
  · rintro ⟨s, hr, hq, rfl, rfl⟩
    obtain ⟨ps, rfl, hrun⟩ := Run.lift (f := PSys.sys toLowerCase) step_sys (p := ⟨s0, []⟩) hr
    have hone : OneByOne toLowerCase s0 ps :=
      hrun.invariant (Or.inl rfl) fun _ _ _ hI hok hs => oneByOne_step hI hok hs
    obtain ⟨rs, hall⟩ := hone.servedAll hq
    exact ⟨rs, hall.store.symm, hall.outcome.symm⟩
  · rintro ⟨rs, rfl, rfl⟩
    obtain ⟨ps, hrun, hq, hall⟩ : ∃ ps, SoloRun toLowerCase ⟨s0, []⟩ ps ∧
        (ps.sys toLowerCase).quiet ∧ ServedAll toLowerCase s0 rs ps := servedAll_exists s0 rs
    exact ⟨ps.sys toLowerCase, Run.map step_sys hrun, hq, hall.store, hall.outcome⟩

/-! How many calls a request takes, whatever the others do. -/

def Point.callsLeft : Point M → Nat
  | .usersFind _ => 9
  | .findChat create _ => if create then 8 else 6
  | .findLast _ => 7
  | .insertChat _ _ => 6
  | .push _ _ | .insertLog _ _ => 5
  | .findBy _ _ => 4
  | .updateBy _ _ _ => 3
  | .findTo _ _ | .insertUser _ | .findIds _ _ => 2
  | .updateTo _ _ _ | .insertUserMessages _ | .findUsernames | .findRows _ | .findLog _ _ _ => 1
  | .answered _ => 0

/-- 9 calls for a POST, 6 for a PUT, one or two for the others. -/
def Request.calls (r : Request M) : Nat := (Point.start r).callsLeft

theorem callsLeft_settle {p : Point M} (hc : p.call? ≠ none) (s : Store M) (b : Bool) :
    (p.settle toLowerCase s b).2.callsLeft < p.callsLeft := by
  have hfail : 0 < p.callsLeft := by
    cases p with
    | answered resp => exact absurd rfl hc
    | findChat create d => cases create <;> exact Nat.succ_pos _
    | _ => exact Nat.succ_pos _
  cases b with
  | true => exact hfail
  | false =>
    have hg := Point.goes toLowerCase p s
    change (p.next toLowerCase s).2.callsLeft < p.callsLeft
    generalize (p.next toLowerCase s).2 = q at hg ⊢
    cases hg with
    | failed => exact hfail
    | chat create d h => cases create <;> simp [Point.callsLeft]
    | stay resp => exact absurd rfl hc
    | _ => simp [Point.callsLeft]

theorem who_lt {ps ps' : PSys M} {as : List (Action M)}
    (h : after (PSys.step toLowerCase) ps as = some ps') {a : Action M} (ha : a ∈ as) {i : Nat}
    (hi : a.who = some i) : i < ps'.requests.length := by
  have hlen {ps ps' : PSys M} {b : Action M} (hs : ps.step toLowerCase b = some ps') :
      ps.requests.length ≤ ps'.requests.length := by
    obtain ⟨r, -, rfl⟩ | ⟨j, x, r, p, -, -, -, rfl⟩ := step_cases hs
    · simp [PSys.issue]
    · simp [PSys.settle]
  induction as generalizing ps with
  | nil => cases ha
  | cons b as ih =>
    obtain ⟨ps1, hs, h1⟩ := after_cons_eq_some.mp h
    obtain rfl | ha := List.mem_cons.mp ha
    · obtain ⟨r, rfl, -⟩ | ⟨j, x, r, p, rfl, hj, -, rfl⟩ := step_cases hs
      · cases hi
      · obtain rfl : j = i := by simpa using hi
        obtain ⟨hlt, -⟩ := List.getElem?_eq_some_iff.mp hj
        have hle := after_invariant (I := fun ps' => ps.requests.length ≤ ps'.requests.length) h1
          (hlen hs) fun s x s' hI hx => hI.trans (hlen hx)
        exact hlt.trans_le hle
    · exact ih h1 ha

theorem calls_bounded {s0 : Store M} {as : List (Action M)} {ps : PSys M}
    (h : after (PSys.step toLowerCase) ⟨s0, []⟩ as = some ps) :
    ps.Each fun i r p => (as.countP fun a => a.who = some i) + p.callsLeft ≤ r.calls := by
  induction as using List.reverseRecOn generalizing ps with
  | nil =>
    cases h
    exact each_init s0
  | append_singleton as a ih =>
    obtain ⟨ps1, h1, hs⟩ := after_concat.mp h
    have hold := ih h1
    obtain ⟨r, rfl, rfl⟩ | ⟨i, b, r, p, rfl, hi, hc, rfl⟩ := step_cases hs
    · -- no call of a request is settled before it is issued
      have hnone : (as.countP fun a => a.who = some ps1.requests.length) = 0 :=
        List.countP_eq_zero.mpr fun a ha => by
          have hlt := fun hw => who_lt h1 ha (i := ps1.requests.length) hw
          simpa using fun hw => absurd (hlt hw) (lt_irrefl _)
      refine each_issue (fun j r' q hj => ?_) ?_
      · simpa using hold j r' q hj
      · simp [hnone, Request.calls]
    · refine each_set (fun j r' q hne hj => ?_) ?_
      · simpa [hne.symm] using hold j r' q hj
      · have hless : (p.settle toLowerCase ps1.store b).2.callsLeft < p.callsLeft :=
          callsLeft_settle hc ps1.store b
        have hbound := hold i r p hi
        simp only [List.countP_append, List.countP_singleton, who_settle, decide_true, if_true]
        omega

/-- Whatever the other requests do, a request settles no more than its number of calls, and until
it has answered, its next call can be settled. -/
theorem wait_free {s0 : Store M} {as : List (Action M)} {s : Sys M}
    (h : after (Sys.step toLowerCase) (Sys.init s0) as = some s) {i : Nat} {r : Request M}
    (hi : s.issued[i]? = some r) :
    (as.countP fun a => a.who = some i) ≤ r.calls ∧
      ((∃ resp, s.answered i r resp) ∨ ∀ b, (s.step toLowerCase (.settle i b)).isSome) := by
  have hlift := after_map (f := PSys.sys toLowerCase) (g := id) step_sys as ⟨s0, []⟩
  rw [List.map_id] at hlift
  obtain ⟨ps, hps, rfl⟩ := Option.map_eq_some_iff.mp (hlift.symm.trans h)
  rw [issued_sys] at hi
  obtain ⟨⟨r', p⟩, hp, rfl⟩ := Option.map_eq_some_iff.mp ((List.getElem?_map ..).symm.trans hi)
  refine ⟨(Nat.le_add_right _ _).trans (calls_bounded hps i r' p hp), ?_⟩
  by_cases hc : p.call? = none
  · obtain ⟨resp, rfl⟩ := Point.call?_eq_none hc
    exact Or.inl ⟨resp, by simp [Sys.answered, outcome_sys, hp]⟩
  · refine Or.inr fun b => ?_
    rw [step_sys, step_settle hp hc b]
    rfl

/-- A first message takes all of the nine calls. -/
theorem wait_free_first : ∃ s : Sys String, after (Sys.step id)
      (Sys.init (Store.empty.serveEach id [.addNewUser "ann", .addNewUser "bob"]))
      (.issue (.sendNewMessage ⟨"ann", "bob", "hi", 1⟩) :: List.replicate 9 (.fulfil 0 0)) = some s ∧
    s.issued[0]? = some (.sendNewMessage ⟨"ann", "bob", "hi", 1⟩) ∧
    ((.issue (.sendNewMessage ⟨"ann", "bob", "hi", 1⟩) :: List.replicate 9 (.fulfil 0 0) :
      List (Action String)).countP fun a => a.who = some 0) ≤ 9 := by
  have hrun : (after (Sys.step id)
      (Sys.init (Store.empty.serveEach id [.addNewUser "ann", .addNewUser "bob"]))
      (.issue (.sendNewMessage ⟨"ann", "bob", "hi", 1⟩) :: List.replicate 9 (.fulfil 0 0))).any
        (fun s => decide (s.issued[0]? = some (.sendNewMessage ⟨"ann", "bob", "hi", 1⟩))) =
      true := by decide
  obtain ⟨s, h, hs⟩ := (Option.any_eq_true _ _).mp hrun
  have hi := of_decide_eq_true hs
  exact ⟨s, h, hi, (wait_free h hi).1⟩

end RecoupChat
