import RecoupChat.Isolation
import RecoupChat.Structural

/-! No update of the chat list is lost as long as no array is written that adds a row which
a copy held by another request lacks. -/
namespace RecoupChat
open Promise Transition Collection
variable {M : Type}

def names (rows : List (Row M)) : List String := rows.map (·.toUsername)

def Store.partners (s : Store M) (u : String) : List String := names ((s.rows u).getD [])

def Call.copy? : Call M → Option (String × List (Row M))
  | .userMessagesSet u rows => some (u, rows)
  | _ => none

/-- An array is written only while every other request that is about to write an array of
the same user has all the rows that this one adds. -/
def addsKnownRows (s : Sys M) (i : Nat) (c : Call M) : Prop :=
  ∀ w ∈ c.copy?, ∀ x ∈ s.others i, ∀ w' ∈ x.2.copy?, w'.1 = w.1 →
    ∀ v ∈ names w.2, v ∉ s.store.partners w.1 → v ∈ names w'.2

instance (s : Sys M) (i : Nat) (c : Call M) : Decidable (addsKnownRows s i c) :=
  inferInstanceAs (Decidable (∀ w ∈ c.copy?, _))

namespace Point

def copy? : Point M → Option (String × List (Row M))
  | .updateBy _ d rows => some (d.sentBy, rows)
  | .updateTo _ d rows => some (d.sentTo, rows)
  | _ => none

theorem call_copy {p : Point M} {u : String} {rows : List (Row M)}
    (h : p.copy? = some (u, rows)) : p.call? = some (.userMessagesSet u rows) := by
  cases p with
  | updateBy create d rows =>
    cases h
    rfl
  | updateTo create d rows =>
    cases h
    rfl
  | _ => cases h

def listed (s : Store M) (r : Request M) : Point M → Prop
  | .updateBy _ d rows => d.sentTo ∈ names rows
  | .findTo _ d => d.sentTo ∈ s.partners d.sentBy
  | .updateTo _ d rows => d.sentTo ∈ s.partners d.sentBy ∧ d.sentBy ∈ names rows
  | .answered resp => resp.status = .SUCCESS → ∀ d, r.send? = some d →
      d.sentTo ∈ s.partners d.sentBy ∧ d.sentBy ∈ s.partners d.sentTo
  | _ => True

theorem listed_mono {s s' : Store M} (hs : ∀ u, s.partners u ⊆ s'.partners u) {r : Request M}
    {p : Point M} (h : p.listed s r) : p.listed s' r := by
  cases p with
  | findTo create d => exact hs _ h
  | updateTo create d rows => exact ⟨hs _ h.1, h.2⟩
  | answered resp =>
    intro hok d hd
    exact ⟨hs _ (h hok d hd).1, hs _ (h hok d hd).2⟩
  | _ => exact h

end Point

/-- Arrays name each partner once, an array about to be written has all the rows of the
stored one, and sends have written their rows. -/
structure Listed (ps : PSys M) : Prop where
  of : ps.Each fun _ r p => p.Of r
  nodup : ∀ u, (ps.store.partners u).Nodup
  copies : ps.Each fun _ _ p => ∀ u rows, p.copy? = some (u, rows) →
    (names rows).Nodup ∧ ps.store.partners u ⊆ names rows
  listed : ps.Each fun _ r p => p.listed ps.store r

theorem listed_init {s0 : Store M} (hs : Structural s0) : Listed (⟨s0, []⟩ : PSys M) where
  of := each_init s0
  nodup u := by
    cases hr : s0.rows u with
    | none => simp [Store.partners, names, hr]
    | some rows =>
      simp only [Store.partners, names, hr]
      exact hs.nodup_rows hr
  copies := each_init s0
  listed := each_init s0

theorem Listed.issue {ps : PSys M} (h : Listed ps) (r : Request M) : Listed (ps.issue r) where
  of := each_issue h.of (Point.of_start r)
  nodup := h.nodup
  copies := each_issue h.copies fun u rows hp => by cases r <;> cases hp
  listed := each_issue h.listed (by cases r <;> trivial)

theorem Listed.reject {ps : PSys M} (h : Listed ps) {i : Nat} {r : Request M} :
    Listed (ps.reject i r) where
  of := each_reject h.of trivial
  nodup := h.nodup
  copies := each_reject h.copies fun u rows hp => by cases hp
  listed := each_reject h.listed fun hok => by simp [Response.status] at hok

section Step
variable [DecidableEq M] {toLowerCase : String → String}

theorem partners_setRows (s : Store M) (u v : String) (rows : List (Row M)) :
    (s.setRows u rows).partners v =
      if v = u ∧ (s.rows u).isSome then names rows else s.partners v := by
  rw [Store.partners, rows_setRows, Store.partners]
  by_cases hv : v = u
  · subst hv
    cases s.rows v <;> simp
  · simp [hv]

theorem partners_next (toLowerCase : String → String) (p : Point M) (s : Store M) (v : String) :
    (p.next toLowerCase s).1.partners v = s.partners v ∨
      ∃ rows, p.copy? = some (v, rows) ∧ (p.next toLowerCase s).1.partners v = names rows := by
  cases p with
  | updateBy create d rows =>
    by_cases hv : v = d.sentBy ∧ (s.rows d.sentBy).isSome
    · exact Or.inr ⟨rows, by rw [hv.1]; rfl, by simp only [Point.next, partners_setRows, if_pos hv]⟩
    · exact Or.inl (by simp only [Point.next, partners_setRows, if_neg hv])
  | updateTo create d rows =>
    by_cases hv : v = d.sentTo ∧ (s.rows d.sentTo).isSome
    · exact Or.inr ⟨rows, by rw [hv.1]; rfl, by simp only [Point.next, partners_setRows, if_pos hv]⟩
    · exact Or.inl (by simp only [Point.next, partners_setRows, if_neg hv])
  | insertUserMessages u =>
    refine Or.inl ?_
    simp only [Point.next, Store.partners, rows_insertUserMessages]
    cases s.rows v with
    | some rows => rfl
    | none => by_cases hu : u = v <;> simp [hu]
  | _ => exact Or.inl rfl

theorem names_of_read {s : Store M} {create : Bool} {u v : String} {m : M} {t : Int}
    {rows rows' : List (Row M)} (hn : (s.partners u).Nodup) (hr : s.rows u = some rows)
    (hp : putRow create v m t rows = some rows') :
    (names rows').Nodup ∧ s.partners u ⊆ names rows' ∧ v ∈ names rows' := by
  have hs : s.partners u = names rows := by rw [Store.partners, hr, Option.getD_some]
  have hnames : names rows' = if v ∈ names rows then names rows else names rows ++ [v] :=
    names_putRow hp
  rw [hs] at hn ⊢
  refine ⟨nodup_putRow hp hn, ?_⟩
  rw [hnames]
  split
  · rename_i hv
    exact ⟨List.Subset.refl _, hv⟩
  · exact ⟨List.subset_append_left _ _, by simp⟩

theorem copy_next {p : Point M} {s : Store M} {u : String} {rows : List (Row M)}
    (hn : (s.partners u).Nodup) (h : (p.next toLowerCase s).2.copy? = some (u, rows)) :
    (names rows).Nodup ∧ s.partners u ⊆ names rows ∧ (p.next toLowerCase s).1 = s := by
  have hg := Point.goes toLowerCase p s
  generalize hq : (p.next toLowerCase s).2 = q at hg h
  cases hg with
  | readBy create d hr hp =>
    cases h
    obtain ⟨hn', hsub, -⟩ := names_of_read hn hr hp
    exact ⟨hn', hsub, rfl⟩
  | readTo create d hr hp =>
    cases h
    obtain ⟨hn', hsub, -⟩ := names_of_read hn hr hp
    exact ⟨hn', hsub, rfl⟩
  | stay resp => cases h
  | _ => cases h

namespace Listed
variable {ps : PSys M} (h : Listed ps) {i : Nat} {r : Request M} {p : Point M}
  (hi : ps.requests[i]? = some (r, p))
include h hi

theorem partners_subset (u : String) :
    ps.store.partners u ⊆ (p.next toLowerCase ps.store).1.partners u := by
  rcases partners_next toLowerCase p ps.store u with he | ⟨rows, hp, he⟩
  · rw [he]
    exact List.Subset.refl _
  · rw [he]
    exact (h.copies i r p hi u rows hp).2

theorem partners_nodup (u : String) : ((p.next toLowerCase ps.store).1.partners u).Nodup := by
  rcases partners_next toLowerCase p ps.store u with he | ⟨rows, hp, he⟩
  · rw [he]
    exact h.nodup u
  · rw [he]
    exact (h.copies i r p hi u rows hp).1

theorem listed_answered (hc : p.call? ≠ none) {resp : Response M}
    (hq : (p.next toLowerCase ps.store).2 = .answered resp) :
    (Point.answered resp).listed (p.next toLowerCase ps.store).1 r := by
  intro hok d hd
  obtain ⟨create, rows, rfl, cur, hr, -⟩ :=
    Point.sent_next toLowerCase (h.of i r p hi) hd hc hq hok
  obtain ⟨hby, hto⟩ := h.listed i r _ hi
  refine ⟨h.partners_subset hi _ hby, ?_⟩
  change d.sentBy ∈ (ps.store.setRows d.sentTo rows).partners d.sentTo
  rw [partners_setRows, if_pos ⟨rfl, by rw [hr]; rfl⟩]
  exact hto

theorem listed_next (hc : p.call? ≠ none) :
    (p.next toLowerCase ps.store).2.listed (p.next toLowerCase ps.store).1 r := by
  have hold := h.listed i r p hi
  have hg := Point.goes toLowerCase p ps.store
  generalize hq : (p.next toLowerCase ps.store).2 = q at hg ⊢
  cases hg with
  | readBy create d hr hp => exact (names_of_read (h.nodup _) hr hp).2.2
  | wroteBy create d rows hm =>
    obtain ⟨cur, hr, -⟩ := hm
    change d.sentTo ∈ (ps.store.setRows d.sentBy rows).partners d.sentBy
    rw [partners_setRows, if_pos ⟨rfl, by rw [hr]; rfl⟩]
    exact hold
  | readTo create d hr hp => exact ⟨hold, (names_of_read (h.nodup _) hr hp).2.2⟩
  | wroteTo | failed | unknown | added | usernames | chats | read | stay =>
    exact h.listed_answered hi hc hq
  | _ => trivial

theorem fulfil (hc : p.call? ≠ none)
    (hknown : ∀ u rows, p.copy? = some (u, rows) → ∀ j r' q, j ≠ i →
      ps.requests[j]? = some (r', q) → ∀ rows', q.copy? = some (u, rows') →
        ∀ v ∈ names rows, v ∉ ps.store.partners u → v ∈ names rows') :
    Listed (ps.fulfil toLowerCase i r p) where
  of := each_fulfil (fun j r' q _ hj => h.of j r' q hj)
    (Point.of_next toLowerCase ps.store (h.of i r p hi))
  nodup := h.partners_nodup hi
  copies := by
    refine each_fulfil (fun j r' q hne hj u rows' hq => ?_) fun u rows' hq => ?_
    · obtain ⟨hn, hsub⟩ := h.copies j r' q hj u rows' hq
      refine ⟨hn, ?_⟩
      rcases partners_next toLowerCase p ps.store u with he | ⟨rows, hp, he⟩
      · exact he ▸ hsub
      · intro v hv
        have hv' : v ∈ names rows := he ▸ hv
        by_cases hold : v ∈ ps.store.partners u
        · exact hsub hold
        · exact hknown u rows hp j r' q hne hj rows' hq v hv' hold
    · obtain ⟨hn, hsub, hs⟩ := copy_next (h.nodup u) hq
      exact ⟨hn, by rw [PSys.fulfil, hs]; exact hsub⟩
  listed := each_fulfil
    (fun j r' q _ hj => Point.listed_mono (h.partners_subset hi) (h.listed j r' q hj))
    (h.listed_next hi hc)

end Listed

theorem listed_step {ps ps' : PSys M} {a : Action M} (h : Listed ps)
    (ha : onCalls addsKnownRows (ps.sys toLowerCase) a) (hs : ps.step toLowerCase a = some ps') :
    Listed ps' ∧ ∀ u, ps.store.partners u ⊆ ps'.store.partners u := by
  cases steps hs with
  | issue r => exact ⟨h.issue r, fun u => List.Subset.refl _⟩
  | fulfil i r p hi hc =>
    refine ⟨h.fulfil hi hc ?_, h.partners_subset hi⟩
    intro u rows hp j r' q hne hj rows' hq v hv hold
    have hcall : (.userMessagesSet u rows : Call M) ∈ (ps.sys toLowerCase).call? i 0 := by
      rw [call_sys hi]
      exact Point.call_copy hp
    exact ha _ hcall (u, rows) rfl (r', .userMessagesSet u rows')
      (others_sys.mpr ⟨j, q, hne, hj, Point.call_copy hq⟩) (u, rows') rfl rfl v hv hold
  | reject i r p hi hc => exact ⟨h.reject, fun u => List.Subset.refl _⟩

theorem listed_run {ps ps' : PSys M} (h : Listed ps)
    (hr : Run (PSys.step toLowerCase) (fun ps a => onCalls addsKnownRows (ps.sys toLowerCase) a)
      ps ps') : Listed ps' ∧ ∀ u, ps.store.partners u ⊆ ps'.store.partners u := by
  refine hr.invariant (I := fun x => Listed x ∧ ∀ u, ps.store.partners u ⊆ x.store.partners u)
    ⟨h, fun u => List.Subset.refl _⟩ fun x a x' hI hok hs => ?_
  obtain ⟨hx', hsub⟩ := listed_step hI.1 hok hs
  exact ⟨hx', fun u => List.Subset.trans (hI.2 u) (hsub u)⟩

/-- In every run from a sound store in which each written array adds only rows that the
other arrays about to be written have: no later state misses a row, and a pair with a send
that has answered SUCCESS has exactly one row for each of the two in the array of the
other. -/
theorem rows_kept (s0 : Store M) (hs0 : Structural s0) (s : Sys M)
    (hr : Run (Sys.step toLowerCase) (onCalls addsKnownRows) (Sys.init s0) s) :
    (∀ s', Run (Sys.step toLowerCase) (onCalls addsKnownRows) s s' →
      ∀ u v, v ∈ s.store.partners u → v ∈ s'.store.partners u) ∧
    ∀ i r resp d, s.answered i r resp → r.send? = some d → resp.status = .SUCCESS →
      (s.store.partners d.sentBy).count d.sentTo = 1 ∧
        (s.store.partners d.sentTo).count d.sentBy = 1 := by
  obtain ⟨ps, rfl, hrun⟩ := Run.lift (f := PSys.sys toLowerCase) step_sys (p := ⟨s0, []⟩) hr
  have hl : Listed ps := (listed_run (listed_init hs0) hrun).1
  refine ⟨fun s' hr' u v hv => ?_, fun i r resp d hans hd hok => ?_⟩
  · obtain ⟨ps', rfl, hrun'⟩ := Run.lift (f := PSys.sys toLowerCase) step_sys hr'
    exact (listed_run hl hrun').2 u hv
  · obtain ⟨hby, hto⟩ := hl.listed i r _ (answered_sys hans) hok d hd
    exact ⟨List.count_eq_one_of_mem (hl.nodup _) hby, List.count_eq_one_of_mem (hl.nodup _) hto⟩

end Step

/-! Runs of two first messages of "ann". -/

def issueTwoPartners : List (Action String) :=
  [.issue (.addNewUser "ann"), .issue (.addNewUser "bob"), .issue (.addNewUser "cat")] ++
    calls 0 2 ++ calls 1 2 ++ calls 2 2 ++
    [.issue (.sendNewMessage ⟨"ann", "bob", "hi", 1⟩),
      .issue (.sendNewMessage ⟨"ann", "cat", "yo", 2⟩)]

/-- The second message is sent between the two row updates of the first. -/
theorem rows_kept_between : ∃ s, Run (Sys.step id) (onCalls addsKnownRows)
    (Sys.init (Store.empty : Store String)) s ∧
      s.answered 4 (.sendNewMessage ⟨"ann", "cat", "yo", 2⟩) .success ∧
      (∀ s', Run (Sys.step id) (onCalls addsKnownRows) s s' →
        ∀ u v, v ∈ s.store.partners u → v ∈ s'.store.partners u) ∧
      (s.store.partners "ann").count "cat" = 1 ∧ (s.store.partners "cat").count "ann" = 1 := by
  obtain ⟨s, hr, hans⟩ : ∃ s, Run (Sys.step id) (onCalls addsKnownRows)
      (Sys.init (Store.empty : Store String)) s ∧
        s.answered 4 (.sendNewMessage ⟨"ann", "cat", "yo", 2⟩) .success :=
    Run.exists_of_follow (issueTwoPartners ++ calls 3 7 ++ calls 4 9) (by decide)
  obtain ⟨hkeep, hrows⟩ := rows_kept Store.empty structural_empty s hr
  exact ⟨s, hr, hans, hkeep, hrows 4 _ _ _ hans rfl rfl⟩

/-- Both requests read the array of "ann" before either of them writes it: both are answered
with SUCCESS, and the row for "bob" is gone. -/
theorem row_overwritten : ∃ s, Run (Sys.step id) (fun _ a => a.faultFree)
    (Sys.init (Store.empty : Store String)) s ∧ s.quiet ∧
      s.answered 3 (.sendNewMessage ⟨"ann", "bob", "hi", 1⟩) .success ∧
      s.answered 4 (.sendNewMessage ⟨"ann", "cat", "yo", 2⟩) .success ∧
      s.store.partners "ann" = ["cat"] ∧ s.store.partners "bob" = ["ann"] :=
  Run.exists_of_follow (issueTwoPartners ++ calls 3 6 ++ calls 4 6 ++ calls 3 3 ++ calls 4 3)
    (by decide)

end RecoupChat
