import RecoupChat.Arrival

/-! The list of chats goes forward: what a refresh shows is as new as what was shown before it,
unless an answer overtakes another one. -/
namespace RecoupChat
open Promise Transition Router
variable {M : Type}

theorem mem_dropWhile_append {α : Type} {p : α → Bool} {xs ys : List α} {x y : α} (hx : x ∈ xs)
    (hp : p x = false) (hy : y ∈ ys) : y ∈ (xs ++ ys).dropWhile p := by
  have hne : ¬ (xs.dropWhile p).isEmpty := by
    intro hempty
    have hall := List.dropWhile_eq_nil_iff.mp (List.isEmpty_iff.mp hempty) x hx
    rw [hp] at hall
    cases hall
  rw [List.dropWhile_append, if_neg hne]
  exact List.mem_append_right _ hy

theorem row_of_mem_chats {s : Store M} (hs : Structural s) {u : String} {row : Row M}
    (h : row ∈ s.chats u) : s.row u row.toUsername = some row := by
  rw [Store.chats, jsSort, List.mem_mergeSort] at h
  cases hrows : s.rows u with
  | none =>
    rw [hrows] at h
    cases h
  | some rows =>
    rw [hrows] at h
    rw [Store.row, hrows]
    exact (rowFor_mem_iff (hs.nodup_rows hrows)).mp h

def Store.At (s : Store M) (u v : String) (n : Nat) (m : M) (t : Int) : Prop :=
  ∃ e, (s.conversation u v)[n]? = some e ∧ e.message = m ∧ e.time = t

theorem Store.At.since {s : Store M} {u v : String} {n : Nat} {m : M} {t : Int}
    (h : s.At u v n m t) : s.Since u v n m t := by
  obtain ⟨e, he, hsame⟩ := h
  exact ⟨n, e, Nat.le_refl n, he, hsame⟩

theorem Store.At.grows {s s' : Store M} (hg : Grows s s') {u v : String} {n : Nat} {m : M} {t : Int}
    (h : s.At u v n m t) : s'.At u v n m t := by
  obtain ⟨e, he, hsame⟩ := h
  exact ⟨e, hg.entry he, hsame⟩

theorem at_of_mem_chats {s : Store M} (hs : Structural s) {u : String} {row : Row M}
    (h : row ∈ s.chats u) : ∃ n, s.At u row.toUsername n row.lastMessage row.lastMessageTime := by
  obtain ⟨e, he, hsame⟩ := (lists_rows hs u).recorded row h
  obtain ⟨n, hn⟩ := List.mem_iff_getElem?.mp he
  exact ⟨n, e, hn, hsame⟩

/-- A later store of `u`: logs have grown, and no row has gone back. -/
structure Store.Later (u : String) (s s' : Store M) : Prop where
  grows : Grows s s'
  shows : ∀ v n, s.ShowsFrom u v n → s'.ShowsFrom u v n

theorem Store.Later.refl (u : String) (s : Store M) : Later u s s where
  grows := .refl s
  shows _ _ h := h

theorem Store.Later.trans {u : String} {s s1 s' : Store M} (h : Later u s s1) (h1 : Later u s1 s') :
    Later u s s' where
  grows := h.grows.trans h1.grows
  shows v n hn := h1.shows v n (h.shows v n hn)

theorem later_serve [DecidableEq M] {toLowerCase : String → String} {u : String} {s : Store M}
    (hs : Structural s) (r : Request M) (fails : Nat → Bool) :
    Store.Later u s (s.serve toLowerCase r fails).1 where
  grows := grows_serve toLowerCase s r fails
  shows _ _ h := showsFrom_serve hs h r fails

theorem Store.Later.advances {u : String} {s s' : Store M} (hs : Structural s) (h : Later u s s')
    {row : Row M} (hrow : row ∈ s.chats u) : ∃ n,
      s.At u row.toUsername n row.lastMessage row.lastMessageTime ∧
      ∃ row' ∈ s'.chats u, row'.toUsername = row.toUsername ∧
        s'.Since u row.toUsername n row'.lastMessage row'.lastMessageTime := by
  obtain ⟨n, hn⟩ := at_of_mem_chats hs hrow
  have hshows : s.ShowsFrom u row.toUsername n := ⟨row, row_of_mem_chats hs hrow, hn.since⟩
  exact ⟨n, hn, mem_chats (h.shows _ n hshows)⟩

namespace Main
open ChatScreen

/-- The history of a run: the requests of the list that the server has executed, each with the
store that it found. -/
def executed (log : List (Nat × Store String)) (s : State) : Event → List (Nat × Store String)
  | .serve k _ _ => log ++ [(k, s.store)]
  | _ => log

def Chats.stage? (x : Chats) (k : Nat) : Option Stage := x.fetches[k]?.map (·.2)

/-- An answer is handled only while none that the server made after it has been. -/
def NotOvertaken (log : List (Nat × Store String)) (s : State) : Event → Prop
  | .handle k => ∀ x ∈ log.dropWhile fun x => x.1 ≠ k, s.list.stage? x.1 ≠ some .handled
  | _ => True

instance (log : List (Nat × Store String)) (s : State) : DecidablePred (NotOvertaken log s) :=
  fun e => by
    cases e with
    | handle k => exact inferInstanceAs (Decidable (∀ x ∈ _, _))
    | _ => exact isTrue trivial

theorem stage_setStage {x : Chats} {k : Nat} {w : String} {stage : Stage} {y : String × Stage}
    (hk : x.fetches[k]? = some y) (j : Nat) :
    (x.setStage k w stage).stage? j = if k = j then some stage else x.stage? j := by
  have hlt := (List.getElem?_eq_some_iff.mp hk).1
  rw [Chats.stage?, Chats.setStage, List.getElem?_set]
  by_cases hj : k = j
  · rw [if_pos hj, if_pos hj, if_pos (hj ▸ hlt)]
    rfl
  · rw [if_neg hj, if_neg hj]
    rfl

theorem handled_step {toLowerCase : String → String} {s s' : State} {e : Event}
    (hs : s.step toLowerCase e = some s') {j : Nat} (h : s.list.stage? j = some .handled) :
    s'.list.stage? j = some .handled := by
  have hset {k : Nat} {w : String} {stage stage' : Stage}
      (hk : s.list.fetches[k]? = some (w, stage)) (hne : stage ≠ .handled) :
      (s.list.setStage k w stage').stage? j = some .handled := by
    have hj : k ≠ j := by
      rintro rfl
      rw [Chats.stage?, hk] at h
      exact hne (Option.some.inj h)
    rw [stage_setStage hk, if_neg hj, h]
  cases steps hs with
  | refresh ho =>
    obtain ⟨y, hy, hstage⟩ := Option.map_eq_some_iff.mp h
    have hlt := (List.getElem?_eq_some_iff.mp hy).1
    have hold : (s.list.fetches ++ [(s.list.username, .out)])[j]? = some y := by
      rw [List.getElem?_append_left hlt, hy]
    exact Option.map_eq_some_iff.mpr ⟨y, hold, hstage⟩
  | serve k w timeNow fails store resJson hk hran => exact hset hk Stage.noConfusion
  | fail k w hk => exact hset hk Stage.noConfusion
  | handle k w resJson hk =>
    have hdone : (s.list.setStage k w .handled).stage? j = some .handled := by
      rw [stage_setStage hk]
      split
      · rfl
      · exact h
    cases resJson <;> exact hdone
  | _ => exact h

theorem answered_step {toLowerCase : String → String} {s s' : State} {e : Event}
    (hs : s.step toLowerCase e = some s') {j : Nat} {w : String} {resJson : Response String}
    (h : s'.list.fetches[j]? = some (w, .answered (some resJson))) :
    s.list.fetches[j]? = some (w, .answered (some resJson)) ∨
      ∃ timeNow fails store, e = .serve j timeNow fails ∧ s.list.fetches[j]? = some (w, .out) ∧
        Store.execute toLowerCase s.store fails ((MessagesAll.makeRequest "" w).receive timeNow) =
          (store, some resJson) := by
  have hset {k : Nat} {w' : String} {stage : Stage}
      (h : (s.list.fetches.set k (w', stage))[j]? = some (w, .answered (some resJson))) :
      (k = j ∧ w' = w ∧ stage = .answered (some resJson)) ∨
        s.list.fetches[j]? = some (w, .answered (some resJson)) := by
    rw [List.getElem?_set] at h
    split at h
    · rename_i hkj
      split at h
      · obtain ⟨rfl, hstage⟩ := Prod.mk.inj (Option.some.inj h)
        exact Or.inl ⟨hkj, rfl, hstage⟩
      · cases h
    · exact Or.inr h
  cases steps hs with
  | refresh ho =>
    left
    have h' : (s.list.fetches ++ [(s.list.username, .out)])[j]? =
        some (w, .answered (some resJson)) := h
    rw [List.getElem?_append] at h'
    split at h'
    · exact h'
    · have hm := List.mem_singleton.mp (List.mem_of_getElem? h')
      cases hm
  | serve k w' timeNow fails store resJson' hk hran =>
    cases hset h with
    | inl hnew =>
      obtain ⟨rfl, rfl, hstage⟩ := hnew
      cases hstage
      exact Or.inr ⟨timeNow, fails, store, rfl, hk, hran⟩
    | inr hold => exact Or.inl hold
  | fail k w' hk =>
    cases hset h with
    | inl hnew => cases hnew.2.2
    | inr hold => exact Or.inl hold
  | handle k w' resJson' hk =>
    have h' : (s.list.fetches.set k (w', .handled))[j]? = some (w, .answered (some resJson)) := by
      cases resJson' <;> exact h
    cases hset h' with
    | inl hnew => cases hnew.2.2
    | inr hold => exact Or.inl hold
  | _ => exact Or.inl h

theorem chats_step {toLowerCase : String → String} {s s' : State} {e : Event}
    (hs : s.step toLowerCase e = some s') :
    s'.list.chats = s.list.chats ∨ ∃ k w resJson, e = .handle k ∧
      s.list.fetches[k]? = some (w, .answered (some resJson)) ∧
        s'.list.chats = resJson.chats? ∧ s'.list.stage? k = some .handled := by
  cases steps hs with
  | handle k w resJson hk =>
    cases resJson with
    | none => exact Or.inl rfl
    | some r =>
      have hdone : (s.list.setStage k w .handled).stage? k = some .handled := by
        rw [stage_setStage hk, if_pos rfl]
      exact Or.inr ⟨k, w, r, rfl, hk, rfl, hdone⟩
  | _ => exact Or.inl rfl

theorem later_step {toLowerCase : String → String} {u : String} {s s' : State} {e : Event}
    (hst : Structural s.store) (hs : s.step toLowerCase e = some s') :
    Store.Later u s.store s'.store := by
  obtain hsame | ⟨r, fails, hserve⟩ := serves_step hs
  · rw [hsame]
    exact .refl u s.store
  · rw [hserve]
    exact later_serve hst r fails

structure Chronicle (u : String) (log : List (Nat × Store String)) (s : State) : Prop where
  sound : Sound s
  name : s.displayName = u
  structural : ∀ x ∈ log, Structural x.2
  later : ∀ x ∈ log, Store.Later u x.2 s.store
  ordered : log.Pairwise fun x y => Store.Later u x.2 y.2
  answers : ∀ k w r rows, s.list.fetches[k]? = some (w, .answered (some r)) →
    r.chats? = some rows → ∃ store, (k, store) ∈ log ∧ rows = store.chats u
  shown : ∀ rows, s.list.chats = some rows → rows = [] ∨ ∃ k store, (k, store) ∈ log ∧
    s.list.stage? k = some .handled ∧ rows = store.chats u

theorem mem_executed {log : List (Nat × Store String)} (s : State) (e : Event)
    {x : Nat × Store String} (h : x ∈ log) : x ∈ executed log s e := by
  cases e with
  | serve k timeNow fails => exact List.mem_append_left _ h
  | _ => exact h

theorem of_mem_executed {log : List (Nat × Store String)} {s : State} {e : Event}
    {x : Nat × Store String} (h : x ∈ executed log s e) : x ∈ log ∨ x.2 = s.store := by
  cases e with
  | serve k timeNow fails =>
    cases List.mem_append.mp h with
    | inl hold => exact Or.inl hold
    | inr hnew =>
      rw [List.mem_singleton.mp hnew]
      exact Or.inr rfl
  | _ => exact Or.inl h

theorem chronicle_mount (toLowerCase : String → String)
    (rs : List (Request String × (Nat → Bool))) (displayName : String) :
    Chronicle displayName [] (State.mount displayName (Store.empty.serveAll toLowerCase rs)) where
  sound := sound_mount toLowerCase rs displayName
  name := rfl
  structural x hx := by cases hx
  later x hx := by cases hx
  ordered := List.Pairwise.nil
  answers k w r rows hk := by
    have hm := List.mem_singleton.mp (List.mem_of_getElem? hk)
    cases hm
  shown rows hrows := Or.inl (Option.some.inj hrows).symm

theorem chronicle_step {toLowerCase : String → String} {u : String} (hu : Plain u.toList)
    (hune : u ≠ "") {log : List (Nat × Store String)} {s s' : State} {e : Event}
    (h : Chronicle u log s) (hs : s.step toLowerCase e = some s') :
    Chronicle u (executed log s e) s' := by
  obtain rfl := h.name
  obtain ⟨hsound, hname⟩ := sound_step h.sound hu hune hs
  have hlater := later_step (u := s.displayName) h.sound.structural hs
  refine ⟨hsound, hname, fun x hx => ?_, fun x hx => ?_, ?_, ?_, ?_⟩
  · cases of_mem_executed hx with
    | inl hold => exact h.structural x hold
    | inr hnew => exact hnew ▸ h.sound.structural
  · cases of_mem_executed hx with
    | inl hold => exact (h.later x hold).trans hlater
    | inr hnew => exact hnew ▸ hlater
  · cases e with
    | serve k timeNow fails =>
      refine List.pairwise_append.mpr ⟨h.ordered, List.pairwise_singleton _ _, fun x hx y hy => ?_⟩
      rw [List.mem_singleton.mp hy]
      exact h.later x hx
    | _ => exact h.ordered
  · intro k w r rows hk hrows
    obtain hold | ⟨timeNow, fails, store, rfl, hout, hran⟩ := answered_step hs hk
    · obtain ⟨store, hm, hread⟩ := h.answers k w r rows hold hrows
      exact ⟨store, mem_executed s e hm, hread⟩
    · obtain rfl : w = s.displayName := h.sound.list.asked _ (List.mem_of_getElem? hout)
      refine ⟨s.store, List.mem_append_right _ (List.mem_singleton_self _), ?_⟩
      rw [receive_chats hu hune] at hran
      obtain ⟨-, hnone⟩ | ⟨x, resp, hx, hresp, hserve⟩ := execute_cases hran
      · cases hnone
      · cases hx
        cases hresp
        cases r <;> cases hrows
        exact (chats_of_serve hserve).2
  · intro rows hrows
    obtain hsame | ⟨k, w, r, rfl, hk, hchats, hdone⟩ := chats_step hs
    · refine (h.shown rows (hsame ▸ hrows)).imp_right ?_
      rintro ⟨k, store, hm, hdone, hread⟩
      exact ⟨k, store, mem_executed s e hm, handled_step hs hdone, hread⟩
    · obtain ⟨store, hm, hread⟩ := h.answers k w r rows hk (hchats ▸ hrows)
      exact Or.inr ⟨k, store, hm, hdone, hread⟩

/-- Request `k`, which found `store`, has been handled, and the list that is shown was read then
or later. -/
def SeenSince (k : Nat) (store : Store String) (log : List (Nat × Store String)) (s : State) :
    Prop :=
  ∃ before since, log = before ++ (k, store) :: since ∧ s.list.stage? k = some .handled ∧
    ∀ rows, s.list.chats = some rows →
      ∃ x ∈ (k, store) :: since, rows = x.2.chats s.displayName

theorem seenSince_step {toLowerCase : String → String} {u : String} (hu : Plain u.toList)
    (hune : u ≠ "") {k : Nat} {store : Store String} {log : List (Nat × Store String)}
    {s s' : State} {e : Event} (hc : Chronicle u log s) (h : SeenSince k store log s)
    (hok : NotOvertaken log s e) (hs : s.step toLowerCase e = some s') :
    SeenSince k store (executed log s e) s' := by
  obtain rfl := hc.name
  obtain ⟨before, since, rfl, hdone, hshown⟩ := h
  have hname : s'.displayName = s.displayName := (sound_step hc.sound hu hune hs).2
  obtain ⟨since', hlog, hsub⟩ : ∃ since', executed (before ++ (k, store) :: since) s e =
      before ++ (k, store) :: since' ∧ since ⊆ since' := by
    cases e with
    | serve j timeNow fails =>
      exact ⟨since ++ [(j, s.store)], by simp [executed], List.subset_append_left _ _⟩
    | _ => exact ⟨since, rfl, List.Subset.refl _⟩
  refine ⟨before, since', hlog, handled_step hs hdone, fun rows hrows => ?_⟩
  have hmono {x : Nat × Store String} (hx : x ∈ (k, store) :: since) :
      x ∈ (k, store) :: since' := List.cons_subset_cons _ hsub hx
  rw [hname]
  obtain hsame | ⟨j, w, r, rfl, hj, hchats, -⟩ := chats_step hs
  · obtain ⟨x, hx, hread⟩ := hshown rows (hsame ▸ hrows)
    exact ⟨x, hmono hx, hread⟩
  · obtain ⟨store', hm, hread⟩ := hc.answers j w r rows hj (hchats ▸ hrows)
    refine ⟨(j, store'), hmono ?_, hread⟩
    -- an answer of before would be overtaken by that of `k`
    cases List.mem_append.mp hm with
    | inl hbefore =>
      have hk : (k, store) ∈ (before ++ (k, store) :: since).dropWhile fun x => x.1 ≠ j :=
        mem_dropWhile_append hbefore (by simp) List.mem_cons_self
      exact absurd hdone (hok _ hk)
    | inr hsince => exact hsince

/-- In every run of the app: from a state on, as long as no answer is handled after one that the
server made later, each list that is shown has a row for each partner of the list shown in that
state, and the row repeats the same entry of the conversation or a later one. -/
theorem list_advances (toLowerCase : String → String) (rs : List (Request String × (Nat → Bool)))
    {displayName : String} (hu : Plain displayName.toList) (hune : displayName ≠ "")
    {log log' : List (Nat × Store String)} {s s' : State}
    (hr : Run (observe executed (State.step toLowerCase)) (fun _ _ => True)
      ([], State.mount displayName (Store.empty.serveAll toLowerCase rs)) (log, s))
    (hr' : Run (observe executed (State.step toLowerCase)) (fun z e => NotOvertaken z.1 z.2 e)
      (log, s) (log', s'))
    {rows rows' : List (Row String)} (hrows : s.list.chats = some rows)
    (hrows' : s'.list.chats = some rows') :
    ∀ row ∈ rows, ∃ row' ∈ rows', row'.toUsername = row.toUsername ∧
      ∃ n, s.store.At displayName row.toUsername n row.lastMessage row.lastMessageTime ∧
        s'.store.Since displayName row.toUsername n row'.lastMessage row'.lastMessageTime := by
  have hc : Chronicle displayName log s := by
    refine hr.invariant (I := fun z => Chronicle displayName z.1 z.2)
      (chronicle_mount toLowerCase rs displayName) ?_
    intro z e z' hI _ hs
    obtain ⟨s1, hstep, rfl⟩ := Option.map_eq_some_iff.mp hs
    exact chronicle_step hu hune hI hstep
  intro row hrow
  obtain rfl | ⟨k, store, hm, hdone, rfl⟩ := hc.shown rows hrows
  · cases hrow
  have hseen : SeenSince k store log s := by
    obtain ⟨before, since, hlog⟩ := List.append_of_mem hm
    refine ⟨before, since, hlog, hdone, fun rows1 hrows1 => ⟨_, List.mem_cons_self, ?_⟩⟩
    rw [hc.name]
    exact Option.some.inj (hrows1.symm.trans hrows)
  obtain ⟨hc', hseen'⟩ : Chronicle displayName log' s' ∧ SeenSince k store log' s' := by
    refine hr'.invariant (I := fun z => Chronicle displayName z.1 z.2 ∧ SeenSince k store z.1 z.2)
      ⟨hc, hseen⟩ ?_
    rintro z e z' ⟨hI, hJ⟩ hok hs
    obtain ⟨s1, hstep, rfl⟩ := Option.map_eq_some_iff.mp hs
    exact ⟨chronicle_step hu hune hI hstep, seenSince_step hu hune hI hJ hok hstep⟩
  obtain ⟨before, since, rfl, -, hshown⟩ := hseen'
  obtain ⟨x, hx, rfl⟩ := hshown rows' hrows'
  rw [hc'.name]
  have hlater : Store.Later displayName store x.2 := by
    have hordered := (List.pairwise_append.mp hc'.ordered).2.1
    cases List.mem_cons.mp hx with
    | inl hsame => exact hsame ▸ .refl displayName store
    | inr hsince => exact (List.pairwise_cons.mp hordered).1 x hsince
  obtain ⟨n, hn, row', hrow', hto, hsince⟩ := hlater.advances (hc.structural _ hm) hrow
  refine ⟨row', hrow', hto, n, hn.grows (hc.later _ hm).grows, ?_⟩
  exact hsince.grows (hc'.later x (List.mem_append_right _ hx)).grows

def pullTwice : List Event :=
  [.refresh, .serve 0 2 noFault,
    .others (.sendMessage ⟨"bob", "ann", "yo", 3⟩) noFault, .serve 1 4 noFault]

theorem list_advances_ann : ∃ s s' : State, s.list.chats = some [⟨"bob", "hi", 1⟩] ∧
    s'.list.chats = some [⟨"bob", "yo", 3⟩] ∧
      ∃ n, s.store.At "ann" "bob" n "hi" 1 ∧ s'.store.Since "ann" "bob" n "yo" 3 := by
  obtain ⟨⟨log, s⟩, hr, hrows, hlater⟩ : ∃ z, Run (observe executed (State.step id))
      (fun _ _ => True) ([], State.mount "ann" (Store.empty.serveAll id bobWrote)) z ∧
        z.2.list.chats = some [⟨"bob", "hi", 1⟩] ∧
        (follow (observe executed (State.step id)) (fun z e => decide (NotOvertaken z.1 z.2 e))
          [.handle 1] z).any (fun z' =>
            decide (z'.2.list.chats = some [⟨"bob", "yo", 3⟩])) = true :=
    Run.exists_of_follow (pullTwice ++ [.handle 0]) (by decide +kernel)
  obtain ⟨⟨log', s'⟩, hr', hrows'⟩ := Run.exists_of_follow [Event.handle 1] hlater
  obtain ⟨row', hm, -, n, hn, hsince⟩ := list_advances id bobWrote (by decide) (by decide) hr hr'
    hrows hrows' _ (List.mem_singleton_self _)
  obtain rfl := List.mem_singleton.mp hm
  exact ⟨s, s', hrows, hrows', n, hn, hsince⟩

/-- In the other order the list goes back. -/
example : (after (State.step id) (State.mount "ann" (Store.empty.serveAll id bobWrote))
    (pullTwice ++ [.handle 1, .handle 0])).map (fun s => s.list.chats) =
      some (some [⟨"bob", "hi", 1⟩]) := by
  decide +kernel

end Main
end RecoupChat
