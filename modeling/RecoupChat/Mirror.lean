import Mathlib.Data.List.Nodup
import Mathlib.Data.List.TakeWhile
import Mathlib.Logic.Function.Basic

/-! A log whose last entry is shown by two cells. Each writer appends one entry and then
shows it in both cells, in an order of its own; it gives up when the cell it is about to
change shows its value already. -/
namespace Mirror

variable {ι κ V : Type}

structure State (ι κ V : Type) where
  /-- the entries, each with its writer -/
  log : List (ι × V)
  /-- the cells that a writer has still to change -/
  todo : ι → List κ
  cell : κ → V

def fresh (x y : κ) (cs : List κ) : Prop := cs = [x, y] ∨ cs = [y, x]

theorem fresh.mem {x y c : κ} {cs : List κ} (h : fresh x y cs) (hc : c ∈ [x, y]) : c ∈ cs := by
  rcases h with rfl | rfl <;> simp_all [or_comm]

theorem todo_cons {x y c : κ} {cs : List κ} (hxy : x ≠ y)
    (h : c :: cs <:+ [x, y] ∨ c :: cs <:+ [y, x]) :
    c ∈ [x, y] ∧ c ∉ cs ∧ (cs <:+ [x, y] ∨ cs <:+ [y, x]) ∧ ¬ fresh x y cs ∧
      (cs = [] ∨ fresh x y (c :: cs)) := by
  simp only [List.suffix_cons_iff, List.suffix_nil, fresh] at h ⊢
  grind

def latest (v0 : V) (ws : List (ι × V)) : V := ws.foldl (fun _ w => w.2) v0

@[simp] theorem latest_concat (v0 : V) (ws : List (ι × V)) (w : ι × V) :
    latest v0 (ws ++ [w]) = w.2 := by simp [latest]

variable [DecidableEq κ]

/-- What cell `c` shows after the writers of `ws` have changed it in their order, when it
shows `v` now. -/
def settled (todo : ι → List κ) (c : κ) (v : V) (ws : List (ι × V)) : V :=
  ws.foldl (fun v w => if c ∈ todo w.1 then w.2 else v) v

section Settled
variable {todo todo' : ι → List κ} {c : κ} {v : V} {ws : List (ι × V)}

theorem settled_append (ws ws' : List (ι × V)) :
    settled todo c v (ws ++ ws') = settled todo c (settled todo c v ws) ws' :=
  List.foldl_append

theorem settled_congr (h : ∀ w ∈ ws, todo w.1 = todo' w.1) :
    settled todo c v ws = settled todo' c v ws := by
  induction ws generalizing v with
  | nil => rfl
  | cons w ws ih =>
    simp only [settled, List.foldl_cons, h w List.mem_cons_self]
    exact ih fun x hx => h x (List.mem_cons_of_mem w hx)

theorem settled_idle (h : ∀ w ∈ ws, c ∉ todo w.1) : settled todo c v ws = v := by
  induction ws with
  | nil => rfl
  | cons w ws ih =>
    simp only [settled, List.foldl_cons, if_neg (h w List.mem_cons_self)]
    exact ih fun x hx => h x (List.mem_cons_of_mem w hx)

theorem settled_concat (w : ι × V) :
    settled todo c v (ws ++ [w]) = if c ∈ todo w.1 then w.2 else settled todo c v ws := by
  simp [settled]

end Settled

namespace State

/-- Writers have at most their two cells to change, those that have changed none come last,
and before any of these both cells settle on the last entry. -/
structure Shows (x y : κ) (v0 : V) (s : State ι κ V) : Prop where
  nodup : (s.log.map (·.1)).Nodup
  todo : ∀ i, s.todo i <:+ [x, y] ∨ s.todo i <:+ [y, x]
  freshLast : s.log.Pairwise fun w w' => fresh x y (s.todo w.1) → fresh x y (s.todo w'.1)
  settles : ∀ pre post, s.log = pre ++ post → (∀ w ∈ post, fresh x y (s.todo w.1)) →
    ∀ c ∈ [x, y], settled s.todo c (s.cell c) pre = latest v0 pre

theorem Shows.init {x y : κ} {v0 : V} {cell : κ → V} (h : ∀ c ∈ [x, y], cell c = v0) :
    Shows x y v0 (⟨[], fun _ => [], cell⟩ : State ι κ V) where
  nodup := List.nodup_nil
  todo _ := Or.inl List.nil_suffix
  freshLast := List.Pairwise.nil
  settles pre post he _ c hc := by
    obtain ⟨rfl, -⟩ := List.append_eq_nil_iff.mp he.symm
    exact h c hc

/-- Once every writer has finished, both cells show the last entry. -/
theorem Shows.rest {x y : κ} {v0 : V} {s : State ι κ V} (h : s.Shows x y v0)
    (hrest : ∀ i, s.todo i = []) : s.cell x = latest v0 s.log ∧ s.cell y = latest v0 s.log := by
  have hcell (c : κ) (hc : c ∈ [x, y]) : s.cell c = latest v0 s.log := by
    have hs := h.settles s.log [] (List.append_nil _).symm (by simp) c hc
    rwa [settled_idle fun w _ => by simp [hrest]] at hs
  exact ⟨hcell x (by simp), hcell y (by simp)⟩

theorem Shows.others {x y : κ} {v0 : V} {s : State ι κ V} (h : s.Shows x y v0) {i : ι} {v : V}
    {ws ws' : List (ι × V)} (hlog : s.log = ws ++ (i, v) :: ws') :
    (∀ w ∈ ws, w.1 ≠ i) ∧ ∀ w ∈ ws', w.1 ≠ i := by
  have hn := h.nodup
  simp only [hlog, List.map_append, List.map_cons, List.nodup_append, List.nodup_cons] at hn
  obtain ⟨-, ⟨hi, -⟩, hd⟩ := hn
  exact ⟨fun w hw he => hd w.1 (List.mem_map_of_mem hw) i List.mem_cons_self he,
    fun w hw he => hi (he ▸ List.mem_map_of_mem hw)⟩

variable [DecidableEq ι]

def append (s : State ι κ V) (i : ι) (v : V) (cs : List κ) : State ι κ V :=
  ⟨s.log ++ [(i, v)], Function.update s.todo i cs, s.cell⟩

def write [DecidableEq V] (s : State ι κ V) (i : ι) (v : V) : State ι κ V :=
  match s.todo i with
  | [] => s
  | c :: cs =>
    if s.cell c = v then { s with todo := Function.update s.todo i [] }
    else ⟨s.log, Function.update s.todo i cs, Function.update s.cell c v⟩

/-- No writer that appended before `i` has still to change cell `c`. -/
def turn (s : State ι κ V) (i : ι) (c : κ) : Prop :=
  ∀ w ∈ s.log.takeWhile fun w => w.1 ≠ i, c ∉ s.todo w.1

variable {x y : κ} {v0 : V} {s : State ι κ V}

omit [DecidableEq κ] in
theorem append_todo {i : ι} {v : V} {cs : List κ} (hi : i ∉ s.log.map (·.1)) {w : ι × V}
    (hw : w ∈ s.log) : (s.append i v cs).todo w.1 = s.todo w.1 := by
  have hne : w.1 ≠ i := fun he => hi (he ▸ List.mem_map_of_mem hw)
  exact Function.update_of_ne hne _ _

variable (h : s.Shows x y v0)
include h

theorem Shows.append {i : ι} {v : V} {cs : List κ} (hi : i ∉ s.log.map (·.1))
    (hcs : fresh x y cs) : (s.append i v cs).Shows x y v0 where
  nodup := by
    rw [State.append, List.map_append]
    exact h.nodup.append (List.nodup_singleton i) (by simpa using hi)
  todo j := by
    by_cases hj : j = i
    · rcases hcs with rfl | rfl <;> simp [State.append, hj]
    · simpa [State.append, hj] using h.todo j
  freshLast := by
    refine List.pairwise_append.mpr ⟨?_, List.pairwise_singleton _ _, fun w _ w' hw' _ => ?_⟩
    · exact h.freshLast.imp_of_mem fun hw hw' hf => by
        rwa [append_todo hi hw, append_todo hi hw']
    · rw [List.mem_singleton.mp hw']
      simpa [State.append] using hcs
  settles pre post he hpost c hc := by
    rcases List.eq_nil_or_concat post with rfl | ⟨post', w, rfl⟩
    · obtain rfl : s.log ++ [(i, v)] = pre := by simpa [State.append] using he
      rw [settled_concat, latest_concat]
      simp [State.append, hcs.mem hc]
    · rw [List.concat_eq_append, ← List.append_assoc] at he
      obtain ⟨hlog, -⟩ := List.append_inj' he rfl
      have hold : ∀ w ∈ post', fresh x y (s.todo w.1) := fun w hw => by
        have hf := hpost w (by simp [hw])
        rwa [append_todo hi (hlog ▸ List.mem_append_right _ hw)] at hf
      rw [← h.settles pre post' hlog hold c hc]
      exact settled_congr fun w hw => append_todo hi (hlog ▸ List.mem_append_left _ hw)

theorem Shows.change {i : ι} {v : V} {ws ws' : List (ι × V)} (hlog : s.log = ws ++ (i, v) :: ws')
    (hws : ∀ w ∈ ws, ¬ fresh x y (s.todo w.1)) {cs : List κ}
    (hcs : cs <:+ [x, y] ∨ cs <:+ [y, x]) (hnf : ¬ fresh x y cs) {cell : κ → V}
    (hcell : ∀ c ∈ [x, y], settled (Function.update s.todo i cs) c (cell c) (ws ++ [(i, v)]) =
      settled s.todo c (s.cell c) (ws ++ [(i, v)])) :
    Shows x y v0 ⟨s.log, Function.update s.todo i cs, cell⟩ := by
  obtain ⟨hne, hne'⟩ := h.others hlog
  refine ⟨h.nodup, fun j => ?_, ?_, fun pre post he hpost c hc => ?_⟩
  · by_cases hj : j = i
    · simpa [hj] using hcs
    · simpa [hj] using h.todo j
  · have hf := h.freshLast
    simp only [hlog, List.pairwise_append, List.pairwise_cons] at hf ⊢
    obtain ⟨hf, ⟨-, hf'⟩, -⟩ := hf
    have hws' : ∀ w ∈ ws, ¬ fresh x y (Function.update s.todo i cs w.1) := fun w hw => by
      rw [Function.update_of_ne (hne w hw)]
      exact hws w hw
    refine ⟨hf.imp_of_mem fun hw _ _ hfw => absurd hfw (hws' _ hw), ⟨fun w _ hfi => ?_, ?_⟩,
      fun w hw w' _ hfw => absurd hfw (hws' w hw)⟩
    · exact absurd (by simpa using hfi) hnf
    · exact hf'.imp_of_mem fun hw hw' hww => by simpa [hne' _ hw, hne' _ hw'] using hww
  · have hpost : ∀ w ∈ post, fresh x y (Function.update s.todo i cs w.1) := hpost
    have hi : (i, v) ∉ post := fun hm => hnf (by simpa using hpost _ hm)
    obtain ⟨q, rfl, hq⟩ : ∃ q, pre = ws ++ (i, v) :: q ∧ ws' = q ++ post := by
      have he' : ws ++ (i, v) :: ws' = pre ++ post := hlog ▸ he
      rcases List.append_eq_append_iff.mp he' with ⟨a, rfl, ha⟩ | ⟨a, -, ha⟩
      · cases a with
        | nil =>
          obtain rfl : (i, v) :: ws' = post := ha
          exact absurd List.mem_cons_self hi
        | cons w q =>
          obtain ⟨rfl, hq⟩ := List.cons.inj ha
          exact ⟨q, rfl, hq⟩
      · exact absurd (by simp [ha]) hi
    have hold : ∀ w ∈ post, fresh x y (s.todo w.1) := fun w hw => by
      simpa [hne' w (hq ▸ List.mem_append_right _ hw)] using hpost w hw
    change settled (Function.update s.todo i cs) c (cell c) (ws ++ (i, v) :: q) = _
    rw [← h.settles _ post he hold c hc, List.append_cons, settled_append (ws ++ [(i, v)]) q,
      settled_append (ws ++ [(i, v)]) q, hcell c hc]
    exact settled_congr fun w hw =>
      Function.update_of_ne (hne' w (hq ▸ List.mem_append_left _ hw)) _ _

theorem Shows.write [DecidableEq V] {i : ι} {v : V} {c : κ} {cs : List κ}
    (hxy : x ≠ y) (htodo : s.todo i = c :: cs) (hi : (i, v) ∈ s.log) (hturn : s.turn i c) :
    (s.write i v).Shows x y v0 := by
  obtain ⟨ws, ws', hlog⟩ := List.append_of_mem hi
  obtain ⟨hne, -⟩ := h.others hlog
  have hidle : ∀ w ∈ ws, c ∉ s.todo w.1 := by
    have htake : ws <+: s.log.takeWhile fun w => w.1 ≠ i := by
      rw [hlog, List.takeWhile_append_of_pos (by simpa using hne)]
      exact List.prefix_append _ _
    exact fun w hw => hturn w (htake.subset hw)
  obtain ⟨hc, hcs, hsuf, hnf, hfirst⟩ := todo_cons hxy (htodo ▸ h.todo i)
  have hws : ∀ w ∈ ws, ¬ fresh x y (s.todo w.1) := fun w hw hf => hidle w hw (hf.mem hc)
  have hupd (t : List κ) (d : κ) (v1 : V) :
      settled (Function.update s.todo i t) d v1 ws = settled s.todo d v1 ws :=
    settled_congr fun w hw => Function.update_of_ne (hne w hw) _ _
  simp only [State.write, htodo]
  split
  · rename_i hshown
    refine h.change hlog hws (Or.inl List.nil_suffix) (by simp [fresh]) fun d hd => ?_
    rw [settled_concat, settled_concat, hupd, Function.update_self, htodo]
    by_cases hdc : d = c
    · subst hdc
      simp [settled_idle hidle, hshown]
    · by_cases hm : d ∈ cs
      · -- the second cell is given up: it settles as the first one does
        have hfresh : ∀ w ∈ (i, v) :: ws', fresh x y (s.todo w.1) := by
          have hfi : fresh x y (s.todo i) := htodo ▸ hfirst.resolve_left (List.ne_nil_of_mem hm)
          have hf := h.freshLast
          rw [hlog, List.pairwise_append, List.pairwise_cons] at hf
          intro w hw
          rcases List.mem_cons.mp hw with rfl | hw
          · exact hfi
          · exact hf.2.1.1 w hw hfi
        have hd' := h.settles ws _ hlog hfresh d hd
        have hc' := h.settles ws _ hlog hfresh c hc
        rw [settled_idle hidle] at hc'
        simp [hm, hd', ← hc', hshown]
      · simp [hdc, hm]
  · refine h.change hlog hws hsuf hnf fun d hd => ?_
    rw [settled_concat, settled_concat, hupd, Function.update_self, htodo]
    by_cases hdc : d = c
    · subst hdc
      simp [hcs, settled_idle hidle]
    · simp [hdc]

end State
end Mirror
