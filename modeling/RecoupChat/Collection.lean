import Mathlib.Data.List.Basic
import Mathlib.Data.List.Nodup
import Mathlib.Data.List.Perm.Basic

/-! A collection of documents without unique indexes: a list in insertion order, in which
`findOne` and `updateOne` act on the earliest document that matches. -/
namespace Collection

variable {α β : Type}

structure InsertOneResult where
  acknowledged : Bool

structure UpdateResult where
  modifiedCount : Nat

def findOne (p : α → Bool) (docs : List α) : Option α := docs.find? p

/-- Change the first match by `f`. A change that leaves the document as it was is not
counted as a modification. -/
def updateOne [DecidableEq α] (p : α → Bool) (f : α → α) : List α → List α × UpdateResult
  | [] => ([], ⟨0⟩)
  | d :: docs =>
    if p d then (f d :: docs, ⟨if f d = d then 0 else 1⟩)
    else (d :: (updateOne p f docs).1, (updateOne p f docs).2)

theorem findOne_mem {p : α → Bool} {docs : List α} {d : α} (h : findOne p docs = some d) :
    d ∈ docs := List.mem_of_find?_eq_some h

theorem findOne_matches {p : α → Bool} {docs : List α} {d : α} (h : findOne p docs = some d) :
    p d = true := List.find?_some h

theorem findOne_isSome {p : α → Bool} {docs : List α} :
    (findOne p docs).isSome ↔ ∃ d ∈ docs, p d = true := by
  simp [findOne]

theorem findOne_eq_none {p : α → Bool} {docs : List α} :
    findOne p docs = none ↔ ∀ d ∈ docs, p d = false := by
  simp [findOne]

theorem findOne_of_key {key : α → β} {p : α → Bool} {docs : List α} {d : α}
    (hn : (docs.map key).Nodup) (hd : d ∈ docs) (hp : p d = true)
    (hk : ∀ x, p x = true → key x = key d) : findOne p docs = some d := by
  obtain ⟨x, hx⟩ := Option.isSome_iff_exists.mp (findOne_isSome.mpr ⟨d, hd, hp⟩)
  have he : key x = key d := hk x (findOne_matches hx)
  rw [hx, List.inj_on_of_nodup_map hn (findOne_mem hx) hd he]

theorem findOne_insert (p : α → Bool) (docs : List α) (doc : α) :
    findOne p (docs ++ [doc]) = (findOne p docs).or (if p doc then some doc else none) := by
  simp only [findOne, List.find?_append]
  cases docs.find? p <;> cases hp : p doc <;> simp [hp]

theorem nodup_map_concat {key : α → β} {docs : List α} {doc : α}
    (hn : (docs.map key).Nodup) (hk : key doc ∉ docs.map key) :
    ((docs ++ [doc]).map key).Nodup := by
  rw [List.map_append, List.map_singleton]
  exact List.Nodup.append hn (List.nodup_singleton _) (by simpa using hk)

theorem findOne_map {γ : Type} {p : α → Bool} {q : γ → Bool} {g : α → γ}
    (hp : ∀ d, q (g d) = p d) (docs : List α) :
    findOne q (docs.map g) = (findOne p docs).map g := by
  have hq : q ∘ g = p := funext hp
  rw [findOne, findOne, List.find?_map, hq]

section Update
variable [DecidableEq α]

theorem findOne_updateOne {p : α → Bool} {f : α → α} (hf : ∀ d, p d = true → p (f d) = true)
    (docs : List α) : findOne p (updateOne p f docs).1 = (findOne p docs).map f := by
  induction docs with
  | nil => rfl
  | cons d docs ih =>
    by_cases hp : p d = true
    · simp [updateOne, findOne, hp, hf d hp]
    · simp only [findOne] at ih
      simp [updateOne, findOne, hp, ih]

theorem findOne_updateOne_of_ne {p q : α → Bool} {f : α → α}
    (hq : ∀ d, p d = true → q d = false ∧ q (f d) = false) (docs : List α) :
    findOne q (updateOne p f docs).1 = findOne q docs := by
  induction docs with
  | nil => rfl
  | cons d docs ih =>
    by_cases hp : p d = true
    · simp [updateOne, findOne, hp, hq d hp]
    · simp only [findOne] at ih
      cases hd : q d <;> simp [updateOne, findOne, hp, hd, ih]

theorem updateOne_map {γ : Type} [DecidableEq γ] {p : α → Bool} {q : γ → Bool} {f : α → α}
    {k : γ → γ} {g : α → γ} (hp : ∀ d, q (g d) = p d) (hf : ∀ d, g (f d) = k (g d))
    (docs : List α) : (updateOne p f docs).1.map g = (updateOne q k (docs.map g)).1 := by
  induction docs with
  | nil => rfl
  | cons d docs ih =>
    by_cases hd : p d = true
    · simp [updateOne, hp, hd, hf]
    · simp [updateOne, hp, hd, ih]

theorem map_updateOne_of_found {p : α → Bool} {f : α → α} {g : α → β} {docs : List α}
    (hg : ∀ d, findOne p docs = some d → g (f d) = g d) :
    (updateOne p f docs).1.map g = docs.map g := by
  induction docs with
  | nil => rfl
  | cons d docs ih =>
    by_cases hp : p d = true
    · have hd := hg d (by simp [findOne, hp])
      simp [updateOne, hp, hd]
    · have ht := ih fun x hx => hg x (by simpa [findOne, hp] using hx)
      simp [updateOne, hp, ht]

theorem map_updateOne {p : α → Bool} {f : α → α} {g : α → β}
    (hg : ∀ d, p d = true → g (f d) = g d) (docs : List α) :
    (updateOne p f docs).1.map g = docs.map g :=
  map_updateOne_of_found fun d hd => hg d (findOne_matches hd)

theorem filter_updateOne {p q : α → Bool} {f : α → α}
    (hq : ∀ d, p d = true → q d = false ∧ q (f d) = false) (docs : List α) :
    (updateOne p f docs).1.filter q = docs.filter q := by
  induction docs with
  | nil => rfl
  | cons d docs ih =>
    by_cases hp : p d = true
    · simp [updateOne, hp, hq d hp]
    · simp only [updateOne, hp, Bool.false_eq_true, if_false, List.filter_cons, ih]

theorem updateOne_concat {p : α → Bool} {f : α → α} {docs : List α} {x : α}
    (h : findOne p docs ≠ none ∨ p x = false) :
    updateOne p f (docs ++ [x]) = ((updateOne p f docs).1 ++ [x], (updateOne p f docs).2) := by
  induction docs with
  | nil =>
    have hx : p x = false := h.resolve_left fun hn => hn rfl
    simp [updateOne, hx]
  | cons d docs ih =>
    by_cases hp : p d = true
    · simp [updateOne, hp]
    · have ht := ih (h.imp_left fun hn => by simpa [findOne, hp] using hn)
      simp [updateOne, hp, ht]

theorem updateOne_updateOne {p : α → Bool} {f g : α → α} (hg : ∀ d, p d = true → p (g d) = true)
    (hf : ∀ d, f (g d) = f d) (docs : List α) :
    (updateOne p f (updateOne p g docs).1).1 = (updateOne p f docs).1 := by
  induction docs with
  | nil => rfl
  | cons d docs ih =>
    by_cases hp : p d = true
    · simp [updateOne, hp, hg d hp, hf]
    · simp [updateOne, hp, ih]

theorem updateOne_comm {p q : α → Bool} {f g : α → α} (hp : ∀ d, p d = true → q d = false)
    (hf : ∀ d, q (f d) = q d) (hg : ∀ d, p (g d) = p d) (docs : List α) :
    (updateOne p f (updateOne q g docs).1).1 = (updateOne q g (updateOne p f docs).1).1 := by
  induction docs with
  | nil => rfl
  | cons d docs ih =>
    cases hpd : p d with
    | true => simp [updateOne, hpd, hp d hpd, hf]
    | false => cases hqd : q d <;> simp [updateOne, hpd, hqd, hg, ih]

theorem mem_updateOne {p : α → Bool} {f : α → α} {docs : List α} {x : α}
    (hx : x ∈ (updateOne p f docs).1) :
    x ∈ docs ∨ ∃ d, findOne p docs = some d ∧ x = f d := by
  induction docs with
  | nil => exact Or.inl hx
  | cons d docs ih =>
    by_cases hp : p d = true
    · simp only [updateOne, hp, if_true, List.mem_cons] at hx
      rcases hx with rfl | hx
      · exact Or.inr ⟨d, by simp [findOne, hp], rfl⟩
      · exact Or.inl (List.mem_cons_of_mem d hx)
    · simp only [updateOne, hp, Bool.false_eq_true, if_false, List.mem_cons] at hx
      rcases hx with rfl | hx
      · exact Or.inl List.mem_cons_self
      · rcases ih hx with h | ⟨y, hy, rfl⟩
        · exact Or.inl (List.mem_cons_of_mem d h)
        · exact Or.inr ⟨y, by simpa [findOne, hp] using hy, rfl⟩

theorem getElem_updateOne {p : α → Bool} {f : α → α} {docs : List α} {k : Nat} {d : α}
    (h : docs[k]? = some d) : (updateOne p f docs).1[k]? = some d ∨
      findOne p docs = some d ∧ (updateOne p f docs).1[k]? = some (f d) := by
  induction docs generalizing k with
  | nil => cases h
  | cons x docs ih =>
    by_cases hp : p x = true
    · cases k with
      | zero =>
        obtain rfl := Option.some.inj h
        exact Or.inr ⟨by simp [findOne, hp], by simp [updateOne, hp]⟩
      | succ k => exact Or.inl (by simpa [updateOne, hp] using h)
    · cases k with
      | zero => exact Or.inl (by simpa [updateOne, hp] using h)
      | succ k => simpa [updateOne, findOne, hp] using ih h

theorem modifiedCount_eq {p : α → Bool} {f : α → α} (docs : List α) :
    (updateOne p f docs).2.modifiedCount =
      match findOne p docs with
      | none => 0
      | some d => if f d = d then 0 else 1 := by
  induction docs with
  | nil => rfl
  | cons d docs ih =>
    by_cases hp : p d = true
    · simp [updateOne, findOne, hp]
    · simp only [findOne] at ih
      simp [updateOne, findOne, hp, ih]

theorem updateOne_unmodified {p : α → Bool} {f : α → α} {docs : List α}
    (h : (updateOne p f docs).2.modifiedCount ≠ 1) : (updateOne p f docs).1 = docs := by
  induction docs with
  | nil => rfl
  | cons d docs ih =>
    by_cases hp : p d = true
    · by_cases hf : f d = d
      · simp [updateOne, hp, hf]
      · simp [updateOne, hp, hf] at h
    · simp only [updateOne, hp, Bool.false_eq_true, if_false] at h ⊢
      rw [ih h]

theorem modify_findIdx (p : α → Bool) (f : α → α) (docs : List α) :
    (docs.findIdx? p).map (fun i => docs.modify i f) =
      (findOne p docs).map fun _ => (updateOne p f docs).1 := by
  induction docs with
  | nil => rfl
  | cons d docs ih =>
    cases hp : p d with
    | true => simp [List.findIdx?_cons, findOne, updateOne, hp]
    | false =>
      have ht := congrArg (Option.map (List.cons d)) ih
      simp only [findOne, Option.map_map] at ht
      simpa [List.findIdx?_cons, findOne, updateOne, hp, Function.comp_def] using ht

end Update
theorem nodup_of_subperm {key : α → β} {l l' : List α} (h : l.Subperm l')
    (hn : (l'.map key).Nodup) : (l.map key).Nodup := by
  obtain ⟨l1, hp, hs⟩ := h
  exact (hp.map key).nodup_iff.mp ((hs.map key).nodup hn)

/-! What `f` finds in a list of which one element is dropped or replaced. -/

theorem filterMap_eraseIdx {f : α → Option β} {l : List α} {k : Nat} {x : α} (h : l[k]? = some x) :
    ((f x).toList ++ (l.eraseIdx k).filterMap f).Perm (l.filterMap f) := by
  obtain ⟨hk, rfl⟩ := List.getElem?_eq_some_iff.mp h
  have hp := (List.getElem_cons_eraseIdx_perm hk).filterMap f
  rw [List.filterMap_cons] at hp
  cases hf : f l[k] <;> simpa [hf] using hp

theorem filterMap_set {f : α → Option β} {l : List α} {k : Nat} {x : α} (h : l[k]? = some x)
    (y : α) : ((f x).toList ++ (l.set k y).filterMap f).Perm ((f y).toList ++ l.filterMap f) := by
  obtain ⟨hk, -⟩ := List.getElem?_eq_some_iff.mp h
  have hset : (l.set k y)[k]? = some y := by simp [hk]
  have hnew := filterMap_eraseIdx (f := f) hset
  rw [List.eraseIdx_set_eq] at hnew
  have hold := filterMap_eraseIdx (f := f) h
  have hswap := List.perm_append_comm_assoc (f x).toList (f y).toList ((l.eraseIdx k).filterMap f)
  exact (hnew.symm.append_left _).trans (hswap.trans (hold.append_left _))

theorem filterMap_set_same {f : α → Option β} {l : List α} {k : Nat} {x y : α}
    (h : l[k]? = some x) (hf : f y = f x) : (l.set k y).filterMap f = l.filterMap f := by
  induction l generalizing k with
  | nil => rfl
  | cons z l ih =>
    cases k with
    | zero =>
      obtain rfl := Option.some.inj h
      simp [List.filterMap_cons, hf]
    | succ k => simp only [List.set_cons_succ, List.filterMap_cons, ih h]

theorem split_at {l : List α} {k : Nat} {x : α} (h : l[k]? = some x) :
    ∃ as bs, l = as ++ x :: bs ∧ as.length = k := by
  obtain ⟨hk, rfl⟩ := List.getElem?_eq_some_iff.mp h
  refine ⟨l.take k, l.drop (k + 1), by simp, ?_⟩
  rw [List.length_take]
  omega

theorem filterMap_at {f : α → Option β} {l : List α} {k : Nat} {x : α} {z : β}
    (h : l[k]? = some x) (hx : f x = some z) : ∃ n, (l.filterMap f)[n]? = some z ∧
      (∀ y w, f y = some w → (l.set k y).filterMap f = (l.filterMap f).set n w) ∧
      (l.eraseIdx k).filterMap f = (l.filterMap f).eraseIdx n := by
  obtain ⟨as, bs, rfl, rfl⟩ := split_at h
  refine ⟨(as.filterMap f).length, by simp [hx], fun y w hy => ?_, ?_⟩
  · simp [hx, hy]
  · simp [hx, List.eraseIdx_append_of_length_le]

theorem filterMap_eraseIdx_none {f : α → Option β} {l : List α} {k : Nat} {x : α}
    (h : l[k]? = some x) (hx : f x = none) : (l.eraseIdx k).filterMap f = l.filterMap f := by
  obtain ⟨as, bs, rfl, rfl⟩ := split_at h
  simp [hx, List.eraseIdx_append_of_length_le]

end Collection
