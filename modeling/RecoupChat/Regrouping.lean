import Mathlib.Data.List.Basic
import Mathlib.Data.List.Nodup
import RecoupChat.Transition

/-! Runs in which actions may change places. -/
namespace Transition

variable {S P A κ : Type} {step : S → A → Option S} {I : S → Prop}

theorem after_cons_eq_some {s s' : S} {a : A} {as : List A} :
    after step s (a :: as) = some s' ↔ ∃ s1, step s a = some s1 ∧ after step s1 as = some s' := by
  rw [after_cons, Option.bind_eq_some_iff]

theorem after_append_eq_some {s s' : S} {as bs : List A} :
    after step s (as ++ bs) = some s' ↔
      ∃ s1, after step s as = some s1 ∧ after step s1 bs = some s' := by
  rw [after, List.foldlM_append]
  exact Option.bind_eq_some_iff

theorem after_kept {s s' : S} {as : List A} (h : after step s as = some s') (h0 : I s)
    (hkeep : ∀ a ∈ as, ∀ s s', I s → step s a = some s' → I s') : I s' := by
  induction as generalizing s with
  | nil =>
    cases h
    exact h0
  | cons a as ih =>
    obtain ⟨s1, hs, ha⟩ := after_cons_eq_some.mp h
    exact ih ha (hkeep a List.mem_cons_self s s1 h0 hs) fun b hb =>
      hkeep b (List.mem_cons_of_mem a hb)

/-- When `f` maps one system onto another step by step, wherever an invariant holds that the
listed actions keep, it maps runs of them to runs. -/
theorem after_map_kept {B : Type} {pstep : P → B → Option P} {f : P → S} {g : B → A}
    {J : P → Prop} {bs : List B} {p : P} (h0 : J p)
    (hf : ∀ b ∈ bs, ∀ p, J p → step (f p) (g b) = (pstep p b).map f)
    (hkeep : ∀ b ∈ bs, ∀ p p', J p → pstep p b = some p' → J p') :
    after step (f p) (bs.map g) = (after pstep p bs).map f := by
  induction bs generalizing p with
  | nil => rfl
  | cons b bs ih =>
    rw [List.map_cons, after_cons, after_cons, hf b List.mem_cons_self p h0]
    cases hp : pstep p b with
    | none => rfl
    | some p1 =>
      exact ih (hkeep b List.mem_cons_self p p1 h0 hp)
        (fun b hb => hf b (List.mem_cons_of_mem _ hb))
        fun b hb => hkeep b (List.mem_cons_of_mem _ hb)

theorem after_map {B : Type} {pstep : P → B → Option P} {f : P → S} {g : B → A}
    (hf : ∀ p b, step (f p) (g b) = (pstep p b).map f) (bs : List B) (p : P) :
    after step (f p) (bs.map g) = (after pstep p bs).map f :=
  after_map_kept (J := fun _ => True) trivial (fun b _ p _ => hf p b) fun _ _ _ _ _ _ => trivial

theorem Run.map {ok : S → A → Prop} {pstep : P → A → Option P} {f : P → S}
    (hf : ∀ p a, step (f p) a = (pstep p a).map f) {p p' : P}
    (h : Run pstep (fun p a => ok (f p) a) p p') : Run step ok (f p) (f p') := by
  induction h with
  | refl => exact .refl _
  | tail _ ht ih =>
    obtain ⟨a, ha, hs⟩ := ht
    exact ih.tail ha (by rw [hf, hs, Option.map_some])

/-- Where `b` and then `a` are taken, `a` and then `b` could be, to the same effect. -/
def Swaps (step : S → A → Option S) (I : S → Prop) (a b : A) : Prop :=
  ∀ s s1 s2, I s → step s b = some s1 → step s1 a = some s2 →
    ∃ s1', step s a = some s1' ∧ step s1' b = some s2

theorem after_slide {s s' : S} {b : A} {as rest : List A} (h0 : I s)
    (hkeep : ∀ a ∈ as, ∀ s s', I s → step s a = some s' → I s')
    (hswap : ∀ a ∈ as, Swaps step I a b) (h : after step s (b :: (as ++ rest)) = some s') :
    after step s (as ++ b :: rest) = some s' := by
  induction as generalizing s with
  | nil => exact h
  | cons a as ih =>
    obtain ⟨s1, hb, h1⟩ := after_cons_eq_some.mp h
    obtain ⟨s2, ha, h2⟩ := after_cons_eq_some.mp h1
    obtain ⟨s1', ha', hb'⟩ := hswap a List.mem_cons_self s s1 s2 h0 hb ha
    have hrest : after step s1' (b :: (as ++ rest)) = some s' := after_cons_eq_some.mpr ⟨s2, hb', h2⟩
    have hI : I s1' := hkeep a List.mem_cons_self s s1' h0 ha'
    exact after_cons_eq_some.mpr ⟨s1', ha', ih hI
      (fun a' ha' => hkeep a' (List.mem_cons_of_mem a ha'))
      (fun a' ha' => hswap a' (List.mem_cons_of_mem a ha')) hrest⟩

theorem after_filter {s s' : S} {as : List A} (p : A → Bool) (h0 : I s)
    (hkeep : ∀ a ∈ as, ∀ s s', I s → step s a = some s' → I s')
    (hswap : ∀ a ∈ as, ∀ b ∈ as, p a = true → p b = false → Swaps step I a b)
    (h : after step s as = some s') :
    after step s (as.filter p ++ as.filter fun a => !p a) = some s' := by
  induction as generalizing s with
  | nil => exact h
  | cons b as ih =>
    obtain ⟨s1, hb, h1⟩ := after_cons_eq_some.mp h
    have hrest := ih (hkeep b List.mem_cons_self s s1 h0 hb)
      (fun a ha => hkeep a (List.mem_cons_of_mem b ha))
      (fun a ha a' ha' => hswap a (List.mem_cons_of_mem b ha) a' (List.mem_cons_of_mem b ha')) h1
    have hall := after_cons_eq_some.mpr ⟨s1, hb, hrest⟩
    cases hp : p b with
    | true => simpa [List.filter_cons, hp] using hall
    | false =>
      have hslide := after_slide h0
        (fun a ha => hkeep a (List.mem_cons_of_mem b ((List.mem_filter.mp ha).1)))
        (fun a ha => hswap a (List.mem_cons_of_mem b ((List.mem_filter.mp ha).1)) b
          List.mem_cons_self (List.mem_filter.mp ha).2 hp) hall
      simpa [List.filter_cons, hp] using hslide

/-- The actions of parties that do not interfere may be taken party by party, in any order of
the parties. -/
theorem after_regroup [DecidableEq κ] (who : A → κ) {ks : List κ} (hn : ks.Nodup) {s s' : S}
    {as : List A} (h0 : I s) (hkeep : ∀ a ∈ as, ∀ s s', I s → step s a = some s' → I s')
    (hswap : ∀ a ∈ as, ∀ b ∈ as, who a ≠ who b → Swaps step I a b)
    (hall : ∀ a ∈ as, who a ∈ ks) (h : after step s as = some s') :
    after step s (ks.flatMap fun k => as.filter fun a => who a = k) = some s' := by
  induction ks generalizing s as with
  | nil =>
    have hnil : as = [] := List.eq_nil_iff_forall_not_mem.mpr fun a ha => by simpa using hall a ha
    rw [hnil] at h
    exact h
  | cons k ks ih =>
    obtain ⟨hk, hn⟩ := List.nodup_cons.mp hn
    have hfirst := after_filter (fun a => decide (who a = k)) h0 hkeep
      (fun a ha b hb hpa hpb => hswap a ha b hb fun he => by simp_all) h
    obtain ⟨s1, h1, h2⟩ := after_append_eq_some.mp hfirst
    let others := as.filter fun a => !decide (who a = k)
    have hmem : ∀ a ∈ others, a ∈ as := fun a ha => (List.mem_filter.mp ha).1
    have hI : I s1 := after_kept h1 h0 fun a ha => hkeep a ((List.mem_filter.mp ha).1)
    have hrest : after step s1 (ks.flatMap fun k' => others.filter fun a => who a = k') = some s' :=
      ih hn hI (fun a ha => hkeep a (hmem a ha))
        (fun a ha b hb => hswap a (hmem a ha) b (hmem b hb))
        (fun a ha => by
          have hne : who a ≠ k := by simpa using (List.mem_filter.mp ha).2
          exact (List.mem_cons.mp (hall a (hmem a ha))).resolve_left hne) h2
    have hsame : (ks.flatMap fun k' => others.filter fun a => who a = k') =
        ks.flatMap fun k' => as.filter fun a => who a = k' := by
      refine List.flatMap_congr fun k' hk' => ?_
      rw [List.filter_filter]
      refine List.filter_congr fun a _ => ?_
      have hne : k' ≠ k := fun he => hk (he ▸ hk')
      by_cases hw : who a = k' <;> simp [hw, hne]
    rw [List.flatMap_cons]
    exact after_append_eq_some.mpr ⟨s1, h1, hsame ▸ hrest⟩

end Transition
