import Mathlib.Logic.Relation

/-! Runs of a deterministic labelled system: `step s a` is the state after action `a`, or
`none` where `a` cannot be taken. -/
namespace Transition

variable {S A P H : Type}

/-- `s'` is reached from `s` by actions that each satisfy `ok` in the state they are
taken in. -/
def Run (step : S → A → Option S) (ok : S → A → Prop) : S → S → Prop :=
  Relation.ReflTransGen fun s s' => ∃ a, ok s a ∧ step s a = some s'

variable {step : S → A → Option S} {ok : S → A → Prop}

theorem Run.refl (s : S) : Run step ok s s := Relation.ReflTransGen.refl

theorem Run.tail {s s' s'' : S} {a : A} (h : Run step ok s s') (ha : ok s' a)
    (hs : step s' a = some s'') : Run step ok s s'' :=
  Relation.ReflTransGen.tail h ⟨a, ha, hs⟩

theorem Run.trans {s s' s'' : S} (h : Run step ok s s') (h' : Run step ok s' s'') :
    Run step ok s s'' := Relation.ReflTransGen.trans h h'

/-- What every allowed step preserves holds in every state of a run. -/
theorem Run.invariant {I : S → Prop} {s s' : S} (h : Run step ok s s') (h0 : I s)
    (hstep : ∀ s a s', I s → ok s a → step s a = some s' → I s') : I s' := by
  induction h with
  | refl => exact h0
  | tail _ ht ih =>
    obtain ⟨a, ha, hs⟩ := ht
    exact hstep _ a _ ih ha hs

def follow (step : S → A → Option S) (check : S → A → Bool) : List A → S → Option S
  | [], s => some s
  | a :: as, s => if check s a then (step s a).bind (follow step check as) else none

theorem Run.of_follow [∀ s a, Decidable (ok s a)] {s s' : S} (as : List A)
    (h : follow step (fun s a => decide (ok s a)) as s = some s') : Run step ok s s' := by
  induction as generalizing s with
  | nil =>
    cases h
    exact Run.refl _
  | cons a as ih =>
    rw [follow] at h
    split at h
    · rename_i ha
      obtain ⟨s1, h1, h2⟩ := Option.bind_eq_some_iff.mp h
      exact ((Run.refl s).tail (of_decide_eq_true ha) h1).trans (ih h2)
    · cases h

theorem Run.exists_of_follow [∀ s a, Decidable (ok s a)] {Q : S → Prop} [DecidablePred Q] {s : S}
    (as : List A)
    (h : (follow step (fun s a => decide (ok s a)) as s).any (fun s' => decide (Q s')) = true) :
    ∃ s', Run step ok s s' ∧ Q s' := by
  obtain ⟨s', hs, hq⟩ := (Option.any_eq_true _ _).mp h
  exact ⟨s', Run.of_follow as hs, of_decide_eq_true hq⟩

/-- When `f` maps one system onto another step by step, every run from an image is the
image of a run. -/
theorem Run.lift {pstep : P → A → Option P} {f : P → S}
    (hf : ∀ p a, step (f p) a = (pstep p a).map f) {p : P} {s' : S}
    (h : Run step ok (f p) s') :
    ∃ p', f p' = s' ∧ Run pstep (fun p a => ok (f p) a) p p' := by
  induction h with
  | refl => exact ⟨p, rfl, Run.refl p⟩
  | tail _ ht ih =>
    obtain ⟨a, ha, hs⟩ := ht
    obtain ⟨p1, rfl, hr⟩ := ih
    rw [hf] at hs
    obtain ⟨p2, h2, rfl⟩ := Option.map_eq_some_iff.mp hs
    exact ⟨p2, rfl, hr.tail ha h2⟩

/-! Runs given by the list of their actions. -/

def after (step : S → A → Option S) (s : S) (as : List A) : Option S := as.foldlM step s

@[simp] theorem after_nil (s : S) : after step s [] = some s := rfl

theorem after_cons (s : S) (a : A) (as : List A) :
    after step s (a :: as) = (step s a).bind (after step · as) := rfl

theorem after_append {s s1 : S} {as : List A} (h : after step s as = some s1) (bs : List A) :
    after step s (as ++ bs) = after step s1 bs := by
  rw [after, List.foldlM_append]
  exact congrArg (Option.bind · (after step · bs)) h

theorem after_concat {s s' : S} {as : List A} {a : A} :
    after step s (as ++ [a]) = some s' ↔ ∃ s1, after step s as = some s1 ∧ step s1 a = some s' := by
  simp [after, List.foldlM_append, Option.bind_eq_some_iff]

theorem after_invariant {I : S → Prop} {s s' : S} {as : List A} (h : after step s as = some s')
    (h0 : I s) (hstep : ∀ s a s', I s → step s a = some s' → I s') : I s' := by
  induction as generalizing s with
  | nil =>
    cases h
    exact h0
  | cons a as ih =>
    obtain ⟨s1, hs, ha⟩ := Option.bind_eq_some_iff.mp h
    exact ih ha (hstep s a s1 h0 hs)

/-- `P` holds of each step of a list of actions, up to the first that cannot be taken. -/
def Along (step : S → A → Option S) (P : S → A → S → Prop) : S → List A → Prop
  | _, [] => True
  | s, a :: as => ∀ s', step s a = some s' → P s a s' ∧ Along step P s' as

theorem along_concat {P : S → A → S → Prop} {s s1 : S} {as : List A} (a : A)
    (h : after step s as = some s1) :
    Along step P s (as ++ [a]) ↔
      Along step P s as ∧ ∀ s', step s1 a = some s' → P s1 a s' := by
  induction as generalizing s with
  | nil =>
    obtain rfl := Option.some.inj h
    simp [Along]
  | cons b as ih =>
    obtain ⟨s2, hs, ha⟩ := Option.bind_eq_some_iff.mp h
    simp only [List.cons_append, Along]
    constructor
    · intro hall
      refine ⟨fun s' hs' => ⟨(hall s' hs').1, ?_⟩, ?_⟩
      · obtain rfl := Option.some.inj (hs.symm.trans hs')
        exact ((ih ha).mp (hall s2 hs).2).1
      · exact ((ih ha).mp (hall s2 hs).2).2
    · rintro ⟨hall, hlast⟩ s' hs'
      obtain rfl := Option.some.inj (hs.symm.trans hs')
      exact ⟨(hall s2 hs).1, (ih ha).mpr ⟨(hall s2 hs).2, hlast⟩⟩

theorem Run.of_after {s s' : S} {as : List A} (h : after step s as = some s')
    (hok : Along step (fun s a _ => ok s a) s as) : Run step ok s s' := by
  induction as generalizing s with
  | nil =>
    cases h
    exact Run.refl _
  | cons a as ih =>
    obtain ⟨s1, hs, ha⟩ := Option.bind_eq_some_iff.mp h
    obtain ⟨hfirst, hrest⟩ := hok s1 hs
    exact ((Run.refl s).tail hfirst hs).trans (ih ha hrest)

/-- Two properties of steps that agree wherever an invariant holds, and keep it, agree along
every run. -/
theorem along_iff {P Q : S → A → S → Prop} {I : S → Prop} {s : S} (as : List A) (h0 : I s)
    (hiff : ∀ s a s', I s → step s a = some s' → (P s a s' ↔ Q s a s'))
    (hstep : ∀ s a s', I s → step s a = some s' → Q s a s' → I s') :
    Along step P s as ↔ Along step Q s as := by
  induction as generalizing s with
  | nil => rfl
  | cons a as ih =>
    refine forall₂_congr fun s' hs => ?_
    constructor
    · rintro ⟨hp, hall⟩
      have hq := (hiff s a s' h0 hs).mp hp
      exact ⟨hq, (ih (hstep s a s' h0 hs hq)).mp hall⟩
    · rintro ⟨hq, hall⟩
      exact ⟨(hiff s a s' h0 hs).mpr hq, (ih (hstep s a s' h0 hs hq)).mpr hall⟩

/-- The system together with a history variable, which only observes. -/
def observe (upd : H → S → A → H) (step : S → A → Option S) (hs : H × S) (a : A) :
    Option (H × S) :=
  (step hs.2 a).map fun s' => (upd hs.1 hs.2 a, s')

theorem observe_map {upd : H → S → A → H} {pstep : P → A → Option P} {f : P → S}
    (hf : ∀ p a, step (f p) a = (pstep p a).map f) (z : H × P) (a : A) :
    observe upd step (z.1, f z.2) a =
      (observe (fun h p a => upd h (f p) a) pstep z a).map fun z => (z.1, f z.2) := by
  simp [observe, hf, Function.comp_def]

end Transition
