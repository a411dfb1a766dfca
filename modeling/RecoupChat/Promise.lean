import RecoupChat.Transition

/-! Callbacks on promise chains, over an arbitrary set of asynchronous calls.
A chain is `call.then(onThen).catch(onCatch)` whose promise nobody waits for, so a chain
started inside a callback settles on its own: only what a callback itself throws reaches
the handler next to it. -/
namespace Promise

variable {C : Type} {R : C → Type} {A S : Type}

/-- The body of one callback: the answers it sends and the chains it starts, in order,
and whether it returns (`done`) or throws. -/
inductive Callback (C : Type) (R : C → Type) (A : Type) where
  | done
  | throw
  | send (answer : A) (rest : Callback C R A)
  | start (call : C) (onThen : R call → Callback C R A) (onCatch rest : Callback C R A)

def reply (answer : A) : Callback C R A := .send answer .done

/-- `call.then(onThen).catch(onCatch)` as the last statement of a body. -/
def chain (call : C) (onThen : R call → Callback C R A) (onCatch : Callback C R A) :
    Callback C R A :=
  .start call onThen onCatch .done

structure Chain (C : Type) (R : C → Type) (A : Type) where
  call : C
  onThen : R call → Callback C R A
  onCatch : Callback C R A

structure Thread (C : Type) (R : C → Type) (A : Type) where
  pending : List (Chain C R A)
  sent : List A

def Thread.idle : Thread C R A := ⟨[], []⟩

def Callback.body : Callback C R A → Thread C R A → Thread C R A × Bool
  | .done, th => (th, false)
  | .throw, th => (th, true)
  | .send a rest, th => rest.body { th with sent := th.sent ++ [a] }
  | .start c f g rest, th => rest.body { th with pending := th.pending ++ [⟨c, f, g⟩] }

def Callback.begin (cb : Callback C R A) : Thread C R A := (cb.body Thread.idle).1

/-- Settle a chain: fulfilled with a value or rejected (`none`). What `onThen` throws is
handled by `onCatch` of the same chain. -/
def Chain.settle (ch : Chain C R A) (outcome : Option (R ch.call)) (th : Thread C R A) :
    Thread C R A :=
  match outcome with
  | none => (ch.onCatch.body th).1
  | some v =>
    let ran := (ch.onThen v).body th
    if ran.2 then (ch.onCatch.body ran.1).1 else ran.1

@[simp] theorem body_reply (a : A) (th : Thread C R A) :
    (reply a).body th = (⟨th.pending, th.sent ++ [a]⟩, false) := rfl

@[simp] theorem body_throw (th : Thread C R A) :
    (Callback.throw : Callback C R A).body th = (th, true) := rfl

@[simp] theorem begin_reply (a : A) : (reply a : Callback C R A).begin = ⟨[], [a]⟩ := rfl

@[simp] theorem begin_chain (c : C) (f : R c → Callback C R A) (g : Callback C R A) :
    (chain c f g).begin = ⟨[⟨c, f, g⟩], []⟩ := rfl

/-! One request whose calls settle in any way. -/

/-- How a call settles: fulfilled, fulfilled with a value that the callback throws on when it
reads it, or rejected. -/
inductive Settlement (result : Type) where
  | fulfilled (v : result)
  | unreadable
  | rejected

def Chain.settles (ch : Chain C R A) : Settlement (R ch.call) → Thread C R A → Thread C R A
  | .fulfilled v, th => ch.settle (some v) th
  | .unreadable, th | .rejected, th => ch.settle none th

def Thread.step (th : Thread C R A) (a : Nat × ((c : C) → Settlement (R c))) :
    Option (Thread C R A) :=
  th.pending[a.1]?.map fun ch =>
    ch.settles (a.2 ch.call) { th with pending := th.pending.eraseIdx a.1 }

inductive Answers : Callback C R A → Prop
  | reply (a : A) : Answers (reply a)
  | throw : Answers .throw
  | chain (c : C) (f : R c → Callback C R A) (a : A) (h : ∀ v, Answers (f v)) :
      Answers (chain c f (Promise.reply a))

theorem Answers.ite {p : Prop} [Decidable p] {x y : Callback C R A} (hx : Answers x)
    (hy : Answers y) : Answers (if p then x else y) := by
  split
  · exact hx
  · exact hy

inductive Thread.Single : Thread C R A → Prop
  | sent (a : A) : Single ⟨[], [a]⟩
  | waits (c : C) (f : R c → Callback C R A) (a : A) (h : ∀ v, Answers (f v)) :
      Single ⟨[⟨c, f, reply a⟩], []⟩

theorem Answers.body {cb : Callback C R A} (h : Answers cb) :
    (cb.body Thread.idle).1.Single ∨ cb = .throw := by
  cases h with
  | reply a => exact Or.inl (.sent a)
  | throw => exact Or.inr rfl
  | chain c f a h => exact Or.inl (.waits c f a h)

theorem Answers.body_done {cb : Callback C R A} (h : Answers cb) (hne : cb ≠ .throw) :
    (cb.body Thread.idle).2 = false := by
  cases h with
  | throw => exact absurd rfl hne
  | _ => rfl

theorem single_settles {c : C} {f : R c → Callback C R A} {a : A} (h : ∀ v, Answers (f v))
    (o : Settlement (R c)) :
    ((⟨c, f, reply a⟩ : Chain C R A).settles o Thread.idle).Single := by
  cases o with
  | unreadable => exact .sent a
  | rejected => exact .sent a
  | fulfilled v =>
    simp only [Chain.settles, Chain.settle]
    by_cases ht : f v = .throw
    · simp only [ht, body_throw, if_true]
      exact .sent a
    · simp only [(h v).body_done ht, Bool.false_eq_true, if_false]
      exact (h v).body.resolve_right ht

theorem single_step {th th' : Thread C R A} {a : Nat × ((c : C) → Settlement (R c))}
    (h : th.Single) (hs : th.step a = some th') : th'.Single := by
  obtain ⟨ch, hch, rfl⟩ := Option.map_eq_some_iff.mp hs
  cases h with
  | sent a => simp at hch
  | waits c f b h =>
    obtain ⟨hi, rfl⟩ : a.1 = 0 ∧ ⟨c, f, reply b⟩ = ch := by simpa [List.getElem?_singleton] using hch
    rw [hi]
    exact single_settles h _

/-- In every run of a request that waits for one chain, at most one answer has been sent,
and one has when nothing is pending. -/
theorem single_run {th th' : Thread C R A} {ok : Thread C R A → Nat × ((c : C) → Settlement (R c)) → Prop}
    (h : th.Single) (hr : Transition.Run Thread.step ok th th') :
    th'.sent.length ≤ 1 ∧ (th'.pending = [] → th'.sent.length = 1) := by
  have hsingle : th'.Single := hr.invariant h fun _ _ _ hI _ hs => single_step hI hs
  cases hsingle with
  | sent a => simp
  | waits c f a h => simp

/-! One request served alone: nothing else touches the state between its calls. -/

/-- The shared state, the answers sent so far, and for each call still to come whether
it is rejected without effect. -/
structure World (S A : Type) where
  state : S
  sent : List A
  fails : Nat → Bool

def World.next (w : World S A) : World S A := { w with fails := fun n => w.fails (n + 1) }

def noFault : Nat → Bool := fun _ => false

def failAt (k : Nat) : Nat → Bool := fun n => n == k

theorem not_fails : ¬ ∃ n, noFault n = true := by simp [noFault]

/-- Big-step execution against `db`, which runs one call on the shared state. A chain
settles after the body that started it has ended. -/
def Callback.exec (db : (c : C) → S → S × R c) : Callback C R A → World S A → World S A × Bool
  | .done, w => (w, false)
  | .throw, w => (w, true)
  | .send a rest, w => rest.exec db { w with sent := w.sent ++ [a] }
  | .start c f g rest, w =>
    let ended := rest.exec db w
    let w := ended.1
    if w.fails 0 then
      ((g.exec db w.next).1, ended.2)
    else
      let ran := (f (db c w.state).2).exec db { w.next with state := (db c w.state).1 }
      (if ran.2 then (g.exec db ran.1).1 else ran.1, ended.2)

def serve (db : (c : C) → S → S × R c) (cb : Callback C R A) (fails : Nat → Bool) (s : S) :
    S × List A :=
  let w := (cb.exec db ⟨s, [], fails⟩).1
  (w.state, w.sent)

section Rules
variable {db : (c : C) → S → S × R c}

theorem exec_throw (w : World S A) :
    (Callback.throw : Callback C R A).exec db w = (w, true) := rfl

theorem exec_chain (c : C) (f : R c → Callback C R A) (g : Callback C R A) (w : World S A) :
    (chain c f g).exec db w =
      if w.fails 0 then ((g.exec db w.next).1, false)
      else
        let ran := (f (db c w.state).2).exec db { w.next with state := (db c w.state).1 }
        (if ran.2 then (g.exec db ran.1).1 else ran.1, false) := rfl

theorem serve_chain_reply {c : C} {f : R c → Callback C R A} {g : Callback C R A} {s : S} {a : A}
    (h : f (db c s).2 = reply a) : serve db (chain c f g) noFault s = ((db c s).1, [a]) := by
  simp only [serve, exec_chain, noFault, h]
  rfl

end Rules
end Promise
