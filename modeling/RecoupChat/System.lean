import RecoupChat.Handlers
import RecoupChat.Transition

/-! Any number of requests served at once. A step starts a request or settles one pending
chain: its call runs atomically on the store, and the callback runs with the result. -/
namespace RecoupChat
open Promise Transition
variable {M : Type}

abbrev HandlerThread (M : Type) := Thread (Call M) Call.Result (Response M)

structure Sys (M : Type) where
  store : Store M
  requests : List (Request M × HandlerThread M)

inductive Action (M : Type) where
  | issue (r : Request M)
  /-- run the `j`-th pending call of request `i` -/
  | fulfil (i j : Nat)
  /-- the same call is rejected without effect -/
  | reject (i j : Nat)
  deriving DecidableEq

def Sys.issued (s : Sys M) : List (Request M) := s.requests.map (·.1)

def Sys.outcome (s : Sys M) : List (Request M × List (Response M)) :=
  s.requests.map fun x => (x.1, x.2.sent)

def Sys.chain? (s : Sys M) (i j : Nat) :
    Option (Request M × HandlerThread M × Chain (Call M) Call.Result (Response M)) :=
  s.requests[i]?.bind fun x => x.2.pending[j]?.map fun ch => (x.1, x.2, ch)

def Sys.call? (s : Sys M) (i j : Nat) : Option (Call M) := (s.chain? i j).map (·.2.2.call)

def Sys.others (s : Sys M) (i : Nat) : List (Request M × Call M) :=
  (s.requests.eraseIdx i).flatMap fun x => x.2.pending.map fun ch => (x.1, ch.call)

variable [DecidableEq M]

def settleAt (th : HandlerThread M) (j : Nat) (ch : Chain (Call M) Call.Result (Response M))
    (outcome : Option ch.call.Result) : HandlerThread M :=
  ch.settle outcome { th with pending := th.pending.eraseIdx j }

def Sys.step (toLowerCase : String → String) (s : Sys M) : Action M → Option (Sys M)
  | .issue r => some { s with requests := s.requests ++ [(r, (r.handler toLowerCase).begin)] }
  | .fulfil i j => (s.chain? i j).map fun (r, th, ch) =>
      let ran := ch.call.run s.store
      ⟨ran.1, s.requests.set i (r, settleAt th j ch (some ran.2))⟩
  | .reject i j => (s.chain? i j).map fun (r, th, ch) =>
      { s with requests := s.requests.set i (r, settleAt th j ch none) }

def Sys.init (store : Store M) : Sys M := ⟨store, []⟩

/-- Request `i` has sent `resp`, and nothing else. -/
def Sys.answered (s : Sys M) (i : Nat) (r : Request M) (resp : Response M) : Prop :=
  s.outcome[i]? = some (r, [resp])

def Sys.quiet (s : Sys M) : Prop := ∀ x ∈ s.requests, x.2.pending = []

instance (s : Sys M) (i : Nat) (r : Request M) (resp : Response M) :
    Decidable (s.answered i r resp) := inferInstanceAs (Decidable (_ = _))

instance (s : Sys M) : Decidable s.quiet :=
  decidable_of_iff (s.requests.all fun x => x.2.pending.isEmpty) (by simp [Sys.quiet])

def Action.faultFree : Action M → Prop
  | .reject _ _ => False
  | _ => True

instance : DecidablePred (Action.faultFree (M := M))
  | .issue _ => isTrue trivial
  | .fulfil _ _ => isTrue trivial
  | .reject _ _ => isFalse id

/-- A condition on the calls that run: request `i` runs call `c`. -/
def onCalls (ok : Sys M → Nat → Call M → Prop) (s : Sys M) : Action M → Prop
  | .fulfil i j => ∀ c ∈ s.call? i j, ok s i c
  | _ => True

instance (ok : Sys M → Nat → Call M → Prop) [∀ s i c, Decidable (ok s i c)] (s : Sys M) :
    DecidablePred (onCalls ok s)
  | .fulfil i j => inferInstanceAs (Decidable (∀ c ∈ s.call? i j, ok s i c))
  | .issue _ => isTrue trivial
  | .reject _ _ => isTrue trivial

/-! One request after the other. -/

/-- Serve one request alone; `fails n` says that its `n`-th call is rejected. -/
def Store.serve (toLowerCase : String → String) (s : Store M) (r : Request M)
    (fails : Nat → Bool) : Store M × List (Response M) :=
  Promise.serve Call.run (r.handler toLowerCase) fails s

def Store.serveAll (toLowerCase : String → String) (s : Store M) :
    List (Request M × (Nat → Bool)) → Store M
  | [] => s
  | (r, fails) :: rs => Store.serveAll toLowerCase (s.serve toLowerCase r fails).1 rs

def Store.serveEach (toLowerCase : String → String) (s : Store M) (rs : List (Request M)) :
    Store M :=
  s.serveAll toLowerCase (rs.map fun r => (r, noFault))

theorem serveAll_append (toLowerCase : String → String) (s : Store M)
    (rs rs' : List (Request M × (Nat → Bool))) :
    s.serveAll toLowerCase (rs ++ rs') = (s.serveAll toLowerCase rs).serveAll toLowerCase rs' := by
  induction rs generalizing s with
  | nil => rfl
  | cons r rs ih => exact ih _

@[simp] theorem serveEach_nil (toLowerCase : String → String) (s : Store M) :
    s.serveEach toLowerCase [] = s := rfl

theorem serveEach_concat (toLowerCase : String → String) (s : Store M) (rs : List (Request M))
    (r : Request M) :
    s.serveEach toLowerCase (rs ++ [r]) =
      ((s.serveEach toLowerCase rs).serve toLowerCase r noFault).1 := by
  simp [Store.serveEach, serveAll_append, Store.serveAll]

end RecoupChat
