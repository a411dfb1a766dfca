import Mathlib.Data.List.Basic

/-! White space of the language by its code, and `substring` and `lastIndexOf` on strings of any
kind of characters. -/
namespace JsText
variable {α : Type}

def isSpace (code : Nat) : Bool :=
  [0x9, 0xA, 0xB, 0xC, 0xD, 0x20, 0xA0, 0x1680, 0x2028, 0x2029, 0x202F, 0x205F, 0x3000,
    0xFEFF].contains code || (0x2000 ≤ code && code ≤ 0x200A)

/-- The ends are clamped to the string, and exchanged where the first is the greater one. -/
def substring (s : List α) (start stop : Int) : List α :=
  (s.take (max start.toNat stop.toNat)).drop (min start.toNat stop.toNat)

variable [DecidableEq α]

def lastIndexOf (c : α) : List α → Int
  | [] => -1
  | x :: xs =>
    if lastIndexOf c xs ≠ -1 then lastIndexOf c xs + 1 else if x = c then 0 else -1

omit [DecidableEq α] in
@[simp] theorem substring_zero (s : List α) (n : Nat) : substring s 0 n = s.take n := by
  simp [substring]

theorem lastIndexOf_of_not_mem {c : α} {s : List α} (h : c ∉ s) : lastIndexOf c s = -1 := by
  induction s with
  | nil => rfl
  | cons x xs ih =>
    have hxs : c ∉ xs := fun hm => h (List.mem_cons_of_mem x hm)
    have hx : x ≠ c := fun he => h (he ▸ List.mem_cons_self)
    simp [lastIndexOf, ih hxs, hx]

theorem lastIndexOf_append {c : α} {pre rest : List α} (h : c ∉ rest) :
    lastIndexOf c (pre ++ c :: rest) = pre.length := by
  induction pre with
  | nil => simp [lastIndexOf, lastIndexOf_of_not_mem h]
  | cons x pre ih =>
    have hne : (pre.length : Int) ≠ -1 := by omega
    simp [lastIndexOf, ih, hne]

theorem exists_last {c : α} {s : List α} (h : c ∈ s) :
    ∃ pre rest, s = pre ++ c :: rest ∧ c ∉ rest := by
  induction s with
  | nil => cases h
  | cons x xs ih =>
    by_cases hxs : c ∈ xs
    · obtain ⟨pre, rest, he, hr⟩ := ih hxs
      exact ⟨x :: pre, rest, by rw [he, List.cons_append], hr⟩
    · obtain rfl : c = x := by simpa [hxs] using h
      exact ⟨[], xs, rfl, hxs⟩

end JsText
