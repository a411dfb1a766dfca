import RecoupChat.Sequential
import RecoupChat.Sorting

/-! The order in which `getUserChats` answers. Its comparator answers -1 in both directions for
equal times, so the result may depend on the sort; its order by time does not. -/
namespace RecoupChat
open Promise Sorting
variable {M : Type}

/-- A sort that moves elements only by the sign of the comparator's answers. -/
structure SignSort {α : Type} (compare : α → α → Int) where
  sort : List α → List α
  sorts : ∀ xs, Sorts compare xs (sort xs)

namespace SignSort
variable {α : Type} (compare : α → α → Int)

def merge : SignSort compare :=
  ⟨fun xs => xs.mergeSort (askLeft compare), sorts_mergeSort (follows_askLeft compare)⟩

def binaryInsertion : SignSort compare :=
  ⟨binaryInsertionSort (askRight compare),
    sorts_binaryInsertionSort (follows_askRight compare)⟩

end SignSort

theorem serve_getUserChatsBy [DecidableEq M] (sort : List (Row M) → List (Row M)) (s : Store M)
    (username : String) :
    Promise.serve Call.run (getUserChatsBy sort username) noFault s =
      (s, [.chats (((s.rows username).map sort).getD [])]) := by
  refine serve_chain_reply ?_
  have hfind : (Call.run (.userMessagesFindOne username) s).2 = s.rowsDoc username := rfl
  rw [hfind, Store.rows]
  cases s.rowsDoc username <;> rfl

theorem newestFirst_of_dates {r r' : Row M} (hr : IsDate r.lastMessageTime)
    (hr' : IsDate r'.lastMessageTime) :
    newestFirst r r' = if r.lastMessageTime < r'.lastMessageTime then 1 else -1 := by
  simp [newestFirst, newDate, hr, hr', Date.less]

theorem le_of_before {r r' : Row M} (hr : IsDate r.lastMessageTime)
    (hr' : IsDate r'.lastMessageTime) (h : Before newestFirst r r') :
    r'.lastMessageTime ≤ r.lastMessageTime := by
  rw [Before, newestFirst_of_dates hr hr', newestFirst_of_dates hr' hr] at h
  by_contra hlt
  rw [if_pos (by omega), if_neg (by omega)] at h
  omega

theorem newest_first_of_sorts {rows chats : List (Row M)} (h : Sorts newestFirst rows chats)
    (hdates : ∀ r ∈ rows, IsDate r.lastMessageTime) :
    chats.Pairwise fun r r' => r'.lastMessageTime ≤ r.lastMessageTime := by
  refine h.pairwise (fun x y z hxy hyz => ?_) fun x hx y hy =>
    le_of_before (hdates x hx) (hdates y hy)
  exact Int.le_trans hyz hxy

/-- The answer has the rows of `username`, and its times never increase if all are dates. -/
def AnswersInOrder [DecidableEq M] (s : Store M) (username : String) (handler : Handler M) :
    Prop :=
  ∃ chats, Promise.serve Call.run handler noFault s = (s, [.chats chats]) ∧
    chats.Perm ((s.rows username).getD []) ∧
    ((∀ r ∈ (s.rows username).getD [], IsDate r.lastMessageTime) →
      chats.Pairwise fun r r' => r'.lastMessageTime ≤ r.lastMessageTime)

theorem answersInOrder_by [DecidableEq M] (via : SignSort (newestFirst (M := M))) (s : Store M)
    (username : String) : AnswersInOrder s username (getUserChatsBy via.sort username) := by
  refine ⟨_, serve_getUserChatsBy via.sort s username, ?_⟩
  cases s.rows username with
  | none => exact ⟨List.Perm.refl _, fun _ => List.Pairwise.nil⟩
  | some rows =>
    have hs := via.sorts rows
    exact ⟨hs.perm, newest_first_of_sorts hs⟩

/-- Whichever of the sorts is used, the answer is a permutation of the stored rows, and times
that are dates never increase in it. -/
theorem chats_newest_first [DecidableEq M] (s : Store M) (username : String) :
    AnswersInOrder s username (getUserChats username) ∧
      ∀ via : SignSort newestFirst, AnswersInOrder s username (getUserChatsBy via.sort username) :=
  ⟨answersInOrder_by (.merge newestFirst) s username, fun via => answersInOrder_by via s username⟩

def annWith (rows : List (Row String)) : Store String :=
  { Store.empty with userMessages := [⟨"ann", rows⟩] }

def bobAt (t : Int) : Row String := ⟨"bob", "hi", t⟩

def cyAt (t : Int) : Row String := ⟨"cy", "hey", t⟩

theorem chats_newest_first_ann : ∃ chats,
    Promise.serve Call.run (getUserChats "ann") noFault (annWith [bobAt 1, cyAt 2]) =
        (annWith [bobAt 1, cyAt 2], [.chats chats]) ∧
      chats.Pairwise fun r r' => r'.lastMessageTime ≤ r.lastMessageTime := by
  obtain ⟨chats, hserve, -, horder⟩ := (chats_newest_first (annWith [bobAt 1, cyAt 2]) "ann").1
  exact ⟨chats, hserve, horder (by decide)⟩

theorem newestFirst_beyond {r r' : Row M} (hr : ¬ IsDate r.lastMessageTime) :
    newestFirst r r' = -1 := by
  simp [newestFirst, newDate, hr, Date.less]

/-- Beyond the dates the comparator answers -1 in both directions, and either sort can leave the
older row in front. -/
theorem oldest_first_beyond_dates :
    let older := bobAt 9000000000000000
    let newer := cyAt 9100000000000000
    Promise.serve Call.run (getUserChatsBy (SignSort.merge newestFirst).sort "ann") noFault
        (annWith [older, newer]) = (annWith [older, newer], [.chats [older, newer]]) ∧
      Promise.serve Call.run (getUserChatsBy (SignSort.binaryInsertion newestFirst).sort "ann")
        noFault (annWith [newer, older]) = (annWith [newer, older], [.chats [older, newer]]) ∧
      ¬ [older, newer].Pairwise fun r r' => r'.lastMessageTime ≤ r.lastMessageTime := by
  intro older newer
  have hrows (rows : List (Row String)) : (annWith rows).rows "ann" = some rows := rfl
  have hleft : newestFirst older newer = -1 := newestFirst_beyond (by decide)
  refine ⟨?_, ?_, by decide⟩
  · rw [serve_getUserChatsBy, hrows]
    simp [SignSort.merge, List.mergeSort, askLeft, hleft]
  · rw [serve_getUserChatsBy, hrows]
    simp [SignSort.binaryInsertion, binaryInsertionSort, askRight, hleft]

end RecoupChat
