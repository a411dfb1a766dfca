import RecoupChat.JsText

/-! The text that `Chat` shows for the last message of a row. -/
namespace RecoupChat
open JsText

abbrev JsString := List UInt16

def space : UInt16 := 32

def dots : JsString := [46, 46, 46]

namespace Chat

def displayMessage (lastMessage : JsString) : JsString :=
  if 40 ≤ lastMessage.length then
    let displayRaw := substring lastMessage 0 40
    let idx := lastIndexOf space displayRaw
    if idx ≠ -1 then substring displayRaw 0 idx ++ dots else lastMessage
  else lastMessage

theorem displayMessage_short {m : JsString} (h : m.length < 40) : displayMessage m = m := by
  simp [displayMessage, Nat.not_le.mpr h]

theorem displayMessage_unbroken {m : JsString} (h : space ∉ m.take 40) :
    displayMessage m = m := by
  have hidx : lastIndexOf space (substring m 0 40) = -1 := by
    have htake : substring m 0 40 = m.take 40 := substring_zero m 40
    rw [htake, lastIndexOf_of_not_mem h]
  simp [displayMessage, hidx]

theorem displayMessage_cut {m pre rest : JsString} (hlen : 40 ≤ m.length)
    (h : m.take 40 = pre ++ space :: rest) (hr : space ∉ rest) :
    displayMessage m = pre ++ dots := by
  have htake : substring m 0 40 = pre ++ space :: rest := (substring_zero m 40).trans h
  have hidx : lastIndexOf space (pre ++ space :: rest) = pre.length := lastIndexOf_append hr
  have hne : (pre.length : Int) ≠ -1 := by omega
  simp [displayMessage, hlen, htake, hidx, hne]

end Chat

/-- The preview is short, and it is the message or a beginning of it that ends before a space. -/
structure PreviewOf (m p : JsString) : Prop where
  bounded : p.length ≤ 43
  short : m.length < 40 → p = m
  long : 40 ≤ m.length → p = m ∨ ∃ pre rest, pre ≠ [] ∧ m = pre ++ space :: rest ∧ p = pre ++ dots

theorem not_previewOf_dots {m : JsString} (h : 40 ≤ m.length) : ¬ PreviewOf m dots := by
  intro hp
  cases hp.long h with
  | inl he =>
    have hl := congrArg List.length he
    simp [dots] at hl
    omega
  | inr he =>
    obtain ⟨pre, rest, hne, -, he⟩ := he
    exact hne (by simpa using he)

theorem previewOf_cut {m pre rest : JsString} (hlen : 40 ≤ m.length) (hm : m = pre ++ space :: rest)
    (hne : pre ≠ []) (hpre : pre.length < 40) : PreviewOf m (pre ++ dots) where
  bounded := by
    simp only [List.length_append, dots, List.length_cons, List.length_nil]
    omega
  short h := by omega
  long _ := Or.inr ⟨pre, rest, hne, hm, rfl⟩

theorem previewOf_self {m : JsString} : PreviewOf m m ↔ m.length ≤ 43 :=
  ⟨fun h => h.bounded, fun h => ⟨h, fun _ => rfl, fun _ => Or.inl rfl⟩⟩

theorem space_at_take {m : JsString} {i : Nat} (hi : i < 40) (h : m[i]? = some space) :
    (m.take 40)[i]? = some space := by
  rw [List.getElem?_take_of_lt hi, h]

/-- `Chat` shows such a preview exactly if the message is short, or can be cut at a space other
than its first character, or is hardly too long where it cannot be cut. -/
theorem preview_iff (m : JsString) :
    PreviewOf m (Chat.displayMessage m) ↔
      m.length < 40 ∨ (∃ i, 1 ≤ i ∧ i < 40 ∧ m[i]? = some space) ∨
        m.length ≤ 43 ∧ space ∉ m.take 40 := by
  by_cases hlen : m.length < 40
  · rw [Chat.displayMessage_short hlen, previewOf_self]
    exact iff_of_true (by omega) (Or.inl hlen)
  replace hlen : 40 ≤ m.length := Nat.not_lt.mp hlen
  by_cases hsp : space ∈ m.take 40
  · obtain ⟨pre, rest, htake, hr⟩ := exists_last hsp
    rw [Chat.displayMessage_cut hlen htake hr]
    have hm : m = pre ++ space :: (rest ++ m.drop 40) := by
      rw [← List.cons_append, ← List.append_assoc, ← htake, List.take_append_drop]
    have hpre : pre.length < 40 := by
      have he := congrArg List.length htake
      simp only [List.length_take, List.length_append, List.length_cons] at he
      omega
    cases pre with
    | nil =>
      -- the only space is the first character, so nothing but the dots is left
      refine iff_of_false (not_previewOf_dots hlen) ?_
      rintro (h | ⟨i, hi, hi', h⟩ | ⟨-, h⟩)
      · omega
      · have hget := space_at_take hi' h
        rw [htake, List.nil_append, List.getElem?_cons, if_neg (by omega)] at hget
        exact hr (List.mem_of_getElem? hget)
      · exact h hsp
    | cons x pre =>
      refine iff_of_true (previewOf_cut hlen hm (List.cons_ne_nil x pre) hpre) ?_
      refine Or.inr (Or.inl ⟨(x :: pre).length, by simp, hpre, ?_⟩)
      rw [hm, List.getElem?_append_right (Nat.le_refl _)]
      simp
  · rw [Chat.displayMessage_unbroken hsp, previewOf_self]
    constructor
    · intro h
      exact Or.inr (Or.inr ⟨h, hsp⟩)
    · rintro (h | ⟨i, hi, hi', h⟩ | ⟨h, -⟩)
      · omega
      · exact absurd (List.mem_of_getElem? (space_at_take hi' h)) hsp
      · exact h

/-- Fifty letters without a space are shown whole. -/
theorem preview_unbroken :
    ¬ PreviewOf (List.replicate 50 120) (Chat.displayMessage (List.replicate 50 120)) ∧
      ¬ ∀ m, PreviewOf m (Chat.displayMessage m) := by
  have hlong : ¬ PreviewOf (List.replicate 50 120) (Chat.displayMessage (List.replicate 50 120)) :=
    fun h => absurd h.bounded (by decide)
  exact ⟨hlong, fun h => hlong (h _)⟩

end RecoupChat
