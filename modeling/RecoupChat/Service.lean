import RecoupChat.Sequential
import RecoupChat.Structural

/-! What the server is for: a list of users and one conversation for each unordered pair.
Requests between registered users, served one after the other, implement this service. -/
namespace RecoupChat
open Promise
variable {M : Type}

structure Service (M : Type) where
  names : List String
  conv : Sym2 String → List (Entry M)

namespace Service

def init : Service M := ⟨[], fun _ => []⟩

def append (a : Service M) (d : Send M) : Service M :=
  { a with conv := fun p =>
      if p = s(d.sentBy, d.sentTo) then a.conv p ++ [d.entry] else a.conv p }

def serve (a : Service M) : Request M → Service M
  | .addNewUser u => { a with names := a.names ++ [u] }
  | .sendNewMessage d => a.append d
  | .sendMessage d => if a.conv s(d.sentBy, d.sentTo) = [] then a else a.append d
  | _ => a

/-- Sender and recipient are registered, in the spelling used. -/
def Permits (a : Service M) (r : Request M) : Prop :=
  ∀ d, r.send? = some d → d.sentBy ∈ a.names ∧ d.sentTo ∈ a.names

def run (a : Service M) : List (Request M) → Service M
  | [] => a
  | r :: rs => (a.serve r).run rs

def Legal (a : Service M) : List (Request M) → Prop
  | [] => True
  | r :: rs => a.Permits r ∧ (a.serve r).Legal rs

def endsWith (a : Service M) (u v : String) (m : M) (t : Int) : Prop :=
  ∃ e, (a.conv s(u, v)).getLast? = some e ∧ e.message = m ∧ e.time = t

end Service

def Entry.rowOf (v : String) (e : Entry M) : Row M := ⟨v, e.message, e.time⟩

/-- The store holds exactly the service's state. -/
structure Represents (a : Service M) (s : Store M) : Prop where
  structural : Structural s
  complete : Complete s
  users : s.users.map (·.username) = a.names
  docs : s.userMessages.map (·.username) = a.names
  known : ∀ u v, a.conv s(u, v) ≠ [] → u ∈ a.names
  conversation : ∀ u v, s.conversation u v = a.conv s(u, v)
  row : ∀ u v, s.row u v = (a.conv s(u, v)).getLast?.map (Entry.rowOf v)

theorem represents_init : Represents (Service.init : Service M) Store.empty where
  structural := structural_empty
  complete doc hd := by simp [Store.empty] at hd
  users := rfl
  docs := rfl
  known u v h := absurd rfl h
  conversation u v := rfl
  row u v := rfl

theorem log_of_chat {s : Store M} (hs : Structural s) (hc : Complete s) {u v : String}
    {doc : ChatId} (h : s.chat u v = some doc) :
    ∃ es, s.log doc.chatId = some es ∧ es ≠ [] := by
  obtain ⟨lg, hl, he⟩ := List.mem_map.mp (hc doc (chat_mem h))
  exact ⟨lg.messages, he ▸ log_of_mem hs.logIdsNodup hl, hs.logNonempty lg hl⟩

namespace Represents
variable {a : Service M} {s : Store M} (h : Represents a s)
include h

theorem log {u v : String} {doc : ChatId} (hc : s.chat u v = some doc) :
    s.log doc.chatId = some (a.conv s(u, v)) ∧ a.conv s(u, v) ≠ [] := by
  obtain ⟨es, he, hne⟩ := log_of_chat h.structural h.complete hc
  have hv := h.conversation u v
  rw [Store.conversation, hc, Option.bind_some, he, Option.getD_some] at hv
  exact ⟨hv ▸ he, hv ▸ hne⟩

theorem chat_eq_none {u v : String} : s.chat u v = none ↔ a.conv s(u, v) = [] := by
  constructor
  · intro hc
    have hv := h.conversation u v
    rw [Store.conversation, hc] at hv
    exact hv.symm
  · intro hv
    cases hc : s.chat u v with
    | none => rfl
    | some doc => exact absurd hv (h.log hc).2

theorem rows_isSome {u : String} (hu : u ∈ a.names) : (s.rows u).isSome := by
  cases hr : s.rows u with
  | some rows => rfl
  | none => exact absurd (h.docs ▸ hu) (rows_eq_none.mp hr)

theorem shows_iff {u v : String} {m : M} {t : Int} :
    s.shows u v m t ↔ a.endsWith u v m t := by
  simp [Store.shows, h.row, Service.endsWith, Entry.rowOf]

theorem userExists {toLowerCase : String → String} {u : String} (hu : u ∈ a.names) :
    userExists toLowerCase u s.users = true := by
  rw [← h.users] at hu
  obtain ⟨x, hx, rfl⟩ := List.mem_map.mp hu
  simp only [RecoupChat.userExists, List.contains_iff_mem]
  exact List.mem_map_of_mem hx

end Represents

structure Shown (s s' : Store M) (d : Send M) : Prop where
  frame : RowsFrame d s s'
  shows : s'.shows d.sentBy d.sentTo d.message d.timeNow ∧
    s'.shows d.sentTo d.sentBy d.message d.timeNow

theorem Shown.row {s s' : Store M} {d : Send M} (h : Shown s s' d) (u v : String) :
    s'.row u v = if s(u, v) = s(d.sentBy, d.sentTo) then some ⟨v, d.message, d.timeNow⟩
      else s.row u v := by
  split
  · rename_i hp
    exact of_pair (P := fun u v => s'.shows u v d.message d.timeNow) hp h.shows.1 h.shows.2
  · rename_i hp
    exact h.frame.row u v hp

/-! The conversation after the first write of a send. -/

theorem conversation_createChat {s : Store M} (hs : Structural s) {d : Send M}
    (hc : s.chat d.sentBy d.sentTo = none) (u v : String) :
    (s.createChat d).conversation u v =
      if s(u, v) = s(d.sentBy, d.sentTo) then s.conversation u v ++ [d.entry]
      else s.conversation u v := by
  have hf : newChatId s.lastChat ∉ s.chatIds.map (·.chatId) := newChatId_fresh s
  have hl : s.log (newChatId s.lastChat) = none := by
    rw [log_eq_none]
    intro hm
    obtain ⟨lg, hlg, he⟩ := List.mem_map.mp hm
    exact hf (he ▸ hs.logChat lg hlg)
  have hchat : (s.createChat d).chat u v = (s.chat u v).or
      (if (ChatId.mk (newChatId s.lastChat) d.sentBy d.sentTo).links u v then
        some ⟨newChatId s.lastChat, d.sentBy, d.sentTo⟩ else none) := chat_insertChat _ _ _ _
  have hlog (c : Nat) : (s.createChat d).log c = (s.log c).or
      (if newChatId s.lastChat = c then some [d.entry] else none) := log_insertLog _ _ _
  simp only [Store.conversation, hchat, hlog]
  by_cases hp : s(u, v) = s(d.sentBy, d.sentTo)
  · have hn : s.chat u v = none := by
      rw [chat_eq_none, hp]
      exact chat_eq_none.mp hc
    have hlinks : (ChatId.mk (newChatId s.lastChat) d.sentBy d.sentTo).links u v = true :=
      links_iff.mpr hp.symm
    simp [hp, hn, hlinks, hl]
  · have hlinks : (ChatId.mk (newChatId s.lastChat) d.sentBy d.sentTo).links u v = false := by
      rw [Bool.eq_false_iff]
      exact fun hk => hp (links_iff.mp hk).symm
    cases hd : s.chat u v with
    | none => simp [hp, hlinks]
    | some x =>
      have hne : newChatId s.lastChat ≠ x.chatId :=
        fun he => hf (he ▸ List.mem_map_of_mem (chat_mem hd))
      simp [hp, hne]

section Send
variable [DecidableEq M] {toLowerCase : String → String}

theorem conversation_push {s : Store M} (hs : Structural s) {d : Send M} {doc : ChatId}
    {es : List (Entry M)} (hc : s.chat d.sentBy d.sentTo = some doc)
    (hl : s.log doc.chatId = some es) (u v : String) :
    (s.push doc.chatId d.entry).conversation u v =
      if s(u, v) = s(d.sentBy, d.sentTo) then s.conversation u v ++ [d.entry]
      else s.conversation u v := by
  have hchat : (s.push doc.chatId d.entry).chat u v = s.chat u v := rfl
  simp only [Store.conversation, hchat]
  by_cases hp : s(u, v) = s(d.sentBy, d.sentTo)
  · have hd : s.chat u v = some doc :=
      hs.chat_of_mem (chat_mem hc) ((chat_pair hc).trans hp.symm)
    simp [hp, hd, hl]
  · cases hd : s.chat u v with
    | none => simp [hp]
    | some x =>
      have hne : x.chatId ≠ doc.chatId := by
        intro he
        have hx := hs.doc_eq (chat_mem hd) (chat_mem hc) he
        exact hp ((chat_pair hd).symm.trans (hx ▸ chat_pair hc))
      simp [hp, hne]

end Send
end RecoupChat
