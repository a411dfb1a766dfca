import RecoupChat.Interleaving

/-! Who wrote the entries of each log, in every interleaving. -/
namespace RecoupChat
open Promise Transition
variable {M : Type}

def Store.entries (s : Store M) (c : Nat) : List (Entry M) := (s.log c).getD []

namespace Point

def appends (s : Store M) (c : Nat) : Point M → List (Entry M)
  | .push d c' => if c' = c ∧ (s.log c).isSome then [d.entry] else []
  | .insertLog d n => if n = c ∧ s.log c = none then [d.entry] else []
  | _ => []

def toAppend : Point M → Bool
  | .usersFind _ | .findChat _ _ | .push _ _ | .findLast _ | .insertChat _ _ | .insertLog _ _ =>
    true
  | _ => false

def chat? : Point M → Option (Nat × Sym2 String)
  | .push d c | .insertLog d c => some (c, s(d.sentBy, d.sentTo))
  | .findLog a b c => some (c, s(a, b))
  | _ => none

/-- A point that request `r` can be at. -/
def Of (r : Request M) : Point M → Prop
  | .usersFind d | .findChat _ d | .push d _ | .findLast d | .insertChat d _ | .insertLog d _
  | .findBy _ d | .updateBy _ d _ | .findTo _ d | .updateTo _ d _ => r.send? = some d
  | .insertUser u | .insertUserMessages u => r = .addNewUser u
  | .findUsernames => r = .getExistingUsernames
  | .findRows u => r = .getUserChats u
  | .findIds a b | .findLog a b _ => r = .getUserChatMessages a b
  | .answered _ => True

theorem of_start (r : Request M) : (start r).Of r := by
  cases r <;> rfl

theorem appends_cases (p : Point M) (s : Store M) (c : Nat) :
    p.appends s c = [] ∨ ∃ d, p.appends s c = [d.entry] ∧ p.toAppend = true ∧
      p.chat? = some (c, s(d.sentBy, d.sentTo)) ∧ ∀ r, p.Of r → r.send? = some d := by
  cases p with
  | push d c' =>
    by_cases h : c' = c ∧ (s.log c).isSome
    · exact Or.inr ⟨d, if_pos h, rfl, by rw [h.1]; rfl, fun r hr => hr⟩
    · exact Or.inl (if_neg h)
  | insertLog d n =>
    by_cases h : n = c ∧ s.log c = none
    · exact Or.inr ⟨d, if_pos h, rfl, by rw [h.1]; rfl, fun r hr => hr⟩
    · exact Or.inl (if_neg h)
  | _ => exact Or.inl rfl

section Next
variable [DecidableEq M] (toLowerCase : String → String)

theorem entries_next (p : Point M) (s : Store M) (c : Nat) :
    (p.next toLowerCase s).1.entries c = s.entries c ++ p.appends s c := by
  cases p with
  | push d c' =>
    simp only [next, Store.entries, log_push, appends]
    by_cases hc : c' = c
    · subst hc
      cases s.log c' <;> simp
    · simp [hc, Ne.symm hc]
  | insertLog d n =>
    simp only [next, Store.entries, log_insertLog, appends]
    by_cases hc : n = c
    · subst hc
      cases s.log n <;> simp
    · simp [hc]
  | _ => simp [next, Store.entries, appends, Store.log, Store.logDoc, Store.insertUser,
      Store.insertUserMessages, Store.insertChat, Store.setRows]

theorem of_next {r : Request M} {p : Point M} (s : Store M) (h : p.Of r) :
    (p.next toLowerCase s).2.Of r := by
  have hg := goes toLowerCase p s
  generalize (p.next toLowerCase s).2 = q at hg ⊢
  cases hg <;> first | exact h | trivial

theorem sent_next {r : Request M} {p : Point M} {s : Store M} {d : Send M} {resp : Response M}
    (hof : p.Of r) (hd : r.send? = some d) (hc : p.call? ≠ none)
    (h : (p.next toLowerCase s).2 = answered resp) (hok : resp.status = .SUCCESS) :
    ∃ create rows, p = .updateTo create d rows ∧ ∃ cur, s.rows d.sentTo = some cur ∧ cur ≠ rows := by
  have hg := goes toLowerCase p s
  rw [h] at hg
  cases hg with
  | wroteTo create x rows hm =>
    obtain rfl : x = d := Option.some.inj (hof.symm.trans hd)
    exact ⟨create, rows, rfl, hm⟩
  | stay => exact absurd rfl hc
  | failed => cases hok
  | unknown x => cases hok
  | added u =>
    rw [show r = .addNewUser u from hof] at hd
    cases hd
  | usernames us =>
    rw [show r = .getExistingUsernames from hof] at hd
    cases hd
  | chats u rows =>
    rw [show r = .getUserChats u from hof] at hd
    cases hd
  | read a b c hl =>
    rw [show r = .getUserChatMessages a b from hof] at hd
    cases hd

theorem toAppend_next {p : Point M} (s : Store M) (h : p.toAppend = false) :
    (p.next toLowerCase s).2.toAppend = false := by
  have hg := goes toLowerCase p s
  generalize (p.next toLowerCase s).2 = q at hg ⊢
  cases hg <;> first | rfl | cases h

theorem toAppend_of_appends {p : Point M} {s : Store M} {c : Nat} (h : p.appends s c ≠ []) :
    (p.next toLowerCase s).2.toAppend = false := by
  cases p with
  | push d c' => simp only [next]; split <;> rfl
  | insertLog d n => rfl
  | _ => exact absurd rfl h

theorem chat_next {p : Point M} {s : Store M} {c : Nat} {P : Sym2 String}
    (h : (p.next toLowerCase s).2.chat? = some (c, P)) :
    ∃ doc ∈ (p.next toLowerCase s).1.chatIds, doc.chatId = c ∧ doc.pair = P := by
  have hg := goes toLowerCase p s
  generalize hq : (p.next toLowerCase s).2 = q at hg h
  cases hg with
  | chat create d hd =>
    obtain ⟨rfl, rfl⟩ := Prod.mk.inj (Option.some.inj h)
    exact ⟨_, chat_mem hd, rfl, chat_pair hd⟩
  | ids a b hd =>
    obtain ⟨rfl, rfl⟩ := Prod.mk.inj (Option.some.inj h)
    exact ⟨_, chat_mem hd, rfl, chat_pair hd⟩
  | chatInserted d n =>
    obtain ⟨rfl, rfl⟩ := Prod.mk.inj (Option.some.inj h)
    exact ⟨⟨n, d.sentBy, d.sentTo⟩, by simp [next, Store.insertChat], rfl, rfl⟩
  | _ => cases h

theorem chatIds_subset (p : Point M) (s : Store M) {doc : ChatId} (h : doc ∈ s.chatIds) :
    doc ∈ (p.next toLowerCase s).1.chatIds := by
  rw [next_chatIds]
  exact List.mem_append_left _ h

end Next
end Point

/-- Request `j` of `rs` is a send of pair `P` that submits entry `e`. -/
def Wrote (rs : List (Request M)) (P : Sym2 String) (j : Nat) (e : Entry M) : Prop :=
  ∃ r d, rs[j]? = some r ∧ r.send? = some d ∧ s(d.sentBy, d.sentTo) = P ∧ d.entry = e

theorem wrote_concat {rs : List (Request M)} {P : Sym2 String} {j : Nat} {e : Entry M}
    (h : Wrote rs P j e) (r : Request M) : Wrote (rs ++ [r]) P j e := by
  obtain ⟨x, d, hx, h⟩ := h
  obtain ⟨hlt, -⟩ := List.getElem?_eq_some_iff.mp hx
  exact ⟨x, d, by rw [List.getElem?_append_left hlt, hx], h⟩

def WroteTo (ps : PSys M) (c j : Nat) (e : Entry M) : Prop :=
  ∃ doc ∈ ps.store.chatIds, doc.chatId = c ∧ Wrote ps.issued doc.pair j e

/-- `authors c` lists the requests that wrote the entries of log `c` since the run began in
`s0`, one for each entry. -/
structure Attributed (s0 : Store M) (authors : Nat → List Nat) (ps : PSys M) : Prop where
  of : ps.Each fun _ r p => p.Of r
  owned : ps.Each fun _ _ p => ∀ c P, p.chat? = some (c, P) →
    ∃ doc ∈ ps.store.chatIds, doc.chatId = c ∧ doc.pair = P
  nodup : ∀ c, (authors c).Nodup
  past : ps.Each fun j _ p => ∀ c, j ∈ authors c → p.toAppend = false
  wrote : ∀ c, ∃ new, ps.store.entries c = s0.entries c ++ new ∧
    List.Forall₂ (WroteTo ps c) (authors c) new

def addAuthor (authors : Nat → List Nat) (i : Nat) (p : Point M) (s : Store M) (c : Nat) :
    List Nat := authors c ++ (p.appends s c).map fun _ => i

theorem attributed_init (s0 : Store M) : Attributed s0 (fun _ => []) ⟨s0, []⟩ where
  of := each_init s0
  owned := each_init s0
  nodup _ := List.nodup_nil
  past := each_init s0
  wrote _ := ⟨[], (List.append_nil _).symm, .nil⟩

namespace Attributed
variable {s0 : Store M} {authors : Nat → List Nat} {ps : PSys M} (h : Attributed s0 authors ps)
include h

theorem author_lt {c j : Nat} (hj : j ∈ authors c) : j < ps.requests.length := by
  obtain ⟨new, -, hf⟩ := h.wrote c
  have hlt : List.Forall₂ (fun j e => j < ps.requests.length ∧ WroteTo ps c j e) (authors c) new :=
    hf.imp fun j e hw => by
      obtain ⟨doc, -, -, r, d, hr, -⟩ := id hw
      obtain ⟨hlt, -⟩ := List.getElem?_eq_some_iff.mp hr
      exact ⟨by simpa [PSys.issued] using hlt, hw⟩
  exact ((List.forall₂_and_left _ _).mp hlt).1 j hj

theorem issue (r : Request M) : Attributed s0 authors (ps.issue r) where
  of := each_issue h.of (Point.of_start r)
  owned := each_issue h.owned fun _ P hc => by cases r <;> simp [Point.start, Point.chat?] at hc
  nodup := h.nodup
  past := each_issue h.past fun c hj => absurd (h.author_lt hj) (lt_irrefl _)
  wrote c := by
    obtain ⟨new, he, hf⟩ := h.wrote c
    refine ⟨new, he, hf.imp fun j e hw => ?_⟩
    obtain ⟨doc, hd, hc, hw⟩ := hw
    exact ⟨doc, hd, hc, by rw [issued_issue]; exact wrote_concat hw r⟩

theorem reject {i : Nat} {r : Request M} {p : Point M} (hi : ps.requests[i]? = some (r, p)) :
    Attributed s0 authors (ps.reject i r) where
  of := each_reject h.of trivial
  owned := each_reject h.owned fun c P hc => by simp [Point.failed, Point.chat?] at hc
  nodup := h.nodup
  past := each_reject h.past fun _ _ => rfl
  wrote c := by
    obtain ⟨new, he, hf⟩ := h.wrote c
    refine ⟨new, he, hf.imp fun j e hw => ?_⟩
    obtain ⟨doc, hd, hc, hw⟩ := hw
    exact ⟨doc, hd, hc, by rw [issued_reject hi]; exact hw⟩

theorem appended {i c : Nat} {r : Request M} {p : Point M}
    (hi : ps.requests[i]? = some (r, p)) :
    List.Forall₂ (WroteTo ps c) ((p.appends ps.store c).map fun _ => i)
      (p.appends ps.store c) := by
  rcases p.appends_cases ps.store c with he | ⟨d, he, -, hc, hr⟩
  · rw [he]
    exact .nil
  · obtain ⟨doc, hd, hid, hp⟩ := h.owned i r p hi c _ hc
    rw [he]
    exact .cons ⟨doc, hd, hid, r, d, issued_get hi, hr r (h.of i r p hi), hp.symm, rfl⟩ .nil

variable [DecidableEq M] (toLowerCase : String → String)

theorem fulfil {i : Nat} {r : Request M} {p : Point M} (hi : ps.requests[i]? = some (r, p)) :
    Attributed s0 (addAuthor authors i p ps.store) (ps.fulfil toLowerCase i r p) where
  of := each_fulfil (fun j r' q _ hj => h.of j r' q hj)
    (Point.of_next toLowerCase ps.store (h.of i r p hi))
  owned := each_fulfil
    (fun j r' q _ hj c P hc => by
      obtain ⟨doc, hd, he⟩ := h.owned j r' q hj c P hc
      exact ⟨doc, Point.chatIds_subset toLowerCase p ps.store hd, he⟩)
    (fun c P hc => Point.chat_next toLowerCase hc)
  nodup c := by
    rcases p.appends_cases ps.store c with he | ⟨d, he, hap, -⟩
    · simpa [addAuthor, he] using h.nodup c
    · have hnew : i ∉ authors c := by
        intro hm
        simp [h.past i r p hi c hm] at hap
      simpa [addAuthor, he] using List.Nodup.append (h.nodup c) (List.nodup_singleton i)
        (by simpa using hnew)
  past := each_fulfil
    (fun j r' q hne hj c hm => by
      cases List.mem_append.mp hm with
      | inl hm => exact h.past j r' q hj c hm
      | inr hm =>
        obtain ⟨e, -, he⟩ := List.mem_map.mp hm
        exact absurd he.symm hne)
    (fun c hm => by
      cases List.mem_append.mp hm with
      | inl hm => exact Point.toAppend_next toLowerCase ps.store (h.past i r p hi c hm)
      | inr hm =>
        obtain ⟨e, he, -⟩ := List.mem_map.mp hm
        exact Point.toAppend_of_appends toLowerCase (List.ne_nil_of_mem he))
  wrote c := by
    obtain ⟨new, he, hf⟩ := h.wrote c
    refine ⟨new ++ p.appends ps.store c, ?_, ?_⟩
    · have hnext := Point.entries_next toLowerCase p ps.store c
      rw [PSys.fulfil, hnext, he, List.append_assoc]
    · refine (List.rel_append hf (h.appended hi)).imp fun j e hw => ?_
      obtain ⟨doc, hd, hc, hw⟩ := hw
      exact ⟨doc, Point.chatIds_subset toLowerCase p ps.store hd, hc,
        by rw [issued_fulfil hi]; exact hw⟩

end Attributed
end RecoupChat
