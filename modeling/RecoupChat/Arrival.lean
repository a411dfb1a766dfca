import RecoupChat.Browsing
import RecoupChat.Footprint

/-! What becomes of a message that was accepted: from then on its recipient is shown it, or one
that is newer, whatever fails later. -/
namespace RecoupChat
open Promise Transition Router
variable {M : Type}

theorem Grows.begins {s s' : Store M} (h : Grows s s') (u v : String) :
    s.conversation u v <+: s'.conversation u v := by
  by_cases hne : s.conversation u v = []
  · rw [hne]
    exact List.nil_prefix
  · obtain ⟨es, hes, hp⟩ := h.holds (holds_of_conversation rfl hne)
    have hsame : s'.conversation u v = es := by
      rw [Store.conversation, holds_iff.mp hes]
      rfl
    rw [hsame]
    exact hp

theorem Grows.entry {s s' : Store M} (h : Grows s s') {u v : String} {n : Nat} {e : Entry M}
    (he : (s.conversation u v)[n]? = some e) : (s'.conversation u v)[n]? = some e := by
  obtain ⟨rest, hrest⟩ := h.begins u v
  have hlt : n < (s.conversation u v).length := (List.getElem?_eq_some_iff.mp he).1
  rw [← hrest, List.getElem?_append_left hlt, he]

def Store.Since (s : Store M) (u v : String) (n : Nat) (m : M) (t : Int) : Prop :=
  ∃ j e, n ≤ j ∧ (s.conversation u v)[j]? = some e ∧ e.message = m ∧ e.time = t

theorem Store.Since.grows {s s' : Store M} (hg : Grows s s') {u v : String} {n : Nat} {m : M}
    {t : Int} (h : s.Since u v n m t) : s'.Since u v n m t := by
  obtain ⟨j, e, hj, he, hsame⟩ := h
  exact ⟨j, e, hj, hg.entry he, hsame⟩

def Store.ShowsFrom (s : Store M) (u v : String) (n : Nat) : Prop :=
  ∃ r, s.row u v = some r ∧ s.Since u v n r.lastMessage r.lastMessageTime

theorem Store.ShowsFrom.of_row {s s' : Store M} {u v : String} {n : Nat} (h : s.ShowsFrom u v n)
    (hg : Grows s s') (hrow : s'.row u v = s.row u v) : s'.ShowsFrom u v n := by
  obtain ⟨r, hr, hsince⟩ := h
  exact ⟨r, hrow.trans hr, hsince.grows hg⟩

theorem AllDone.showsFrom {d : Send M} {s s' : Store M} (h : AllDone d s s') :
    s'.ShowsFrom d.sentTo d.sentBy (s.conversation d.sentBy d.sentTo).length := by
  refine ⟨_, h.rowTo, _, d.entry, Nat.le_refl _, ?_, rfl, rfl⟩
  rw [conversation_of_pair s' Sym2.eq_swap, h.conversation]
  simp

def Point.writing? : Point M → Option (Send M)
  | .findBy _ d | .updateBy _ d _ | .findTo _ d | .updateTo _ d _ => some d
  | _ => none

def Store.Writes (s : Store M) (u v : String) (n : Nat) (p : Point M) : Prop :=
  ∀ d, p.writing? = some d → s(d.sentBy, d.sentTo) = s(u, v) →
    s.Since u v n d.message d.timeNow

theorem writes_of_none {s : Store M} {u v : String} {n : Nat} {p : Point M}
    (hp : p.writing? = none) : s.Writes u v n p := by
  intro d hd
  rw [hp] at hd
  cases hd

section Step
variable [DecidableEq M] {toLowerCase : String → String}

theorem writes_next {p : Point M} {s : Store M} {u v : String} {n : Nat} (hs : Structural s)
    (hk : Known s p) (hshows : s.ShowsFrom u v n) (h : s.Writes u v n p) :
    (p.next toLowerCase s).1.Writes u v n (p.next toLowerCase s).2 := by
  intro d hd hp
  have hgrows : Grows s (p.next toLowerCase s).1 := grows_next p s
  have hold (hw : p.writing? = some d) :
      (p.next toLowerCase s).1.Since u v n d.message d.timeNow := (h d hw hp).grows hgrows
  have hg := Point.goes toLowerCase p s
  generalize hq : (p.next toLowerCase s).2 = q at hg hd
  cases hg with
  | pushed d' c hl =>
    obtain rfl : d' = d := Option.some.inj hd
    obtain ⟨doc, hdoc, rfl, hpair⟩ := hk
    obtain ⟨es, hes⟩ := Option.isSome_iff_exists.mp hl
    have hchat := hs.chat_of_mem hdoc hpair
    have hconv := conversation_push hs hchat hes u v
    rw [if_pos hp.symm] at hconv
    obtain ⟨r, -, j, e, hj, he, -⟩ := hshows
    have hlt : j < (s.conversation u v).length := (List.getElem?_eq_some_iff.mp he).1
    refine ⟨(s.conversation u v).length, d'.entry, by omega, ?_, rfl, rfl⟩
    change ((s.push doc.chatId d'.entry).conversation u v)[_]? = _
    rw [hconv]
    simp
  | logInserted d' c =>
    obtain rfl : d' = d := Option.some.inj hd
    obtain ⟨hfresh, doc, hdoc, rfl, hpair⟩ := hk
    have hchat := hs.chat_of_mem hdoc (hpair.trans hp)
    obtain ⟨r, -, j, e, -, he, -⟩ := hshows
    rw [Store.conversation, hchat, Option.bind_some, log_eq_none.mpr hfresh] at he
    cases he
  | readBy create d' hr hput => exact hold hd
  | wroteBy create d' rows hm => exact hold hd
  | readTo create d' hr hput => exact hold hd
  | _ => cases hd

theorem showsFrom_next {p : Point M} {s : Store M} {u v : String} {n : Nat}
    (hf : Fresh s p) (hshows : s.ShowsFrom u v n) (h : s.Writes u v n p) :
    (p.next toLowerCase s).1.ShowsFrom u v n := by
  have hgrows : Grows s (p.next toLowerCase s).1 := grows_next p s
  have hkeep (hrow : (p.next toLowerCase s).1.row u v = s.row u v) :
      (p.next toLowerCase s).1.ShowsFrom u v n := hshows.of_row hgrows hrow
  have hwrite {create : Bool} {a b : String} {d : Send M} {s' : Store M}
      (hshow : s.showRow create a b d.message d.timeNow = some s') (hg : Grows s s')
      (hw : s(d.sentBy, d.sentTo) = s(u, v) → s.Since u v n d.message d.timeNow)
      (hp : s(a, b) = s(d.sentBy, d.sentTo)) : s'.ShowsFrom u v n := by
    have hrow := row_showRow hshow u v
    by_cases hsame : u = a ∧ v = b
    · rw [if_pos hsame] at hrow
      have hpair : s(d.sentBy, d.sentTo) = s(u, v) := by rw [hsame.1, hsame.2, hp]
      exact ⟨_, hrow, (hw hpair).grows hg⟩
    · rw [if_neg hsame] at hrow
      exact hshows.of_row hg hrow
  cases p with
  | updateBy create d rows =>
    obtain ⟨cur, hcur, hput⟩ := hf
    have hshow : s.showRow create d.sentBy d.sentTo d.message d.timeNow =
        some (s.setRows d.sentBy rows) := by simp [Store.showRow, hcur, hput]
    exact hwrite hshow hgrows (h d rfl) rfl
  | updateTo create d rows =>
    obtain ⟨cur, hcur, hput⟩ := hf
    have hshow : s.showRow create d.sentTo d.sentBy d.message d.timeNow =
        some (s.setRows d.sentTo rows) := by simp [Store.showRow, hcur, hput]
    exact hwrite hshow hgrows (h d rfl) Sym2.eq_swap
  | insertUserMessages w => exact hkeep (row_insertUserMessages s w u v)
  | _ => exact hkeep rfl

theorem showsFrom_serve {s : Store M} {u v : String} {n : Nat} (hs : Structural s)
    (h : s.ShowsFrom u v n) (r : Request M) (fails : Nat → Bool) :
    (s.serve toLowerCase r fails).1.ShowsFrom u v n := by
  let I (p : Point M) (s : Store M) : Prop :=
    (Structural s ∧ Known s p) ∧ Fresh s p ∧ s.Writes u v n p ∧ s.ShowsFrom u v n
  have h0 : I (Point.start r) s := by
    refine ⟨⟨hs, ?_⟩, ?_, ?_, h⟩
    · cases r <;> trivial
    · cases r <;> trivial
    · cases r <;> exact writes_of_none rfl
  obtain ⟨resp, -, hI⟩ := Point.alone_invariant toLowerCase fails (I := I)
    (fun p s _ hI => ⟨structural_next p s hI.1, fresh_next p s,
      writes_next hI.1.1 hI.1.2 hI.2.2.2 hI.2.2.1, showsFrom_next hI.2.1 hI.2.2.2 hI.2.2.1⟩)
    (fun _ p s _ hI => ⟨⟨hI.1.1, trivial⟩, trivial, writes_of_none rfl, hI.2.2.2⟩) h0
  rw [Point.serve_eq_alone]
  exact hI.2.2.2

end Step

theorem mem_chats {s : Store M} {u v : String} {n : Nat} (h : s.ShowsFrom u v n) :
    ∃ row ∈ s.chats u, row.toUsername = v ∧
      s.Since u v n row.lastMessage row.lastMessageTime := by
  obtain ⟨row, hrow, hsince⟩ := h
  obtain ⟨rows, hrows, hfor⟩ := Option.bind_eq_some_iff.mp hrow
  refine ⟨row, ?_, row_name hrow, hsince⟩
  rw [Store.chats, jsSort, List.mem_mergeSort, hrows]
  exact List.mem_of_find?_eq_some hfor

namespace Main
open ChatScreen

theorem serves_step {toLowerCase : String → String} {s s' : State} {e : Event}
    (h : s.step toLowerCase e = some s') :
    s'.store = s.store ∨ ∃ r fails, s'.store = (s.store.serve toLowerCase r fails).1 := by
  have hexec {store : Store String} {fails : Nat → Bool} {x : Option (Request String)}
      {resJson : Option (Response String)}
      (hran : Store.execute toLowerCase s.store fails x = (store, resJson)) :
      store = s.store ∨ ∃ r fails, store = (s.store.serve toLowerCase r fails).1 := by
    obtain ⟨hstore, -⟩ | ⟨r, resp, -, -, hserve⟩ := execute_cases hran
    · exact Or.inl hstore
    · exact Or.inr ⟨r, fails, by rw [hserve]⟩
  cases steps h with
  | serve k username timeNow fails store resJson hk hran => exact hexec hran
  | late k x timeNow fails store resJson hran => exact hexec hran
  | others r fails => exact Or.inr ⟨r, fails, rfl⟩
  | screen a app net ho ha =>
    cases netSteps ha with
    | user a app' hown happ => exact Or.inl rfl
    | serve k f timeNow fails store resJson hk hran => exact hexec hran
    | fail k f hk => exact Or.inl rfl
    | others r fails => exact Or.inr ⟨r, fails, rfl⟩
  | _ => exact Or.inl rfl

theorem store_after {toLowerCase : String → String} {P : Store String → Prop}
    (hP : ∀ s r fails, P s → P (s.serve toLowerCase r fails).1) {s s' : State} {es : List Event}
    (h : after (State.step toLowerCase) s es = some s') (h0 : P s.store) : P s'.store := by
  refine after_invariant (I := fun x => P x.store) h h0 fun x e x' hx hs => ?_
  obtain hsame | ⟨r, fails, hserve⟩ := serves_step hs
  · rw [hsame]
    exact hx
  · rw [hserve]
    exact hP _ r fails hx

theorem execute_read {toLowerCase : String → String} {s s' : Store String} {r : Request String}
    {resp : Response String} {resJson : Option (Response String)}
    (hserve : s.serve toLowerCase r noFault = (s, [resp]))
    (hran : Store.execute toLowerCase s noFault (some r) = (s', resJson)) :
    s' = s ∧ resJson = some resp := by
  rw [Store.execute, hserve] at hran
  obtain ⟨rfl, rfl⟩ := Prod.mk.inj hran
  exact ⟨rfl, rfl⟩

/-- What the user is answered after `d`, as entry `n`, was accepted: a list of chats has a row for
its sender with this message or a newer one, and the messages of the two have it in its place. -/
structure Arrived (toLowerCase : String → String) (s : State) (d : Send String) (n : Nat) :
    Prop where
  list : ∀ (k : Nat) (t : Int) (s' : State), s.step toLowerCase (.serve k t noFault) = some s' →
    ∃ rows, s'.list.fetches[k]? = some (s.displayName, .answered (some (.chats rows))) ∧
      ∃ row ∈ rows, row.toUsername = d.sentBy ∧
        s'.store.Since s.displayName d.sentBy n row.lastMessage row.lastMessageTime
  chat : ∀ (app : App) (k : Nat) (t : Int) (s' : State), s.opened = some app →
    app.fetches[k]? = some (.makeRequest s.displayName d.sentBy, .out) →
    s.step toLowerCase (.screen (.serve k t noFault)) = some s' →
    ∃ app' messages, s'.opened = some app' ∧ app'.fetches[k]? =
        some (.makeRequest s.displayName d.sentBy, .answered (some (.messages messages))) ∧
      messages[n]? = some d.entry

structure Delivered (s : Store String) (u : String) (d : Send String) (n : Nat) : Prop where
  structural : Structural s
  row : s.ShowsFrom u d.sentBy n
  entry : (s.conversation u d.sentBy)[n]? = some d.entry

theorem Delivered.serve {toLowerCase : String → String} {s : Store String} {u : String}
    {d : Send String} {n : Nat} (h : Delivered s u d n) (r : Request String)
    (fails : Nat → Bool) : Delivered (s.serve toLowerCase r fails).1 u d n where
  structural := structural_serve h.structural r fails
  row := showsFrom_serve h.structural h.row r fails
  entry := (grows_serve toLowerCase s r fails).entry h.entry

theorem delivered_send {toLowerCase : String → String} {s : Store String} (hs : Structural s)
    {r : Request String} {d : Send String} (hsend : r.send? = some d) {fails : Nat → Bool}
    {resp : Response String} (hresp : (s.serve toLowerCase r fails).2 = [resp])
    (hok : resp.status = .SUCCESS) : Delivered (s.serve toLowerCase r fails).1 d.sentTo d
      (s.conversation d.sentBy d.sentTo).length := by
  have hall : AllDone d s (s.serve toLowerCase r fails).1 :=
    allDone_serve toLowerCase hs hsend (Prod.ext rfl hresp) hok
  refine ⟨structural_serve hs r fails, hall.showsFrom, ?_⟩
  rw [conversation_of_pair _ Sym2.eq_swap, hall.conversation]
  simp

theorem arrived_of_delivered {toLowerCase : String → String} {s : State} {d : Send String}
    {n : Nat} (hs : Sound s) (h : Delivered s.store s.displayName d n)
    (hu : Plain s.displayName.toList) (hune : s.displayName ≠ "") (hv : Plain d.sentBy.toList)
    (hvne : d.sentBy ≠ "") : Arrived toLowerCase s d n where
  list k t s' hstep := by
    cases steps hstep with
    | serve _ username _ _ store resJson hk hran =>
      obtain rfl : username = s.displayName := hs.list.asked _ (List.mem_of_getElem? hk)
      have hlt := (List.getElem?_eq_some_iff.mp hk).1
      rw [receive_chats hu hune] at hran
      obtain ⟨rfl, rfl⟩ := execute_read (serve_getUserChats toLowerCase s.store _) hran
      exact ⟨s.store.chats _, by simp [Chats.setStage, hlt, Store.chats], mem_chats h.row⟩
  chat app k t s' ho hk hstep := by
    cases steps hstep with
    | screen _ app' net ho' ha =>
      obtain rfl := Option.some.inj (ho.symm.trans ho')
      cases netSteps ha with
      | serve _ f _ _ store resJson hk' hran =>
        obtain rfl : .makeRequest s.displayName d.sentBy = f :=
          congrArg Prod.fst (Option.some.inj (hk.symm.trans hk'))
        have hne : s.store.conversation s.displayName d.sentBy ≠ [] := by
          intro hnil
          have hentry := h.entry
          rw [hnil] at hentry
          cases hentry
        rw [receive_messages hu hune hv hvne] at hran
        obtain ⟨rfl, rfl⟩ := execute_read (reads_of_conversation hne) hran
        exact ⟨_, _, rfl, App.setStage_get hk _, h.entry⟩

/-- Once a message to the user has been accepted, in every run from there, whatever is sent and
whatever fails: each list that the server reads for the user shows it or a newer message of its
sender, and each conversation read with the sender has it in its place. -/
theorem message_arrives (toLowerCase : String → String)
    (rs : List (Request String × (Nat → Bool))) {displayName : String}
    (hu : Plain displayName.toList) (hune : displayName ≠ "") {es es' : List Event} {s s' : State}
    (hr : after (State.step toLowerCase)
      (State.mount displayName (Store.empty.serveAll toLowerCase rs)) es = some s)
    {r : Request String} {d : Send String} (hsend : r.send? = some d)
    (hto : d.sentTo = displayName) (hv : Plain d.sentBy.toList) (hvne : d.sentBy ≠ "")
    {fails : Nat → Bool} {resp : Response String}
    (hresp : (s.store.serve toLowerCase r fails).2 = [resp]) (hok : resp.status = .SUCCESS)
    (hr' : after (State.step toLowerCase) s (.others r fails :: es') = some s') :
    Arrived toLowerCase s' d (s.store.conversation d.sentBy d.sentTo).length := by
  obtain ⟨hs, hname⟩ := sound_after (sound_mount toLowerCase rs displayName) hu hune hr
  replace hname : s.displayName = displayName := hname
  obtain ⟨hs', hname'⟩ := sound_after hs (hname ▸ hu) (hname ▸ hune) hr'
  replace hname' : s'.displayName = displayName := hname'.trans hname
  have hdel : Delivered s'.store d.sentTo d (s.store.conversation d.sentBy d.sentTo).length :=
    store_after (P := fun x => Delivered x d.sentTo d _) (fun _ r fails hx => hx.serve r fails)
      (s := { s with store := (s.store.serve toLowerCase r fails).1 }) hr'
      (delivered_send hs.structural hsend hresp hok)
  have hsame : s'.displayName = d.sentTo := hname'.trans hto.symm
  exact arrived_of_delivered hs' (hsame ▸ hdel) (hname' ▸ hu) (hname' ▸ hune) hv hvne

/-- The row update of a second message is rejected; the row shows the first one. -/
theorem message_arrives_ann : ∃ s s' : State,
    after (State.step id) (State.mount "ann" (Store.empty.serveAll id joinBoth))
        [.others (.sendNewMessage ⟨"bob", "ann", "hi", 1⟩) noFault,
          .others (.sendMessage ⟨"bob", "ann", "yo", 2⟩) (failAt 3)] = some s ∧
      s.step id (.serve 0 3 noFault) = some s' ∧
      ∃ rows, s'.list.fetches[0]? = some ("ann", .answered (some (.chats rows))) ∧
        ∃ row ∈ rows, row.toUsername = "bob" ∧
          s'.store.Since "ann" "bob" 0 row.lastMessage row.lastMessageTime := by
  have hresp : ((Store.empty.serveAll id joinBoth).serve id
      (.sendNewMessage ⟨"bob", "ann", "hi", 1⟩) noFault).2 = [.success] := by decide
  have hbefore : after (State.step id) (State.mount "ann" (Store.empty.serveAll id joinBoth)) [] =
      some (State.mount "ann" (Store.empty.serveAll id joinBoth)) := rfl
  have hafter : after (State.step id) (State.mount "ann" (Store.empty.serveAll id joinBoth))
      [.others (.sendNewMessage ⟨"bob", "ann", "hi", 1⟩) noFault,
        .others (.sendMessage ⟨"bob", "ann", "yo", 2⟩) (failAt 3)] = some _ := rfl
  have harrived := message_arrives id joinBoth (by decide) (by decide) hbefore rfl rfl (by decide)
    (by decide) hresp rfl hafter
  exact ⟨_, _, rfl, rfl, harrived.list 0 3 _ rfl⟩

end Main
end RecoupChat
