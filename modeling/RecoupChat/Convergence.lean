import RecoupChat.ShownContact

/-! When the list of the screen Message comes to equal the log of the server, while the partner
sends nothing. -/
namespace RecoupChat
open Transition Promise Router Collection
variable {M : Type}

/-! The server executes one request as a whole. -/

section Serve
variable [DecidableEq M] (toLowerCase : String → String)

theorem conversations_serve {r : Request M} (hr : r.send? = none) (s : Store M)
    (fails : Nat → Bool) : (s.serve toLowerCase r fails).1.chatIds = s.chatIds ∧
      (s.serve toLowerCase r fails).1.chatMessages = s.chatMessages := by
  have hnext (p : Point M) (s' : Store M) (hof : p.Of r) :
      (p.next toLowerCase s').1.chatIds = s'.chatIds ∧
        (p.next toLowerCase s').1.chatMessages = s'.chatMessages := by
    cases p with
    | insertUser u => exact ⟨rfl, rfl⟩
    | insertUserMessages u => exact ⟨rfl, rfl⟩
    | findUsernames => exact ⟨rfl, rfl⟩
    | findRows u => exact ⟨rfl, rfl⟩
    | findIds a b => exact ⟨rfl, rfl⟩
    | findLog a b c => exact ⟨rfl, rfl⟩
    | answered resp => exact ⟨rfl, rfl⟩
    | _ => cases hr.symm.trans hof
  let I (p : Point M) (s' : Store M) : Prop :=
    (s'.chatIds = s.chatIds ∧ s'.chatMessages = s.chatMessages) ∧ p.Of r
  have h0 : I (Point.start r) s := ⟨⟨rfl, rfl⟩, Point.of_start r⟩
  rw [Point.serve_eq_alone]
  obtain ⟨resp, -, h⟩ := Point.alone_invariant toLowerCase fails (I := I)
    (fun p s' _ hI => ⟨⟨(hnext p s' hI.2).1.trans hI.1.1, (hnext p s' hI.2).2.trans hI.1.2⟩,
      Point.of_next toLowerCase s' hI.2⟩)
    (fun _ _ _ _ hI => ⟨hI.1, trivial⟩) h0
  exact h.1

omit [DecidableEq M] in
theorem holds_congr {s s' : Store M} (hc : s'.chatIds = s.chatIds)
    (hl : s'.chatMessages = s.chatMessages) {a b : String} {es : List (Entry M)} :
    s'.holds a b es ↔ s.holds a b es := by
  simp only [Store.holds, Store.chat, Store.log, Store.logDoc, hc, hl]

theorem holds_others {s : Store M} (hs : Structural s) {a b : String} {r : Request M}
    (hr : ∀ d, r.send? = some d → s(d.sentBy, d.sentTo) ≠ s(a, b)) (fails : Nat → Bool)
    {es : List (Entry M)} : (s.serve toLowerCase r fails).1.holds a b es ↔ s.holds a b es := by
  cases hd : r.send? with
  | none =>
    obtain ⟨hc, hl⟩ := conversations_serve toLowerCase hd s fails
    exact holds_congr hc hl
  | some d =>
    obtain ⟨s', resp, he, hpair⟩ := onlyPair_serve toLowerCase hs hd fails
    rw [he]
    exact hpair.holds_iff (hr d hd).symm

theorem serve_put {s : Store M} {d : Send M} {es : List (Entry M)}
    (hes : s.holds d.sentBy d.sentTo es) : ∃ s' resp,
      s.serve toLowerCase (.sendMessage d) noFault = (s', [resp]) ∧
      s'.holds d.sentBy d.sentTo (es ++ [d.entry]) ∧
      (d.sentBy ≠ d.sentTo → s.canShow false d.sentBy d.sentTo d.message d.timeNow →
        s.canShow false d.sentTo d.sentBy d.message d.timeNow → resp.status = .SUCCESS) := by
  obtain ⟨doc, hc, hl⟩ := hes
  obtain ⟨s', resp, ha, hrun⟩ := alone_findBy_rowsRun toLowerCase false d
    (s.push doc.chatId d.entry)
  refine ⟨s', resp, ?_, ?_, ?_⟩
  · rw [serve_sendMessage, hc]
    simp [Point.alone_push, hl, ha]
  · have hpushed : (s.push doc.chatId d.entry).holds d.sentBy d.sentTo (es ++ [d.entry]) :=
      ⟨doc, hc, by simp [hl]⟩
    exact (holds_congr hrun.frame.chatIds hrun.frame.chatMessages).mpr hpushed
  · intro hne hby hto
    have hcan {u v : String} (h : s.canShow false u v d.message d.timeNow) :
        (s.push doc.chatId d.entry).canShow false u v d.message d.timeNow := by
      refine ⟨fun hn => h.1 ?_, h.2⟩
      cases showRow_eq_none.mp hn with
      | inl hnone => exact showRow_eq_none.mpr (Or.inl hnone)
      | inr hnone => exact showRow_eq_none.mpr (Or.inr hnone)
    exact hrun.status_iff.mpr ⟨hne, hcan hby, hcan hto⟩

end Serve
namespace ChatScreen

/-! The sends under way, by their texts. -/

def Fetch.text? : Fetch → Option String
  | .handleSendMessage _ _ newMessage => some newMessage
  | .makeRequest _ _ => none

def waiting? : Fetch × Stage → Option String
  | (f, .out) => f.text?
  | _ => none

def executed? : Fetch × Stage → Option String
  | (f, .answered _) => f.text?
  | _ => none

def inFlight? : Fetch × Stage → Option String
  | (_, .handled) => none
  | (f, _) => f.text?

def App.executed (s : App) : List String := s.fetches.filterMap executed?

def App.inFlight (s : App) : List String := s.fetches.filterMap inFlight?

theorem length_inFlight (fetches : List (Fetch × Stage)) : (fetches.filterMap inFlight?).length =
    (fetches.filterMap waiting?).length + (fetches.filterMap executed?).length := by
  induction fetches with
  | nil => rfl
  | cons x fetches ih =>
    obtain ⟨f, stage⟩ := x
    cases f with
    | makeRequest u v => cases stage <;> exact ih
    | handleSendMessage u v m =>
      cases stage with
      | out =>
        simp only [List.filterMap_cons, waiting?, executed?, inFlight?, Fetch.text?,
          List.length_cons, ih]
        omega
      | answered resJson =>
        simp only [List.filterMap_cons, waiting?, executed?, inFlight?, Fetch.text?,
          List.length_cons, ih]
        omega
      | handled => exact ih

theorem executed_of_waiting {s : App} (h1 : s.inFlight.length ≤ 1) {k : Nat} {u v m : String}
    (hk : s.fetches[k]? = some (.handleSendMessage u v m, .out)) : s.executed = [] := by
  have hlen := length_inFlight s.fetches
  have hm : m ∈ s.fetches.filterMap waiting? :=
    List.mem_filterMap.mpr ⟨_, List.mem_of_getElem? hk, rfl⟩
  have hpos := List.length_pos_of_mem hm
  have hinf : s.inFlight.length = (s.fetches.filterMap inFlight?).length := rfl
  apply List.eq_nil_of_length_eq_zero
  rw [App.executed]
  omega

theorem executed_of_answered {s : App} (h1 : s.inFlight.length ≤ 1) {k : Nat} {u v m : String}
    {resJson : Option (Response String)}
    (hk : s.fetches[k]? = some (.handleSendMessage u v m, .answered resJson)) :
    s.executed = [m] ∧ m ∈ s.inFlight ∧
      (s.setStage k (.handleSendMessage u v m) .handled).executed = [] ∧
      (s.setStage k (.handleSendMessage u v m) .handled).inFlight = [] := by
  have hlen : s.inFlight.length = (s.fetches.filterMap waiting?).length + s.executed.length :=
    length_inFlight s.fetches
  have he : (m :: (s.setStage k (.handleSendMessage u v m) .handled).executed).Perm s.executed :=
    filterMap_set (f := executed?) hk _
  have hi : (m :: (s.setStage k (.handleSendMessage u v m) .handled).inFlight).Perm s.inFlight :=
    filterMap_set (f := inFlight?) hk _
  have he1 := he.length_eq
  have hi1 := hi.length_eq
  rw [List.length_cons] at he1 hi1
  have he0 : (s.setStage k (.handleSendMessage u v m) .handled).executed = [] :=
    List.eq_nil_of_length_eq_zero (by omega)
  refine ⟨?_, hi.subset List.mem_cons_self, he0, List.eq_nil_of_length_eq_zero (by omega)⟩
  rw [he0] at he
  exact List.perm_singleton.mp he.symm

def line (e : Entry String) : String × String := (e.sentBy, e.message)

/-- No call fails, the draft is not edited while a send is in flight, and nobody else sends to
the pair. -/
def Assumed (a b : String) (s : Net) : NetAct → Prop
  | .user (.onNewMessage _) => s.app.inFlight = []
  | .user _ => True
  | .serve _ _ fails => fails = noFault
  | .fail _ => False
  | .others r _ => ∀ d, r.send? = some d → s(d.sentBy, d.sentTo) ≠ s(a, b)

/-- Send is pressed while no send is in flight; a send that is executed can show its message in
both rows; and when a list is received, the log has beyond it just the messages of the executed
sends whose answers are still to be handled. -/
def InOrder (a b : String) (s : Net) : NetAct → Prop
  | .user .press => s.app.inFlight = []
  | .user (.handle k _) => ∀ es,
    s.app.fetches[k]? = some (.makeRequest a b, .answered (some (.messages es))) →
    es.length + s.app.executed.length = (s.store.conversation a b).length
  | .serve k timeNow _ => ∀ m, s.app.fetches[k]? = some (.handleSendMessage a b m, .out) →
    a ≠ b ∧ s.store.canShow false a b m timeNow ∧ s.store.canShow false b a m timeNow
  | _ => True

structure Follows (a b : String) (log : List (Entry String)) (x : App) : Prop where
  page : x.page = .message
  username : x.screen.username = a
  contact : x.screen.contact = b
  asked : ∀ y ∈ x.fetches, y.1 = .makeRequest a b ∨ ∃ m, y.1 = .handleSendMessage a b m
  alone : x.inFlight.length ≤ 1
  draft : ∀ m ∈ x.inFlight, x.screen.newMessage = m
  put : ∀ (k : Nat) (m : String) (resJson : Option (Response String)),
    x.fetches[k]? = some (.handleSendMessage a b m, .answered resJson) →
      ∃ resp, resJson = some resp ∧ resp.status = .SUCCESS
  last : ∀ m ∈ x.executed, ∃ e, log.getLast? = some e ∧ line e = (a, m)
  get : ∀ (k : Nat) (resJson : Option (Response String)),
    x.fetches[k]? = some (.makeRequest a b, .answered resJson) →
      ∃ es, resJson = some (.messages es) ∧ es <+: log
  listed : ∃ messages, x.screen.messages = some messages ∧
    ((.makeRequest a b, .handled) ∈ x.fetches →
      messages.map line ++ x.executed.map (a, ·) = log.map line)

structure Converging (a b : String) (s : Net) : Prop where
  structural : Structural s.store
  holds : s.store.holds a b (s.store.conversation a b)
  follows : Follows a b (s.store.conversation a b) s.app

section Follows
variable {a b : String} {log : List (Entry String)} {x : App}

theorem setStage_get_lists {k : Nat} {u v : String} {stage : Stage}
    (hk : x.fetches[k]? = some (.makeRequest u v, stage)) (stage' : Stage) :
    (x.setStage k (.makeRequest u v) stage').inFlight = x.inFlight ∧
      (x.setStage k (.makeRequest u v) stage').executed = x.executed := by
  have hnone (stage : Stage) : inFlight? (.makeRequest u v, stage) = none ∧
      executed? (.makeRequest u v, stage) = none := by
    cases stage <;> exact ⟨rfl, rfl⟩
  constructor
  · exact filterMap_set_same hk ((hnone stage').1.trans (hnone stage).1.symm)
  · exact filterMap_set_same hk ((hnone stage').2.trans (hnone stage).2.symm)

theorem fetch_lists (x : App) (f : Fetch) : (x.fetch f).inFlight = x.inFlight ++ f.text?.toList ∧
    (x.fetch f).executed = x.executed := by
  rw [App.inFlight, App.inFlight, App.executed, App.executed, App.fetch, List.filterMap_append,
    List.filterMap_append]
  cases f with
  | makeRequest u v => simp [inFlight?, executed?, Fetch.text?]
  | handleSendMessage u v m => simp [inFlight?, executed?, Fetch.text?]

theorem Follows.fetch (h : Follows a b log x) {f : Fetch}
    (hf : f = .makeRequest a b ∨ ∃ m, f = .handleSendMessage a b m)
    (hnone : f.text? ≠ none → x.inFlight = [] ∧ f.text? = some x.screen.newMessage) :
    Follows a b log (x.fetch f) where
  page := h.page
  username := h.username
  contact := h.contact
  asked y hy := by
    cases List.mem_append.mp hy with
    | inl hy => exact h.asked y hy
    | inr hy =>
      obtain rfl := List.mem_singleton.mp hy
      exact hf
  alone := by
    rw [(fetch_lists x f).1]
    cases ht : f.text? with
    | none => simpa using h.alone
    | some m => simp [(hnone (by simp [ht])).1]
  draft m hm := by
    rw [(fetch_lists x f).1] at hm
    cases ht : f.text? with
    | none =>
      rw [ht] at hm
      exact h.draft m (by simpa using hm)
    | some m' =>
      obtain ⟨hnil, htext⟩ := hnone (by simp [ht])
      rw [hnil, htext] at hm
      exact (List.mem_singleton.mp hm).symm
  put k m resJson hk := h.put k m resJson (answered_fetch hk)
  last m hm := h.last m ((fetch_lists x f).2 ▸ hm)
  get k resJson hk := h.get k resJson (answered_fetch hk)
  listed := by
    obtain ⟨messages, hm, hl⟩ := h.listed
    refine ⟨messages, hm, fun hhandled => ?_⟩
    rw [(fetch_lists x f).2]
    refine hl ?_
    cases List.mem_append.mp hhandled with
    | inl hmem => exact hmem
    | inr hmem => cases List.mem_singleton.mp hmem

theorem asked_set (h : Follows a b log x) {k : Nat} {f : Fetch} {stage : Stage}
    (hk : x.fetches[k]? = some (f, stage)) (stage' : Stage) :
    ∀ y ∈ (x.setStage k f stage').fetches,
      y.1 = .makeRequest a b ∨ ∃ m, y.1 = .handleSendMessage a b m := by
  intro y hy
  cases List.mem_or_eq_of_mem_set hy with
  | inl hy => exact h.asked y hy
  | inr hy =>
    rw [hy]
    exact h.asked (f, stage) (List.mem_of_getElem? hk)

theorem handled_of_set {k : Nat} {f g : Fetch} {stage : Stage} (hne : (g, Stage.handled) ≠ (f, stage))
    (h : (g, Stage.handled) ∈ (x.setStage k f stage).fetches) : (g, Stage.handled) ∈ x.fetches :=
  (List.mem_or_eq_of_mem_set h).resolve_right hne

theorem Follows.receive (h : Follows a b log x) {k : Nat} {es : List (Entry String)}
    (hk : x.fetches[k]? = some (.makeRequest a b, .answered (some (.messages es))))
    (hlen : es.length + x.executed.length = log.length) :
    Follows a b log ((x.setStage k (.makeRequest a b) .handled).received
      (some (.messages es))) := by
  obtain ⟨hin, hex⟩ := setStage_get_lists hk .handled
  constructor
  case page => exact h.page
  case username => exact h.username
  case contact => exact h.contact
  case asked => exact asked_set h hk .handled
  case alone => exact hin ▸ h.alone
  case draft => exact fun m hm => h.draft m (hin ▸ hm)
  case put => exact fun j m resJson hj => h.put j m resJson (answered_handled hj)
  case last => exact fun m hm => h.last m (hex ▸ hm)
  case get => exact fun j resJson hj => h.get j resJson (answered_handled hj)
  case listed =>
    refine ⟨es, rfl, fun _ => ?_⟩
    obtain ⟨_, hes, hpre⟩ := h.get k _ hk
    cases hes
    obtain ⟨rest, rfl⟩ := hpre
    rw [List.length_append] at hlen
    have hrest : rest.length = x.executed.length := by omega
    have hshort := length_inFlight x.fetches
    have halone := h.alone
    rw [App.inFlight] at halone
    change es.map line ++ ((x.setStage k (.makeRequest a b) .handled).executed).map (a, ·) = _
    rw [hex, List.map_append, List.append_cancel_left_eq]
    cases hx : x.executed with
    | nil =>
      rw [hx] at hrest
      rw [List.eq_nil_of_length_eq_zero hrest]
      rfl
    | cons m ms =>
      have hms : ms = [] := by
        rw [App.executed] at hx
        rw [hx, List.length_cons] at hshort
        exact List.eq_nil_of_length_eq_zero (by omega)
      subst hms
      rw [hx] at hrest
      obtain ⟨e, rfl⟩ := List.length_eq_one_iff.mp hrest
      obtain ⟨e', he', hline⟩ := h.last m (by simp [hx])
      rw [List.getLast?_concat] at he'
      obtain rfl := Option.some.inj he'
      simp [hline]

theorem Follows.sent (h : Follows a b log x) {k : Nat} {m : String} {resp : Response String}
    (hk : x.fetches[k]? = some (.handleSendMessage a b m, .answered (some resp)))
    (hok : resp.status = .SUCCESS) (now : Int) :
    Follows a b log ((x.setStage k (.handleSendMessage a b m) .handled).sent now (some resp)) := by
  obtain ⟨messages, hm, hl⟩ := h.listed
  obtain ⟨hexe, hin, hexe', hin'⟩ := executed_of_answered h.alone hk
  rw [App.sent_of_list (s := x.setStage k _ .handled) hok hm]
  have hpage : (x.setStage k (.handleSendMessage a b m) .handled).page = .message := h.page
  simp only [App.appended, hpage]
  constructor
  case page => rfl
  case username => exact h.username
  case contact => exact h.contact
  case asked => exact asked_set h hk .handled
  case alone =>
    change (x.setStage k (.handleSendMessage a b m) .handled).inFlight.length ≤ 1
    simp [hin']
  case draft => exact fun m' hm' => by cases (hin' ▸ hm' : m' ∈ ([] : List String))
  case put => exact fun j m' resJson hj => h.put j m' resJson (answered_handled hj)
  case last => exact fun m' hm' => by cases (hexe' ▸ hm' : m' ∈ ([] : List String))
  case get => exact fun j resJson hj => h.get j resJson (answered_handled hj)
  case listed =>
    refine ⟨_, rfl, fun hhandled => ?_⟩
    have hlog := hl (handled_of_set (fun he => by cases he) hhandled)
    have hdraft : x.screen.newMessage = m := h.draft m hin
    change _ ++ ((x.setStage k (.handleSendMessage a b m) .handled).executed).map (a, ·) = _
    rw [hexe']
    rw [hexe] at hlog
    rw [← hlog]
    simp [line, h.username, hdraft]

theorem Follows.read (h : Follows a b log x) {k : Nat}
    (hk : x.fetches[k]? = some (.makeRequest a b, .out)) :
    Follows a b log (x.setStage k (.makeRequest a b) (.answered (some (.messages log)))) := by
  obtain ⟨hin, hex⟩ := setStage_get_lists hk (.answered (some (.messages log)))
  constructor
  case page => exact h.page
  case username => exact h.username
  case contact => exact h.contact
  case asked => exact asked_set h hk _
  case alone => exact hin ▸ h.alone
  case draft => exact fun m hm => h.draft m (hin ▸ hm)
  case put =>
    intro j m resJson hj
    cases answered_setStage hj with
    | inl hsame => cases hsame.1
    | inr hold => exact h.put j m resJson hold
  case last => exact fun m hm => h.last m (hex ▸ hm)
  case get =>
    intro j resJson hj
    cases answered_setStage hj with
    | inl hsame => exact ⟨log, hsame.2, List.prefix_rfl⟩
    | inr hold => exact h.get j resJson hold
  case listed =>
    obtain ⟨messages, hm, hl⟩ := h.listed
    refine ⟨messages, hm, fun hhandled => ?_⟩
    rw [hex]
    exact hl (handled_of_set (fun he => by cases he) hhandled)

theorem Follows.written (h : Follows a b log x) {k : Nat} {m : String} {resp : Response String}
    {e : Entry String} (hk : x.fetches[k]? = some (.handleSendMessage a b m, .out))
    (hok : resp.status = .SUCCESS) (he : line e = (a, m)) :
    Follows a b (log ++ [e])
      (x.setStage k (.handleSendMessage a b m) (.answered (some resp))) := by
  have hnil := executed_of_waiting h.alone hk
  have hin : (x.setStage k (.handleSendMessage a b m) (.answered (some resp))).inFlight =
      x.inFlight := filterMap_set_same hk rfl
  have hexe : (x.setStage k (.handleSendMessage a b m) (.answered (some resp))).executed = [m] := by
    have hp : (x.setStage k (.handleSendMessage a b m) (.answered (some resp))).executed.Perm
        (m :: x.executed) := filterMap_set (f := executed?) hk _
    rw [hnil] at hp
    exact List.perm_singleton.mp hp
  constructor
  case page => exact h.page
  case username => exact h.username
  case contact => exact h.contact
  case asked => exact asked_set h hk _
  case alone => exact hin ▸ h.alone
  case draft => exact fun m' hm => h.draft m' (hin ▸ hm)
  case put =>
    intro j m' resJson hj
    cases answered_setStage hj with
    | inl hsame => exact ⟨resp, hsame.2, hok⟩
    | inr hold => exact h.put j m' resJson hold
  case last =>
    intro m' hm'
    rw [hexe] at hm'
    obtain rfl := List.mem_singleton.mp hm'
    exact ⟨e, List.getLast?_concat, he⟩
  case get =>
    intro j resJson hj
    cases answered_setStage hj with
    | inl hsame => cases hsame.1
    | inr hold =>
      obtain ⟨es, hes, hpre⟩ := h.get j resJson hold
      exact ⟨es, hes, hpre.trans (List.prefix_append _ _)⟩
  case listed =>
    obtain ⟨messages, hm, hl⟩ := h.listed
    refine ⟨messages, hm, fun hhandled => ?_⟩
    have hlog := hl (handled_of_set (fun he => by cases he) hhandled)
    rw [hnil] at hlog
    rw [hexe]
    simpa [he] using hlog

end Follows
theorem conversation_of_holds {s : Store M} {u v : String} {es : List (Entry M)}
    (h : s.holds u v es) : s.conversation u v = es := by
  rw [Store.conversation, holds_iff.mp h]
  rfl

theorem follows_own {a b : String} {s : Net} {app : App} {act : Act} (h : Converging a b s)
    (ho : act.own = true) (hassumed : Assumed a b s (.user act)) (horder : InOrder a b s (.user act))
    (hs : s.app.step act = some app) : Follows a b (s.store.conversation a b) app := by
  have hf := h.follows
  cases App.steps hs with
  | onNewMessage newMessage =>
    refine { hf with draft := fun m hm => ?_ }
    have hold : m ∈ s.app.inFlight := hm
    rw [show s.app.inFlight = [] from hassumed] at hold
    cases hold
  | onFocus hp => cases hf.page.symm.trans hp
  | onContact contact hp => cases hf.page.symm.trans hp
  | press hd =>
    refine hf.fetch (Or.inr ⟨s.app.screen.newMessage, ?_⟩) fun _ => ⟨horder, rfl⟩
    rw [hf.username, hf.contact]
  | refresh =>
    have hmarked : Follows a b (s.store.conversation a b)
        { s.app with screen.refreshing := true } := { hf with }
    refine hmarked.fetch (Or.inl ?_) fun ht => absurd rfl ht
    exact congrArg₂ Fetch.makeRequest hf.username hf.contact
  | answer k f resJson hk => cases ho
  | handle k f resJson now hk =>
    cases hf.asked _ (List.mem_of_getElem? hk) with
    | inl hget =>
      obtain rfl : f = .makeRequest a b := hget
      obtain ⟨es, rfl, -⟩ := hf.get k _ hk
      exact hf.receive hk (horder es hk)
    | inr hput =>
      obtain ⟨m, rfl⟩ : ∃ m, f = .handleSendMessage a b m := hput
      obtain ⟨resp, rfl, hok⟩ := hf.put k m _ hk
      exact hf.sent hk hok now

theorem converging_read {toLowerCase : String → String} {a b : String} {s : Net} {k : Nat}
    {store : Store String} {resJson : Option (Response String)} (h : Converging a b s)
    (hk : s.app.fetches[k]? = some (.makeRequest a b, .out))
    (hran : Store.execute toLowerCase s.store noFault (some (.getUserChatMessages a b)) =
      (store, resJson)) :
    Converging a b ⟨s.app.setStage k (.makeRequest a b) (.answered resJson), store⟩ := by
  obtain ⟨resp, hex, hread⟩ := execute_messages toLowerCase s.store a b
  obtain ⟨rfl, rfl⟩ := Prod.mk.inj (hex.symm.trans hran)
  have hresp : resp = .messages (s.store.conversation a b) := by
    have hlist := (hread _).mpr h.holds
    cases resp <;> cases hlist
    rfl
  rw [hresp]
  exact ⟨h.structural, h.holds, h.follows.read hk⟩

theorem converging_written {toLowerCase : String → String} {a b : String} {s : Net} {k : Nat}
    {m : String} {t : Int} {store : Store String} {resJson : Option (Response String)}
    (h : Converging a b s) (hk : s.app.fetches[k]? = some (.handleSendMessage a b m, .out))
    (hran : Store.execute toLowerCase s.store noFault (some (.sendMessage ⟨a, b, m, t⟩)) =
      (store, resJson))
    (hne : a ≠ b) (hby : s.store.canShow false a b m t) (hto : s.store.canShow false b a m t) :
    Converging a b ⟨s.app.setStage k (.handleSendMessage a b m) (.answered resJson), store⟩ := by
  obtain ⟨store', resp, hserve, hholds, hok⟩ := serve_put toLowerCase (d := ⟨a, b, m, t⟩) h.holds
  have hst : Structural store' := by
    have hall : Structural (s.store.serve toLowerCase (.sendMessage ⟨a, b, m, t⟩) noFault).1 :=
      structural_serve h.structural _ _
    rwa [hserve] at hall
  rw [Store.execute, hserve] at hran
  obtain ⟨rfl, rfl⟩ := Prod.mk.inj hran
  have hconv := conversation_of_holds hholds
  refine ⟨hst, hconv ▸ hholds, ?_⟩
  rw [hconv]
  exact h.follows.written hk (hok hne hby hto) rfl

theorem converging_step {toLowerCase : String → String} {a b : String} {s s' : Net} {x : NetAct}
    (ha : Plain a.toList) (hane : a ≠ "") (hb : Plain b.toList) (hbne : b ≠ "")
    (h : Converging a b s) (hassumed : Assumed a b s x) (horder : InOrder a b s x)
    (hs : s.step toLowerCase x = some s') : Converging a b s' := by
  cases netSteps hs with
  | user act app ho hact =>
    exact ⟨h.structural, h.holds, follows_own (s := s) h ho hassumed horder hact⟩
  | serve k f timeNow fails store resJson hk hran =>
    obtain rfl : fails = noFault := hassumed
    rw [h.follows.page] at hran
    cases h.follows.asked _ (List.mem_of_getElem? hk) with
    | inl hget =>
      obtain rfl : f = .makeRequest a b := hget
      rw [receive_messages ha hane hb hbne] at hran
      exact converging_read h hk hran
    | inr hput =>
      obtain ⟨m, rfl⟩ : ∃ m, f = .handleSendMessage a b m := hput
      rw [receive_put ha hane hb hbne] at hran
      obtain ⟨hne, hby, hto⟩ := horder m hk
      exact converging_written h hk hran hne hby hto
  | fail k f hk => exact hassumed.elim
  | others r fails =>
    have hsame := @holds_others String _ toLowerCase s.store h.structural a b r hassumed fails
    have hholds := hsame.mpr h.holds
    have hconv := conversation_of_holds hholds
    exact ⟨structural_serve h.structural r fails, hconv ▸ hholds, hconv ▸ h.follows⟩

theorem follows_mount (a b : String) (log : List (Entry String)) :
    Follows a b log (App.mount a b .message) where
  page := rfl
  username := rfl
  contact := rfl
  asked y hy := Or.inl (congrArg Prod.fst (List.mem_singleton.mp hy))
  alone := Nat.zero_le _
  draft m hm := by cases hm
  put k m resJson hk := by
    have hm := List.mem_of_getElem? hk
    simp [App.mount, App.makeRequest, App.fetch] at hm
  last m hm := by cases hm
  get k resJson hk := by
    have hm := List.mem_of_getElem? hk
    simp [App.mount, App.makeRequest, App.fetch] at hm
  listed := ⟨[], rfl, fun hh => by cases List.mem_singleton.mp hh⟩

/-- The screen Message of `a` with `b`, whose pair has a chat with a log when it is opened. In
every run where the partner sends nothing, no call fails and the draft is not edited while a
send is in flight, and whose steps are all in order: when every answer has been handled, one
to a request for the messages among them, the screen shows what is in the log. -/
theorem list_converges (toLowerCase : String → String)
    (rs : List (Request String × (Nat → Bool))) {a b : String} {es : List (Entry String)} {s : Net}
    (ha : Plain a.toList) (hane : a ≠ "") (hb : Plain b.toList) (hbne : b ≠ "")
    (hes : (Store.empty.serveAll toLowerCase rs).holds a b es)
    (hr : Run (Net.step toLowerCase) (fun s x => Assumed a b s x ∧ InOrder a b s x)
      (Net.mount toLowerCase rs a b .message) s)
    (hrest : ∀ y ∈ s.app.fetches, y.2 = .handled)
    (hget : (.makeRequest a b, .handled) ∈ s.app.fetches) :
    ∃ messages, s.app.screen.messages = some messages ∧
      messages.map line = (s.store.conversation a b).map line := by
  have h0 : Converging a b (Net.mount toLowerCase rs a b .message) :=
    ⟨structural_serveAll structural_empty rs, conversation_of_holds hes ▸ hes,
      follows_mount a b _⟩
  have h : Converging a b s := hr.invariant h0 fun _ _ _ hI hok hs =>
    converging_step ha hane hb hbne hI hok.1 hok.2 hs
  obtain ⟨messages, hm, hl⟩ := h.follows.listed
  have hexe : s.app.executed = [] := by
    rw [App.executed, List.filterMap_eq_nil_iff]
    intro y hy
    obtain ⟨f, stage⟩ := y
    obtain rfl : stage = .handled := hrest _ hy
    rfl
  have hlog := hl hget
  rw [hexe] at hlog
  exact ⟨messages, hm, by simpa using hlog⟩

def joinAndGreet : List (Request String × (Nat → Bool)) :=
  joinBoth ++ [(.sendNewMessage ⟨"ann", "bob", "hi", 5⟩, noFault)]

theorem greeted : Store.empty.serveAll id joinAndGreet = written := by decide

def writtenTwice : Store String :=
  ⟨[⟨"ann"⟩, ⟨"bob"⟩], [⟨"ann", [⟨"bob", "yo", 8⟩]⟩, ⟨"bob", [⟨"ann", "yo", 8⟩]⟩],
    [⟨0, "ann", "bob"⟩], [⟨0, [⟨"ann", "hi", 5⟩, ⟨"ann", "yo", 8⟩]⟩]⟩

theorem execute_get (timeNow : Int) : Store.execute id written noFault
    (((Fetch.makeRequest "ann" "bob").http .message).receive timeNow) =
      (written, some (.messages [⟨"ann", "hi", 5⟩])) := by
  rw [receive_messages (by decide) (by decide) (by decide) (by decide)]
  decide

theorem execute_put : Store.execute id written noFault
    (((Fetch.handleSendMessage "ann" "bob" "yo").http .message).receive 8) =
      (writtenTwice, some (.sent "bob")) := by
  rw [receive_put (by decide) (by decide) (by decide) (by decide)]
  decide

def talk (messages : List (Entry String)) (newMessage : String) (get put : Stage)
    (store : Store String) : Net :=
  ⟨⟨.message, ⟨"ann", "bob", some messages, newMessage, false⟩,
    [(.makeRequest "ann" "bob", get), (.handleSendMessage "ann" "bob" "yo", put)]⟩, store⟩

def greeting : Stage := .answered (some (.messages [⟨"ann", "hi", 5⟩]))

def opened : Net :=
  ⟨⟨.message, ⟨"ann", "bob", some [], "", false⟩, [(.makeRequest "ann" "bob", greeting)]⟩, written⟩

theorem step_opened : (Net.mount id joinAndGreet "ann" "bob" .message).step id
    (.serve 0 6 noFault) = some opened := by
  rw [Net.mount, greeted]
  exact step_serve (s := ⟨App.mount "ann" "bob" .message, written⟩) rfl (execute_get 6)

theorem step_talk (messages : List (Entry String)) (get : Stage) :
    (talk messages "yo" get .out written).step id (.serve 1 8 noFault) =
      some (talk messages "yo" get (.answered (some (.sent "bob"))) writtenTwice) :=
  step_serve rfl execute_put

theorem canShow_greeted : written.canShow false "ann" "bob" "yo" 8 ∧
    written.canShow false "bob" "ann" "yo" 8 := by
  refine ⟨⟨?_, ?_⟩, ⟨?_, ?_⟩⟩ <;> decide

/-- The list is received before the send. -/
theorem list_converges_yo : ∃ s, Run (Net.step id)
    (fun s x => Assumed "ann" "bob" s x ∧ InOrder "ann" "bob" s x)
    (Net.mount id joinAndGreet "ann" "bob" .message) s ∧
      ∃ messages, s.app.screen.messages = some messages ∧
        messages.map line = (s.store.conversation "ann" "bob").map line := by
  have hserve : InOrder "ann" "bob" (Net.mount id joinAndGreet "ann" "bob" .message)
      (.serve 0 6 noFault) := by
    intro m hm
    cases hm
  have hread : InOrder "ann" "bob" opened (.user (.handle 0 7)) := by
    intro es hes
    cases hes
    decide
  have hput : InOrder "ann" "bob" (talk [⟨"ann", "hi", 5⟩] "yo" .handled .out written)
      (.serve 1 8 noFault) := by
    intro m hm
    cases hm
    exact ⟨by decide, canShow_greeted⟩
  have hsent : InOrder "ann" "bob" (talk [⟨"ann", "hi", 5⟩] "yo" .handled
      (.answered (some (.sent "bob"))) writtenTwice) (.user (.handle 1 9)) := by
    intro es hes
    cases hes
  let ok : Net → NetAct → Prop := fun s x => Assumed "ann" "bob" s x ∧ InOrder "ann" "bob" s x
  have h1 : Run (Net.step id) ok (Net.mount id joinAndGreet "ann" "bob" .message) opened :=
    (Run.refl _).tail (a := NetAct.serve 0 6 noFault) ⟨rfl, hserve⟩ step_opened
  have h2 := h1.tail (a := NetAct.user (.handle 0 7)) ⟨trivial, hread⟩ rfl
  have h3 := h2.tail (a := NetAct.user (.onNewMessage "yo")) ⟨rfl, trivial⟩ rfl
  have h4 : Run (Net.step id) ok _ (talk [⟨"ann", "hi", 5⟩] "yo" .handled .out written) :=
    h3.tail (a := NetAct.user .press) ⟨trivial, rfl⟩ rfl
  have h5 := h4.tail (a := NetAct.serve 1 8 noFault) ⟨rfl, hput⟩ (step_talk _ _)
  have h6 : Run (Net.step id) ok _ (talk [⟨"ann", "hi", 5⟩, ⟨"ann", "yo", 9⟩] "" .handled .handled
      writtenTwice) := h5.tail (a := NetAct.user (.handle 1 9)) ⟨trivial, hsent⟩ rfl
  have hes : (Store.empty.serveAll id joinAndGreet).holds "ann" "bob" [⟨"ann", "hi", 5⟩] :=
    greeted ▸ ⟨⟨0, "ann", "bob"⟩, rfl, rfl⟩
  exact ⟨_, h6, list_converges id joinAndGreet (by decide) (by decide) (by decide) (by decide) hes
    h6 (by simp [talk]) (by simp [talk])⟩

/-- The list was read before the send and is received after it: the message vanishes. -/
theorem message_vanishes : ∃ s, Run (Net.step id) (Assumed "ann" "bob")
    (Net.mount id joinAndGreet "ann" "bob" .message) s ∧
      (∀ y ∈ s.app.fetches, y.2 = .handled) ∧
      (.makeRequest "ann" "bob", .handled) ∈ s.app.fetches ∧
      s.store.conversation "ann" "bob" = [⟨"ann", "hi", 5⟩, ⟨"ann", "yo", 8⟩] ∧
      ¬ ∃ messages, s.app.screen.messages = some messages ∧
        messages.map line = (s.store.conversation "ann" "bob").map line := by
  have h1 : Run (Net.step id) (Assumed "ann" "bob")
      (Net.mount id joinAndGreet "ann" "bob" .message) opened :=
    (Run.refl _).tail (a := NetAct.serve 0 6 noFault) rfl step_opened
  have h2 := h1.tail (a := NetAct.user (.onNewMessage "yo")) rfl rfl
  have h3 : Run (Net.step id) (Assumed "ann" "bob") _ (talk [] "yo" greeting .out written) :=
    h2.tail (a := NetAct.user .press) trivial rfl
  have h4 := h3.tail (a := NetAct.serve 1 8 noFault) rfl (step_talk _ _)
  have h5 : Run (Net.step id) (Assumed "ann" "bob") _
      (talk [⟨"ann", "yo", 9⟩] "" greeting .handled writtenTwice) :=
    h4.tail (a := NetAct.user (.handle 1 9)) trivial rfl
  have h6 : Run (Net.step id) (Assumed "ann" "bob") _
      (talk [⟨"ann", "hi", 5⟩] "" .handled .handled writtenTwice) :=
    h5.tail (a := NetAct.user (.handle 0 10)) trivial rfl
  refine ⟨_, h6, by simp [talk], by simp [talk], rfl, ?_⟩
  rintro ⟨messages, hm, hline⟩
  obtain rfl := Option.some.inj hm
  exact absurd hline (by decide)

end ChatScreen
end RecoupChat
