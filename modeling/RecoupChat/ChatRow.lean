import RecoupChat.ChatPreview
import RecoupChat.JsValue
import RecoupChat.RowContents
import RecoupChat.Sequential

/-! Which stored rows `Chat` can display. A message reaches the rows as the server reads it from
the body of a request, and `Chat` as JSON carries it back. -/
namespace RecoupChat
open Promise Collection JsValue
variable {M N : Type}

/-- What `bodyParser.json` leaves in `req.body`: an object without fields if there is no body. -/
inductive Body where
  | array (elements : Elements)
  | object (fields : Fields)

def Body.message : Body → Option Json
  | .array _ => none
  | .object fields => fields.get? (text "message")

/-- An undefined field is stored as null. -/
def Body.stored (body : Body) : Json := body.message.getD .null

def Send.map (f : M → N) (d : Send M) : Send N := ⟨d.sentBy, d.sentTo, f d.message, d.timeNow⟩

def Request.map (f : M → N) : Request M → Request N
  | .getExistingUsernames => .getExistingUsernames
  | .getUserChats username => .getUserChats username
  | .getUserChatMessages owner recipient => .getUserChatMessages owner recipient
  | .sendMessage d => .sendMessage (d.map f)
  | .sendNewMessage d => .sendNewMessage (d.map f)
  | .addNewUser username => .addNewUser username

/-! The component. An outer `none` is an exception. -/

namespace Chat

/-- `displayMessage` for any value. Only strings have a `substring` to call. -/
def display (lastMessage : Json) : Option Json :=
  lastMessage.length.bind fun length =>
    (atLeast 40 length).bind fun long =>
      if long then
        match lastMessage with
        | .string s => some (.string (displayMessage s))
        | _ => none
      else some lastMessage

/-- `timeSent` by hours and minutes; an invalid date has neither. -/
def time : Option (Nat × Nat) → String
  | none => "NaN:NaN PM"
  | some (hours, minutes) =>
    let amPM := if hours < 12 then "AM" else "PM"
    let hours := if hours % 12 = 0 then 12 else hours % 12
    let minutes := if minutes < 10 then "0" ++ toString minutes else toString minutes
    toString hours ++ ":" ++ minutes ++ " " ++ amPM

end Chat

def Chat (clock : Int → Option (Nat × Nat)) (data : Row Json) : Option (String × Json × String) :=
  (Chat.display data.lastMessage).map fun displayMessage =>
    (data.toUsername, displayMessage, Chat.time (clock data.lastMessageTime))

def Row.sent (row : Row Json) : Row Json := { row with lastMessage := row.lastMessage.sent }

/-- Not null and not infinite, no array of 40 elements or more, and no object whose `length`
throws or is at least 40 as a number. -/
def Displayable : Json → Prop
  | .null => False
  | .bool _ | .string _ => True
  | .number value => ∃ q, value = .finite q
  | .array elements => elements.length < 40
  | .object fields => ∀ length, fields.get? (text "length") = some length →
      atLeast 40 (some length.sent) = some false

theorem atLeast_length (n : Nat) :
    atLeast 40 (some (.number (.finite n))) = some (decide (40 ≤ n)) := by
  simp [atLeast, Json.toNumber, Number.atLeast]

theorem display_sent_iff (value : Json) :
    (Chat.display value.sent).isSome ↔ Displayable value := by
  cases value with
  | null => simp [Json.sent, Chat.display, Json.length, Displayable]
  | bool b => simp [Json.sent, Chat.display, Json.length, Displayable, atLeast]
  | number n =>
    cases n <;>
      simp [Json.sent, Number.sent, Chat.display, Json.length, Displayable, atLeast]
  | string s =>
    by_cases hlong : 40 ≤ s.length <;>
      simp [Json.sent, Chat.display, Json.length, Displayable, atLeast_length, hlong]
  | array es =>
    have hiff : es.length < 40 ↔ ¬ 40 ≤ es.length := Nat.not_le.symm
    by_cases hlong : 40 ≤ es.length <;>
      simp [Json.sent, Chat.display, Json.length, Displayable, atLeast_length, length_sent, hiff,
        hlong]
  | object fs =>
    simp only [Json.sent, Chat.display, Json.length, Displayable, get?_sent, Option.bind_some]
    cases hfield : fs.get? (text "length") with
    | none => simp [atLeast]
    | some length =>
      cases hat : atLeast 40 (some length.sent) with
      | none => simp [hat]
      | some long => cases long <;> simp [hat]

theorem chat_sent_iff (clock : Int → Option (Nat × Nat)) (row : Row Json) :
    (Chat clock row.sent).isSome ↔ Displayable row.lastMessage := by
  rw [Chat, Option.isSome_map]
  exact display_sent_iff row.lastMessage

/-! The messages that a run brings into the rows. -/

/-- A send that ends at its first read: to an unknown recipient, or without a chat where one is
needed. -/
def Store.refuses (toLowerCase : String → String) (s : Store M) : Request M → Bool
  | .sendMessage d => (s.chat d.sentBy d.sentTo).isNone
  | .sendNewMessage d => !userExists toLowerCase d.sentTo s.users
  | _ => false

section Runs
variable {toLowerCase : String → String} {P : M → Prop}

variable [DecidableEq M]

/-- Every message that a send gets past its first read with has `P`. -/
def Store.Takes (toLowerCase : String → String) (P : M → Prop) (s : Store M) :
    List (Request M × (Nat → Bool)) → Prop
  | [] => True
  | (r, fails) :: rs =>
    (s.refuses toLowerCase r = false → ∀ d, r.send? = some d → P d.message) ∧
      (s.serve toLowerCase r fails).1.Takes toLowerCase P rs

theorem rowsAll_serve {Q : M → Int → Prop} {s : Store M} (h : RowsAll Q s) {r : Request M}
    (hr : ∀ d, r.send? = some d → Q d.message d.timeNow) (fails : Nat → Bool) :
    RowsAll Q (s.serve toLowerCase r fails).1 := by
  obtain ⟨resp, -, hI⟩ := Point.alone_invariant toLowerCase fails
    (I := fun p s => RowsAll Q s ∧ p.Carries Q) (fun p s _ => carries_next p s)
    (fun _ _ _ _ hI => ⟨hI.1, trivial⟩) (p := Point.start r) ⟨h, carries_start hr⟩
  rw [Point.serve_eq_alone]
  exact hI.1

theorem serve_refused {s : Store M} {r : Request M} (h : s.refuses toLowerCase r = true)
    (fails : Nat → Bool) : (s.serve toLowerCase r fails).1 = s := by
  rw [Point.serve_eq_alone]
  cases r with
  | sendMessage d =>
    have hc : s.chat d.sentBy d.sentTo = none := Option.isNone_iff_eq_none.mp h
    rw [Point.start, Point.alone_next toLowerCase (by simp [Point.call?])]
    simp only [Point.next, hc]
    split <;> rfl
  | sendNewMessage d =>
    have hu : userExists toLowerCase d.sentTo s.users = false := Bool.not_eq_true' _ ▸ h
    rw [Point.start, Point.alone_next toLowerCase (by simp [Point.call?])]
    simp only [Point.next, hu]
    split <;> rfl
  | _ => cases h

theorem rowsAll_serveAll {s : Store M} (h : RowsAll (fun m _ => P m) s)
    {rs : List (Request M × (Nat → Bool))} (hrs : s.Takes toLowerCase P rs) :
    RowsAll (fun m _ => P m) (s.serveAll toLowerCase rs) := by
  induction rs generalizing s with
  | nil => exact h
  | cons r rs ih =>
    refine ih ?_ hrs.2
    by_cases hre : s.refuses toLowerCase r.1 = true
    · rw [serve_refused hre]
      exact h
    · exact rowsAll_serve h (fun d hd => hrs.1 (Bool.not_eq_true _ ▸ hre) d hd) r.2

theorem rowsAll_chats {s : Store M} (h : RowsAll (fun m _ => P m) s) {u : String} {fails : Nat → Bool}
    {chats : List (Row M)}
    (hc : (s.serve toLowerCase (.getUserChats u) fails).2 = [.chats chats]) :
    ∀ r ∈ chats, P r.lastMessage := by
  rw [Point.serve_eq_alone] at hc
  have hsame := Point.alone_of_success toLowerCase hc rfl
  rw [hsame, ← Point.serve_eq_alone, serve_getUserChats] at hc
  obtain rfl : jsSort newestFirst ((s.rows u).getD []) = chats := by simpa using hc
  intro r hr
  rw [jsSort, List.mem_mergeSort] at hr
  cases hrows : s.rows u with
  | none => simp [hrows] at hr
  | some rows =>
    rw [hrows] at hr
    exact h.rows hrows r hr

end Runs

/-- After every run of requests one after the other, with any calls rejected, each row that
`getUserChats` answers can be displayed if each message that was not refused can. -/
theorem rows_displayable (toLowerCase : String → String) (clock : Int → Option (Nat × Nat))
    (rs : List (Request Body × (Nat → Bool)))
    (hrs : Store.empty.Takes toLowerCase Displayable (rs.map fun r => (r.1.map Body.stored, r.2)))
    (username : String) (fails : Nat → Bool) (chats : List (Row Json))
    (hc : ((Store.empty.serveAll toLowerCase (rs.map fun r => (r.1.map Body.stored, r.2))).serve
      toLowerCase (.getUserChats username) fails).2 = [.chats chats]) :
    ∀ row ∈ chats, (Chat clock row.sent).isSome := by
  have hempty : RowsAll (fun m _ => Displayable m) (Store.empty : Store Json) := fun um hm => by
    simp [Store.empty] at hm
  intro row hrow
  exact (chat_sent_iff clock row).mpr (rowsAll_chats (rowsAll_serveAll hempty hrs) hc row hrow)

def annWrites (body : Body) : List (Request Body × (Nat → Bool)) :=
  [(.addNewUser "ann", noFault), (.addNewUser "bob", noFault),
    (.sendNewMessage ⟨"ann", "bob", body, 1⟩, noFault)]

theorem chats_annWrites (body : Body) :
    ((Store.empty.serveAll id ((annWrites body).map fun r => (r.1.map Body.stored, r.2))).serve id
      (.getUserChats "bob") noFault).2 = [.chats [⟨"ann", body.stored, 1⟩]] := by
  have hrows : (Store.empty.serveAll id
      ((annWrites body).map fun r => (r.1.map Body.stored, r.2))).rows "bob" =
        some [⟨"ann", body.stored, 1⟩] := rfl
  rw [serve_getUserChats, hrows]
  simp [jsSort]

def saysHi : Body := .object (.cons (text "message") (.string (text "hi")) .nil)

theorem rows_displayable_hi :
    (Chat (fun _ => some (9, 5)) (Row.sent ⟨"ann", saysHi.stored, 1⟩)).isSome := by
  have htakes : Store.empty.Takes id Displayable
      ((annWrites saysHi).map fun r => (r.1.map Body.stored, r.2)) := by
    refine ⟨fun _ d hd => ?_, fun _ d hd => ?_, fun _ d hd => ?_, trivial⟩ <;> cases hd
    trivial
  exact rows_displayable id _ _ htakes "bob" noFault _ (chats_annWrites saysHi) _
    List.mem_cons_self

/-- A request without a message makes a row that cannot be displayed. -/
theorem null_undisplayable :
    ((Store.empty.serveAll id
      ((annWrites (.object .nil)).map fun r => (r.1.map Body.stored, r.2))).serve id
        (.getUserChats "bob") noFault).2 = [.chats [⟨"ann", .null, 1⟩]] ∧
      ¬ (Chat (fun _ => some (9, 5)) (Row.sent ⟨"ann", .null, 1⟩)).isSome :=
  ⟨chats_annWrites (.object .nil), by decide⟩

end RecoupChat
