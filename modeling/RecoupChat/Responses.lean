import RecoupChat.System

/-! Every request is answered exactly once, whatever its calls return. -/
namespace RecoupChat
open Promise Transition
variable {M : Type}

/-! The row updates and the append of an existing chat. -/

theorem answers_updateTo (d : Send M) (toUpdate : List (Row M)) :
    Answers (sendMessage.updateTo d toUpdate) :=
  .chain _ _ _ fun _ => .ite (.reply _) (.reply _)

theorem answers_findTo (d : Send M) : Answers (sendMessage.findTo d) := by
  refine .chain _ _ _ fun result => ?_
  cases result with
  | none => exact .throw
  | some result =>
    simp only
    split
    · exact .throw
    · exact answers_updateTo d _

theorem answers_updateBy (d : Send M) (toUpdate : List (Row M)) :
    Answers (sendMessage.updateBy d toUpdate) :=
  .chain _ _ _ fun _ => .ite (answers_findTo d) (.reply _)

theorem answers_findBy (d : Send M) : Answers (sendMessage.findBy d) := by
  refine .chain _ _ _ fun result => ?_
  cases result with
  | none => exact .throw
  | some result =>
    simp only
    split
    · exact .throw
    · exact answers_updateBy d _

theorem answers_push (d : Send M) (chatId : Nat) : Answers (sendMessage.push d chatId) :=
  .chain _ _ _ fun _ => .ite (answers_findBy d) (.reply _)

/-! The branch that creates a chat. -/

theorem answers_createRowTo (d : Send M) (toUpdate : List (Row M)) :
    Answers (sendNewMessage.createRowTo d toUpdate) :=
  .chain _ _ _ fun _ => .ite (.reply _) (.reply _)

theorem answers_createFindTo (d : Send M) : Answers (sendNewMessage.createFindTo d) := by
  refine .chain _ _ _ fun result => ?_
  cases result with
  | none => exact .reply _
  | some result => exact answers_createRowTo d _

theorem answers_createRowBy (d : Send M) (toUpdate : List (Row M)) :
    Answers (sendNewMessage.createRowBy d toUpdate) :=
  .chain _ _ _ fun _ => .ite (answers_createFindTo d) (.reply _)

theorem answers_createFindBy (d : Send M) : Answers (sendNewMessage.createFindBy d) := by
  refine .chain _ _ _ fun result => ?_
  cases result with
  | none => exact .reply _
  | some result => exact answers_createRowBy d _

theorem answers_insertLog (d : Send M) (newChatId : Nat) :
    Answers (sendNewMessage.insertLog d newChatId) :=
  .chain _ _ _ fun _ => .ite (answers_createFindBy d) (.reply _)

theorem answers_insertChat (d : Send M) (newChatId : Nat) :
    Answers (sendNewMessage.insertChat d newChatId) :=
  .chain _ _ _ fun _ => .ite (answers_insertLog d newChatId) (.reply _)

theorem answers_findLast (d : Send M) : Answers (sendNewMessage.findLast d) :=
  .chain _ _ _ fun _ => answers_insertChat d _

theorem answers_findChat (d : Send M) : Answers (sendNewMessage.findChat d) := by
  refine .chain _ _ _ fun result => ?_
  cases result with
  | none => exact answers_findLast d
  | some result =>
    simp only [sendNewMessage_push]
    exact answers_push d _

/-! The requests. -/

theorem answers_sendMessage (d : Send M) : Answers (sendMessage d) := by
  refine .chain _ _ _ fun result => ?_
  cases result with
  | none => exact .reply _
  | some result => exact answers_push d _

theorem answers_sendNewMessage (toLowerCase : String → String) (d : Send M) :
    Answers (sendNewMessage toLowerCase d) :=
  .chain _ _ _ fun _ => .ite (answers_findChat d) (.reply _)

theorem answers_getUserChats (username : String) : Answers (getUserChats username : Handler M) := by
  refine .chain _ _ _ fun result => ?_
  cases result with
  | none => exact .reply _
  | some result => exact .reply _

theorem answers_findLog (chatId : Nat) :
    Answers (getUserChatMessages.findLog chatId : Handler M) := by
  refine .chain _ _ _ fun result => ?_
  cases result with
  | none => exact .throw
  | some result => exact .reply _

theorem answers_getUserChatMessages (owner recipient : String) :
    Answers (getUserChatMessages owner recipient : Handler M) := by
  refine .chain _ _ _ fun result => ?_
  cases result with
  | none => exact .reply _
  | some result => exact answers_findLog _

theorem answers_insertUserMessages (username : String) :
    Answers (addNewUser.insertUserMessages username : Handler M) :=
  .chain _ _ _ fun _ => .ite (.reply _) (.reply _)

theorem answers_addNewUser (username : String) : Answers (addNewUser username : Handler M) :=
  .chain _ _ _ fun _ => .ite (answers_insertUserMessages username) (.reply _)

theorem answers_handler (toLowerCase : String → String) (r : Request M) :
    Answers (r.handler toLowerCase) := by
  cases r with
  | getExistingUsernames => exact .chain _ _ _ fun _ => .reply _
  | getUserChats username => exact answers_getUserChats username
  | getUserChatMessages owner recipient => exact answers_getUserChatMessages owner recipient
  | sendMessage d => exact answers_sendMessage d
  | sendNewMessage d => exact answers_sendNewMessage toLowerCase d
  | addNewUser username => exact answers_addNewUser username

theorem handler_begin (toLowerCase : String → String) (r : Request M) :
    (r.handler toLowerCase).begin.Single := by
  refine (answers_handler toLowerCase r).body.resolve_right fun h => ?_
  cases r <;> cases h

/-- However the calls of a request settle, each fulfilled with any result of its type, with
one that the callback cannot read, or rejected: never more than one answer is sent, and
exactly one has been sent when no callback of the request remains to run. -/
theorem one_response (toLowerCase : String → String) (r : Request M) (th : HandlerThread M)
    (hr : Run Thread.step (fun _ _ => True) (r.handler toLowerCase).begin th) :
    th.sent.length ≤ 1 ∧ (th.pending = [] → th.sent.length = 1) :=
  single_run (handler_begin toLowerCase r) hr

def noRows : (c : Call String) → Settlement c.Result
  | .chatIdsFindOne _ _ => .fulfilled (some ⟨0, "ann", "bob"⟩)
  | .chatMessagesPush _ _ => .fulfilled ⟨1⟩
  | .userMessagesFindOne _ => .fulfilled none
  | _ => .rejected

theorem one_response_noRows : ∃ th : HandlerThread String,
    Run Thread.step (fun _ _ => True)
      ((Request.sendMessage ⟨"ann", "bob", "hi", 1⟩).handler id).begin th ∧
      th.pending = [] ∧ th.sent = [.error "DB_ERR"] ∧ th.sent.length = 1 := by
  obtain ⟨th, hr, hp, hs⟩ : ∃ th : HandlerThread String, Run Thread.step (fun _ _ => True)
      ((Request.sendMessage ⟨"ann", "bob", "hi", 1⟩).handler id).begin th ∧
        th.pending = [] ∧ th.sent = [.error "DB_ERR"] :=
    Run.exists_of_follow [(0, noRows), (0, noRows), (0, noRows)] (by decide)
  exact ⟨th, hr, hp, hs, (one_response id _ th hr).2 hp⟩

end RecoupChat
