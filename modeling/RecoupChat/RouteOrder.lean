import RecoupChat.Routes

/-! What depends on the order in which server.js registers its routes. -/
namespace Router

theorem find?_perm {α : Type} {p : α → Bool} {xs ys : List α} (h : xs.Perm ys)
    (honly : xs.Pairwise fun x y => ¬ (p x = true ∧ p y = true)) : xs.find? p = ys.find? p := by
  induction h with
  | nil => rfl
  | cons x _ ih =>
    simp only [List.find?_cons]
    rw [ih (List.pairwise_cons.mp honly).2]
  | swap x y xs =>
    have hxy := (List.pairwise_cons.mp honly).1 x List.mem_cons_self
    simp only [List.find?_cons]
    cases hx : p x <;> cases hy : p y <;> simp_all
  | trans hxy _ ih ih' =>
    have hsymm : ∀ {x y : _}, ¬ (p x = true ∧ p y = true) → ¬ (p y = true ∧ p x = true) :=
      fun hno hboth => hno hboth.symm
    exact (ih honly).trans (ih' ((hxy.pairwise_iff hsymm).mp honly))

theorem dispatch_perm {H : Type} {method : Method} {url : List Char} {rs rs' : List (Route H)}
    (h : rs.Perm rs') (honly : rs.Pairwise fun r r' =>
      ¬ (r.fits method url = true ∧ r'.fits method url = true)) :
    dispatch rs method url = dispatch rs' method url := by
  rw [dispatch, dispatch, find?_perm h honly]

theorem no_percent_of_sameText {s t : List Char} (h : sameText s t = true)
    (ht : '%' ∉ t.map Char.toLower) : '%' ∉ s := by
  intro hm
  have hlower : '%' ∈ s.map Char.toLower := List.mem_map.mpr ⟨'%', hm, rfl⟩
  rw [beq_iff_eq.mp h] at hlower
  exact ht hlower

end Router

namespace RecoupChat
open Router
variable {M : Type}

def HttpRequest.receiveBy (order : List (Route (RouteHandler M))) (req : HttpRequest M)
    (timeNow : Int) : Option (Request M) :=
  (dispatch order req.method req.url.toList).bind fun (handler, ps) =>
    handler (param ps) req.message timeNow

def bothPath : Pattern := [.literal "add", .literal "user", .literal "message"]

def HttpRequest.Ambiguous (req : HttpRequest M) : Prop :=
  req.method = .POST ∧ bothPath.accepts (segments req.url.toList) = true

theorem bothPath_accepts (ss : List (List Char)) : bothPath.accepts ss = true ↔
    sendPath.accepts ss = true ∧ addUserPath.accepts ss = true := by
  have hne {s : List Char} {text : String} (h : sameText s text.toList = true)
      (ht : text.toList ≠ []) : s ≠ [] := by
    rintro rfl
    exact ht (List.eq_nil_of_length_eq_zero (length_sameText h).symm)
  match ss with
  | [] | [_] | [_, _] => simp [bothPath, sendPath, Pattern.accepts]
  | add :: user :: message :: rest =>
    simp only [bothPath, sendPath, addUserPath, Pattern.accepts, Segment.accepts, Bool.and_eq_true,
      Bool.not_eq_true', List.isEmpty_eq_false_iff]
    constructor
    · rintro ⟨hadd, huser, hmessage, hrest⟩
      exact ⟨⟨hne hadd (by decide), hne huser (by decide), hmessage, hrest⟩,
        hadd, huser, hne hmessage (by decide), hrest⟩
    · rintro ⟨⟨-, -, hmessage, hrest⟩, hadd, huser, -, -⟩
      exact ⟨hadd, huser, hmessage, hrest⟩

/-- Only the two POST routes overlap. -/
theorem overlaps_routes : (routes : List (Route (RouteHandler M))).Pairwise fun r r' =>
    r.overlaps r' = true →
      r.method = .POST ∧ r.pattern = sendPath ∧ r'.pattern = addUserPath := by
  simp [routes, Route.overlaps, Pattern.overlaps, Segment.overlaps, Segment.accepts, rootPath,
    existingPath, chatsPath, messagesPath, sendPath, addUserPath, sameText]

theorem receiveBy_perm {req : HttpRequest M} (ha : ¬ req.Ambiguous)
    {order : List (Route (RouteHandler M))} (h : order.Perm routes) (timeNow : Int) :
    req.receiveBy order timeNow = req.receive timeNow := by
  rw [HttpRequest.receiveBy, HttpRequest.receive, ← dispatch_perm h.symm]
  refine overlaps_routes.imp ?_
  rintro r r' hover ⟨hr, hr'⟩
  obtain ⟨hm, hsend, hadd⟩ := hover (overlaps_of_fits hr hr')
  obtain ⟨hmethod, hacc⟩ := Bool.and_eq_true_iff.mp hr
  have hacc' := (Bool.and_eq_true_iff.mp hr').2
  rw [hsend] at hacc
  rw [hadd] at hacc'
  exact ha ⟨(of_decide_eq_true hmethod).symm.trans hm, (bothPath_accepts _).mpr ⟨hacc, hacc'⟩⟩

def exchanged : List (Route (RouteHandler M)) :=
  routes.take 5 ++ (routes.drop 5).reverse

theorem exchanged_perm : (exchanged : List (Route (RouteHandler M))).Perm routes := by
  have hback := (List.reverse_perm (routes.drop 5)).append_left
    ((routes : List (Route (RouteHandler M))).take 5)
  rwa [List.take_append_drop] at hback

theorem params_bothPath {ss : List (List Char)} (h : bothPath.accepts ss = true) :
    (sendPath.params ss).isSome ∧ (addUserPath.params ss).isSome := by
  match ss with
  | [] | [_] | [_, _] => simp [bothPath, Pattern.accepts] at h
  | add :: user :: message :: rest =>
    simp only [bothPath, Pattern.accepts, Segment.accepts, Bool.and_eq_true] at h
    obtain ⟨hadd, huser, hmessage, -⟩ := h
    have hplain {s : List Char} {text : String} (h : sameText s text.toList = true)
        (ht : '%' ∉ text.toList.map Char.toLower) : decodeURIComponent s = some s :=
      decode_plain (no_percent_of_sameText h ht)
    simp [sendPath, addUserPath, Pattern.params, hplain hadd (by decide),
      hplain huser (by decide), hplain hmessage (by decide)]

theorem receive_ambiguous {req : HttpRequest M} (ha : req.Ambiguous) (timeNow : Int) :
    (∃ d, req.receive timeNow = some (.sendNewMessage d)) ∧
      ∃ u, req.receiveBy exchanged timeNow = some (.addNewUser u) := by
  obtain ⟨hm, hboth⟩ := ha
  obtain ⟨hsend, hadd⟩ := (bothPath_accepts _).mp hboth
  obtain ⟨hsome, hname⟩ := params_bothPath hboth
  obtain ⟨ps, hps⟩ := Option.isSome_iff_exists.mp hsome
  obtain ⟨qs, hqs⟩ := Option.isSome_iff_exists.mp hname
  constructor
  · rw [receive_alone 5 rfl rfl hm.symm hsend, hps]
    exact ⟨_, rfl⟩
  · let r : Route (RouteHandler M) :=
      ⟨.POST, addUserPath, fun params _ _ => some (.addNewUser (params "username"))⟩
    have hfit : r.fits req.method req.url.toList = true := by simp [Route.fits, r, hm, hadd]
    have hb : ∀ q ∈ (routes : List (Route (RouteHandler M))).take 5,
        q.fits req.method req.url.toList = false := by
      simp [routes, Route.fits, hm]
    have hsplit : (exchanged : List (Route (RouteHandler M))) = routes.take 5 ++ r :: [_] := rfl
    rw [HttpRequest.receiveBy, hsplit, dispatch_first hfit hb, hqs]
    exact ⟨_, rfl⟩

/-- Each request has the same meaning under every order of the routes, but for a POST to
`/add/user/message`. -/
theorem order_irrelevant_iff (req : HttpRequest M) (timeNow : Int) :
    (∀ order, order.Perm routes → req.receiveBy order timeNow = req.receive timeNow) ↔
      ¬ req.Ambiguous := by
  constructor
  · intro hall ha
    obtain ⟨⟨d, hd⟩, u, hu⟩ := receive_ambiguous ha timeNow
    rw [hall exchanged exchanged_perm, hd] at hu
    cases hu
  · exact fun ha order h => receiveBy_perm ha h timeNow

end RecoupChat
