import Mathlib.Data.List.Forall2

/-! How a server reads a request URL: the path, its segments, the first route in registration
order whose pattern fits, and the percent-decoded parameters. A character that a client escapes
comes back when the server decodes it, so it stands for itself here. -/
namespace Router

/-! The path of a URL. -/

/-- Neither the fragment nor the query belongs to the path. -/
def pathname (url : List Char) : List Char :=
  (url.takeWhile (· ≠ '#')).takeWhile (· ≠ '?')

def segments (url : List Char) : List (List Char) := ((pathname url).splitOn '/').tail

/-- No character has a meaning in a URL. -/
def Plain (s : List Char) : Prop := ∀ c ∈ s, c ∉ ['/', '?', '#', '%']

instance (s : List Char) : Decidable (Plain s) := List.decidableBAll _ s

theorem pathname_append_of_plain {s : List Char} (h : '#' ∉ s ∧ '?' ∉ s) (t : List Char) :
    pathname (s ++ t) = s ++ pathname t := by
  have hq : ∀ c ∈ s, (c ≠ '?') := fun c hc he => h.2 (he ▸ hc)
  have hh : ∀ c ∈ s, (c ≠ '#') := fun c hc he => h.1 (he ▸ hc)
  simp only [pathname]
  rw [List.takeWhile_append_of_pos (by simpa using hh),
    List.takeWhile_append_of_pos (by simpa using hq)]

theorem pathname_append_of_mem {s : List Char} (h : '#' ∈ s ∨ '?' ∈ s) (t : List Char) :
    (pathname (s ++ t)).length < s.length := by
  induction s with
  | nil => simp at h
  | cons c s ih =>
    by_cases hc : c = '#' ∨ c = '?'
    · cases hc with
      | inl hc => simp [pathname, hc]
      | inr hc => simp [pathname, hc]
    · obtain ⟨hh, hq⟩ := not_or.mp hc
      have hs : '#' ∈ s ∨ '?' ∈ s := by grind
      have hcons : pathname (c :: s ++ t) = c :: pathname (s ++ t) :=
        pathname_append_of_plain (s := [c]) (by grind) (s ++ t)
      rw [hcons]
      simpa using ih hs

theorem segments_slash (t : List Char) : segments ('/' :: t) = (pathname t).splitOn '/' := by
  have hp : pathname ('/' :: t) = '/' :: pathname t :=
    pathname_append_of_plain (s := ['/']) (by decide) t
  rw [segments, hp, List.splitOn_cons_eq_if_modifyHead]
  rfl

theorem splitOn_head {s p : List Char} {ps : List (List Char)} (h : s.splitOn '/' = p :: ps) :
    p.length ≤ s.length ∧ ('/' ∈ s → p.length < s.length) := by
  by_cases hm : '/' ∈ s
  · obtain ⟨a, b, rfl, ha⟩ := List.eq_append_cons_of_mem hm
    rw [List.splitOn_append_cons_self_of_not_mem ha] at h
    obtain ⟨rfl, -⟩ := List.cons.inj h
    simp
  · rw [List.splitOn_eq_singleton hm] at h
    obtain ⟨rfl, -⟩ := List.cons.inj h
    exact ⟨Nat.le_refl _, fun hs => absurd hs hm⟩

def join (ns : List (List Char)) : List Char := ns.flatMap fun n => '/' :: n

theorem segments_join_cons {n : List Char} (h : ∀ c ∈ n, c ∉ ['/', '?', '#'])
    (ns : List (List Char)) : segments (join (n :: ns)) = n :: segments (join ns) := by
  have hslash : '/' ∉ n := fun hm => h _ hm (by decide)
  have hends : '#' ∉ n ∧ '?' ∉ n := ⟨fun hm => h _ hm (by decide), fun hm => h _ hm (by decide)⟩
  have hurl : join (n :: ns) = '/' :: (n ++ join ns) := rfl
  rw [hurl, segments_slash, pathname_append_of_plain hends]
  cases ns with
  | nil =>
    have hnil : pathname (join []) = [] := rfl
    rw [hnil, List.append_nil, List.splitOn_eq_singleton hslash]
    rfl
  | cons m ns =>
    have hrest : pathname (join (m :: ns)) = '/' :: pathname (m ++ join ns) :=
      pathname_append_of_plain (s := ['/']) (by decide) _
    have hsegs : segments (join (m :: ns)) = (pathname (m ++ join ns)).splitOn '/' :=
      segments_slash _
    rw [hrest, List.splitOn_append_cons_self_of_not_mem hslash, hsegs]

theorem segments_join_plain {ns : List (List Char)}
    (h : ∀ n ∈ ns, ∀ c ∈ n, c ∉ ['/', '?', '#']) : segments (join ns) = ns := by
  induction ns with
  | nil => rfl
  | cons n ns ih =>
    rw [segments_join_cons (h n List.mem_cons_self), ih fun m hm => h m (List.mem_cons_of_mem n hm)]

theorem segments_join_short {n p : List Char} {ns rest : List (List Char)}
    (hsep : ¬ ∀ c ∈ n, c ∉ ['/', '?', '#']) (hs : segments (join (n :: ns)) = p :: rest) :
    p.length < n.length := by
  have hurl : join (n :: ns) = '/' :: (n ++ join ns) := rfl
  rw [hurl, segments_slash] at hs
  by_cases hends : '#' ∈ n ∨ '?' ∈ n
  · have hlt := pathname_append_of_mem hends (join ns)
    have hle := (splitOn_head hs).1
    omega
  · have hslash : '/' ∈ n := by grind
    rw [pathname_append_of_plain (not_or.mp hends)] at hs
    obtain ⟨a, b, rfl, ha⟩ := List.eq_append_cons_of_mem hslash
    rw [List.append_assoc, List.cons_append, List.splitOn_append_cons_self_of_not_mem ha] at hs
    obtain ⟨rfl, -⟩ := List.cons.inj hs
    simp

/-- When a server finds as many segments as texts were joined, they are these texts, or one
of them is shorter than its text. -/
theorem segments_join {ns ps : List (List Char)} (hlen : ps.length = ns.length)
    (hs : segments (join ns) = ps ∨ segments (join ns) = ps ++ [[]]) :
    ps = ns ∧ (∀ n ∈ ns, ∀ c ∈ n, c ∉ ['/', '?', '#']) ∨
      ∃ x ∈ ps.zip ns, x.1.length < x.2.length := by
  induction ns generalizing ps with
  | nil => exact Or.inl ⟨List.length_eq_zero_iff.mp hlen, by simp⟩
  | cons n ns ih =>
    cases ps with
    | nil => cases hlen
    | cons p ps =>
      by_cases hn : ∀ c ∈ n, c ∉ ['/', '?', '#']
      · rw [segments_join_cons hn] at hs
        have hp : n = p := hs.elim (fun h => (List.cons.inj h).1) fun h => (List.cons.inj h).1
        have htail : segments (join ns) = ps ∨ segments (join ns) = ps ++ [[]] :=
          hs.imp (fun h => (List.cons.inj h).2) fun h => (List.cons.inj h).2
        cases ih (by simpa using hlen) htail with
        | inl hsame =>
          obtain ⟨hps, hclean⟩ := hsame
          exact Or.inl ⟨by rw [hp, hps], List.forall_mem_cons.mpr ⟨hn, hclean⟩⟩
        | inr hshort =>
          obtain ⟨x, hx, hlt⟩ := hshort
          exact Or.inr ⟨x, List.mem_cons_of_mem _ hx, hlt⟩
      · have hfirst : ∃ rest, segments (join (n :: ns)) = p :: rest :=
          hs.elim (fun h => ⟨_, h⟩) fun h => ⟨_, h⟩
        obtain ⟨rest, hrest⟩ := hfirst
        exact Or.inr ⟨(p, n), List.mem_cons_self, segments_join_short hn hrest⟩

/-! `decodeURIComponent` -/

def hexDigit (c : Char) : Option Nat :=
  if '0' ≤ c ∧ c ≤ '9' then some (c.toNat - 48)
  else if 'a' ≤ c ∧ c ≤ 'f' then some (c.toNat - 87)
  else if 'A' ≤ c ∧ c ≤ 'F' then some (c.toNat - 55)
  else none

inductive Piece where
  | char (c : Char)
  | byte (b : Nat)

def unescape : List Char → Option (List Piece)
  | [] => some []
  | c :: cs =>
    if c = '%' then
      match cs with
      | hi :: lo :: rest =>
        (hexDigit hi).bind fun h => (hexDigit lo).bind fun l =>
          (unescape rest).map fun ps => .byte (16 * h + l) :: ps
      | _ => none
    else (unescape cs).map fun ps => .char c :: ps

/-- A UTF-8 sequence under way: its bits so far, the bytes still to come and the least code
point that it may encode. -/
structure Sequence where
  bits : Nat
  toCome : Nat
  least : Nat

def lead (b : Nat) : Option Sequence :=
  if b < 0xC0 then none
  else if b < 0xE0 then some ⟨b - 0xC0, 1, 0x80⟩
  else if b < 0xF0 then some ⟨b - 0xE0, 2, 0x800⟩
  else if b < 0xF8 then some ⟨b - 0xF0, 3, 0x10000⟩
  else none

def assemble : Option Sequence → List Piece → Option (List Char)
  | none, [] => some []
  | none, .char c :: ps => (assemble none ps).map fun cs => c :: cs
  | none, .byte b :: ps =>
    if b < 0x80 then (assemble none ps).map fun cs => Char.ofNat b :: cs
    else (lead b).bind fun seq => assemble (some seq) ps
  | some seq, .byte b :: ps =>
    let bits := seq.bits * 64 + (b - 0x80)
    if b < 0x80 ∨ 0xC0 ≤ b then none
    else if seq.toCome ≤ 1 then
      if seq.least ≤ bits ∧ bits.isValidChar then
        (assemble none ps).map fun cs => Char.ofNat bits :: cs
      else none
    else assemble (some ⟨bits, seq.toCome - 1, seq.least⟩) ps
  | some _, _ => none

def decodeURIComponent (s : List Char) : Option (List Char) := (unescape s).bind (assemble none)

theorem unescape_cons {c : Char} (hc : c ≠ '%') (cs : List Char) :
    unescape (c :: cs) = (unescape cs).map fun ps => .char c :: ps := by
  rw [unescape.eq_def]
  exact if_neg hc

theorem unescape_plain {s : List Char} (h : '%' ∉ s) : unescape s = some (s.map .char) := by
  induction s with
  | nil => rfl
  | cons c cs ih =>
    have hc : c ≠ '%' := fun he => h (he ▸ List.mem_cons_self)
    rw [unescape_cons hc, ih fun hm => h (List.mem_cons_of_mem c hm)]
    rfl

theorem assemble_chars (s : List Char) : assemble none (s.map .char) = some s := by
  induction s with
  | nil => rfl
  | cons c cs ih =>
    rw [List.map_cons, assemble, ih]
    rfl

theorem decode_plain {s : List Char} (h : '%' ∉ s) : decodeURIComponent s = some s := by
  rw [decodeURIComponent, unescape_plain h]
  exact assemble_chars s

theorem length_unescape {s : List Char} {ps : List Piece} (h : unescape s = some ps) :
    ps.length ≤ s.length ∧ ('%' ∈ s → ps.length < s.length) := by
  induction s using unescape.induct generalizing ps with
  | case1 =>
    obtain rfl : [] = ps := Option.some.inj h
    simp
  | case2 hi lo rest ih =>
    rw [unescape, if_pos rfl] at h
    obtain ⟨a, -, h⟩ := Option.bind_eq_some_iff.mp h
    obtain ⟨b, -, h⟩ := Option.bind_eq_some_iff.mp h
    obtain ⟨qs, hq, rfl⟩ := Option.map_eq_some_iff.mp h
    have hlen := (ih hq).1
    simp only [List.length_cons]
    omega
  | case3 cs hne =>
    rw [unescape, if_pos rfl] at h
    · cases h
    · exact hne
  | case4 c cs hc ih =>
    rw [unescape_cons hc] at h
    obtain ⟨qs, hq, rfl⟩ := Option.map_eq_some_iff.mp h
    obtain ⟨hle, hlt⟩ := ih hq
    refine ⟨by simpa using hle, fun hm => ?_⟩
    have hcs : '%' ∈ cs := (List.mem_cons.mp hm).resolve_left (Ne.symm hc)
    simpa using hlt hcs

theorem length_assemble {seq : Option Sequence} {ps : List Piece} {cs : List Char}
    (h : assemble seq ps = some cs) : cs.length ≤ ps.length := by
  induction ps generalizing seq cs with
  | nil =>
    cases seq with
    | none =>
      obtain rfl : [] = cs := Option.some.inj h
      simp
    | some seq => cases h
  | cons p ps ih =>
    -- each piece gives at most one character, in whichever way it is read
    have hmap {c : Char} (h : (assemble none ps).map (fun cs => c :: cs) = some cs) :
        cs.length ≤ ps.length + 1 := by
      obtain ⟨ds, hd, rfl⟩ := Option.map_eq_some_iff.mp h
      simpa using ih hd
    rw [List.length_cons]
    cases seq with
    | none =>
      cases p with
      | char c => exact hmap h
      | byte b =>
        rw [assemble] at h
        split at h
        · exact hmap h
        · obtain ⟨seq, -, h⟩ := Option.bind_eq_some_iff.mp h
          exact Nat.le_succ_of_le (ih h)
    | some seq =>
      cases p with
      | char c => cases h
      | byte b =>
        simp only [assemble] at h
        split at h
        · cases h
        · split at h
          · split at h
            · exact hmap h
            · cases h
          · exact Nat.le_succ_of_le (ih h)

theorem length_decode {s v : List Char} (h : decodeURIComponent s = some v) :
    v.length ≤ s.length ∧ ('%' ∈ s → v.length < s.length) := by
  obtain ⟨ps, hu, ha⟩ := Option.bind_eq_some_iff.mp h
  have hle := length_assemble ha
  have hps := length_unescape hu
  exact ⟨Nat.le_trans hle hps.1, fun hm => Nat.lt_of_le_of_lt hle (hps.2 hm)⟩

theorem decode_eq_self {s v : List Char} (h : decodeURIComponent s = some v)
    (hl : s.length ≤ v.length) : '%' ∉ s ∧ v = s := by
  have hn : '%' ∉ s := fun hm => absurd ((length_decode h).2 hm) (Nat.not_lt.mpr hl)
  exact ⟨hn, Option.some.inj (h.symm.trans (decode_plain hn))⟩

example : decodeURIComponent "a%20b%C3%A9".toList = some "a bé".toList := by decide +kernel

/-! Patterns. -/

inductive Segment where
  | literal (text : String)
  | param (name : String)

abbrev Pattern := List Segment

def sameText (s t : List Char) : Bool := s.map Char.toLower == t.map Char.toLower

def Segment.accepts : Segment → List Char → Bool
  | .literal text, s => sameText s text.toList
  | .param _, s => !s.isEmpty

/-- A trailing slash is optional. -/
def Pattern.accepts : Pattern → List (List Char) → Bool
  | [], [] => true
  | [], [s] => s.isEmpty
  | seg :: pat, s :: ss => seg.accepts s && Pattern.accepts pat ss
  | _, _ => false

def Pattern.params : Pattern → List (List Char) → Option (List (String × String))
  | .literal _ :: pat, _ :: ss => Pattern.params pat ss
  | .param name :: pat, s :: ss => (decodeURIComponent s).bind fun v =>
      (Pattern.params pat ss).map fun ps => (name, String.ofList v) :: ps
  | _, _ => some []

def Segment.fill (value : String → String) : Segment → List Char
  | .literal text => text.toList
  | .param name => (value name).toList

def Pattern.url (pat : Pattern) (value : String → String) : List Char :=
  join (pat.map (Segment.fill value))

def Segment.Clean : Segment → Prop
  | .literal text => Plain text.toList
  | .param _ => True

instance : DecidablePred Segment.Clean
  | .literal text => inferInstanceAs (Decidable (Plain text.toList))
  | .param _ => isTrue trivial

def Segment.name? : Segment → Option String
  | .literal _ => none
  | .param name => some name

@[simp] theorem name?_literal (text : String) : (Segment.literal text).name? = none := rfl

@[simp] theorem name?_param (name : String) : (Segment.param name).name? = some name := rfl

def Pattern.names (pat : Pattern) : List String := pat.filterMap Segment.name?

def Pattern.values (pat : Pattern) (value : String → String) : List (String × String) :=
  (Pattern.names pat).map fun name => (name, value name)

theorem accepts_iff {pat : Pattern} {ss : List (List Char)} :
    pat.accepts ss = true ↔ ∃ ps, (ss = ps ∨ ss = ps ++ [[]]) ∧
      List.Forall₂ (fun seg s => Segment.accepts seg s = true) pat ps := by
  induction pat generalizing ss with
  | nil =>
    simp only [List.forall₂_nil_left_iff, exists_eq_right]
    cases ss with
    | nil => simp [Pattern.accepts]
    | cons s ss => cases ss <;> simp [Pattern.accepts]
  | cons seg pat ih =>
    cases ss with
    | nil => simp [Pattern.accepts, List.forall₂_cons_left_iff]
    | cons s ss =>
      simp only [Pattern.accepts, Bool.and_eq_true, ih, List.forall₂_cons_left_iff]
      constructor
      · rintro ⟨hseg, ps, hss, hps⟩
        exact ⟨s :: ps, by simpa using hss, s, ps, hseg, hps, rfl⟩
      · rintro ⟨-, hss, s', ps, hseg, hps, rfl⟩
        simp only [List.cons_append, List.cons.injEq] at hss
        have hs : s = s' := hss.elim (·.1) (·.1)
        exact ⟨hs ▸ hseg, ps, hss.imp (·.2) (·.2), hps⟩

theorem params_append {pat : Pattern} {ps : List (List Char)} (hlen : ps.length = pat.length)
    (rest : List (List Char)) : pat.params (ps ++ rest) = pat.params ps := by
  induction pat generalizing ps with
  | nil => cases ps <;> simp [Pattern.params]
  | cons seg pat ih =>
    cases ps with
    | nil => cases hlen
    | cons s ps =>
      have ht := ih (by simpa using hlen)
      cases seg <;> simp [Pattern.params, ht]

theorem length_sameText {s t : List Char} (h : sameText s t = true) : s.length = t.length := by
  have hl := congrArg List.length (beq_iff_eq.mp h)
  simpa using hl

theorem params_cons {pat : Pattern} {ps : List (List Char)} {name : String} {s : List Char}
    {value : String → String}
    (h : Pattern.params (.param name :: pat) (s :: ps) =
      some (Pattern.values (.param name :: pat) value)) :
    decodeURIComponent s = some (value name).toList ∧
      pat.params ps = some (pat.values value) := by
  obtain ⟨v, hv, h⟩ := Option.bind_eq_some_iff.mp h
  obtain ⟨vs, hvs, h⟩ := Option.map_eq_some_iff.mp h
  obtain ⟨hv', rfl⟩ : (name, String.ofList v) = (name, value name) ∧ vs = pat.values value :=
    List.cons.inj h
  have hval : String.ofList v = value name := (Prod.mk.inj hv').2
  exact ⟨by rw [hv, ← hval, String.toList_ofList], hvs⟩

theorem length_of_params {pat : Pattern} {ps : List (List Char)} {value read : String → String}
    (hacc : List.Forall₂ (fun seg s => Segment.accepts seg s = true) pat ps)
    (hle : ∀ name ∈ pat.names, (value name).toList.length ≤ (read name).toList.length)
    (hp : pat.params ps = some (pat.values read)) :
    ∀ x ∈ ps.zip (pat.map (Segment.fill value)), x.2.length ≤ x.1.length := by
  induction hacc with
  | nil => simp
  | @cons seg s pat ps hseg hrest ih =>
    cases seg with
    | literal text =>
      have hs := length_sameText hseg
      exact List.forall_mem_cons.mpr ⟨Nat.le_of_eq hs.symm, ih hle hp⟩
    | param name =>
      obtain ⟨hd, hp⟩ := params_cons hp
      have hnames : Pattern.names (.param name :: pat) = name :: Pattern.names pat := rfl
      rw [hnames, List.forall_mem_cons] at hle
      have hlen := Nat.le_trans hle.1 (length_decode hd).1
      exact List.forall_mem_cons.mpr ⟨hlen, ih hle.2 hp⟩

theorem params_fill_iff {pat : Pattern} {value read : String → String}
    (hle : ∀ name ∈ pat.names, (value name).toList.length ≤ (read name).toList.length) :
    pat.params (pat.map (Segment.fill value)) = some (pat.values read) ↔
      ∀ name ∈ pat.names, '%' ∉ (value name).toList ∧ read name = value name := by
  induction pat with
  | nil => simp [Pattern.params, Pattern.values, Pattern.names]
  | cons seg pat ih =>
    cases seg with
    | literal text => exact ih hle
    | param name =>
      have hnames : Pattern.names (.param name :: pat) = name :: Pattern.names pat := rfl
      rw [hnames, List.forall_mem_cons] at hle
      rw [hnames, List.forall_mem_cons, ← ih hle.2]
      constructor
      · intro h
        obtain ⟨hd, hp⟩ := params_cons h
        obtain ⟨hn, he⟩ := decode_eq_self hd hle.1
        exact ⟨⟨hn, String.toList_inj.mp he⟩, hp⟩
      · rintro ⟨⟨hn, he⟩, hp⟩
        simp [Pattern.params, Segment.fill, decode_plain hn, hp, Pattern.values, hnames, he]

theorem mem_fill {pat : Pattern} {value : String → String} {name : String}
    (h : name ∈ pat.names) : (value name).toList ∈ pat.map (Segment.fill value) := by
  obtain ⟨seg, hseg, hname⟩ := List.mem_filterMap.mp h
  refine List.mem_map.mpr ⟨seg, hseg, ?_⟩
  cases seg with
  | literal text => cases hname
  | param name' =>
    obtain rfl : name' = name := Option.some.inj hname
    rfl

theorem segments_url {pat : Pattern} {value : String → String}
    (hlit : ∀ seg ∈ pat, Segment.Clean seg)
    (hplain : ∀ name ∈ pat.names, Plain (value name).toList) :
    segments (pat.url value) = pat.map (Segment.fill value) := by
  refine segments_join_plain fun n hn c hc hm => ?_
  have hcm : c ∈ ['/', '?', '#', '%'] := by grind
  obtain ⟨seg, hseg, rfl⟩ := List.mem_map.mp hn
  cases seg with
  | literal text => exact hlit _ hseg c hc hcm
  | param name => exact hplain name (List.mem_filterMap.mpr ⟨_, hseg, rfl⟩) c hc hcm

theorem accepts_fill {pat : Pattern} {value : String → String}
    (h : ∀ name ∈ pat.names, value name ≠ "") :
    pat.accepts (pat.map (Segment.fill value)) = true := by
  induction pat with
  | nil => rfl
  | cons seg pat ih =>
    cases seg with
    | literal text => exact Bool.and_eq_true_iff.mpr ⟨beq_self_eq_true _, ih h⟩
    | param name =>
      obtain ⟨hne, htail⟩ := List.forall_mem_cons.mp h
      have hseg : Segment.accepts (.param name) (value name).toList = true := by
        simpa [Segment.accepts] using hne
      exact Bool.and_eq_true_iff.mpr ⟨hseg, ih htail⟩

/-- A template's URL is read back with the values that were written into it exactly if none
of them has a character with a meaning in a URL. -/
theorem params_url_iff {pat : Pattern} {value read : String → String}
    (hlit : ∀ seg ∈ pat, Segment.Clean seg)
    (hle : ∀ name ∈ pat.names, (value name).toList.length ≤ (read name).toList.length)
    (hacc : pat.accepts (segments (pat.url value)) = true) :
    pat.params (segments (pat.url value)) = some (pat.values read) ↔
      ∀ name ∈ pat.names, Plain (value name).toList ∧ read name = value name := by
  let ns := pat.map (Segment.fill value)
  obtain ⟨ps, hs, hps⟩ := accepts_iff.mp hacc
  have hlen : ps.length = pat.length := hps.length_eq.symm
  constructor
  · intro hp
    have hparams : pat.params ps = some (pat.values read) := by
      cases hs with
      | inl h => rw [← h, hp]
      | inr h => rw [← params_append hlen, ← h, hp]
    have hshort := length_of_params hps hle hparams
    have hurl : segments (join ns) = ps ∨ segments (join ns) = ps ++ [[]] := hs
    have hjoin := segments_join (by simpa [ns] using hlen) hurl
    have hsame : ¬ ∃ x ∈ ps.zip ns, x.1.length < x.2.length := by
      rintro ⟨x, hx, hlt⟩
      exact Nat.not_lt.mpr (hshort x hx) hlt
    obtain ⟨rfl, hclean⟩ := hjoin.resolve_right hsame
    have hread := (params_fill_iff hle).mp hparams
    intro name hname
    refine ⟨fun c hc hm => ?_, (hread name hname).2⟩
    have hfill : (value name).toList ∈ ns := mem_fill hname
    have hsep := hclean _ hfill c hc
    have hcent : c ≠ '%' := fun he => (hread name hname).1 (he ▸ hc)
    grind
  · intro h
    rw [segments_url hlit fun name hname => (h name hname).1, params_fill_iff hle]
    exact fun name hname => ⟨fun hm => (h name hname).1 _ hm (by decide), (h name hname).2⟩

/-! `req.params` -/

def param (ps : List (String × String)) (name : String) : String := (ps.lookup name).getD ""

@[simp] theorem param_cons_self (name v : String) (ps : List (String × String)) :
    param ((name, v) :: ps) name = v := by
  simp [param]

@[simp] theorem param_cons_ne {name name' : String} (h : name' ≠ name) (v : String)
    (ps : List (String × String)) : param ((name, v) :: ps) name' = param ps name' := by
  simp [param, List.lookup_cons, beq_false_of_ne h]

theorem param_of_mem {ps : List (String × String)} (hn : (ps.map Prod.fst).Nodup)
    {x : String × String} (hx : x ∈ ps) : param ps x.1 = x.2 := by
  induction ps with
  | nil => cases hx
  | cons p ps ih =>
    obtain ⟨name, v⟩ := p
    rw [List.map_cons, List.nodup_cons] at hn
    cases List.mem_cons.mp hx with
    | inl he =>
      subst he
      exact param_cons_self name v ps
    | inr hx =>
      have hmem : x.1 ∈ ps.map Prod.fst := List.mem_map_of_mem hx
      have hne : x.1 ≠ name := fun he => hn.1 (he ▸ hmem)
      rw [param_cons_ne hne, ih hn.2 hx]

theorem params_fst {pat : Pattern} {ss : List (List Char)} {ps : List (String × String)}
    (hacc : pat.accepts ss = true) (hp : pat.params ss = some ps) :
    ps.map Prod.fst = pat.names := by
  induction pat generalizing ss ps with
  | nil =>
    obtain rfl : [] = ps := Option.some.inj hp
    rfl
  | cons seg pat ih =>
    cases ss with
    | nil => cases hacc
    | cons s ss =>
      have hrest := (Bool.and_eq_true_iff.mp hacc).2
      cases seg with
      | literal text => exact ih hrest hp
      | param name =>
        obtain ⟨v, -, hp⟩ := Option.bind_eq_some_iff.mp hp
        obtain ⟨qs, hq, rfl⟩ := Option.map_eq_some_iff.mp hp
        exact congrArg (name :: ·) (ih hrest hq)

theorem values_param {pat : Pattern} {ss : List (List Char)} {ps : List (String × String)}
    (hn : pat.names.Nodup) (hacc : pat.accepts ss = true) (hp : pat.params ss = some ps) :
    pat.values (param ps) = ps := by
  have hfst := params_fst hacc hp
  rw [← hfst] at hn
  rw [Pattern.values, ← hfst, List.map_map]
  calc
    ps.map _ = ps.map id := List.map_congr_left fun x hx => congrArg (x.1, ·) (param_of_mem hn hx)
    _ = ps := List.map_id ps

theorem read_iff {pat : Pattern} (value meant : String → String)
    (hlit : ∀ seg ∈ pat, Segment.Clean seg) (hn : pat.names.Nodup)
    (hle : ∀ name ∈ pat.names, (value name).toList.length ≤ (meant name).toList.length)
    (hacc : pat.accepts (segments (pat.url value)) = true) {ps : List (String × String)}
    (hp : pat.params (segments (pat.url value)) = some ps) :
    (∀ name ∈ pat.names, param ps name = meant name) ↔
      ∀ name ∈ pat.names, Plain (value name).toList ∧ meant name = value name := by
  rw [← params_url_iff hlit hle hacc, hp, Option.some_inj]
  have hps := values_param hn hacc hp
  constructor
  · intro h
    rw [← hps]
    exact List.map_congr_left fun name hname => by rw [h name hname]
  · intro h name hname
    rw [← hps] at h
    have hpair := List.map_inj_left.mp h name hname
    exact (Prod.mk.inj hpair).2

theorem first_read_iff {n s v : List Char} {ns rest : List (List Char)}
    (hs : segments (join (n :: ns)) = s :: rest) (hv : decodeURIComponent s = some v) :
    v = n ↔ Plain n := by
  constructor
  · rintro rfl
    have hlen := (length_decode hv).1
    have hsep : ∀ c ∈ v, c ∉ ['/', '?', '#'] := by
      by_contra h
      exact Nat.not_lt.mpr hlen (segments_join_short h hs)
    rw [segments_join_cons hsep] at hs
    obtain ⟨rfl, -⟩ := List.cons.inj hs
    have hpercent := (decode_eq_self hv (Nat.le_refl _)).1
    intro c hc hm
    have hc' := hsep c hc
    have hcent : c ≠ '%' := fun he => hpercent (he ▸ hc)
    grind
  · intro h
    have hsep : ∀ c ∈ n, c ∉ ['/', '?', '#'] := fun c hc hm => h c hc (by grind)
    rw [segments_join_cons hsep] at hs
    obtain ⟨rfl, -⟩ := List.cons.inj hs
    rw [decode_plain fun hm => h _ hm (by decide)] at hv
    exact (Option.some.inj hv).symm

theorem first_param_iff {name : String} {pat : Pattern} {n : String} {ns : List (List Char)}
    {ps : List (String × String)}
    (hacc : Pattern.accepts (.param name :: pat) (segments (join (n.toList :: ns))) = true)
    (hp : Pattern.params (.param name :: pat) (segments (join (n.toList :: ns))) = some ps) :
    param ps name = n ↔ Plain n.toList := by
  cases hs : segments (join (n.toList :: ns)) with
  | nil =>
    rw [hs] at hacc
    cases hacc
  | cons s rest =>
    rw [hs] at hp
    obtain ⟨v, hv, hp⟩ := Option.bind_eq_some_iff.mp hp
    obtain ⟨qs, -, rfl⟩ := Option.map_eq_some_iff.mp hp
    rw [param_cons_self, ← first_read_iff hs hv, ← String.toList_inj, String.toList_ofList]

/-! Whether two patterns can accept the same path. -/

def Segment.overlaps : Segment → Segment → Bool
  | .literal text, .literal text' => sameText text.toList text'.toList
  | _, _ => true

def Pattern.overlaps : Pattern → Pattern → Bool
  | [], [] => true
  | [], [seg] => seg.accepts []
  | [seg], [] => seg.accepts []
  | seg :: pat, seg' :: pat' => seg.overlaps seg' && Pattern.overlaps pat pat'
  | _, _ => false

theorem overlaps_of_segment {seg seg' : Segment} {s : List Char} (h : seg.accepts s = true)
    (h' : seg'.accepts s = true) : seg.overlaps seg' = true := by
  cases seg with
  | param name => rfl
  | literal text =>
    cases seg' with
    | param name => rfl
    | literal text' => exact beq_iff_eq.mpr ((beq_iff_eq.mp h).symm.trans (beq_iff_eq.mp h'))

theorem overlaps_of_accepts {pat pat' : Pattern} {ss : List (List Char)}
    (h : pat.accepts ss = true) (h' : pat'.accepts ss = true) : pat.overlaps pat' = true := by
  induction pat generalizing pat' ss with
  | nil =>
    cases ss with
    | nil => cases pat' with
      | nil => rfl
      | cons seg pat' => cases h'
    | cons s ss =>
      cases ss with
      | cons s' ss => cases h
      | nil =>
        obtain rfl : s = [] := List.isEmpty_iff.mp h
        cases pat' with
        | nil => rfl
        | cons seg pat' =>
          obtain ⟨hseg, hrest⟩ := Bool.and_eq_true_iff.mp h'
          cases pat' with
          | nil => exact hseg
          | cons seg' pat' => cases hrest
  | cons seg pat ih =>
    cases ss with
    | nil => cases h
    | cons s ss =>
      obtain ⟨hseg, hrest⟩ := Bool.and_eq_true_iff.mp h
      cases pat' with
      | cons seg' pat' =>
        obtain ⟨hseg', hrest'⟩ := Bool.and_eq_true_iff.mp h'
        have hboth := Bool.and_eq_true_iff.mpr ⟨overlaps_of_segment hseg hseg', ih hrest hrest'⟩
        cases pat <;> cases pat' <;> exact hboth
      | nil =>
        cases ss with
        | cons s' ss => cases h'
        | nil =>
          obtain rfl : s = [] := List.isEmpty_iff.mp h'
          cases pat with
          | nil => exact hseg
          | cons seg' pat => cases hrest

/-! Routes. -/

inductive Method where
  | GET | PUT | POST
  deriving DecidableEq

structure Route (H : Type) where
  method : Method
  pattern : Pattern
  handler : H

def Route.overlaps {H : Type} (r r' : Route H) : Bool :=
  r.method = r'.method && r.pattern.overlaps r'.pattern

def Route.fits {H : Type} (r : Route H) (method : Method) (url : List Char) : Bool :=
  r.method = method && r.pattern.accepts (segments url)

/-- The handler of the first route that fits, and its parameters; `none` where no route fits
or a parameter cannot be decoded. -/
def dispatch {H : Type} (routes : List (Route H)) (method : Method) (url : List Char) :
    Option (H × List (String × String)) :=
  (routes.find? fun r => r.fits method url).bind fun r =>
    (r.pattern.params (segments url)).map fun ps => (r.handler, ps)

section Dispatch
variable {H : Type} {method : Method} {url : List Char}

theorem dispatch_some {routes : List (Route H)} {handler : H} {ps : List (String × String)}
    (h : dispatch routes method url = some (handler, ps)) :
    ∃ r ∈ routes, r.fits method url = true ∧ r.handler = handler ∧
      r.pattern.params (segments url) = some ps := by
  obtain ⟨r, hfind, h⟩ := Option.bind_eq_some_iff.mp h
  obtain ⟨qs, hp, hpair⟩ := Option.map_eq_some_iff.mp h
  obtain ⟨rfl, rfl⟩ := Prod.mk.inj hpair
  have hfits := (List.find?_eq_some_iff_append.mp hfind).1
  exact ⟨r, List.mem_of_find?_eq_some hfind, hfits, rfl, hp⟩

/-- The first route that fits takes the request. -/
theorem dispatch_first {r : Route H} (hr : r.fits method url = true) {before : List (Route H)}
    (hb : ∀ q ∈ before, q.fits method url = false) (after : List (Route H)) :
    dispatch (before ++ r :: after) method url =
      (r.pattern.params (segments url)).map fun ps => (r.handler, ps) := by
  have hnone : before.find? (fun q => q.fits method url) = none :=
    List.find?_eq_none.mpr fun q hq => by simp [hb q hq]
  rw [dispatch, List.find?_append, hnone, Option.none_or, List.find?_cons_of_pos (by exact hr)]
  rfl

theorem overlaps_of_fits {r r' : Route H} (h : r.fits method url = true)
    (h' : r'.fits method url = true) : r.overlaps r' = true := by
  obtain ⟨hm, hacc⟩ := Bool.and_eq_true_iff.mp h
  obtain ⟨hm', hacc'⟩ := Bool.and_eq_true_iff.mp h'
  have hsame : r.method = r'.method := (of_decide_eq_true hm).trans (of_decide_eq_true hm').symm
  exact Bool.and_eq_true_iff.mpr ⟨decide_eq_true hsame, overlaps_of_accepts hacc hacc'⟩

theorem dispatch_alone {r : Route H} {before : List (Route H)}
    (hb : ∀ q ∈ before, q.overlaps r = false) (after : List (Route H))
    (hr : r.fits method url = true) :
    dispatch (before ++ r :: after) method url =
      (r.pattern.params (segments url)).map fun ps => (r.handler, ps) := by
  refine dispatch_first hr (fun q hq => ?_) after
  rw [Bool.eq_false_iff]
  exact fun hfit => Bool.eq_false_iff.mp (hb q hq) (overlaps_of_fits hfit hr)

end Dispatch
end Router
