/-
The endpoint that is shown and the URL that is called.

The list of routes shows an endpoint made of the address, the application and the path as they
are.  A call writes escapes into the application and the path and leaves one slash before the
path.  An escape is longer than the character it stands for, and an escaped application holds no
slash, so the two do not agree by chance: where they first differ, nothing after it can make up
for the difference.
-/
import AppRoutes.Proofs.Http.Operations
import AppRoutes.Proofs.Http.Url
import AppRoutes.Proofs.Program.Handler

namespace AppRoutes.Http

open Text

section

variable {write : Char → List Char} {text : List Char}

theorem length_le_flatMap (hwrite : ∀ c, 1 ≤ (write c).length) (text : List Char) :
    text.length ≤ (text.flatMap write).length := by
  induction text with
  | nil => exact Nat.le_refl 0
  | cons c rest ih =>
    have hc := hwrite c
    rw [List.flatMap_cons, List.length_append, List.length_cons]
    omega

theorem length_lt_flatMap (hwrite : ∀ c, 1 ≤ (write c).length) {c : Char} (hmem : c ∈ text)
    (hlong : 1 < (write c).length) : text.length < (text.flatMap write).length := by
  induction text with
  | nil => cases hmem
  | cons first rest ih =>
    have hfirst := hwrite first
    have hrest := length_le_flatMap hwrite rest
    rw [List.flatMap_cons, List.length_append, List.length_cons]
    rcases List.mem_cons.mp hmem with heq | hmem
    · subst heq
      omega
    · have hlt := ih hmem
      omega

theorem flatMap_eq_self (h : ∀ c ∈ text, write c = [c]) : text.flatMap write = text := by
  induction text with
  | nil => rfl
  | cons c rest ih =>
    rw [List.flatMap_cons, h c List.mem_cons_self,
      ih fun d hd => h d (List.mem_cons_of_mem c hd), List.singleton_append]

end

theorem encodeChar_of_not_isReserved {c : Char} (h : isReserved c = false) :
    encodeChar c = [c] := by
  rw [encodeChar, h]
  rfl

/-- An escape is longer than a character. -/
theorem one_lt_length_encodeChar {c : Char} (h : isReserved c = true) :
    1 < (encodeChar c).length := by
  have hbytes : (String.utf8EncodeChar c) ≠ [] := by
    intro hnil
    have hsize := congrArg List.length hnil
    rw [String.length_utf8EncodeChar] at hsize
    exact absurd hsize (Nat.ne_of_gt c.utf8Size_pos)
  obtain ⟨b, rest, hcons⟩ := List.exists_cons_of_ne_nil hbytes
  rw [encodeChar, if_pos h, hcons, List.flatMap_cons, List.length_append]
  show 1 < 3 + (rest.flatMap percentByte).length
  omega

theorem one_le_length_encodeChar (c : Char) : 1 ≤ (encodeChar c).length := by
  by_cases h : isReserved c = true
  · exact Nat.le_of_lt (one_lt_length_encodeChar h)
  · rw [encodeChar_of_not_isReserved (Bool.eq_false_iff.mpr h)]
    exact Nat.le_refl 1

/-- A character of a path as it is written: the slashes stay. -/
def encodePathChar (c : Char) : List Char := if c = '/' then ['/'] else encodeChar c

theorem one_le_length_encodePathChar (c : Char) : 1 ≤ (encodePathChar c).length := by
  unfold encodePathChar
  split
  · exact Nat.le_refl 1
  · exact one_le_length_encodeChar c

theorem flatMap_split_slash (text : List Char) :
    (split '/' text).flatMap (fun segment => '/' :: encodeSegment segment) =
      '/' :: text.flatMap encodePathChar := by
  induction text with
  | nil => rfl
  | cons c rest ih =>
    by_cases hslash : c = '/'
    · rw [split, if_pos hslash, List.flatMap_cons, ih, List.flatMap_cons, encodePathChar,
        if_pos hslash]
      rfl
    · rw [split, if_neg hslash, List.flatMap_cons, encodePathChar, if_neg hslash]
      cases hsplit : split '/' rest with
      | nil => exact absurd hsplit (split_ne_nil '/' rest)
      | cons first others =>
        rw [hsplit, List.flatMap_cons, List.cons_append] at ih
        have htail := (List.cons.inj ih).2
        dsimp only
        rw [List.flatMap_cons, encodeSegment, List.flatMap_cons, ← encodeSegment, List.cons_append,
          List.append_assoc, htail]

/-- A path is written with one slash before it, and character by character. -/
theorem encodePath_eq (path : List Char) :
    encodePath path = '/' :: (path.dropWhile (· = '/')).flatMap encodePathChar :=
  flatMap_split_slash _

/-- A character that a segment can only hold as an escape: a control character, a space, one
beyond ASCII, or one of a few signs. -/
def NeedsEscape (c : Char) : Prop :=
  c.toNat < 0x20 ∨ c = ' ' ∨ 0x7F ≤ c.toNat ∨
    c ∈ ['"', '#', '%', '<', '>', '?', '\x60', '{', '}']

instance : DecidablePred NeedsEscape := fun _ => inferInstanceAs (Decidable (_ ∨ _ ∨ _ ∨ _))

theorem isReserved_eq_false_iff {c : Char} :
    isReserved c = false ↔ ¬ NeedsEscape c ∧ c ≠ '/' := by
  have hspace : c = ' ' ↔ c.toNat = 0x20 := by
    constructor
    · intro h
      rw [h]
      rfl
    · intro h
      rw [← Char.ofNat_toNat c, h]
  simp only [isReserved, NeedsEscape, Bool.or_eq_false_iff, decide_eq_false_iff_not, hspace,
    List.mem_cons, List.not_mem_nil, or_false]
  grind

theorem one_lt_length_encodePathChar {c : Char} (h : NeedsEscape c) :
    1 < (encodePathChar c).length := by
  have hne : c ≠ '/' := by
    intro heq
    rw [heq] at h
    exact absurd h (by decide)
  have hreserved : isReserved c = true := by
    rw [← Bool.not_eq_false, isReserved_eq_false_iff]
    exact fun hplain => hplain.1 h
  rw [encodePathChar, if_neg hne]
  exact one_lt_length_encodeChar hreserved

theorem encodePathChar_of_not_needsEscape {c : Char} (h : ¬ NeedsEscape c) :
    encodePathChar c = [c] := by
  unfold encodePathChar
  split
  · rename_i hslash
    rw [hslash]
  · rename_i hne
    exact encodeChar_of_not_isReserved (isReserved_eq_false_iff.mpr ⟨h, hne⟩)

/-- The path has one slash before it, and no more. -/
def IsRooted (path : List Char) : Prop := ∃ rest, path = '/' :: rest ∧ rest.head? ≠ some '/'

theorem dropWhile_slash_of_head {text : List Char} (h : text.head? ≠ some '/') :
    text.dropWhile (· = '/') = text := by
  cases text with
  | nil => rfl
  | cons c rest =>
    have hne : c ≠ '/' := fun heq => h (heq ▸ rfl)
    rw [List.dropWhile_cons_of_neg (by simpa using hne)]

/-- What a character of a path is written as begins with a slash only for a slash. -/
theorem head?_encodePathChar {c : Char} (h : c ≠ '/') (rest : List Char) :
    (encodePathChar c ++ rest).head? ≠ some '/' := by
  have hslash : '/' ∉ encodeChar c := by
    have hsegment := slash_not_mem_encodeSegment [c]
    rwa [encodeSegment, List.flatMap_singleton] at hsegment
  rw [encodePathChar, if_neg h]
  intro hhead
  cases hwritten : encodeChar c with
  | nil =>
    have hlength := one_le_length_encodeChar c
    rw [hwritten] at hlength
    exact absurd hlength (by decide)
  | cons first others =>
    rw [hwritten, List.cons_append, List.head?_cons] at hhead
    rw [hwritten, Option.some.inj hhead] at hslash
    exact hslash List.mem_cons_self

/-- A path without a slash before it is written longer than it is, whatever stands before it. -/
theorem exists_slash_of_append_eq {app path : List Char}
    (h : app ++ path = encodeSegment app ++ encodePath path) : ∃ rest, path = '/' :: rest := by
  by_cases hhead : path.head? = some '/'
  · obtain ⟨rest, hrest⟩ := List.head?_eq_some_iff.mp hhead
    exact ⟨rest, hrest⟩
  · have happ := length_le_flatMap one_le_length_encodeChar app
    have hpath := length_le_flatMap one_le_length_encodePathChar path
    have hlength := congrArg List.length h
    rw [encodePath_eq, dropWhile_slash_of_head hhead, List.length_append, List.length_append,
      List.length_cons, encodeSegment] at hlength
    omega

/-- Before the first slash there is no room for an escape. -/
theorem not_isReserved_of_append_eq {app rest other : List Char}
    (h : app ++ '/' :: rest = encodeSegment app ++ other) : ∀ c ∈ app, isReserved c = false := by
  intro c hc
  refine Bool.eq_false_iff.mpr fun hreserved => ?_
  have hlong := length_lt_flatMap one_le_length_encodeChar hc (one_lt_length_encodeChar hreserved)
  rw [← encodeSegment] at hlong
  rcases List.append_eq_append_iff.mp h with ⟨more, happ, hmore⟩ | ⟨more, happ, -⟩
  · -- The text goes on with a slash where the escaped one is still within the segment.
    cases more with
    | nil =>
      rw [happ, List.append_nil] at hlong
      exact Nat.lt_irrefl _ hlong
    | cons first others =>
      have hmem : '/' ∈ encodeSegment app := by
        rw [happ, ← (List.cons.inj hmore).1]
        exact List.mem_append_right app List.mem_cons_self
      exact slash_not_mem_encodeSegment app hmem
  · have hlength := congrArg List.length happ
    rw [List.length_append] at hlength
    omega

/-- A rooted path in which nothing needs an escape is written as it is, and no other path is. -/
theorem encodePath_eq_self_iff {path : List Char} :
    encodePath path = path ↔ IsRooted path ∧ ∀ c ∈ path, ¬ NeedsEscape c := by
  constructor
  · intro h
    rw [encodePath_eq] at h
    cases path with
    | nil => cases h
    | cons slash rest =>
      obtain ⟨hslash, hrest⟩ := List.cons.inj h
      subst hslash
      rw [List.dropWhile_cons_of_pos (by decide)] at hrest
      have hhead : rest.head? ≠ some '/' := by
        rw [← hrest]
        cases hdrop : rest.dropWhile (· = '/') with
        | nil => exact nofun
        | cons c others =>
          have hne : c ≠ '/' := by
            have hnot := List.head?_dropWhile_not (fun c => decide (c = '/')) rest
            rw [hdrop] at hnot
            simpa using hnot
          rw [List.flatMap_cons]
          exact head?_encodePathChar hne _
      rw [dropWhile_slash_of_head hhead] at hrest
      refine ⟨⟨rest, rfl, hhead⟩, List.forall_mem_cons.mpr ⟨by decide, fun c hc hescape => ?_⟩⟩
      have hlt := length_lt_flatMap one_le_length_encodePathChar hc
        (one_lt_length_encodePathChar hescape)
      rw [hrest] at hlt
      exact Nat.lt_irrefl _ hlt
  · intro h
    obtain ⟨⟨rest, hpath, hhead⟩, hplain⟩ := h
    subst hpath
    rw [encodePath_eq, List.dropWhile_cons_of_pos (by decide), dropWhile_slash_of_head hhead,
      flatMap_eq_self fun c hc =>
        encodePathChar_of_not_needsEscape (hplain c (List.mem_cons_of_mem '/' hc))]

/-- An application and a path after each other are what a URL holds for them exactly if each is
written as it is. -/
theorem append_eq_iff {app path : List Char} :
    app ++ path = encodeSegment app ++ encodePath path ↔
      IsRooted path ∧ '/' ∉ app ∧ ∀ c ∈ app ++ path, ¬ NeedsEscape c := by
  have hsegment : (∀ c ∈ app, isReserved c = false) → encodeSegment app = app := fun h =>
    flatMap_eq_self fun c hc => encodeChar_of_not_isReserved (h c hc)
  constructor
  · intro h
    obtain ⟨rest, hpath⟩ := exists_slash_of_append_eq h
    have happ : ∀ c ∈ app, isReserved c = false := by
      rw [hpath] at h
      exact not_isReserved_of_append_eq h
    rw [hsegment happ] at h
    obtain ⟨hrooted, hplain⟩ := encodePath_eq_self_iff.mp (List.append_cancel_left h).symm
    refine ⟨hrooted, fun hslash => ?_, fun c hc => ?_⟩
    · exact (isReserved_eq_false_iff.mp (happ '/' hslash)).2 rfl
    · rcases List.mem_append.mp hc with hc | hc
      · exact (isReserved_eq_false_iff.mp (happ c hc)).1
      · exact hplain c hc
  · intro h
    obtain ⟨hrooted, hslash, hplain⟩ := h
    have happ : ∀ c ∈ app, isReserved c = false := by
      intro c hc
      have hne : c ≠ '/' := fun heq => hslash (heq ▸ hc)
      exact isReserved_eq_false_iff.mpr ⟨hplain c (List.mem_append_left path hc), hne⟩
    rw [hsegment happ, encodePath_eq_self_iff.mpr
      ⟨hrooted, fun c hc => hplain c (List.mem_append_right app hc)⟩]

end AppRoutes.Http

/-! ## The command that shows and the one that calls -/

namespace AppRoutes

open AppRoutes.Action

namespace Program

/-- What `list` shows of a route. -/
def listedRow (apiUrl app : String) (route : Route) : List String :=
  [route.path, route.image, endpoint apiUrl app route.path]

theorem runOn_list {σ : Type} {context : Context} {backend : Backend σ} {app : String}
    {session : Session σ} {routes : List Route} {after : σ}
    (hlist : (Client.list backend app).runOn session.backend = (.ok routes, after))
    (hroutes : routes ≠ []) :
    (list context backend app).runOn session =
      (.ok (), { session with
        backend := after
        output := session.output ++ (Terminal.tableText context.palette
          ["path", "image", "endpoint"] (routes.map (listedRow context.apiUrl app))).toUTF8 }) := by
  have hshown : ¬ routes.isEmpty = true := fun h => hroutes (List.isEmpty_iff.mp h)
  rw [list, Handler.runOn_bind, Handler.runOn_operate, hlist]
  show (if routes.isEmpty = true then _ else _ : Handler σ Unit).runOn _ = _
  rw [if_neg hshown]
  rfl

theorem toList_endpoint (base app path : String) :
    (endpoint base app path).toList =
      (Http.Api.ofUrl base).url.toList ++ "/r/".toList ++ (app.toList ++ path.toList) := by
  rw [endpoint, String.toList_append, String.toList_append, String.toList_append, List.append_assoc]
  rfl

theorem endpoint_eq_callUrl (base app path : String) :
    endpoint base app path = (Http.Api.ofUrl base).callUrl app path ↔
      app.toList ++ path.toList = Http.encodeSegment app.toList ++ Http.encodePath path.toList := by
  have hcalled : ((Http.Api.ofUrl base).callUrl app path).toList =
      (Http.Api.ofUrl base).url.toList ++ "/r/".toList ++
        (Http.encodeSegment app.toList ++ Http.encodePath path.toList) := by
    simp [Http.Api.callUrl]
  rw [← String.toList_inj, toList_endpoint, hcalled]
  exact List.append_right_inj _

/-- The endpoint that `list` shows for a route is the URL that `call` requests exactly if the
path begins with one slash and no more, the application holds none, and neither holds a character
that needs an escape.  The table of `list` is known for cells that fit the columns. -/
theorem shown_eq_called_iff (base app : String) :
    (∀ path, endpoint base app path = (Http.Api.ofUrl base).callUrl app path ↔
      Http.IsRooted path.toList ∧ '/' ∉ app.toList ∧
        ∀ c ∈ app.toList ++ path.toList, ¬ Http.NeedsEscape c) ∧
    (∀ (σ : Type) (context : Context) (backend : Backend σ) (session : Session σ)
      (routes : List Route) (after : σ), context.apiUrl = base →
      (Client.list backend app).runOn session.backend = (.ok routes, after) → routes ≠ [] →
      (∀ route ∈ routes, ∀ cell ∈ [route.path, route.image, endpoint base app route.path],
        cell.utf8ByteSize < UInt16.size) →
      (list context backend app).runOn session =
        (.ok (), { session with
          backend := after
          output := session.output ++ (Terminal.tableText context.palette
            ["path", "image", "endpoint"] (routes.map fun route =>
              [route.path, route.image, endpoint base app route.path])).toUTF8 })) ∧
    ∀ (path : String) (invocation : Invocation) (exchange : Http.Exchange), path ≠ "" →
      exchange.isReachable = true → invocation.method ∈ Http.standardMethods →
      (Http.callRequest ((Http.Api.ofUrl base).callUrl app path) invocation).check = .ok () →
      ∃ request, request.url = (Http.Api.ofUrl base).callUrl app path ∧
        ((Client.call (Http.Api.ofUrl base).backend app path invocation).runOn
          exchange).2.received = exchange.received ++ [request] := by
  refine ⟨fun path => ?_, ?_, ?_⟩
  · rw [endpoint_eq_callUrl, Http.append_eq_iff]
  · intro σ context backend session routes after hbase hlist hroutes _
    rw [runOn_list hlist hroutes, ← hbase]
    rfl
  · intro path invocation exchange hpath hreach hmethod hcheck
    exact ⟨_, rfl, Http.Api.received_call _ app path hpath hreach hcheck hmethod⟩

/-- A name that already looks escaped is escaped once more. -/
example : (Http.Api.ofUrl "http://fn.test/").callUrl "a%20b" "/hello" ≠
    endpoint "http://fn.test/" "a%20b" "/hello" := by
  decide

end Program
end AppRoutes
