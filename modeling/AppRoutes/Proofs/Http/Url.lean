/-
What a URL says of a route.

Everything after the address of the server is a target.  Cut at its slashes it has fixed
segments, the application as one segment and the segments of the path, and each of them read
back gives the bytes that it stands for.  So a target tells the application and the path apart
and holds nothing that would end it.
-/
import AppRoutes.Http.Url
import AppRoutes.Text.Numeral

namespace AppRoutes.Http
open Text

/-- The bytes that a text stands for: an escape for its byte, any other character for its own
bytes. -/
def percentDecode : List Char → List UInt8
  | '%' :: high :: low :: rest =>
    match Numeral.valueIn? 16 [high, low] with
    | some n => UInt8.ofNat n :: percentDecode rest
    | none => String.utf8EncodeChar '%' ++ percentDecode (high :: low :: rest)
  | c :: rest => String.utf8EncodeChar c ++ percentDecode rest
  | [] => []

theorem digitIn?_hexDigit {n : Nat} (h : n < 16) : Numeral.digitIn? 16 (hexDigit n) = some n := by
  have hall : ∀ n < 16, Numeral.digitIn? 16 (hexDigit n) = some n := by decide
  exact hall n h

theorem percentDecode_percentByte (b : UInt8) (rest : List Char) :
    percentDecode (percentByte b ++ rest) = b :: percentDecode rest := by
  have hb : b.toNat < 256 := b.toNat_lt
  have hvalue : Numeral.valueIn? 16 [hexDigit (b.toNat / 16), hexDigit (b.toNat % 16)] =
      some b.toNat := by
    have hsum : (0 * 16 + b.toNat / 16) * 16 + b.toNat % 16 = b.toNat := by omega
    simp only [Numeral.valueIn?, List.foldlM_cons, List.foldlM_nil,
      digitIn?_hexDigit (show b.toNat / 16 < 16 by omega),
      digitIn?_hexDigit (show b.toNat % 16 < 16 by omega)]
    exact congrArg some hsum
  rw [percentByte, List.cons_append, List.cons_append, List.cons_append, List.nil_append,
    percentDecode, hvalue]
  exact congrArg (· :: percentDecode rest) (UInt8.ofNat_toNat)

theorem percentDecode_flatMap_percentByte (bytes : List UInt8) (rest : List Char) :
    percentDecode (bytes.flatMap percentByte ++ rest) = bytes ++ percentDecode rest := by
  induction bytes with
  | nil => rfl
  | cons b bytes ih =>
    rw [List.flatMap_cons, List.append_assoc, percentDecode_percentByte, ih, List.cons_append]

theorem percentDecode_cons_of_ne {c : Char} (h : c ≠ '%') (rest : List Char) :
    percentDecode (c :: rest) = String.utf8EncodeChar c ++ percentDecode rest := by
  rw [percentDecode.eq_def]
  split
  · rename_i heq
    exact absurd (List.cons.inj heq).1 h
  · rename_i heq
    obtain ⟨rfl, rfl⟩ := List.cons.inj heq
    rfl
  · rename_i heq
    exact absurd heq (List.cons_ne_nil c rest)

theorem percentDecode_encodeChar (c : Char) (rest : List Char) :
    percentDecode (encodeChar c ++ rest) = String.utf8EncodeChar c ++ percentDecode rest := by
  unfold encodeChar
  split
  · exact percentDecode_flatMap_percentByte _ rest
  · rename_i hreserved
    have hne : c ≠ '%' := fun h => hreserved (h ▸ rfl)
    exact percentDecode_cons_of_ne hne rest

/-- A segment read back gives the bytes of the text that it was written from. -/
theorem percentDecode_encodeSegment (text : List Char) :
    (percentDecode (encodeSegment text)).toByteArray = text.utf8Encode := by
  refine congrArg List.toByteArray ?_
  induction text with
  | nil => rfl
  | cons c rest ih =>
    rw [encodeSegment, List.flatMap_cons, percentDecode_encodeChar, List.flatMap_cons, ← ih]
    rfl

theorem utf8Encode_inj {first second : List Char} (h : first.utf8Encode = second.utf8Encode) :
    first = second := by
  rw [← String.toByteArray_ofList, ← String.toByteArray_ofList] at h
  exact String.ofList_inj.mp (String.toByteArray_inj.mp h)

theorem isReserved_hexDigit {n : Nat} (h : n < 16) : isReserved (hexDigit n) = false := by
  have hall : ∀ n < 16, isReserved (hexDigit n) = false := by decide
  exact hall n h

/-- What is reserved stands in a segment only as the sign of an escape. -/
theorem eq_percent_or_of_mem_encodeSegment {c : Char} {text : List Char}
    (h : c ∈ encodeSegment text) : c = '%' ∨ isReserved c = false := by
  obtain ⟨d, -, hd⟩ := List.mem_flatMap.mp h
  rw [encodeChar] at hd
  split at hd
  · obtain ⟨b, -, hb⟩ := List.mem_flatMap.mp hd
    have hlt : b.toNat < 256 := b.toNat_lt
    simp only [percentByte, List.mem_cons, List.not_mem_nil, or_false] at hb
    rcases hb with rfl | rfl | rfl
    · exact Or.inl rfl
    · exact Or.inr (isReserved_hexDigit (by omega))
    · exact Or.inr (isReserved_hexDigit (by omega))
  · rename_i hreserved
    rw [List.mem_singleton.mp hd]
    exact Or.inr (by simpa using hreserved)

theorem slash_not_mem_encodeSegment (text : List Char) : '/' ∉ encodeSegment text := by
  intro h
  rcases eq_percent_or_of_mem_encodeSegment h with h | h <;> exact absurd h (by decide)

/-- A printed character that ends no path and that a URL may hold as it is. -/
def IsTargetChar (c : Char) : Prop :=
  0x21 ≤ c.toNat ∧ c.toNat ≤ 0x7E ∧ c ∉ ['"', '#', '<', '>', '?', '\x60', '{', '}']

instance : DecidablePred IsTargetChar := fun _ => inferInstanceAs (Decidable (_ ∧ _ ∧ _))

theorem isTargetChar_of_not_isReserved {c : Char} (h : isReserved c = false) : IsTargetChar c := by
  simp only [isReserved, Bool.or_eq_false_iff, decide_eq_false_iff_not] at h
  refine ⟨by omega, by omega, ?_⟩
  simp [h]

theorem isTargetChar_of_mem_encodeSegment {c : Char} {text : List Char}
    (h : c ∈ encodeSegment text) : IsTargetChar c := by
  rcases eq_percent_or_of_mem_encodeSegment h with rfl | h
  · decide
  · exact isTargetChar_of_not_isReserved h

/-- A target with fixed segments before and after the application. -/
def target (before after : List String) (app path : String) : List Char :=
  (before.map String.toList ++ encodeSegment app.toList :: (after.map String.toList ++
    (pathSegments path.toList).map encodeSegment)).flatMap ('/' :: ·)

/-- A path without the slashes before it. -/
def pathBody (path : String) : List Char := path.toList.dropWhile (· = '/')

/-- The target names an application and a path: cut at its slashes it has the fixed segments,
a segment that stands for the application and those that stand for the path. -/
structure Names (before after : List String) (app path : String) (target : List Char) : Prop where
  printed : ∀ c ∈ target, IsTargetChar c
  cut : ∃ name segments, segments ≠ [] ∧
    split '/' target =
      [] :: (before.map String.toList ++ name :: (after.map String.toList ++ segments)) ∧
    (percentDecode name).toByteArray = app.toUTF8 ∧
    segments.map (fun segment => (percentDecode segment).toByteArray) =
      (split '/' (pathBody path)).map List.utf8Encode

/-- A fixed segment, written as it is. -/
def IsFixed (segment : String) : Prop :=
  '/' ∉ segment.toList ∧ ∀ c ∈ segment.toList, IsTargetChar c

theorem names_target {before after : List String} (hbefore : ∀ segment ∈ before, IsFixed segment)
    (hafter : ∀ segment ∈ after, IsFixed segment) (app path : String) :
    Names before after app path (target before after app path) := by
  have hsegments : ∀ segment ∈ before.map String.toList ++ encodeSegment app.toList ::
      (after.map String.toList ++ (pathSegments path.toList).map encodeSegment),
      '/' ∉ segment ∧ ∀ c ∈ segment, IsTargetChar c := by
    have hencoded : ∀ text, '/' ∉ encodeSegment text ∧ ∀ c ∈ encodeSegment text, IsTargetChar c :=
      fun text => ⟨slash_not_mem_encodeSegment text, fun _ => isTargetChar_of_mem_encodeSegment⟩
    intro segment hsegment
    rcases List.mem_append.mp hsegment with h | h
    · obtain ⟨fixed, hfixed, rfl⟩ := List.mem_map.mp h
      exact hbefore fixed hfixed
    · rcases List.mem_cons.mp h with rfl | h
      · exact hencoded app.toList
      · rcases List.mem_append.mp h with h | h
        · obtain ⟨fixed, hfixed, rfl⟩ := List.mem_map.mp h
          exact hafter fixed hfixed
        · obtain ⟨text, -, rfl⟩ := List.mem_map.mp h
          exact hencoded text
  constructor
  · intro c hc
    obtain ⟨segment, hsegment, hc⟩ := List.mem_flatMap.mp hc
    rcases List.mem_cons.mp hc with rfl | hc
    · decide
    · exact (hsegments segment hsegment).2 c hc
  · refine ⟨encodeSegment app.toList, (pathSegments path.toList).map encodeSegment, ?_, ?_, ?_, ?_⟩
    · exact fun h => split_ne_nil '/' _ (List.map_eq_nil_iff.mp h)
    · exact split_append_flatMap List.not_mem_nil fun segment h => (hsegments segment h).1
    · rw [percentDecode_encodeSegment, String.utf8Encode_toList]
      rfl
    · rw [List.map_map]
      exact List.map_congr_left fun segment _ => percentDecode_encodeSegment segment

/-- A target names one application, and one path but for the slashes before it. -/
theorem Names.unique {before after : List String} {app app' path path' : String}
    {target : List Char} (h : Names before after app path target)
    (h' : Names before after app' path' target) :
    app = app' ∧ pathBody path = pathBody path' := by
  obtain ⟨name, segments, -, hcut, hname, hsegments⟩ := h.cut
  obtain ⟨name', segments', -, hcut', hname', hsegments'⟩ := h'.cut
  have hlists := List.append_cancel_left (List.cons.inj (hcut.symm.trans hcut')).2
  obtain ⟨rfl, hrest⟩ := List.cons.inj hlists
  obtain rfl := List.append_cancel_left hrest
  refine ⟨String.toByteArray_inj.mp (hname.symm.trans hname'), ?_⟩
  have hparts : split '/' (pathBody path) = split '/' (pathBody path') :=
    (List.map_inj_right fun _ _ => utf8Encode_inj).mp (hsegments.symm.trans hsegments')
  rw [← join_split '/' (pathBody path), hparts, join_split]

/-- Slashes before a path are not part of the target. -/
theorem target_congr (before after : List String) (app : String) {path path' : String}
    (h : pathBody path = pathBody path') :
    target before after app path = target before after app path' := by
  have hsegments : pathSegments path.toList = pathSegments path'.toList :=
    congrArg (split '/') h
  rw [target, target, hsegments]

namespace Api

/-! ## Addresses -/

/-- The address of a server is its URL without the slashes at the end. -/
theorem toList_url_ofUrl (base : String) :
    (∃ slashes, base.toList = (ofUrl base).url.toList ++ List.replicate slashes '/') ∧
      (ofUrl base).url.toList.getLast? ≠ some '/' := by
  have haddress : (ofUrl base).url.toList = (base.toList.reverse.dropWhile (· = '/')).reverse :=
    String.toList_ofList
  rw [haddress]
  constructor
  · refine ⟨(base.toList.reverse.takeWhile (· = '/')).length, ?_⟩
    have hslashes : (base.toList.reverse.takeWhile (· = '/')).reverse =
        List.replicate (base.toList.reverse.takeWhile (· = '/')).length '/' := by
      refine List.eq_replicate_iff.mpr ⟨List.length_reverse, fun c hc => ?_⟩
      exact of_decide_eq_true (List.all_eq_true.mp List.all_takeWhile c (List.mem_reverse.mp hc))
    rw [← hslashes, ← List.reverse_append, List.takeWhile_append_dropWhile, List.reverse_reverse]
  · rw [List.getLast?_reverse]
    intro hhead
    have hnot := List.head?_dropWhile_not (fun c => decide (c = '/')) base.toList.reverse
    rw [hhead] at hnot
    exact absurd hnot (by decide)

/-- A URL that ends in a target tells what the target names. -/
theorem eq_iff_of_toList {before after : List String}
    (hbefore : ∀ segment ∈ before, IsFixed segment) (hafter : ∀ segment ∈ after, IsFixed segment)
    {address : List Char} {url : String → String → String}
    (h : ∀ app path, (url app path).toList = address ++ target before after app path)
    {app app' path path' : String} :
    url app path = url app' path' ↔ app = app' ∧ pathBody path = pathBody path' := by
  constructor
  · intro heq
    have htargets : target before after app path = target before after app' path' := by
      have hlists := congrArg String.toList heq
      rw [h, h] at hlists
      exact List.append_cancel_left hlists
    have hnames := names_target hbefore hafter app' path'
    rw [← htargets] at hnames
    exact (names_target hbefore hafter app path).unique hnames
  · rintro ⟨rfl, hpath⟩
    refine String.toList_inj.mp ?_
    rw [h, h, target_congr before after app hpath]

theorem toList_routeUrl (api : Api) (app path : String) :
    (api.routeUrl app path).toList =
      api.url.toList ++ target ["v1", "apps"] ["routes"] app path := by
  simp [routeUrl, routesUrl, target, encodePath, List.flatMap_map]

theorem toList_callUrl (api : Api) (app path : String) :
    (api.callUrl app path).toList = api.url.toList ++ target ["r"] [] app path := by
  simp [callUrl, target, encodePath, List.flatMap_map]

/-- The URL of a route and the one that calls it are the address of the server with a target
that names the application and the path, so two of them are equal only if they name the same
application and, but for slashes before it, the same path. -/
theorem urls_name_routes (base app path : String) :
    ((∃ slashes, base.toList = (ofUrl base).url.toList ++ List.replicate slashes '/') ∧
      (ofUrl base).url.toList.getLast? ≠ some '/') ∧
    (∃ target, ((ofUrl base).routeUrl app path).toList = (ofUrl base).url.toList ++ target ∧
      Names ["v1", "apps"] ["routes"] app path target) ∧
    (∃ target, ((ofUrl base).callUrl app path).toList = (ofUrl base).url.toList ++ target ∧
      Names ["r"] [] app path target) ∧
    ∀ app' path',
      ((ofUrl base).routeUrl app path = (ofUrl base).routeUrl app' path' ↔
        app = app' ∧ pathBody path = pathBody path') ∧
      ((ofUrl base).callUrl app path = (ofUrl base).callUrl app' path' ↔
        app = app' ∧ pathBody path = pathBody path') := by
  have hresources : ∀ segment ∈ ["v1", "apps"], IsFixed segment := by
    simp [IsFixed, IsTargetChar]
  have hroutes : ∀ segment ∈ ["routes"], IsFixed segment := by simp [IsFixed, IsTargetChar]
  have hcalls : ∀ segment ∈ ["r"], IsFixed segment := by simp [IsFixed, IsTargetChar]
  have hnone : ∀ segment ∈ [], IsFixed segment := nofun
  refine ⟨toList_url_ofUrl base,
    ⟨_, toList_routeUrl _ app path, names_target hresources hroutes app path⟩,
    ⟨_, toList_callUrl _ app path, names_target hcalls hnone app path⟩,
    fun app' path' => ⟨?_, ?_⟩⟩
  · exact eq_iff_of_toList hresources hroutes (toList_routeUrl (ofUrl base))
  · exact eq_iff_of_toList hcalls hnone (toList_callUrl (ofUrl base))

end Api
end AppRoutes.Http
