/-
Entries of a route, chosen by a property.

A property is a list of names and positions with points between them, and nothing marks a point
that is part of a name.  So a config entry or a header is reached exactly if there is no point in
its name: with one, the property leads past the map, to another header's value or nowhere.
-/
import AppRoutes.Program.Commands
import AppRoutes.Proofs.Route.RoundTrip

namespace AppRoutes

open Json Text

namespace Json.Value

theorem descend_cons (value : Value) (segment : List Char) (rest : List (List Char)) :
    value.descend (segment :: rest) =
      (value.child? segment).bind (fun child => child.descend rest) := rfl

/-- A text is all that is within a list of texts. -/
theorem descend_listValue_cons (values : List String) (segment : List Char)
    (rest : List (List Char)) :
    (listValue values).descend (segment :: rest) =
      if rest = [] then
        ((Numeral.below? UInt64.size segment).bind (fun i => values[i]?)).map Value.string
      else none := by
  have hchild : (listValue values).child? segment =
      ((Numeral.below? UInt64.size segment).bind (fun i => values[i]?)).map Value.string := by
    show (Numeral.below? UInt64.size segment).bind (fun i => (values.map Value.string)[i]?) = _
    cases Numeral.below? UInt64.size segment with
    | none => rfl
    | some i => exact List.getElem?_map
  rw [descend_cons, hchild]
  cases rest with
  | nil => cases (Numeral.below? UInt64.size segment).bind (fun i => values[i]?) <;> rfl
  | cons next rest => cases (Numeral.below? UInt64.size segment).bind (fun i => values[i]?) <;> rfl

theorem lookup_eq_lookupEntry {α : Type} (entries : List (String × α)) (key : String) :
    entries.lookup key = SortedMap.lookupEntry key entries := by
  induction entries with
  | nil => rfl
  | cons entry rest ih =>
    obtain ⟨k, value⟩ := entry
    rw [SortedMap.lookupEntry]
    by_cases hk : k = key
    · rw [if_pos hk, hk, List.lookup_cons_self]
    · have hbeq : (key == k) = false := by simpa using Ne.symm hk
      rw [if_neg hk, List.lookup_cons, hbeq]
      exact ih

theorem child?_object (map : SortedMap Value) (segment : List Char) :
    (Value.object map.entries).child? segment = map.get? (String.ofList segment) :=
  lookup_eq_lookupEntry map.entries (String.ofList segment)

theorem child?_toValue {α : Type} (toValue : α → Value) (map : SortedMap α)
    (segment : List Char) :
    (map.toValue toValue).child? segment =
      (map.get? (String.ofList segment)).map toValue := by
  have hmap : ∀ (entries : List (String × α)) (key : String),
      SortedMap.lookupEntry key (entries.map (fun entry => (entry.1, toValue entry.2))) =
        (SortedMap.lookupEntry key entries).map toValue := by
    intro entries key
    induction entries with
    | nil => rfl
    | cons entry rest ih =>
      rw [List.map_cons, SortedMap.lookupEntry, SortedMap.lookupEntry, ih]
      split <;> rfl
  exact (lookup_eq_lookupEntry _ _).trans (hmap map.entries (String.ofList segment))

/-- A property that begins with a name leads into the child of that name. -/
theorem select_cons (value : Value) {name : String} (h : '.' ∉ name.toList) (rest : String) :
    value.select (name ++ "." ++ rest) =
      (value.child? name.toList).bind (fun child => child.descend (split '.' rest.toList)) := by
  have htext : (name ++ "." ++ rest).toList = name.toList ++ '.' :: rest.toList := by simp
  rw [select, htext, split_append_cons h, descend_cons]

end Json.Value

namespace Route

/-- An attribute is written as one member, or as none. -/
theorem member_eq (route : Route) (field : Field) :
    route.member field = [] ∨ ∃ value, route.member field = [(field.name, value)] := by
  cases field with
  | appName | path | image | format =>
    simp only [member, textMember]
    split
    · exact Or.inl rfl
    · exact Or.inr ⟨_, rfl⟩
  | memory | maxConcurrency =>
    simp only [member, numberMember]
    split
    · exact Or.inl rfl
    · exact Or.inr ⟨_, rfl⟩
  | type | timeout | config | headers =>
    simp only [member]
    unfold optionalMember
    split
    · exact Or.inl rfl
    · exact Or.inr ⟨_, rfl⟩

theorem nodup_keys_members (route : Route) : (route.members.map Prod.fst).Nodup := by
  have hsublist : (route.members.map Prod.fst).Sublist (Field.all.map Field.name) := by
    rw [members_eq_flatMap]
    generalize Field.all = fields
    induction fields with
    | nil => exact List.Sublist.refl []
    | cons field fields ih =>
      rw [List.flatMap_cons, List.map_append, List.map_cons]
      rcases route.member_eq field with h | ⟨value, h⟩
      · rw [h]
        exact ih.cons field.name
      · rw [h]
        exact ih.cons_cons field.name
  exact hsublist.nodup (by decide)

theorem mem_members_iff (route : Route) (field : Field) {value : Value} :
    (field.name, value) ∈ route.members ↔ (field.name, value) ∈ route.member field := by
  have hall : field ∈ Field.all := by cases field <;> decide
  rw [members_eq_flatMap, List.mem_flatMap]
  constructor
  · intro h
    obtain ⟨other, -, hmem⟩ := h
    have hfield : field = other := name_injective (fst_of_mem_member hmem)
    subst hfield
    exact hmem
  · intro h
    exact ⟨field, hall, h⟩

/-- The value under the name of an attribute is the one that the attribute is written with. -/
theorem child?_attributes (route : Route) (field : Field) :
    route.attributes.child? field.name.toList = (route.member field).head?.map Prod.snd := by
  rw [attributes, Value.child?_object, String.ofList_toList]
  refine Option.ext fun value => ?_
  rw [SortedMap.get?_ofList_eq_some_iff route.nodup_keys_members, mem_members_iff]
  rcases route.member_eq field with h | ⟨written, h⟩
  · rw [h]
    simp
  · rw [h]
    simp [eq_comm]

theorem child?_config (route : Route) :
    route.attributes.child? "config".toList =
      route.config.map (SortedMap.toValue Value.string) := by
  have hchild := route.child?_attributes .config
  rw [Field.name] at hchild
  rw [hchild, member]
  cases route.config <;> rfl

theorem child?_headers (route : Route) :
    route.attributes.child? "headers".toList = route.headers.map (SortedMap.toValue listValue) := by
  have hchild := route.child?_attributes .headers
  rw [Field.name] at hchild
  rw [hchild, member]
  cases route.headers <;> rfl

/-! ## Properties -/

/-- A config entry is reached if there is no point in its key, and else nothing is. -/
theorem select_config (route : Route) (key : String) :
    route.attributes.select ("config." ++ key) =
      if '.' ∈ key.toList then none
      else (route.config.bind (fun config => config.get? key)).map Value.string := by
  have hname : '.' ∉ "config".toList := by decide
  have hselect := route.attributes.select_cons hname key
  rw [child?_config] at hselect
  rw [show "config." ++ key = "config" ++ "." ++ key from rfl, hselect]
  cases route.config with
  | none => split <;> rfl
  | some config =>
    show (config.toValue Value.string).descend (split '.' key.toList) = _
    by_cases hpoint : '.' ∈ key.toList
    · obtain ⟨first, second, others, hsplit⟩ := split_of_mem hpoint
      rw [if_pos hpoint, hsplit, Value.descend_cons, Value.child?_toValue]
      cases config.get? (String.ofList first) <;> rfl
    · rw [if_neg hpoint, split_of_not_mem hpoint, Value.descend_cons, Value.child?_toValue,
        String.ofList_toList]
      show _ = (config.get? key).map Value.string
      cases config.get? key <;> rfl

/-- A property that goes on after `headers` leads to the values of the header that it names
first, and with one more part to one of them. -/
theorem select_headers_split (route : Route) {property : String} {first : List Char}
    {rest : List (List Char)} (hsplit : split '.' property.toList = first :: rest) :
    route.attributes.select ("headers." ++ property) =
      (route.headers.bind (fun headers => headers.get? (String.ofList first))).bind
        (fun values => (listValue values).descend rest) := by
  have hname : '.' ∉ "headers".toList := by decide
  have hselect := route.attributes.select_cons hname property
  rw [child?_headers] at hselect
  rw [show "headers." ++ property = "headers" ++ "." ++ property from rfl, hselect]
  cases route.headers with
  | none => rfl
  | some headers =>
    show (headers.toValue listValue).descend (split '.' property.toList) = _
    rw [hsplit, Value.descend_cons, Value.child?_toValue]
    show _ = (headers.get? (String.ofList first)).bind _
    cases headers.get? (String.ofList first) <;> rfl

theorem select_headers (route : Route) {name : String} (h : '.' ∉ name.toList) :
    route.attributes.select ("headers." ++ name) =
      (route.headers.bind (fun headers => headers.get? name)).map listValue := by
  rw [select_headers_split route (split_of_not_mem h), String.ofList_toList]
  cases route.headers.bind (fun headers => headers.get? name) <;> rfl

/-- With a point in the name the property leads to one value at most, and never to a list. -/
theorem select_headers_of_mem (route : Route) {name : String} (h : '.' ∈ name.toList)
    (values : List String) :
    route.attributes.select ("headers." ++ name) ≠ some (listValue values) := by
  obtain ⟨first, second, others, hsplit⟩ := split_of_mem h
  rw [select_headers_split route hsplit]
  intro hlist
  obtain ⟨stored, -, hstored⟩ := Option.bind_eq_some_iff.mp hlist
  rw [Value.descend_listValue_cons] at hstored
  split at hstored
  · obtain ⟨text, -, htext⟩ := Option.map_eq_some_iff.mp hstored
    cases htext
  · cases hstored

/-- The property of a position among the values of a header. -/
def positionProperty (name : String) (position : Nat) : String :=
  "headers." ++ name ++ "." ++ String.ofList (Numeral.digits position)

theorem not_mem_digits (position : Nat) : '.' ∉ Numeral.digits position := by
  intro h
  exact absurd (Numeral.isDigit_of_mem_digits h) (by decide)

theorem positionProperty_eq (name : String) (position : Nat) :
    positionProperty name position =
      "headers." ++ (name ++ "." ++ String.ofList (Numeral.digits position)) := by
  rw [positionProperty, String.append_assoc, String.append_assoc, String.append_assoc]

theorem split_position (name : String) (position : Nat) :
    split '.' (name ++ "." ++ String.ofList (Numeral.digits position)).toList =
      split '.' name.toList ++ [Numeral.digits position] := by
  have htext : (name ++ "." ++ String.ofList (Numeral.digits position)).toList =
      name.toList ++ '.' :: Numeral.digits position := by simp
  rw [htext, split_append_separator, split_of_not_mem (not_mem_digits position)]

theorem select_position (route : Route) {name : String} (h : '.' ∉ name.toList) {position : Nat}
    (hposition : position < UInt64.size) :
    route.attributes.select (positionProperty name position) =
      ((route.headers.bind (fun headers => headers.get? name)).bind
        (fun values => values[position]?)).map Value.string := by
  have hsplit := split_position name position
  rw [split_of_not_mem h] at hsplit
  have hbelow : Numeral.below? UInt64.size (Numeral.digits position) = some position :=
    Numeral.below?_eq_some_iff.mpr
      ⟨_, .inl rfl, Numeral.isNumeral_digits _, Numeral.value_digits _, hposition⟩
  rw [positionProperty_eq, select_headers_split route hsplit, String.ofList_toList]
  cases route.headers.bind (fun headers => headers.get? name) with
  | none => rfl
  | some values =>
    show (listValue values).descend [Numeral.digits position] = _
    rw [Value.descend_listValue_cons, if_pos rfl, hbelow]
    rfl

/-- With a point in the name a position leads nowhere. -/
theorem select_position_of_mem (route : Route) {name : String} (h : '.' ∈ name.toList)
    (position : Nat) : route.attributes.select (positionProperty name position) = none := by
  obtain ⟨first, second, others, hname⟩ := split_of_mem h
  have hsplit := split_position name position
  rw [hname, List.cons_append, List.cons_append] at hsplit
  rw [positionProperty_eq, select_headers_split route hsplit]
  refine Option.bind_eq_none_iff.mpr fun values _ => ?_
  rw [Value.descend_listValue_cons, if_neg (by simp)]

/-- A config entry, the values of a header and each of them are selected by their names exactly
if there is no point in the name.  A key without an entry selects nothing.  A position is a
machine word. -/
theorem select_finds_iff_no_point (route : Route) :
    (∀ config key value, route.config = some config → config.get? key = some value →
      (route.attributes.select ("config." ++ key) = some (.string value) ↔ '.' ∉ key.toList)) ∧
    (∀ headers name values, route.headers = some headers → headers.get? name = some values →
      (route.attributes.select ("headers." ++ name) = some (listValue values) ↔
        '.' ∉ name.toList) ∧
      ∀ position value, position < UInt64.size → values[position]? = some value →
        (route.attributes.select (positionProperty name position) = some (.string value) ↔
          '.' ∉ name.toList)) ∧
    ∀ key, (∀ config, route.config = some config → config.get? key = none) →
      route.attributes.select ("config." ++ key) = none := by
  refine ⟨fun config key value hconfig hvalue => ?_,
    fun headers name values hheaders hvalues => ⟨?_, fun position value hposition hvalue => ?_⟩,
    fun key habsent => ?_⟩
  · rw [select_config, hconfig]
    by_cases hpoint : '.' ∈ key.toList
    · simp [hpoint]
    · simp [hpoint, hvalue]
  · by_cases hpoint : '.' ∈ name.toList
    · exact iff_of_false (route.select_headers_of_mem hpoint values) (not_not_intro hpoint)
    · rw [select_headers route hpoint, hheaders]
      simp [hpoint, hvalues]
  · by_cases hpoint : '.' ∈ name.toList
    · rw [route.select_position_of_mem hpoint position]
      simp [hpoint]
    · rw [select_position route hpoint hposition, hheaders]
      simp [hpoint, hvalues, hvalue]
  · rw [select_config]
    cases hconfig : route.config with
    | none => simp
    | some config => simp [habsent config hconfig]

/-- A key with a point is stored and not found, and a header with a point gives way to a value of
another one. -/
theorem point_hides_entry :
    (SortedMap.ofList [("a.b", "1")]).get? "a.b" = some "1" ∧
      ({ config := some (SortedMap.ofList [("a.b", "1")]) } : Route).attributes.select
        ("config." ++ "a.b") ≠ some (.string "1") ∧
      (SortedMap.ofList [("X", ["v"]), ("X.0", ["w"])]).get? "X.0" = some ["w"] ∧
      ({ headers := some (SortedMap.ofList [("X", ["v"]), ("X.0", ["w"])]) } :
        Route).attributes.select ("headers." ++ "X.0") = some (.string "v") := by
  have hkey : '.' ∈ "a.b".toList := by decide
  have hname : split '.' "X.0".toList = [['X'], ['0']] := by decide
  refine ⟨by decide, ?_, by decide, ?_⟩
  · rw [select_config, if_pos hkey]
    exact nofun
  · rw [select_headers_split _ hname]
    rfl

end Route
end AppRoutes
