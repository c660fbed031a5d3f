/-
Routes on the wire.

An attribute that is not set is left out when a route is written, and an attribute that is
left out keeps its first value when a route is read.  `reads_member` says that the two rules
agree for each attribute, and from it the round trip follows for whole routes, alone and in
the envelopes.
-/
import AppRoutes.Proofs.Json.Decoding
import AppRoutes.Route.Wire

namespace AppRoutes
open Json

namespace Route

/-- The members that an attribute is written as: one, or none if it is not set. -/
def member (route : Route) : Field → List (String × Value)
  | .appName => textMember "app_name" route.appName
  | .path => textMember "path" route.path
  | .image => textMember "image" route.image
  | .memory => numberMember "memory" route.memory.toNat
  | .type => optionalMember "type" (fun type => .string type.name) route.type
  | .format => textMember "format" route.format
  | .maxConcurrency => numberMember "max_concurrency" route.maxConcurrency.toNat
  | .timeout => optionalMember "timeout" (fun seconds => .natural seconds.toNat) route.timeout
  | .config => optionalMember "config" (SortedMap.toValue .string) route.config
  | .headers => optionalMember "headers" (SortedMap.toValue listValue) route.headers

theorem members_eq_flatMap (route : Route) : route.members = Field.all.flatMap route.member := by
  simp [members, Field.all, member]

/-- The route `target` with one attribute of `source`. -/
def put (field : Field) (source target : Route) : Route :=
  match field with
  | .appName => { target with appName := source.appName }
  | .path => { target with path := source.path }
  | .image => { target with image := source.image }
  | .memory => { target with memory := source.memory }
  | .type => { target with type := source.type }
  | .format => { target with format := source.format }
  | .maxConcurrency => { target with maxConcurrency := source.maxConcurrency }
  | .timeout => { target with timeout := source.timeout }
  | .config => { target with config := source.config }
  | .headers => { target with headers := source.headers }

theorem reads_textMember {field : Field} {before : Route} (set : String → Route)
    (hread : ∀ s, readField field (.string (some s)) before = .ok (set s))
    (hempty : set "" = before) (text : String) :
    record.Reads field (memberNodes (textMember field.name text)) before (set text) := by
  unfold textMember
  split
  · rename_i h
    rw [String.isEmpty_iff.mp h, hempty]
    exact .absent before
  · exact .present (hread text)

theorem reads_numberMember {field : Field} {before after : Route} {n : Nat}
    (hread : readField field (.natural n) before = .ok after)
    (hzero : n = 0 → after = before) :
    record.Reads field (memberNodes (numberMember field.name n)) before after := by
  unfold numberMember
  split
  · rename_i h
    rw [hzero h]
    exact .absent before
  · exact .present hread

theorem reads_optionalMember {α : Type} {field : Field} {before : Route}
    (set : Option α → Route) {toValue : α → Value}
    (hread : ∀ a, readField field (toValue a).toNode before = .ok (set (some a)))
    (hnone : set none = before) (value : Option α) :
    record.Reads field (memberNodes (optionalMember field.name toValue value)) before
      (set value) := by
  cases value with
  | none =>
    rw [hnone]
    exact .absent before
  | some a => exact .present (hread a)

theorem readType_name (type : RouteType) :
    readType (.string (some type.name)) = .ok (some type) := by
  cases type <;> rfl

theorem toNode_configValue (config : ConfigMap) :
    (config.toValue .string).toNode =
      .object (config.entries.map (fun entry => (some entry.1, .string (some entry.2)))) := by
  rw [SortedMap.toValue, Value.toNode, memberNodes_eq_map, List.map_map]
  rfl

theorem toNode_headersValue (headers : HeaderMap) :
    (headers.toValue listValue).toNode =
      .object (headers.entries.map (fun entry =>
        (some entry.1, .array (entry.2.map (fun s => .string (some s)))))) := by
  rw [SortedMap.toValue, Value.toNode, memberNodes_eq_map, List.map_map]
  refine congrArg Node.object (List.map_congr_left (fun entry _ => ?_))
  show (some entry.1, Node.array (itemNodes (entry.2.map .string))) = _
  rw [itemNodes_eq_map, List.map_map]
  rfl

theorem read_config (config : ConfigMap) :
    Node.optional (Node.map Node.text) (config.toValue .string).toNode = .ok (some config) := by
  rw [toNode_configValue]
  exact optional_of_ne_null nofun
    (map_object_map (fun s => .string (some s)) (fun _ => rfl) config)

theorem read_headers (headers : HeaderMap) :
    Node.optional (Node.map (Node.list Node.text)) (headers.toValue listValue).toNode =
      .ok (some headers) := by
  have hlist : ∀ values : List String,
      Node.list Node.text (.array (values.map (fun s => .string (some s)))) = .ok values :=
    list_array_map (fun s => .string (some s)) (fun _ => rfl)
  rw [toNode_headersValue]
  exact optional_of_ne_null nofun
    (map_object_map (fun values => .array (values.map (fun s => .string (some s)))) hlist headers)

/-- Reading an attribute as it was written sets it, if it was not set before. -/
theorem reads_member (field : Field) (route : Route) {before : Route}
    (h : put field {} before = before) :
    record.Reads field (memberNodes (route.member field)) before (put field route before) := by
  cases field with
  | appName =>
    exact reads_textMember (fun s => { before with appName := s }) (fun _ => rfl) h route.appName
  | path =>
    exact reads_textMember (fun s => { before with path := s }) (fun _ => rfl) h route.path
  | image =>
    exact reads_textMember (fun s => { before with image := s }) (fun _ => rfl) h route.image
  | memory =>
    refine reads_numberMember ?_ (fun hzero => ?_)
    · rw [readField, word64_natural]
      rfl
    · have hmemory : route.memory = 0 := UInt64.toNat_inj.mp hzero
      rw [put, hmemory]
      exact h
  | type =>
    refine reads_optionalMember (fun type => { before with type }) (fun type => ?_) h route.type
    rw [readField, Value.toNode, readType_name]
    rfl
  | format =>
    exact reads_textMember (fun s => { before with format := s }) (fun _ => rfl) h route.format
  | maxConcurrency =>
    refine reads_numberMember ?_ (fun hzero => ?_)
    · rw [readField, word32_natural]
      rfl
    · have hconcurrency : route.maxConcurrency = 0 := UInt32.toNat_inj.mp hzero
      rw [put, hconcurrency]
      exact h
  | timeout =>
    refine reads_optionalMember (fun timeout => { before with timeout }) (fun seconds => ?_) h
      route.timeout
    have hseconds : Node.optional Node.word64 (.natural seconds.toNat) = .ok (some seconds) :=
      optional_of_ne_null (by simp) (word64_natural seconds)
    rw [readField, Value.toNode, hseconds]
    rfl
  | config =>
    refine reads_optionalMember (fun config => { before with config }) (fun config => ?_) h
      route.config
    rw [readField, read_config]
    rfl
  | headers =>
    refine reads_optionalMember (fun headers => { before with headers }) (fun headers => ?_) h
      route.headers
    rw [readField, read_headers]
    rfl

theorem put_put_of_ne {f g : Field} (h : f ≠ g) (first second target : Route) :
    put f first (put g second target) = put g second (put f first target) := by
  cases f <;> cases g <;> first | rfl | exact absurd rfl h

theorem foldl_put_all (route : Route) :
    Field.all.foldl (fun target field => put field route target) {} = route := by
  cases route
  rfl

/-- Setting one attribute leaves the others open, so each of them is still open when its turn
comes. -/
theorem readsAll_member (route : Route) {fields : List Field} (hnodup : fields.Nodup)
    (before : Route) (hopen : ∀ field ∈ fields, put field {} before = before) :
    record.ReadsAll (fun field => memberNodes (route.member field)) fields before
      (fields.foldl (fun target field => put field route target) before) := by
  induction fields generalizing before with
  | nil => exact .nil before
  | cons field fields ih =>
    obtain ⟨hnot, hnodup⟩ := List.nodup_cons.mp hnodup
    refine .cons (reads_member field route (hopen field List.mem_cons_self)) (ih hnodup _ ?_)
    intro g hg
    have hne : g ≠ field := fun e => hnot (e ▸ hg)
    rw [put_put_of_ne hne, hopen g (List.mem_cons_of_mem field hg)]

theorem toNode_toValue (route : Route) :
    route.toValue.toNode =
      .object (Field.all.flatMap (fun field => memberNodes (route.member field))) := by
  rw [toValue, Value.toNode, memberNodes_eq_map, members_eq_flatMap, List.map_flatMap]
  simp only [memberNodes_eq_map]

theorem field?_name (field : Field) : record.field? field.name = some field := by
  cases field <;> rfl

theorem decode_toNode (route : Route) : record.decode route.toValue.toNode = .ok route := by
  have hnodup : Field.all.Nodup := by decide
  have hread := readsAll_member route hnodup {} (fun field _ => by cases field <;> rfl)
  rw [foldl_put_all] at hread
  rw [toNode_toValue]
  exact Record.decode_object_of_readsAll hread hnodup
    (fun field _ => field?_name field) (fun _ _ => rfl)

/-- The text of a route holds the route. -/
theorem decode_render_toValue (layout : Layout) (route : Route) :
    decode (route.toValue.render layout) = .ok route := by
  rw [decode, Record.decodeText_render, decode_toNode]

theorem fst_of_mem_member {route : Route} {field : Field} {member : String × Value}
    (h : member ∈ route.member field) : member.1 = field.name := by
  cases field with
  | appName | path | image | format =>
    simp only [Route.member, textMember] at h
    split at h <;> simp_all [Field.name]
  | memory | maxConcurrency =>
    simp only [Route.member, numberMember] at h
    split at h <;> simp_all [Field.name]
  | type | timeout | config | headers =>
    simp only [Route.member] at h
    unfold optionalMember at h
    split at h <;> simp_all [Field.name]

theorem name_injective {f g : Field} (h : f.name = g.name) : f = g := by
  have hfield := field?_name f
  rw [h, field?_name g] at hfield
  exact (Option.some.inj hfield).symm

/-- A name stands in the text of a route exactly if its attribute is written. -/
theorem name_mem_keys (route : Route) (field : Field) :
    some field.name ∈ route.members.map (fun member => some member.1) ↔
      route.member field ≠ [] := by
  rw [members_eq_flatMap, List.mem_map]
  constructor
  · rintro ⟨member, hmem, hname⟩ hnil
    obtain ⟨g, _, hg⟩ := List.mem_flatMap.mp hmem
    have hgf : g = field :=
      name_injective ((fst_of_mem_member hg).symm.trans (Option.some.inj hname))
    rw [hgf, hnil] at hg
    exact absurd hg List.not_mem_nil
  · intro hne
    obtain ⟨member, hmem⟩ := List.exists_mem_of_ne_nil _ hne
    refine ⟨member, List.mem_flatMap.mpr ⟨field, ?_, hmem⟩, ?_⟩
    · cases field <;> decide
    · rw [fst_of_mem_member hmem]

end Route

theorem decode_envelope {α : Type} (name : String) (isRequired : Bool) (absent : α)
    (decode : Node → Decoded α) (node : Node) :
    (envelope name isRequired absent decode).decode (.object [(some name, node)]) =
      decode node := by
  have hfield : (envelope name isRequired absent decode).field? name = some () := by
    simp [Record.field?, envelope]
  rw [Record.decode, Record.readMembers, hfield]
  have hread : (envelope name isRequired absent decode).read () node
      (envelope name isRequired absent decode).start = decode node := rfl
  simp only [List.not_mem_nil, if_false]
  rw [hread]
  cases decode node with
  | error fault => rfl
  | ok value => cases isRequired <;> rfl

/-- The texts that the envelopes of routes and messages are written as. -/
def routeValue (route : Route) : Value := .object [("route", route.toValue)]

theorem decodeText_routeValue (layout : Layout) (route : Route) :
    routeEnvelope.decodeText ((routeValue route).render layout) = .ok route := by
  rw [Record.decodeText_render]
  show routeEnvelope.decode (.object [(some "route", route.toValue.toNode)]) = _
  rw [routeEnvelope, decode_envelope, Route.decode_toNode]

/-- A route comes back from its text on one line and from the body that is submitted, with
every attribute as it was, so texts of different routes differ. -/
theorem render_body_roundTrip (route : Route) :
    Route.decode route.render = .ok route ∧ routeEnvelope.decodeText route.body = .ok route ∧
      ∀ other : Route,
        (other.render = route.render ↔ other = route) ∧ (other.body = route.body ↔ other = route) := by
  have hrender : ∀ r : Route, Route.decode r.render = .ok r := Route.decode_render_toValue .compact
  have hbody : ∀ r : Route, routeEnvelope.decodeText r.body = .ok r :=
    decodeText_routeValue .indented
  refine ⟨hrender route, hbody route, fun other => ⟨⟨fun h => ?_, fun h => h ▸ rfl⟩,
    ⟨fun h => ?_, fun h => h ▸ rfl⟩⟩⟩
  · have hother := hrender other
    rw [h, hrender route] at hother
    exact (Except.ok.inj hother).symm
  · have hother := hbody other
    rw [h, hbody route] at hother
    exact (Except.ok.inj hother).symm

end AppRoutes
