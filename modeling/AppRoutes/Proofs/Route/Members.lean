/-
Routes in any order of members.

A route is read attribute by attribute, and reading one attribute neither looks at the others
nor changes them.  So a text of a route may list the attributes in any order and hold any
other members beside them, and its route is settled by the values of the attributes alone.
`Carries` lists the values that an attribute is read from, without the decoder.
-/
import Mathlib.Data.List.Nodup
import AppRoutes.Proofs.Json.Members
import AppRoutes.Proofs.Route.RoundTrip

namespace AppRoutes
open Json

namespace Route

/-- What an attribute is read as does not depend on the others, which keep their values. -/
theorem readField_eq (field : Field) (node : Node) (route : Route) :
    readField field node route =
      (readField field node {}).map (fun source => put field source route) := by
  cases field with
  | appName | path | image | format =>
    simp only [readField]
    cases node.text <;> rfl
  | memory =>
    simp only [readField]
    cases node.word64 <;> rfl
  | type =>
    simp only [readField]
    cases readType node <;> rfl
  | maxConcurrency =>
    simp only [readField]
    cases node.word32 <;> rfl
  | timeout =>
    simp only [readField]
    cases node.optional Node.word64 <;> rfl
  | config =>
    simp only [readField]
    cases node.optional (Node.map Node.text) <;> rfl
  | headers =>
    simp only [readField]
    cases node.optional (Node.map (Node.list Node.text)) <;> rfl

/-- One attribute of a route, alone. -/
def only (field : Field) (route : Route) : Route := put field route {}

theorem only_put_self (field : Field) (source target : Route) :
    only field (put field source target) = only field source := by
  cases field <;> rfl

theorem only_put_of_ne {f g : Field} (h : f ≠ g) (source target : Route) :
    only f (put g source target) = only f target := by
  cases f <;> cases g <;> first | rfl | exact absurd rfl h

theorem put_only (field : Field) (source target : Route) :
    put field (only field source) target = put field source target := by
  cases field <;> rfl

theorem only_start (field : Field) : only field {} = {} := by
  cases field <;> rfl

theorem ext_only {first second : Route} (h : ∀ field, only field first = only field second) :
    first = second := by
  have hput : (fun target field => put field first target) =
      fun target field => put field second target := by
    funext target field
    rw [← put_only, h field, put_only]
  rw [← foldl_put_all first, hput, foldl_put_all]

/-- What is read into an open route is the attribute alone. -/
theorem only_of_readField {field : Field} {node : Node} {source : Route}
    (h : readField field node {} = .ok source) : only field source = source := by
  have heq := readField_eq field node {}
  rw [h] at heq
  exact (Except.ok.inj heq).symm

/-- Values of different attributes give a route exactly if each gives its attribute of the
route and the attributes without a value are as before. -/
theorem readValues_eq_ok_iff {values : List (Field × Node)}
    (hnodup : (values.map Prod.fst).Nodup) {before after : Route} :
    record.readValues values before = .ok after ↔
      (∀ value ∈ values, readField value.1 value.2 {} = .ok (only value.1 after)) ∧
        ∀ field, field ∉ values.map Prod.fst → only field after = only field before := by
  induction values generalizing before with
  | nil =>
    constructor
    · rintro h
      cases h
      exact ⟨nofun, fun _ _ => rfl⟩
    · rintro ⟨-, hsame⟩
      rw [ext_only (fun field => hsame field List.not_mem_nil)]
      rfl
  | cons value rest ih =>
    obtain ⟨field, node⟩ := value
    obtain ⟨hnot, hnodup⟩ := List.nodup_cons.mp hnodup
    have hstep : record.readValues ((field, node) :: rest) before =
        (readField field node {}).bind
          (fun source => record.readValues rest (put field source before)) := by
      show (readField field node before).bind (record.readValues rest) = _
      rw [readField_eq]
      cases readField field node {} <;> rfl
    rw [hstep, List.forall_mem_cons]
    cases hread : readField field node {} with
    | error fault => simp [Except.bind]
    | ok source =>
      show record.readValues rest (put field source before) = .ok after ↔ _
      rw [ih hnodup]
      constructor
      · rintro ⟨hvalues, hsame⟩
        refine ⟨⟨?_, hvalues⟩, fun other hother => ?_⟩
        · rw [hsame field hnot, only_put_self, only_of_readField hread]
        · have hne : other ≠ field := List.ne_of_not_mem_cons hother
          rw [hsame other (List.not_mem_of_not_mem_cons hother), only_put_of_ne hne]
      · rintro ⟨⟨hsource, hvalues⟩, hsame⟩
        refine ⟨hvalues, fun other hother => ?_⟩
        by_cases hne : other = field
        · subst hne
          rw [only_put_self, only_of_readField hread]
          exact (Except.ok.inj hsource).symm
        · rw [hsame other (List.not_mem_cons_of_ne_of_not_mem hne hother), only_put_of_ne hne]

/-- How an attribute of a route stands in an object: as the value of a member, or with no
member. -/
inductive Carries (route : Route) : Field → Option Node → Prop
  | absent {field : Field} (h : only field route = {}) : Carries route field none
  | appName : Carries route .appName (some (.string (some route.appName)))
  | path : Carries route .path (some (.string (some route.path)))
  | image : Carries route .image (some (.string (some route.image)))
  | memory : Carries route .memory (some (.natural route.memory.toNat))
  | type {type : RouteType} (h : route.type = some type) :
      Carries route .type (some (.string (some type.name)))
  | nullType (h : route.type = none) : Carries route .type (some .null)
  | emptyType (h : route.type = none) : Carries route .type (some (.string (some "")))
  | format : Carries route .format (some (.string (some route.format)))
  | maxConcurrency :
      Carries route .maxConcurrency (some (.natural route.maxConcurrency.toNat))
  | timeout {seconds : UInt64} (h : route.timeout = some seconds) :
      Carries route .timeout (some (.natural seconds.toNat))
  | nullTimeout (h : route.timeout = none) : Carries route .timeout (some .null)
  /-- A key may stand more than once, and its last value counts. -/
  | config {entries : List (String × String)}
      (h : route.config =
        some (entries.foldl (fun map entry => map.insert entry.1 entry.2) ∅)) :
      Carries route .config
        (some (.object (keyed (entries.map (fun entry =>
          (entry.1, .string (some entry.2)))))))
  | nullConfig (h : route.config = none) : Carries route .config (some .null)
  | headers {entries : List (String × List String)}
      (h : route.headers =
        some (entries.foldl (fun map entry => map.insert entry.1 entry.2) ∅)) :
      Carries route .headers
        (some (.object (keyed (entries.map (fun entry =>
          (entry.1, .array (entry.2.map (fun text => .string (some text)))))))))
  | nullHeaders (h : route.headers = none) : Carries route .headers (some .null)

theorem ofName?_eq_some_iff {name : String} {type : RouteType} :
    RouteType.ofName? name = some type ↔ name = type.name := by
  constructor
  · intro h
    unfold RouteType.ofName? at h
    split at h
    · cases h
      assumption
    · split at h
      · cases h
        assumption
      · cases h
  · rintro rfl
    exact RouteType.ofName?_name type

theorem readType_eq_ok_iff {node : Node} {type : Option RouteType} :
    readType node = .ok type ↔
      (node = .null ∧ type = none) ∨ (node = .string (some "") ∧ type = none) ∨
        ∃ known : RouteType, node = .string (some known.name) ∧ type = some known := by
  constructor
  · intro h
    cases hopen : node.optional Node.text with
    | error fault =>
      rw [readType, hopen] at h
      cases h
    | ok name =>
      rw [readType, hopen] at h
      rcases optional_eq_ok_iff.mp hopen with ⟨rfl, rfl⟩ | ⟨name, -, htext, rfl⟩
      · exact Or.inl ⟨rfl, (Except.ok.inj h).symm⟩
      · obtain rfl := (undoes_text node name).mp htext
        by_cases hempty : name.isEmpty = true
        · obtain rfl := String.isEmpty_iff.mp hempty
          exact Or.inr (Or.inl ⟨rfl, (Except.ok.inj h).symm⟩)
        · simp only [bind, Except.bind, hempty, RouteType.parse] at h
          cases hknown : RouteType.ofName? name with
          | none => simp [hknown] at h
          | some known =>
            simp only [hknown] at h
            rw [ofName?_eq_some_iff.mp hknown]
            exact Or.inr (Or.inr ⟨known, rfl, (Except.ok.inj h).symm⟩)
  · rintro (⟨rfl, rfl⟩ | ⟨rfl, rfl⟩ | ⟨known, rfl, rfl⟩)
    · rfl
    · rfl
    · exact readType_name known

theorem bind_set_eq_ok_iff {α : Type} (get : Route → α) (set : α → Route)
    (h : ∀ a, get (set a) = a) {read : Decoded α} {a : α} :
    (do return set (← read)) = (.ok (set a) : Decoded Route) ↔ read = .ok a := by
  cases read with
  | error fault => constructor <;> nofun
  | ok b =>
    constructor
    · intro heq
      have hset : set b = set a := Except.ok.inj heq
      rw [← h b, hset, h a]
    · rintro ⟨⟩
      rfl

/-- An attribute is read from the values that carry it, and from no others. -/
theorem readField_eq_ok_iff {field : Field} {node : Node} {route : Route} :
    readField field node {} = .ok (only field route) ↔ route.Carries field (some node) := by
  cases field with
  | appName =>
    refine (bind_set_eq_ok_iff Route.appName (fun text => { appName := text })
      (fun _ => rfl)).trans ((undoes_text node _).trans ?_)
    exact ⟨by rintro rfl; exact .appName, fun | .appName => rfl⟩
  | path =>
    refine (bind_set_eq_ok_iff Route.path (fun text => { path := text })
      (fun _ => rfl)).trans ((undoes_text node _).trans ?_)
    exact ⟨by rintro rfl; exact .path, fun | .path => rfl⟩
  | image =>
    refine (bind_set_eq_ok_iff Route.image (fun text => { image := text })
      (fun _ => rfl)).trans ((undoes_text node _).trans ?_)
    exact ⟨by rintro rfl; exact .image, fun | .image => rfl⟩
  | memory =>
    refine (bind_set_eq_ok_iff Route.memory (fun word => { memory := word })
      (fun _ => rfl)).trans ((undoes_word64 node _).trans ?_)
    exact ⟨by rintro rfl; exact .memory, fun | .memory => rfl⟩
  | type =>
    refine (bind_set_eq_ok_iff Route.type (fun type => { type := type })
      (fun _ => rfl)).trans (readType_eq_ok_iff.trans ⟨?_, ?_⟩)
    · rintro (⟨rfl, h⟩ | ⟨rfl, h⟩ | ⟨known, rfl, h⟩)
      exacts [.nullType h, .emptyType h, .type h]
    · exact fun
        | .nullType h => Or.inl ⟨rfl, h⟩
        | .emptyType h => Or.inr (Or.inl ⟨rfl, h⟩)
        | .type h => Or.inr (Or.inr ⟨_, rfl, h⟩)
  | format =>
    refine (bind_set_eq_ok_iff Route.format (fun text => { format := text })
      (fun _ => rfl)).trans ((undoes_text node _).trans ?_)
    exact ⟨by rintro rfl; exact .format, fun | .format => rfl⟩
  | maxConcurrency =>
    refine (bind_set_eq_ok_iff Route.maxConcurrency (fun word => { maxConcurrency := word })
      (fun _ => rfl)).trans ((undoes_word32 node _).trans ?_)
    exact ⟨by rintro rfl; exact .maxConcurrency, fun | .maxConcurrency => rfl⟩
  | timeout =>
    refine (bind_set_eq_ok_iff Route.timeout (fun seconds => { timeout := seconds })
      (fun _ => rfl)).trans (optional_eq_ok_iff.trans ⟨?_, ?_⟩)
    · rintro (⟨rfl, h⟩ | ⟨seconds, -, hread, h⟩)
      · exact .nullTimeout h
      · obtain rfl := (undoes_word64 node seconds).mp hread
        exact .timeout h
    · exact fun
        | .nullTimeout h => Or.inl ⟨rfl, h⟩
        | .timeout h => Or.inr ⟨_, nofun, (undoes_word64 _ _).mpr rfl, h⟩
  | config =>
    refine (bind_set_eq_ok_iff Route.config (fun config => { config := config })
      (fun _ => rfl)).trans (optional_eq_ok_iff.trans ⟨?_, ?_⟩)
    · rintro (⟨rfl, h⟩ | ⟨config, -, hread, h⟩)
      · exact .nullConfig h
      · obtain ⟨entries, rfl, rfl⟩ := (map_eq_ok_iff undoes_text).mp hread
        exact .config h
    · exact fun
        | .nullConfig h => Or.inl ⟨rfl, h⟩
        | .config h => Or.inr ⟨_, nofun, (map_eq_ok_iff undoes_text).mpr ⟨_, rfl, rfl⟩, h⟩
  | headers =>
    refine (bind_set_eq_ok_iff Route.headers (fun headers => { headers := headers })
      (fun _ => rfl)).trans (optional_eq_ok_iff.trans ⟨?_, ?_⟩)
    · rintro (⟨rfl, h⟩ | ⟨headers, -, hread, h⟩)
      · exact .nullHeaders h
      · obtain ⟨entries, rfl, rfl⟩ := (map_eq_ok_iff (undoes_list undoes_text)).mp hread
        exact .headers h
    · exact fun
        | .nullHeaders h => Or.inl ⟨rfl, h⟩
        | .headers h =>
          Or.inr ⟨_, nofun, (map_eq_ok_iff (undoes_list undoes_text)).mpr ⟨_, rfl, rfl⟩, h⟩

/-- No attribute is named twice. -/
def NamesOnce (members : List (String × Node)) : Prop :=
  ∀ field : Field, (members.map Prod.fst).count field.name ≤ 1

theorem nodup_valuesIn {members : List (String × Node)} (h : NamesOnce members) :
    ((record.valuesIn members).map Prod.fst).Nodup :=
  List.nodup_iff_count_le_one.mpr fun field =>
    Nat.le_trans (Nat.le_of_eq (Record.count_valuesIn (field?_name field) members)) (h field)

theorem mem_valuesIn_iff_lookup {members : List (String × Node)} (h : NamesOnce members)
    {field : Field} {node : Node} :
    (field, node) ∈ record.valuesIn members ↔ members.lookup field.name = some node :=
  (Record.mem_valuesIn_iff (field?_name field)).trans (lookup_eq_some_iff (h field)).symm

theorem not_mem_valuesIn_iff_lookup {members : List (String × Node)} (h : NamesOnce members)
    {field : Field} :
    field ∉ (record.valuesIn members).map Prod.fst ↔ members.lookup field.name = none := by
  rw [Option.eq_none_iff_forall_ne_some]
  constructor
  · rintro hnot node hnode
    exact hnot (List.mem_map_of_mem ((mem_valuesIn_iff_lookup h).mpr hnode))
  · rintro hnone hmem
    obtain ⟨⟨found, node⟩, hnode, rfl⟩ := List.mem_map.mp hmem
    exact hnone node ((mem_valuesIn_iff_lookup h).mp hnode)

/-- An object decodes to the route whose attributes its members carry. -/
theorem decode_keyed_eq_ok_iff {members : List (String × Node)}
    (hintact : ∀ member ∈ members, member.2.isIntact = true) (honce : NamesOnce members)
    {route : Route} :
    record.decode (.object (keyed members)) = .ok route ↔
      ∀ field : Field, route.Carries field (members.lookup field.name) := by
  have hdecode : record.decode (.object (keyed members)) =
      record.readValues (record.valuesIn members) record.start := by
    rw [Record.decode_keyed hintact (nodup_valuesIn honce)]
    show Except.bind _ Except.ok = _
    cases record.readValues (record.valuesIn members) record.start <;> rfl
  rw [hdecode, readValues_eq_ok_iff (nodup_valuesIn honce)]
  constructor
  · rintro ⟨hvalues, hopen⟩ field
    cases hlookup : members.lookup field.name with
    | none =>
      exact .absent ((hopen field ((not_mem_valuesIn_iff_lookup honce).mpr hlookup)).trans
        (only_start field))
    | some node =>
      exact readField_eq_ok_iff.mp
        (hvalues (field, node) ((mem_valuesIn_iff_lookup honce).mpr hlookup))
  · intro hcarries
    refine ⟨fun ⟨field, node⟩ hmem => ?_, fun field hnot => ?_⟩
    · have hfield := hcarries field
      rw [(mem_valuesIn_iff_lookup honce).mp hmem] at hfield
      exact readField_eq_ok_iff.mpr hfield
    · have hfield := hcarries field
      rw [(not_mem_valuesIn_iff_lookup honce).mp hnot] at hfield
      obtain ⟨hopen⟩ := hfield
      exact hopen.trans (only_start field).symm

variable {members members' : List (String × Node)}

theorem namesOnce_of_perm (h : (record.known members').Perm (record.known members))
    (honce : NamesOnce members) : NamesOnce members' := by
  intro field
  have hcount := ((Record.perm_valuesIn h).map Prod.fst).count_eq field
  rw [Record.count_valuesIn (field?_name field), Record.count_valuesIn (field?_name field)]
    at hcount
  exact hcount ▸ honce field

theorem lookup_eq_of_perm (h : (record.known members').Perm (record.known members))
    (honce : NamesOnce members) (field : Field) :
    members'.lookup field.name = members.lookup field.name := by
  refine Option.ext fun node => ?_
  rw [← mem_valuesIn_iff_lookup (namesOnce_of_perm h honce), ← mem_valuesIn_iff_lookup honce]
  exact (Record.perm_valuesIn h).mem_iff

theorem decode_keyed_of_perm (hintact : ∀ member ∈ members, member.2.isIntact = true)
    (hintact' : ∀ member ∈ members', member.2.isIntact = true)
    (h : (record.known members').Perm (record.known members)) (honce : NamesOnce members)
    {route : Route} :
    record.decode (.object (keyed members')) = .ok route ↔
      record.decode (.object (keyed members)) = .ok route := by
  rw [decode_keyed_eq_ok_iff hintact' (namesOnce_of_perm h honce),
    decode_keyed_eq_ok_iff hintact honce]
  exact forall_congr' fun field => by rw [lookup_eq_of_perm h honce field]

/-- The members that the route is written with. -/
def writtenMembers (route : Route) : List (String × Node) :=
  route.members.map (fun member => (member.1, member.2.toNode))

theorem decode_writtenMembers (route : Route) :
    record.decode (.object (keyed route.writtenMembers)) = .ok route := by
  have hnode : keyed route.writtenMembers = memberNodes route.members := by
    rw [memberNodes_eq_map, keyed, writtenMembers, List.map_map]
    exact List.map_congr_left fun member _ => by rw [memberNode]; rfl
  rw [hnode]
  exact decode_toNode route

end Route

/-! ## Envelopes -/

/-- A structure of one field sees the member of this name, whatever stands around it. -/
theorem decode_envelope_keyed {α : Type} (name : String) (isRequired : Bool) (absent : α)
    (decode : Node → Decoded α) {around : List (String × Node)}
    (hintact : ∀ member ∈ around, member.2.isIntact = true)
    (honce : (around.map Prod.fst).count name ≤ 1) :
    (envelope name isRequired absent decode).decode (.object (keyed around)) =
      match around.lookup name with
      | some node => decode node
      | none => if isRequired then .error .malformed else .ok absent := by
  have hfield : (envelope name isRequired absent decode).field? name = some () := by
    simp [Record.field?, envelope]
  have hmem : ∀ node : Node,
      ((), node) ∈ (envelope name isRequired absent decode).valuesIn around ↔
        around.lookup name = some node := fun node =>
    (Record.mem_valuesIn_iff hfield).trans (lookup_eq_some_iff honce).symm
  have hnodup :
      (((envelope name isRequired absent decode).valuesIn around).map Prod.fst).Nodup :=
    List.nodup_iff_count_le_one.mpr fun _ =>
      Nat.le_trans (Nat.le_of_eq (Record.count_valuesIn hfield around)) honce
  rw [Record.decode_keyed hintact hnodup]
  cases hvalues : (envelope name isRequired absent decode).valuesIn around with
  | nil =>
    have hnone : around.lookup name = none := by
      refine Option.eq_none_iff_forall_ne_some.mpr fun node hnode => ?_
      have hin := (hmem node).mpr hnode
      rw [hvalues] at hin
      exact List.not_mem_nil hin
    rw [hnone]
    cases isRequired <;> rfl
  | cons value rest =>
    obtain ⟨⟨⟩, node⟩ := value
    have hrest : rest = [] := by
      rw [hvalues] at hnodup
      cases rest with
      | nil => rfl
      | cons next rest => exact absurd List.mem_cons_self (List.nodup_cons.mp hnodup).1
    have hsome := (hmem node).mp (hvalues ▸ List.mem_cons_self)
    rw [hsome, hrest]
    show Except.bind (Except.bind (decode node) Except.ok) _ = decode node
    cases decode node with
    | error fault => rfl
    | ok value => cases isRequired <;> rfl

namespace Route

/-- A text in which no attribute is named twice decodes to the route whose attributes its members
carry, and to none if there is no such route.  So the order of the members, the members of other
names and the white space and escapes of the text make no difference, and neither do those of a
text around it that holds the route as `route`. -/
theorem decode_sees_known_members {text : String} {members : List (String × Node)}
    (htext : IsObjectText text members) (honce : NamesOnce members) :
    (∀ route, decode text = .ok route ↔
      ∀ field : Field, route.Carries field (members.lookup field.name)) ∧
    (∀ route : Route, (record.known members).Perm (record.known route.writtenMembers) →
      decode text = .ok route) ∧
    (∀ text' members', IsObjectText text' members' →
      (record.known members').Perm (record.known members) →
      (decode text').toOption = (decode text).toOption) ∧
    (∀ wrapper around, IsObjectText wrapper around →
      (around.map Prod.fst).count "route" ≤ 1 →
      routeEnvelope.decodeText wrapper =
        match around.lookup "route" with
        | some node => record.decode node
        | none => .error .malformed) ∧
    ∀ wrapper around members', IsObjectText wrapper around →
      (around.map Prod.fst).count "route" ≤ 1 →
      ("route", .object (keyed members')) ∈ around →
      (record.known members').Perm (record.known members) →
      (routeEnvelope.decodeText wrapper).toOption = (decode text).toOption := by
  have hintact := isIntact_of_isObjectText htext
  have hdecode : decode text = record.decode (.object (keyed members)) :=
    record.decodeText_of_isObjectText htext
  have hwrapper : ∀ wrapper around, IsObjectText wrapper around →
      (around.map Prod.fst).count "route" ≤ 1 →
      routeEnvelope.decodeText wrapper =
        match around.lookup "route" with
        | some node => record.decode node
        | none => .error .malformed := by
    intro wrapper around h hcount
    rw [routeEnvelope, Record.decodeText_of_isObjectText _ h,
      decode_envelope_keyed _ _ _ _ (isIntact_of_isObjectText h) hcount]
    rfl
  rw [hdecode]
  refine ⟨fun route => decode_keyed_eq_ok_iff hintact honce, fun route hperm => ?_,
    fun text' members' h' hperm => ?_, hwrapper,
    fun wrapper around members' h hcount hmem hperm => ?_⟩
  · have hwritten : ∀ member ∈ route.writtenMembers, member.2.isIntact = true := by
      rintro _ hmem
      obtain ⟨member, -, rfl⟩ := List.mem_map.mp hmem
      exact isIntact_toNode member.2
    exact (decode_keyed_of_perm hintact hwritten hperm.symm honce).mp (decode_writtenMembers route)
  · rw [decode, record.decodeText_of_isObjectText h']
    exact toOption_eq_of_iff fun route =>
      decode_keyed_of_perm hintact (isIntact_of_isObjectText h') hperm honce
  · rw [hwrapper wrapper around h hcount, (lookup_eq_some_iff hcount).mpr hmem]
    have hroute : Node.isIntact (.object (keyed members')) = true :=
      isIntact_of_isObjectText h _ hmem
    exact toOption_eq_of_iff fun route =>
      decode_keyed_of_perm hintact (isIntact_keyed hroute) hperm honce

/-- Another member stands before the path, whose key is written with an escape. -/
theorem decode_sees_known_members_escaped :
    IsObjectText "\x7b\"x\":[1e9], \"\\u0070ath\":\"/a\"\x7d"
        [("x", .array [.number]), ("path", .string (some "/a"))] ∧
      NamesOnce [("x", .array [.number]), ("path", .string (some "/a"))] ∧
      decode "\x7b\"x\":[1e9], \"\\u0070ath\":\"/a\"\x7d" = .ok { path := "/a" } := by
  have hkey : SpellsPieces [.unit 'p'.toNat, .char 'a', .char 't', .char 'h']
      ['\\', 'u', '0', '0', '7', '0', 'a', 't', 'h'] :=
    .cons (.unit rfl) (.cons (.plain (by decide) (by decide) (by decide))
      (.cons (.plain (by decide) (by decide) (by decide))
        (.cons (.plain (by decide) (by decide) (by decide)) .nil)))
  have hpath : Denotes [.unit 'p'.toNat, .char 'a', .char 't', .char 'h'] ['p', 'a', 't', 'h'] :=
    .unit (by decide) (.char 'a' (.char 't' (.char 'h' .nil)))
  have hnumber : SpellsToken .number ['1', 'e', '9'] :=
    .number 1 .absent (.present (Or.inl rfl) (Or.inl rfl) (List.cons_ne_nil '9' []) (by simp))
      (by simp)
  have htext : IsObjectText "\x7b\"x\":[1e9], \"\\u0070ath\":\"/a\"\x7d"
      [("x", .array [.number]), ("path", .string (some "/a"))] := by
    refine ⟨rfl, .next .leftBrace (.next (.plain ['x'] (by simp)) (.next .colon ?_))⟩
    refine .next .leftBracket (.next hnumber (.next .rightBracket (.next .comma ?_)))
    refine .cons [' '] (by simp [isSpace]) (.text hkey hpath) (.next .colon ?_)
    exact .next (.plain ['/', 'a'] (by simp)) (.next .rightBrace (.nil (by simp)))
  have honce : NamesOnce [("x", .array [.number]), ("path", .string (some "/a"))] := by
    intro field
    cases field <;> decide
  exact ⟨htext, honce, (decode_sees_known_members htext honce).2.1 _ (.refl _)⟩

end Route
end AppRoutes
