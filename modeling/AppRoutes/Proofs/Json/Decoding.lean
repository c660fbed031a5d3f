/-
Decoding what was written.

A record reads its members one after another.  `Reads` says what reading the members of one
field does to the structure, whether the field was written or left out, and
`readMembers_of_readsAll` puts the fields together: a structure that was written field by
field is read field by field.
-/
import AppRoutes.Json.Record
import AppRoutes.Proofs.Json.Rendering

namespace AppRoutes.Json

theorem list_array_map {α : Type} {decode : Node → Decoded α} (toNode : α → Node)
    (h : ∀ a, decode (toNode a) = .ok a) (items : List α) :
    Node.list decode (.array (items.map toNode)) = .ok items := by
  show (items.map toNode).mapM decode = _
  induction items with
  | nil => rfl
  | cons a rest ih =>
    rw [List.map_cons, List.mapM_cons, h a, ih]
    rfl

theorem addMembers_map {α : Type} {decode : Node → Decoded α} (toNode : α → Node)
    (h : ∀ a, decode (toNode a) = .ok a) (entries : List (String × α)) (map : SortedMap α) :
    Node.addMembers decode (entries.map (fun entry => (some entry.1, toNode entry.2))) map =
      .ok (entries.foldl (fun map entry => map.insert entry.1 entry.2) map) := by
  induction entries generalizing map with
  | nil => rfl
  | cons entry rest ih =>
    rw [List.map_cons, Node.addMembers, h entry.2]
    exact ih (map.insert entry.1 entry.2)

theorem map_object_map {α : Type} {decode : Node → Decoded α} (toNode : α → Node)
    (h : ∀ a, decode (toNode a) = .ok a) (map : SortedMap α) :
    Node.map decode
        (.object (map.entries.map (fun entry => (some entry.1, toNode entry.2)))) = .ok map := by
  rw [Node.map, addMembers_map toNode h]
  exact congrArg Except.ok map.ofList_entries

theorem optional_of_ne_null {α : Type} {decode : Node → Decoded α} {node : Node} {a : α}
    (hnull : node ≠ .null) (h : decode node = .ok a) :
    Node.optional decode node = .ok (some a) := by
  unfold Node.optional
  split
  · exact absurd rfl hnull
  · rw [h]
    rfl

theorem word64_natural (w : UInt64) : Node.word64 (.natural w.toNat) = .ok w := by
  rw [Node.word64, if_pos w.toNat_lt, UInt64.ofNat_toNat]

theorem word32_natural (w : UInt32) : Node.word32 (.natural w.toNat) = .ok w := by
  rw [Node.word32, if_pos w.toNat_lt, UInt32.ofNat_toNat]

namespace Record

variable {φ σ : Type} [DecidableEq φ]

/-- Reading `members`, which are those of one field, takes `before` to `after`. -/
inductive Reads (record : Record φ σ) (field : φ) :
    List (Option String × Node) → σ → σ → Prop
  | absent (value : σ) : Reads record field [] value value
  | present {node : Node} {before after : σ} (h : record.read field node before = .ok after) :
      Reads record field [(some (record.name field), node)] before after

/-- Reading the members of several fields in turn takes `before` to `after`. -/
inductive ReadsAll (record : Record φ σ) (members : φ → List (Option String × Node)) :
    List φ → σ → σ → Prop
  | nil (value : σ) : ReadsAll record members [] value value
  | cons {field : φ} {fields : List φ} {first second third : σ}
      (h : Reads record field (members field) first second)
      (hrest : ReadsAll record members fields second third) :
      ReadsAll record members (field :: fields) first third

theorem readMembers_of_reads {record : Record φ σ} {field : φ}
    {members : List (Option String × Node)} {before after : σ}
    (h : record.Reads field members before after)
    (hfield : record.field? (record.name field) = some field) {named : List φ}
    (hnamed : field ∉ named) (rest : List (Option String × Node)) :
    ∃ named', named' ⊆ field :: named ∧
      record.readMembers (members ++ rest) named before =
        record.readMembers rest named' after := by
  cases h with
  | absent value => exact ⟨named, List.subset_cons_self field named, rfl⟩
  | present h =>
    refine ⟨field :: named, fun _ hmem => hmem, ?_⟩
    rw [List.singleton_append, readMembers, hfield]
    show (if field ∈ named then _ else _) = _
    rw [if_neg hnamed, h]
    rfl

/-- The induction is on the fields; what it needs of the fields that were named before is
only that none of them is still to come. -/
theorem readMembers_of_readsAll {record : Record φ σ}
    {members : φ → List (Option String × Node)} {fields : List φ} {before after : σ}
    (h : record.ReadsAll members fields before after) (hnodup : fields.Nodup)
    (hfield : ∀ field ∈ fields, record.field? (record.name field) = some field)
    (named : List φ) (hnamed : ∀ field ∈ fields, field ∉ named) :
    ∃ named', record.readMembers (fields.flatMap members) named before = .ok (named', after) := by
  induction h generalizing named with
  | nil value => exact ⟨named, rfl⟩
  | @cons field fields first second third h _ ih =>
    obtain ⟨hnot, hnodup⟩ := List.nodup_cons.mp hnodup
    obtain ⟨named₁, hsub, hread⟩ := readMembers_of_reads h (hfield field List.mem_cons_self)
      (hnamed field List.mem_cons_self) (fields.flatMap members)
    obtain ⟨named₂, hrest⟩ := ih hnodup
      (fun g hg => hfield g (List.mem_cons_of_mem field hg)) named₁
      (fun g hg hmem => by
        rcases List.mem_cons.mp (hsub hmem) with rfl | hmem
        · exact hnot hg
        · exact hnamed g (List.mem_cons_of_mem field hg) hmem)
    exact ⟨named₂, by rw [List.flatMap_cons, hread, hrest]⟩

/-- An object with every field that the record asks for decodes to what its members read. -/
theorem decode_object_of_readsAll {record : Record φ σ}
    {members : φ → List (Option String × Node)} {value : σ}
    (h : record.ReadsAll members record.fields record.start value)
    (hnodup : record.fields.Nodup)
    (hfield : ∀ field ∈ record.fields, record.field? (record.name field) = some field)
    (hopen : ∀ field ∈ record.fields, record.isNamed field = false) :
    record.decode (.object (record.fields.flatMap members)) = .ok value := by
  obtain ⟨named, hread⟩ := readMembers_of_readsAll h hnodup hfield []
    (fun _ _ => List.not_mem_nil)
  have hall : record.fields.all (fun field => !record.isNamed field || decide (field ∈ named)) =
      true := List.all_eq_true.mpr (fun field hmem => by rw [hopen field hmem]; rfl)
  rw [decode, hread]
  show (if record.fields.all _ then _ else _) = _
  rw [if_pos hall]

/-- A text that was written from a value decodes as the node of the value. -/
theorem decodeText_render (record : Record φ σ) (layout : Layout) (value : Value) :
    record.decodeText (value.render layout) = record.decode value.toNode := by
  rw [decodeText, read_render]
  cases record.decode value.toNode <;> rfl

end Record
end AppRoutes.Json
