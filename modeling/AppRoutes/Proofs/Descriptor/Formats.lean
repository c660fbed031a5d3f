/-
Func files in both formats.

What a descriptor sets is a list of keys and values, and a func file of either format is such a
list, in any order and with other keys in between.  Both readers look for the keys of a descriptor
and for nothing else, so a descriptor comes back from every file that is written from it, whichever
the format.
-/
import Mathlib.Data.List.Nodup
import AppRoutes.Proofs.Descriptor
import AppRoutes.Proofs.Json.Members
import AppRoutes.Proofs.Json.Recognition
import AppRoutes.Proofs.Toml.Lines

namespace AppRoutes

open DescriptorFile

namespace Descriptor

/-- The value of a key. -/
inductive Setting where
  | text (value : String)
  | number (value : Nat)
  deriving DecidableEq

def Setting.toValue : Setting → Json.Value
  | .text value => .string value
  | .number value => .natural value

def Setting.toNode (setting : Setting) : Json.Node := setting.toValue.toNode

def Setting.toToml : Setting → Toml.Value
  | .text value => .string value
  | .number value => .integer value

def setting? (descriptor : Descriptor) : Field → Option Setting
  | .name => descriptor.name.map .text
  | .version => descriptor.version.map .text
  | .format => descriptor.format.map .text
  | .maxConcurrency => descriptor.maxConcurrency.map fun n => .number n.toNat
  | .timeout => descriptor.timeout.map fun n => .number n.toNat
  | .path => descriptor.path.map .text

/-- The attributes that are set, under their keys. -/
def settings (descriptor : Descriptor) : List (String × Setting) :=
  Field.all.filterMap fun field => (descriptor.setting? field).map fun setting =>
    (field.key, setting)

/-- The members are the settings of a descriptor, each as `write` gives it, and others with keys
that no descriptor has, in any order. -/
def Lists {α : Type} (descriptor : Descriptor) (write : Setting → α) (members : List (String × α)) :
    Prop :=
  ∃ others : List (String × α),
    members.Perm (descriptor.settings.map (fun s => (s.1, write s.2)) ++ others) ∧
      ∀ other ∈ others, ∀ field : Field, other.1 ≠ field.key

theorem field?_key (field : Field) : record.field? field.key = some field := by
  cases field <;> rfl

theorem key_injective {first second : Field} (h : first.key = second.key) : first = second := by
  have hfirst := field?_key first
  rw [h, field?_key second] at hfirst
  exact (Option.some.inj hfirst).symm

theorem mem_all (field : Field) : field ∈ Field.all := by
  cases field <;> decide

theorem mem_settings_iff {descriptor : Descriptor} {field : Field} {setting : Setting} :
    (field.key, setting) ∈ descriptor.settings ↔ descriptor.setting? field = some setting := by
  rw [settings, List.mem_filterMap]
  constructor
  · rintro ⟨other, -, hother⟩
    obtain ⟨found, hfound, heq⟩ := Option.map_eq_some_iff.mp hother
    obtain ⟨hkey, rfl⟩ := Prod.mk.injEq .. ▸ heq
    rwa [← key_injective hkey]
  · intro h
    exact ⟨field, mem_all field, by rw [h]; rfl⟩

/-- The attributes that are set. -/
def setFields (descriptor : Descriptor) : List Field :=
  Field.all.filter fun field => (descriptor.setting? field).isSome

theorem nodup_setFields (descriptor : Descriptor) : descriptor.setFields.Nodup :=
  (by decide : Field.all.Nodup).filter _

theorem keys_settings (descriptor : Descriptor) :
    descriptor.settings.map Prod.fst = descriptor.setFields.map Field.key := by
  rw [settings, setFields, List.map_filterMap, ← List.filterMap_eq_map, List.filterMap_filter]
  refine congrArg (List.filterMap · Field.all) (funext fun field => ?_)
  cases descriptor.setting? field <;> rfl

theorem nodup_keys_settings (descriptor : Descriptor) :
    (descriptor.settings.map Prod.fst).Nodup := by
  rw [keys_settings]
  exact descriptor.nodup_setFields.map fun _ _ => key_injective

namespace Lists

variable {α β : Type} {descriptor : Descriptor} {write : Setting → α}
  {members : List (String × α)}

theorem map (h : descriptor.Lists write members) (f : α → β) :
    descriptor.Lists (fun setting => f (write setting))
      (members.map fun member => (member.1, f member.2)) := by
  obtain ⟨others, hperm, hothers⟩ := h
  refine ⟨others.map fun other => (other.1, f other.2), ?_, fun mapped hmapped => ?_⟩
  · have hmap := hperm.map fun member : String × α => (member.1, f member.2)
    rwa [List.map_append, List.map_map] at hmap
  · obtain ⟨other, hother, rfl⟩ := List.mem_map.mp hmapped
    exact hothers other hother

/-- Under the key of an attribute there is its value, and nothing if it is not set. -/
theorem mem_iff (h : descriptor.Lists write members) {field : Field} {a : α} :
    (field.key, a) ∈ members ↔ (descriptor.setting? field).map write = some a := by
  obtain ⟨others, hperm, hothers⟩ := h
  have hforeign : (field.key, a) ∉ others := fun hmem => hothers _ hmem field rfl
  rw [hperm.mem_iff, List.mem_append, List.mem_map, Option.map_eq_some_iff]
  constructor
  · rintro (⟨⟨key, setting⟩, hmem, heq⟩ | hmem)
    · obtain ⟨rfl, rfl⟩ := Prod.mk.injEq .. ▸ heq
      exact ⟨setting, mem_settings_iff.mp hmem, rfl⟩
    · exact absurd hmem hforeign
  · rintro ⟨setting, hsetting, rfl⟩
    exact Or.inl ⟨(field.key, setting), mem_settings_iff.mpr hsetting, rfl⟩

theorem lookup_eq (h : descriptor.Lists write members) (field : Field) :
    members.lookup field.key = (descriptor.setting? field).map write := by
  cases hfound : members.lookup field.key with
  | none =>
    refine (Option.eq_none_iff_forall_ne_some.mpr fun a ha => ?_).symm
    have hmem := List.lookup_eq_none_iff.mp hfound _ (h.mem_iff.mpr ha)
    simp at hmem
  | some a =>
    obtain ⟨before, after, hmembers, -⟩ := List.lookup_eq_some_iff.mp hfound
    refine (h.mem_iff.mp ?_).symm
    rw [hmembers]
    exact List.mem_append_right _ List.mem_cons_self

theorem count_le_one (h : descriptor.Lists write members) (field : Field) :
    (members.map Prod.fst).count field.key ≤ 1 := by
  obtain ⟨others, hperm, hothers⟩ := h
  have hforeign : (others.map Prod.fst).count field.key = 0 := by
    refine List.count_eq_zero.mpr fun hmem => ?_
    obtain ⟨other, hother, hkey⟩ := List.mem_map.mp hmem
    exact hothers other hother field hkey
  have hkeys : (descriptor.settings.map fun s => (s.1, write s.2)).map Prod.fst =
      descriptor.settings.map Prod.fst := by
    rw [List.map_map]
    rfl
  have hown := List.nodup_iff_count_le_one.mp descriptor.nodup_keys_settings field.key
  rw [(hperm.map Prod.fst).count_eq, List.map_append, List.count_append, hforeign, hkeys]
  exact hown

end Lists

/-- The text is a JSON object with the settings of the descriptor. -/
def IsJsonFile (descriptor : Descriptor) (text : String) : Prop :=
  ∃ members, Json.IsObjectText text members ∧ descriptor.Lists Setting.toNode members

theorem toNode_value_toFile {descriptor : Descriptor} {field : Field} {setting : Setting}
    (h : descriptor.setting? field = some setting) :
    (descriptor.toFile.value field).toNode = setting.toNode := by
  cases field with
  | name | version | format | path | maxConcurrency | timeout =>
    obtain ⟨value, hvalue, hsetting⟩ := Option.map_eq_some_iff.mp h
    rw [← hsetting, DescriptorFile.value, toFile, hvalue]
    rfl

/-- Every descriptor can be written in JSON. -/
theorem exists_isJsonFile (descriptor : Descriptor) : ∃ text, descriptor.IsJsonFile text := by
  let value := Json.Value.object (descriptor.settings.map fun s => (s.1, s.2.toValue))
  have hnode : value.toNode =
      .object (Json.keyed (descriptor.settings.map fun s => (s.1, s.2.toNode))) := by
    rw [Json.Value.toNode, Json.memberNodes_eq_map, Json.keyed, List.map_map, List.map_map]
    exact congrArg Json.Node.object (List.map_congr_left fun _ _ => rfl)
  have htext : Json.IsObjectText (value.render .indented)
      (descriptor.settings.map fun s => (s.1, s.2.toNode)) := by
    rw [Json.IsObjectText, ← hnode]
    exact Json.isTextOf_iff.mpr ⟨Json.read_render _ _, Json.isIntact_toNode _⟩
  exact ⟨_, _, htext, [], by rw [List.append_nil], List.forall_mem_nil _⟩

theorem put_put_comm (first second : Field) (source target : DescriptorFile) :
    put first source (put second source target) = put second source (put first source target) := by
  cases first <;> cases second <;> rfl

theorem foldl_put_perm {fields others : List Field} (h : fields.Perm others)
    (source target : DescriptorFile) :
    fields.foldl (fun target field => put field source target) target =
      others.foldl (fun target field => put field source target) target :=
  h.foldl_eq' (fun _ _ _ _ _ => put_put_comm _ _ _ _) target

theorem put_of_open {descriptor : Descriptor} {field : Field}
    (h : descriptor.setting? field = none) : put field descriptor.toFile {} = {} := by
  cases field with
  | name | version | format | path | maxConcurrency | timeout =>
    have hopen := Option.map_eq_none_iff.mp h
    simp only [put, toFile, hopen, Option.map_none]

theorem foldl_put_of_open {descriptor : Descriptor} {fields : List Field}
    (h : ∀ field ∈ fields, descriptor.setting? field = none) :
    fields.foldl (fun target field => put field descriptor.toFile target) {} = {} := by
  induction fields with
  | nil => rfl
  | cons field rest ih =>
    obtain ⟨hfield, hrest⟩ := List.forall_mem_cons.mp h
    rw [List.foldl_cons, put_of_open hfield]
    exact ih hrest

/-- The attributes that are set make up the file. -/
theorem foldl_put_setFields (descriptor : Descriptor) :
    descriptor.setFields.foldl (fun target field => put field descriptor.toFile target) {} =
      descriptor.toFile := by
  have hopen : ∀ field ∈ Field.all.filter fun field => !(descriptor.setting? field).isSome,
      descriptor.setting? field = none := fun field hmem => by
    simpa using (List.mem_filter.mp hmem).2
  have hsplit := List.filter_append_perm (fun field => (descriptor.setting? field).isSome) Field.all
  -- All attributes make up the file in any order, so those that are open may be put first, and
  -- they change nothing.
  have hall := foldl_put_perm (List.perm_append_comm.trans hsplit) descriptor.toFile {}
  rw [List.foldl_append, foldl_put_of_open hopen] at hall
  exact hall

/-- The values of attributes that are set are read in turn. -/
theorem readValues_of_settings {descriptor : Descriptor} {values : List (Field × Json.Node)}
    (h : ∀ value ∈ values, ∃ setting, descriptor.setting? value.1 = some setting ∧
      setting.toNode = value.2) (before : DescriptorFile) :
    record.readValues values before =
      .ok ((values.map Prod.fst).foldl
        (fun target field => put field descriptor.toFile target) before) := by
  induction values generalizing before with
  | nil => rfl
  | cons value rest ih =>
    obtain ⟨⟨setting, hsetting, hnode⟩, hrest⟩ := List.forall_mem_cons.mp h
    have hread : record.read value.1 value.2 before =
        .ok (put value.1 descriptor.toFile before) := by
      rw [← hnode, ← toNode_value_toFile hsetting]
      exact readField_value value.1 descriptor.toFile before
    rw [Json.Record.readValues, List.foldlM_cons, hread]
    exact ih hrest _

/-- What the record sees in the members is what the descriptor sets. -/
theorem mem_valuesIn_iff_setting {descriptor : Descriptor} {members : List (String × Json.Node)}
    (h : descriptor.Lists Setting.toNode members) {field : Field} {node : Json.Node} :
    (field, node) ∈ record.valuesIn members ↔
      ∃ setting, descriptor.setting? field = some setting ∧ setting.toNode = node :=
  (Json.Record.mem_valuesIn_iff (field?_key field)).trans
    (h.mem_iff.trans Option.map_eq_some_iff)

theorem nodup_fields_valuesIn {descriptor : Descriptor} {members : List (String × Json.Node)}
    (h : descriptor.Lists Setting.toNode members) :
    ((record.valuesIn members).map Prod.fst).Nodup := by
  refine List.nodup_iff_count_le_one.mpr fun field => ?_
  rw [Json.Record.count_valuesIn (field?_key field)]
  exact h.count_le_one field

/-- The record sees the attributes that are set, each of them once. -/
theorem fields_valuesIn_perm {descriptor : Descriptor} {members : List (String × Json.Node)}
    (h : descriptor.Lists Setting.toNode members) :
    ((record.valuesIn members).map Prod.fst).Perm descriptor.setFields := by
  refine (List.perm_ext_iff_of_nodup (nodup_fields_valuesIn h) descriptor.nodup_setFields).mpr
    fun field => ?_
  rw [setFields, List.mem_filter, List.mem_map, Option.isSome_iff_exists]
  constructor
  · rintro ⟨value, hvalue, rfl⟩
    obtain ⟨setting, hsetting, -⟩ := (mem_valuesIn_iff_setting h).mp hvalue
    exact ⟨mem_all _, setting, hsetting⟩
  · rintro ⟨-, setting, hsetting⟩
    exact ⟨(field, setting.toNode),
      (mem_valuesIn_iff_setting h).mpr ⟨setting, hsetting, rfl⟩, rfl⟩

theorem ofJson?_of_isJsonFile {descriptor : Descriptor} {text : String}
    (h : descriptor.IsJsonFile text) : ofJson? text = some descriptor.toFile := by
  obtain ⟨members, htext, hlists⟩ := h
  have hread : record.readValues (record.valuesIn members) {} = .ok descriptor.toFile := by
    rw [readValues_of_settings fun _ hvalue => (mem_valuesIn_iff_setting hlists).mp hvalue,
      foldl_put_perm (fields_valuesIn_perm hlists), foldl_put_setFields]
  rw [ofJson?, record.decodeText_of_isObjectText htext,
    Json.Record.decode_keyed (Json.isIntact_of_isObjectText htext) (nodup_fields_valuesIn hlists)]
  show (Except.bind (record.readValues (record.valuesIn members) {}) Except.ok).toOption = _
  rw [hread]
  rfl

/-! ## TOML -/

/-- The text is a TOML file with the settings of the descriptor, one a line. -/
def IsTomlFile (descriptor : Descriptor) (text : String) : Prop :=
  ∃ members, Toml.SpellsLines members text.toList ∧ (members.map Prod.fst).Nodup ∧
    descriptor.Lists Setting.toToml members

theorem isBareKey_key (field : Field) : Toml.IsBareKey field.key := by
  cases field with
  | name | version | format | path | maxConcurrency | timeout =>
    exact Toml.isBareKey_of_all (by decide) (by decide)

/-- A setting is a text or a number of at most 64 bits. -/
theorem exists_spellsValue {descriptor : Descriptor} {field : Field} {setting : Setting}
    (h : descriptor.setting? field = some setting) :
    ∃ lexeme, Toml.SpellsValue setting.toToml lexeme := by
  have htext : ∀ text : String, ∃ lexeme, Toml.SpellsValue (.string text) lexeme := by
    intro text
    obtain ⟨body, hbody⟩ := Toml.exists_spellsChars text.toList
    exact ⟨_, .text hbody⟩
  cases field with
  | name | version | format | path =>
    obtain ⟨text, -, hsetting⟩ := Option.map_eq_some_iff.mp h
    rw [← hsetting]
    exact htext text
  | maxConcurrency =>
    obtain ⟨word, -, hsetting⟩ := Option.map_eq_some_iff.mp h
    rw [← hsetting]
    exact ⟨_, .natural (Nat.lt_trans word.toNat_lt (by decide))⟩
  | timeout =>
    obtain ⟨word, -, hsetting⟩ := Option.map_eq_some_iff.mp h
    rw [← hsetting]
    exact ⟨_, .natural word.toNat_lt⟩

/-- Every descriptor can be written in TOML. -/
theorem exists_isTomlFile (descriptor : Descriptor) : ∃ text, descriptor.IsTomlFile text := by
  have hmembers : ∀ member ∈ descriptor.settings.map fun s => (s.1, s.2.toToml),
      Toml.IsBareKey member.1 ∧ ∃ lexeme, Toml.SpellsValue member.2 lexeme := by
    intro member hmember
    obtain ⟨⟨key, setting⟩, hsetting, rfl⟩ := List.mem_map.mp hmember
    obtain ⟨field, -, hfield⟩ := List.mem_filterMap.mp hsetting
    obtain ⟨found, hfound, heq⟩ := Option.map_eq_some_iff.mp hfield
    obtain ⟨rfl, rfl⟩ := Prod.mk.injEq .. ▸ heq
    exact ⟨isBareKey_key field, exists_spellsValue hfound⟩
  obtain ⟨text, htext⟩ := Toml.exists_spellsLines hmembers
  refine ⟨String.ofList text, descriptor.settings.map fun s => (s.1, s.2.toToml), ?_, ?_, [],
    by rw [List.append_nil], List.forall_mem_nil _⟩
  · rwa [String.toList_ofList]
  · rw [List.map_map]
    exact descriptor.nodup_keys_settings

theorem textAt?_of_get? {members : Toml.Members} {key : String} {text : Option String}
    (h : members.get? key = text.map fun text => .value (.string text)) :
    textAt? key members = some text := by
  cases text <;> rw [textAt?, h] <;> rfl

theorem naturalAt?_of_get? {members : Toml.Members} {key : String} {bound : Nat} {α : Type}
    {toNat : α → Nat} {word : Option α} (hbound : ∀ w, toNat w < bound)
    (h : members.get? key = word.map fun w => .value (.integer (toNat w))) :
    naturalAt? bound key members = some (word.map toNat) := by
  cases word with
  | none =>
    rw [naturalAt?, h]
    rfl
  | some w =>
    have hrange : (0 ≤ (toNat w : Int) && (toNat w : Int) < bound) = true := by
      have hw := hbound w
      rw [Bool.and_eq_true, decide_eq_true_eq, decide_eq_true_eq]
      omega
    rw [naturalAt?, h]
    exact if_pos hrange

theorem timeoutAt?_of_get? {members : Toml.Members} {key : String} {timeout : Option UInt64}
    (h : members.get? key = timeout.map fun n => .value (.integer n.toNat)) :
    timeoutAt? key members = some (timeout.map .seconds) := by
  have hnumber : naturalAt? UInt64.size key members = some (timeout.map UInt64.toNat) :=
    naturalAt?_of_get? UInt64.toNat_lt h
  have hread : timeoutAt? key members =
      (naturalAt? UInt64.size key members).map (·.map fun n => .seconds (UInt64.ofNat n)) := by
    cases timeout <;> rw [timeoutAt?, h] <;> rfl
  rw [hread, hnumber, Option.map_some, Option.map_map]
  refine congrArg (fun read => some (timeout.map read)) (funext fun word => ?_)
  exact congrArg TimeoutSetting.seconds word.ofNat_toNat

theorem ofMembers?_of_lists {descriptor : Descriptor} {members : Toml.Members}
    (h : descriptor.Lists (fun setting => Toml.Node.value setting.toToml) members) :
    ofMembers? members = some descriptor.toFile := by
  have hname : textAt? "name" members = some descriptor.name :=
    textAt?_of_get? ((h.lookup_eq .name).trans (Option.map_map ..))
  have hversion : textAt? "version" members = some descriptor.version :=
    textAt?_of_get? ((h.lookup_eq .version).trans (Option.map_map ..))
  have hformat : textAt? "format" members = some descriptor.format :=
    textAt?_of_get? ((h.lookup_eq .format).trans (Option.map_map ..))
  have hpath : textAt? "path" members = some descriptor.path :=
    textAt?_of_get? ((h.lookup_eq .path).trans (Option.map_map ..))
  have htimeout : timeoutAt? "timeout" members = some (descriptor.timeout.map .seconds) :=
    timeoutAt?_of_get? ((h.lookup_eq .timeout).trans (Option.map_map ..))
  have hmaxConcurrency : naturalAt? UInt32.size "max_concurrency" members =
      some (descriptor.maxConcurrency.map UInt32.toNat) :=
    naturalAt?_of_get? UInt32.toNat_lt ((h.lookup_eq .maxConcurrency).trans (Option.map_map ..))
  have hwords : (descriptor.maxConcurrency.map UInt32.toNat).map UInt32.ofNat =
      descriptor.maxConcurrency := by
    cases descriptor.maxConcurrency with
    | none => rfl
    | some word => exact congrArg some word.ofNat_toNat
  simp only [ofMembers?, hname, hversion, hformat, hpath, hmaxConcurrency, htimeout]
  exact congrArg (fun words => some { descriptor.toFile with maxConcurrency := words }) hwords

theorem ofToml?_of_isTomlFile {descriptor : Descriptor} {text : String}
    (h : descriptor.IsTomlFile text) : ofToml? text = some descriptor.toFile := by
  obtain ⟨members, hlines, hnodup, hlists⟩ := h
  rw [ofToml?, Toml.read?_of_spellsLines hlines hnodup]
  exact ofMembers?_of_lists (hlists.map Toml.Node.value)

end Descriptor
end AppRoutes
