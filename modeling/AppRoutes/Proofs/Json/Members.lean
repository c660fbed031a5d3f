/-
The members that a record sees.

A record reads the members that name its fields and passes over the others, so what an object
decodes to depends on the former alone.  `decode_keyed` says this for every object in which no
field is named twice, and `decodeText_of_isObjectText` for every text of it.
-/
import AppRoutes.Proofs.Json.Inversion
import AppRoutes.Proofs.Json.Spelling

namespace AppRoutes.Json

/-- The text is one object with these members, in this order. -/
def IsObjectText (text : String) (members : List (String × Node)) : Prop :=
  IsTextOf text (.object (keyed members))

theorem isIntact_keyed {members : List (String × Node)}
    (h : Node.isIntact (.object (keyed members)) = true) :
    ∀ member ∈ members, member.2.isIntact = true := by
  replace h : intactMembers (keyed members) = true := h
  induction members with
  | nil => nofun
  | cons member rest ih =>
    rw [keyed, List.map_cons, intactMembers, Bool.and_eq_true] at h
    exact List.forall_mem_cons.mpr ⟨h.1, ih h.2⟩

theorem isIntact_of_isObjectText {text : String} {members : List (String × Node)}
    (h : IsObjectText text members) : ∀ member ∈ members, member.2.isIntact = true :=
  isIntact_keyed h.intact

/-- Where a key stands once, looking it up finds every member that has it. -/
theorem lookup_eq_some_iff {members : List (String × Node)} {key : String}
    (h : (members.map Prod.fst).count key ≤ 1) {node : Node} :
    members.lookup key = some node ↔ (key, node) ∈ members := by
  induction members with
  | nil => simp
  | cons member rest ih =>
    obtain ⟨k, v⟩ := member
    rw [List.map_cons, List.count_cons] at h
    by_cases hk : k = key
    · subst hk
      have hnot : (k, node) ∉ rest := fun hmem => by
        have hkey : k ∈ rest.map Prod.fst := List.mem_map_of_mem hmem
        have hpos := List.count_pos_iff.mpr hkey
        simp only [beq_self_eq_true, if_true] at h
        omega
      simp [hnot, eq_comm]
    · have hbeq : (key == k) = false := by simpa using Ne.symm hk
      have hcount : (rest.map Prod.fst).count key ≤ 1 := by omega
      rw [List.lookup_cons, hbeq, List.mem_cons]
      simp [ih hcount, Ne.symm hk]

namespace Record

variable {φ σ : Type}

theorem name_of_field? {record : Record φ σ} {key : String} {field : φ}
    (h : record.field? key = some field) : record.name field = key := by
  simpa using List.find?_some h

/-- The members that name a field. -/
def known (record : Record φ σ) (members : List (String × Node)) : List (String × Node) :=
  members.filter (fun member => (record.field? member.1).isSome)

/-- The fields that members name, with their values. -/
def valuesIn (record : Record φ σ) (members : List (String × Node)) : List (φ × Node) :=
  members.filterMap (fun member => (record.field? member.1).map (fun field => (field, member.2)))

/-- Read the values of fields in turn. -/
def readValues (record : Record φ σ) (values : List (φ × Node)) (start : σ) : Decoded σ :=
  values.foldlM (fun value field => record.read field.1 field.2 value) start

theorem valuesIn_known (record : Record φ σ) (members : List (String × Node)) :
    record.valuesIn (record.known members) = record.valuesIn members := by
  rw [valuesIn, known, List.filterMap_filter]
  refine congrArg (List.filterMap · members) (funext fun member => ?_)
  cases record.field? member.1 <;> rfl

theorem perm_valuesIn {record : Record φ σ} {members members' : List (String × Node)}
    (h : (record.known members').Perm (record.known members)) :
    (record.valuesIn members').Perm (record.valuesIn members) := by
  rw [← valuesIn_known, ← record.valuesIn_known members]
  exact h.filterMap _

theorem mem_valuesIn_iff {record : Record φ σ} {field : φ}
    (hfield : record.field? (record.name field) = some field) {members : List (String × Node)}
    {node : Node} :
    (field, node) ∈ record.valuesIn members ↔ (record.name field, node) ∈ members := by
  rw [valuesIn, List.mem_filterMap]
  constructor
  · rintro ⟨⟨key, value⟩, hmem, h⟩
    obtain ⟨found, hfound, heq⟩ := Option.map_eq_some_iff.mp h
    obtain ⟨rfl, rfl⟩ := Prod.mk.injEq .. ▸ heq
    rwa [name_of_field? hfound]
  · intro hmem
    exact ⟨_, hmem, by rw [hfield]; rfl⟩

variable [DecidableEq φ]

/-- A field is named as often as its name is a key. -/
theorem count_valuesIn {record : Record φ σ} {field : φ}
    (hfield : record.field? (record.name field) = some field) (members : List (String × Node)) :
    ((record.valuesIn members).map Prod.fst).count field =
      (members.map Prod.fst).count (record.name field) := by
  induction members with
  | nil => rfl
  | cons member rest ih =>
    obtain ⟨key, node⟩ := member
    rw [List.map_cons, List.count_cons, ← ih, valuesIn, List.filterMap_cons, ← valuesIn]
    by_cases hkey : key = record.name field
    · subst hkey
      simp [hfield]
    · have hne : (key == record.name field) = false := by simpa using hkey
      cases hfound : record.field? key with
      | none => simp [hne]
      | some found =>
        have hother : found ≠ field := fun h => hkey (h ▸ (name_of_field? hfound).symm)
        simp [hne, hother]

/-- Members of other names are passed over. -/
theorem readMembers_keyed {record : Record φ σ} {members : List (String × Node)}
    (hintact : ∀ member ∈ members, member.2.isIntact = true)
    (hnodup : ((record.valuesIn members).map Prod.fst).Nodup) {named : List φ}
    (hnamed : ∀ field ∈ (record.valuesIn members).map Prod.fst, field ∉ named) (value : σ) :
    record.readMembers (keyed members) named value =
      (record.readValues (record.valuesIn members) value).map
        (fun after => (((record.valuesIn members).map Prod.fst).reverse ++ named, after)) := by
  induction members generalizing named value with
  | nil => rfl
  | cons member rest ih =>
    obtain ⟨key, node⟩ := member
    obtain ⟨hnode, hintact⟩ := List.forall_mem_cons.mp hintact
    rw [keyed, List.map_cons, readMembers]
    cases hfound : record.field? key with
    | none =>
      have hvalues : record.valuesIn ((key, node) :: rest) = record.valuesIn rest := by
        rw [valuesIn, List.filterMap_cons, hfound]
        rfl
      rw [hvalues] at hnodup hnamed ⊢
      dsimp only
      rw [if_pos hnode]
      exact ih hintact hnodup hnamed value
    | some field =>
      have hvalues : record.valuesIn ((key, node) :: rest) =
          (field, node) :: record.valuesIn rest := by
        rw [valuesIn, List.filterMap_cons, hfound]
        rfl
      rw [hvalues, List.map_cons] at hnodup hnamed ⊢
      obtain ⟨hnot, hnodup⟩ := List.nodup_cons.mp hnodup
      dsimp only
      rw [if_neg (hnamed field List.mem_cons_self), readValues, List.foldlM_cons]
      cases record.read field node value with
      | error fault => rfl
      | ok after =>
        have hopen : ∀ other ∈ (record.valuesIn rest).map Prod.fst, other ∉ field :: named := by
          intro other hother hmem
          rcases List.mem_cons.mp hmem with rfl | hmem
          · exact hnot hother
          · exact hnamed other (List.mem_cons_of_mem _ hother) hmem
        show record.readMembers (keyed rest) (field :: named) after = _
        rw [ih hintact hnodup hopen after, List.reverse_cons, List.append_assoc]
        rfl

/-- An object in which no field is named twice decodes to what its values read, if it names
every field that has to be named. -/
theorem decode_keyed {record : Record φ σ} {members : List (String × Node)}
    (hintact : ∀ member ∈ members, member.2.isIntact = true)
    (hnodup : ((record.valuesIn members).map Prod.fst).Nodup) :
    record.decode (.object (keyed members)) =
      (record.readValues (record.valuesIn members) record.start).bind (fun value =>
        if record.fields.all (fun field => !record.isNamed field ||
          decide (field ∈ (record.valuesIn members).map Prod.fst)) then .ok value
        else .error .malformed) := by
  rw [decode, readMembers_keyed hintact hnodup (fun _ _ => List.not_mem_nil)]
  cases record.readValues (record.valuesIn members) record.start with
  | error fault => rfl
  | ok value =>
    show (if record.fields.all _ then _ else _) = _
    simp only [List.append_nil, List.mem_reverse]
    rfl

theorem decodeText_of_isObjectText (record : Record φ σ) {text : String}
    {members : List (String × Node)} (h : IsObjectText text members) :
    record.decodeText text = record.decode (.object (keyed members)) := by
  rw [decodeText, read_of_isTextOf h]
  cases record.decode (.object (keyed members)) <;> rfl

end Record
end AppRoutes.Json
