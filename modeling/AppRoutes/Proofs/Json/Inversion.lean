/-
The nodes that a decoder accepts.

A decoder of one kind of value undoes one way of writing it: `Undoes` says that it accepts what
is written so and nothing else.  Lists of such values are undone likewise.  Open values and maps
are written in more than one way, and their lemmas name all of them.
-/
import AppRoutes.Proofs.Json.Decoding
import AppRoutes.Proofs.Outcome

namespace AppRoutes.Json

/-- Members as a text holds them. -/
def keyed (members : List (String × Node)) : List (Option String × Node) :=
  members.map (fun member => (some member.1, member.2))

variable {α : Type} {decode : Node → Decoded α} {toNode : α → Node}

/-- The decoder accepts what `toNode` writes, and nothing else. -/
def Undoes (decode : Node → Decoded α) (toNode : α → Node) : Prop :=
  ∀ node a, decode node = .ok a ↔ node = toNode a

theorem undoes_text : Undoes Node.text (fun text => .string (some text)) := by
  intro node text
  constructor
  · intro h
    unfold Node.text at h
    split at h
    · rw [Except.ok.inj h]
    · cases h
  · rintro rfl
    rfl

theorem undoes_word64 : Undoes Node.word64 (fun word => .natural word.toNat) := by
  intro node word
  constructor
  · intro h
    unfold Node.word64 at h
    split at h
    · rename_i n
      split at h
      · rename_i hlt
        exact congrArg Node.natural (Except.ok.inj h ▸ UInt64.toNat_ofNat_of_lt' hlt).symm
      · cases h
    · cases h
  · rintro rfl
    exact word64_natural word

theorem undoes_word32 : Undoes Node.word32 (fun word => .natural word.toNat) := by
  intro node word
  constructor
  · intro h
    unfold Node.word32 at h
    split at h
    · rename_i n
      split at h
      · rename_i hlt
        exact congrArg Node.natural (Except.ok.inj h ▸ UInt32.toNat_ofNat_of_lt' hlt).symm
      · cases h
    · cases h
  · rintro rfl
    exact word32_natural word

theorem eq_map_of_mapM (h : Undoes decode toNode) {nodes : List Node} {items : List α}
    (hread : nodes.mapM decode = .ok items) : nodes = items.map toNode := by
  rw [← List.forall₂_eq_eq_eq, List.forall₂_map_right_iff]
  exact (mapM_eq_ok_iff.mp hread).imp fun node a => (h node a).mp

theorem undoes_list (h : Undoes decode toNode) :
    Undoes (Node.list decode) (fun items => .array (items.map toNode)) := by
  intro node items
  constructor
  · intro hread
    unfold Node.list at hread
    split at hread
    · rw [eq_map_of_mapM h hread]
    · cases hread
  · rintro rfl
    exact list_array_map toNode (fun a => (h _ a).mpr rfl) items

theorem exists_keyed_of_addMembers (h : Undoes decode toNode)
    {members : List (Option String × Node)} {before after : SortedMap α}
    (hread : Node.addMembers decode members before = .ok after) :
    ∃ entries : List (String × α),
      members = keyed (entries.map (fun entry => (entry.1, toNode entry.2))) ∧
        entries.foldl (fun map entry => map.insert entry.1 entry.2) before = after := by
  induction members generalizing before with
  | nil => exact ⟨[], rfl, Except.ok.inj hread⟩
  | cons member rest ih =>
    obtain ⟨_ | key, node⟩ := member
    · cases hread
    · rw [Node.addMembers] at hread
      obtain ⟨a, hnode, hrest⟩ := ok_of_bind hread
      obtain ⟨entries, rfl, hafter⟩ := ih hrest
      exact ⟨(key, a) :: entries, by rw [(h node a).mp hnode]; rfl, hafter⟩

/-- A map is read from an object with any members of its kind, of which the last one with a key
counts. -/
theorem map_eq_ok_iff (h : Undoes decode toNode) {node : Node} {map : SortedMap α} :
    Node.map decode node = .ok map ↔
      ∃ entries : List (String × α),
        node = .object (keyed (entries.map (fun entry => (entry.1, toNode entry.2)))) ∧
          entries.foldl (fun map entry => map.insert entry.1 entry.2) ∅ = map := by
  constructor
  · intro hread
    unfold Node.map at hread
    split at hread
    · obtain ⟨entries, rfl, hmap⟩ := exists_keyed_of_addMembers h hread
      exact ⟨entries, rfl, hmap⟩
    · cases hread
  · rintro ⟨entries, rfl, rfl⟩
    rw [Node.map, keyed, List.map_map]
    exact addMembers_map toNode (fun a => (h _ a).mpr rfl) entries ∅

theorem optional_eq_ok_iff {node : Node} {value : Option α} :
    Node.optional decode node = .ok value ↔
      (node = .null ∧ value = none) ∨
        ∃ a, node ≠ .null ∧ decode node = .ok a ∧ value = some a := by
  unfold Node.optional
  split
  · simp [eq_comm]
  · rename_i hnull
    have hne : node ≠ .null := hnull
    cases hread : decode node <;> simp [Functor.map, Except.map, hne, eq_comm]

end AppRoutes.Json
