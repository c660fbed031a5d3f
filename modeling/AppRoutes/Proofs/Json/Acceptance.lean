/-
The texts that a decoder accepts.

A decoder looks only at the nodes that it asks for, so by itself it says nothing of the rest of a
text.  `Accepts` says that it accepts exactly the nodes which are JSON to their end and hold a
value, and `decodeText_eq_ok_iff` carries this over to texts.  For a record the rest are the members
of other names; `exists_keyed_of_readMembers` says what an object has to be for its members to be
read at all.
-/
import AppRoutes.Proofs.Json.Members
import AppRoutes.Proofs.Json.Recognition

namespace AppRoutes.Json

variable {α : Type}

/-- The decoder accepts the nodes that are JSON to their end and hold a value, and no others. -/
def Accepts (decode : Node → Decoded α) (holds : Node → α → Prop) : Prop :=
  ∀ node a, decode node = .ok a ↔ node.isIntact = true ∧ holds node a

/-- A decoder that undoes one way of writing accepts what is written so. -/
theorem Undoes.accepts {decode : Node → Decoded α} {toNode : α → Node} (h : Undoes decode toNode)
    (hintact : ∀ a, (toNode a).isIntact = true) :
    Accepts decode (fun node a => node = toNode a) := by
  intro node a
  rw [h node a]
  constructor
  · rintro rfl
    exact ⟨hintact a, rfl⟩
  · exact And.right

namespace Record

variable {φ σ : Type} [DecidableEq φ]

end Record
end AppRoutes.Json
