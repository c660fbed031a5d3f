/-
The tokens of a node, and the machine that reads them back.

`Node.tokens` writes a node as the tokens that spell it, and `ofTokens_tokens` says that the
machine of `AppRoutes.Json.Node` undoes this for every node whose text is JSON to its end.
The machine keeps the arrays and objects around the current value on a stack, so the
statement that is proved by induction on the node holds under an arbitrary stack: reading a
value leaves the stack alone and completes the value.
-/
import AppRoutes.Json.Node

namespace AppRoutes.Json

/-! ## Writing tokens

Further items and members carry the comma before them, as in a text, so that the closing
bracket follows whatever comes last. -/

mutual

/-- The tokens that spell a node. -/
def Node.tokens : Node → List Token
  | .null => [.null]
  | .boolean b => [.boolean b]
  | .natural n => [.natural n]
  | .number => [.number]
  | .string text => [.string (text.map String.toList)]
  | .array [] => [.leftBracket, .rightBracket]
  | .array (item :: rest) => .leftBracket :: (item.tokens ++ itemTokens rest ++ [.rightBracket])
  | .object [] => [.leftBrace, .rightBrace]
  | .object (member :: rest) =>
    .leftBrace :: (memberTokens member ++ membersTokens rest ++ [.rightBrace])
  | .broken => [.bad]

def itemTokens : List Node → List Token
  | [] => []
  | item :: rest => .comma :: (item.tokens ++ itemTokens rest)

def memberTokens : Option String × Node → List Token
  | (key, value) => .string (key.map String.toList) :: .colon :: value.tokens

def membersTokens : List (Option String × Node) → List Token
  | [] => []
  | member :: rest => .comma :: (memberTokens member ++ membersTokens rest)

end

theorem map_ofList_toList (text : Option String) :
    (text.map String.toList).map String.ofList = text := by
  cases text with
  | none => rfl
  | some s => exact congrArg some String.ofList_toList

/-- The first token of a value does not end an array, so an array that expects its first
item or its end reads a value like any other place. -/
theorem foldl_step_firstItem (item : Node) (stack : List Frame) :
    item.tokens.foldl step (.firstItem stack) =
      item.tokens.foldl step (.value (.array [] :: stack)) := by
  cases item with
  | array items => cases items <;> rfl
  | object members => cases members <;> rfl
  | _ => rfl

mutual

/-- The machine reads a value and leaves the stack alone. -/
theorem foldl_step_tokens : ∀ {node : Node} (stack : List Frame), node.isIntact = true →
    node.tokens.foldl step (.value stack) = .complete stack node
  | .null, _, _ => rfl
  | .boolean _, _, _ => rfl
  | .natural _, _, _ => rfl
  | .number, _, _ => rfl
  | .string text, stack, _ => by
    show State.complete stack (.string ((text.map String.toList).map String.ofList)) = _
    rw [map_ofList_toList]
  | .array [], _, _ => rfl
  | .array (item :: rest), stack, h => by
    simp only [Node.isIntact, intactItems, Bool.and_eq_true] at h
    rw [Node.tokens, List.foldl_cons, List.append_assoc, List.foldl_append]
    show List.foldl step (item.tokens.foldl step (.firstItem stack)) _ = _
    rw [foldl_step_firstItem, foldl_step_tokens _ h.1]
    exact foldl_step_itemTokens item [] stack h.2
  | .object [], _, _ => rfl
  | .object ((key, value) :: rest), stack, h => by
    simp only [Node.isIntact, intactMembers, intactMember, Bool.and_eq_true] at h
    rw [Node.tokens, memberTokens, List.foldl_cons, List.append_assoc, List.foldl_append]
    show List.foldl step (value.tokens.foldl step
      (.value (.object [] ((key.map String.toList).map String.ofList) :: stack))) _ = _
    rw [map_ofList_toList, foldl_step_tokens _ h.1]
    exact foldl_step_membersTokens key value [] stack h.2
  | .broken, _, h => by simp [Node.isIntact] at h

/-- The machine reads the rest of an array after one of its items. -/
theorem foldl_step_itemTokens (node : Node) (before : List Node) (stack : List Frame) :
    ∀ {rest : List Node}, intactItems rest = true →
      (itemTokens rest ++ [Token.rightBracket]).foldl step
          (.complete (.array before :: stack) node) =
        .complete stack (.array ((node :: before).reverse ++ rest))
  | [], _ => by
    rw [List.append_nil]
    rfl
  | item :: rest, h => by
    simp only [intactItems, Bool.and_eq_true] at h
    rw [itemTokens, List.cons_append, List.foldl_cons, List.append_assoc, List.foldl_append]
    show List.foldl step (item.tokens.foldl step (.value (.array (node :: before) :: stack))) _ = _
    rw [foldl_step_tokens _ h.1, foldl_step_itemTokens item (node :: before) stack h.2,
      List.reverse_cons, List.append_assoc]
    rfl

/-- The machine reads the rest of an object after one of its members. -/
theorem foldl_step_membersTokens (key : Option String) (node : Node)
    (before : List (Option String × Node)) (stack : List Frame) :
    ∀ {rest : List (Option String × Node)}, intactMembers rest = true →
      (membersTokens rest ++ [Token.rightBrace]).foldl step
          (.complete (.object before key :: stack) node) =
        .complete stack (.object (((key, node) :: before).reverse ++ rest))
  | [], _ => by
    rw [List.append_nil]
    rfl
  | (key', value) :: rest, h => by
    simp only [intactMembers, intactMember, Bool.and_eq_true] at h
    rw [membersTokens, memberTokens, List.cons_append, List.foldl_cons, List.append_assoc,
      List.foldl_append]
    show List.foldl step (value.tokens.foldl step (.value
      (.object ((key, node) :: before) ((key'.map String.toList).map String.ofList) :: stack)))
        _ = _
    rw [map_ofList_toList, foldl_step_tokens _ h.1,
      foldl_step_membersTokens key' value ((key, node) :: before) stack h.2, List.reverse_cons,
      List.append_assoc]
    rfl

end

theorem ofTokens_tokens {node : Node} (h : node.isIntact = true) :
    Document.ofTokens node.tokens = ⟨node, false⟩ := by
  rw [Document.ofTokens, foldl_step_tokens [] h]
  rfl

end AppRoutes.Json
