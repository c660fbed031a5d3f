/-
Reading what was written.

`Value.toNode` is the value as a reader sees it.  The theorem this file exists for is
`read_render`: the text of a value holds that value and nothing else, in either layout.  The
layouts differ in white space alone, which scanning drops, so both are one proof.
-/
import AppRoutes.Proofs.Json.Scan
import AppRoutes.Proofs.Json.Tokens

namespace AppRoutes.Json

mutual

/-- The node that the text of a value holds. -/
def Value.toNode : Value → Node
  | .null => .null
  | .boolean b => .boolean b
  | .natural n => .natural n
  | .string s => .string (some s)
  | .array items => .array (itemNodes items)
  | .object members => .object (memberNodes members)

def itemNodes : List Value → List Node
  | [] => []
  | item :: rest => item.toNode :: itemNodes rest

def memberNode : String × Value → Option String × Node
  | (key, value) => (some key, value.toNode)

def memberNodes : List (String × Value) → List (Option String × Node)
  | [] => []
  | member :: rest => memberNode member :: memberNodes rest

end

theorem itemNodes_eq_map (items : List Value) : itemNodes items = items.map Value.toNode := by
  induction items with
  | nil => rfl
  | cons item rest ih => rw [itemNodes, ih, List.map_cons]

theorem memberNodes_eq_map (members : List (String × Value)) :
    memberNodes members = members.map memberNode := by
  induction members with
  | nil => rfl
  | cons member rest ih => rw [memberNodes, ih, List.map_cons]

mutual

theorem isIntact_toNode : ∀ value : Value, value.toNode.isIntact = true
  | .null => rfl
  | .boolean _ => rfl
  | .natural _ => rfl
  | .string _ => rfl
  | .array items => intactItems_itemNodes items
  | .object members => intactMembers_memberNodes members

theorem intactItems_itemNodes : ∀ items : List Value, intactItems (itemNodes items) = true
  | [] => rfl
  | item :: rest => by
    rw [itemNodes, intactItems, isIntact_toNode item, intactItems_itemNodes rest]
    rfl

theorem intactMembers_memberNodes :
    ∀ members : List (String × Value), intactMembers (memberNodes members) = true
  | [] => rfl
  | (_, value) :: rest => by
    rw [memberNodes, memberNode, intactMembers, intactMember, isIntact_toNode value,
      intactMembers_memberNodes rest]
    rfl

end

theorem scan_lineBreak (layout : Layout) (depth : Nat) (rest : List Char) :
    Token.scan (layout.lineBreak depth ++ rest) = Token.scan rest := by
  refine scan_spaces (fun c hc => ?_) rest
  cases layout with
  | compact => simp [Layout.lineBreak] at hc
  | indented =>
    rcases List.mem_cons.mp hc with rfl | hc
    · rfl
    · rw [List.eq_of_mem_replicate hc]
      rfl

theorem scan_colon (layout : Layout) (rest : List Char) :
    Token.scan (layout.colon ++ rest) = .colon :: Token.scan rest := by
  cases layout with
  | compact => exact scan_punctuation rfl rest
  | indented =>
    show Token.scan (':' :: ' ' :: rest) = _
    rw [scan_punctuation rfl, scan_space rfl]

theorem endsNumber_lineBreak (layout : Layout) (depth : Nat) {rest : List Char}
    (h : EndsNumber rest) : EndsNumber (layout.lineBreak depth ++ rest) := by
  cases layout with
  | compact => exact h
  | indented => exact endsNumber_cons (by decide) _

theorem endsNumber_renderItems (layout : Layout) (depth : Nat) (items : List Value)
    {rest : List Char} (h : EndsNumber rest) :
    EndsNumber (renderItems layout depth items ++ rest) := by
  cases items with
  | nil => exact h
  | cons item items => exact endsNumber_cons (by decide) _

theorem endsNumber_renderMembers (layout : Layout) (depth : Nat)
    (members : List (String × Value)) {rest : List Char} (h : EndsNumber rest) :
    EndsNumber (renderMembers layout depth members ++ rest) := by
  cases members with
  | nil => exact h
  | cons member members => exact endsNumber_cons (by decide) _

/-! ## Scanning a value

The text after a value may not go on with a number, since the value may be one. -/

mutual

theorem scan_renderAt (layout : Layout) (depth : Nat) :
    ∀ (value : Value) {rest : List Char}, EndsNumber rest →
      Token.scan (value.renderAt layout depth ++ rest) = value.toNode.tokens ++ Token.scan rest
  | .null, rest, _ => by
    show Token.scan ('n' :: 'u' :: 'l' :: 'l' :: rest) = .null :: Token.scan rest
    exact scan_lexeme rfl rfl
  | .boolean true, rest, _ => by
    show Token.scan ('t' :: 'r' :: 'u' :: 'e' :: rest) = .boolean true :: Token.scan rest
    exact scan_lexeme rfl rfl
  | .boolean false, rest, _ => by
    show Token.scan ('f' :: 'a' :: 'l' :: 's' :: 'e' :: rest) =
      .boolean false :: Token.scan rest
    exact scan_lexeme rfl rfl
  | .natural n, _, h => scan_toDigits n h
  | .string s, rest, _ => scan_quote s.toList rest
  | .array [], rest, _ => by
    show Token.scan ('[' :: ']' :: rest) = _
    rw [scan_punctuation rfl, scan_punctuation rfl]
    rfl
  | .array (item :: items), rest, _ => by
    have hend := endsNumber_lineBreak layout depth (endsNumber_cons (c := ']') (by decide) rest)
    have hitems := endsNumber_renderItems layout (depth + 1) items hend
    rw [Value.renderAt, List.cons_append, scan_punctuation rfl]
    simp only [List.append_assoc, List.singleton_append]
    rw [scan_lineBreak, scan_renderAt layout (depth + 1) item hitems,
      scan_renderItems layout (depth + 1) items hend, scan_lineBreak, scan_punctuation rfl,
      Value.toNode, itemNodes, Node.tokens]
    simp
  | .object [], rest, _ => by
    show Token.scan ('{' :: '}' :: rest) = _
    rw [scan_punctuation rfl, scan_punctuation rfl]
    rfl
  | .object ((key, value) :: members), rest, _ => by
    have hend := endsNumber_lineBreak layout depth (endsNumber_cons (c := '}') (by decide) rest)
    have hmembers := endsNumber_renderMembers layout (depth + 1) members hend
    rw [Value.renderAt, renderMember, List.cons_append, scan_punctuation rfl]
    simp only [List.append_assoc, List.singleton_append]
    rw [scan_lineBreak, scan_quote, scan_colon, scan_renderAt layout (depth + 1) value hmembers,
      scan_renderMembers layout (depth + 1) members hend, scan_lineBreak, scan_punctuation rfl,
      Value.toNode, memberNodes, memberNode, Node.tokens, memberTokens]
    simp

theorem scan_renderItems (layout : Layout) (depth : Nat) :
    ∀ (items : List Value) {rest : List Char}, EndsNumber rest →
      Token.scan (renderItems layout depth items ++ rest) =
        itemTokens (itemNodes items) ++ Token.scan rest
  | [], _, _ => rfl
  | item :: items, rest, h => by
    have hitems := endsNumber_renderItems layout depth items h
    rw [renderItems, List.cons_append, scan_punctuation rfl]
    simp only [List.append_assoc]
    rw [scan_lineBreak, scan_renderAt layout depth item hitems,
      scan_renderItems layout depth items h, itemNodes, itemTokens]
    simp

theorem scan_renderMembers (layout : Layout) (depth : Nat) :
    ∀ (members : List (String × Value)) {rest : List Char}, EndsNumber rest →
      Token.scan (renderMembers layout depth members ++ rest) =
        membersTokens (memberNodes members) ++ Token.scan rest
  | [], _, _ => rfl
  | (key, value) :: members, rest, h => by
    have hmembers := endsNumber_renderMembers layout depth members h
    rw [renderMembers, renderMember, List.cons_append, scan_punctuation rfl]
    simp only [List.append_assoc]
    rw [scan_lineBreak, scan_quote, scan_colon, scan_renderAt layout depth value hmembers,
      scan_renderMembers layout depth members h, memberNodes, memberNode, membersTokens,
      memberTokens]
    simp

end

/-- The text of a value holds the value and nothing else. -/
theorem read_render (layout : Layout) (value : Value) :
    Document.read (value.render layout) = ⟨value.toNode, false⟩ := by
  have hscan := scan_renderAt layout 0 value endsNumber_nil
  have hnil : Token.scan [] = [] := by rw [Token.scan]
  rw [List.append_nil, hnil, List.append_nil] at hscan
  rw [Document.read, Value.render, String.toList_ofList, hscan]
  exact ofTokens_tokens (isIntact_toNode value)

end AppRoutes.Json
