/-
The texts that are read whole.

What the machine expects next and what is open around it tell every token that it has taken.
`State.Took` says so, and each step keeps it, so a run that ends with a value which is JSON to its
end has taken the tokens of that value and no others.  With what scanning accepts this makes
reading exact: `isTextOf_iff` says that a text is read whole as a value exactly if it is a text of
it.
-/
import AppRoutes.Proofs.Json.Lexemes

namespace AppRoutes.Json

/-- The tokens of what stands before the current value, each part with its comma. -/
def tokensBefore {α : Type} (write : α → List Token) (before : List α) : List Token :=
  before.reverse.flatMap (fun part => write part ++ [.comma])

/-- The tokens of an array or object up to the current value. -/
def Frame.tokens : Frame → List Token
  | .array before => .leftBracket :: tokensBefore Node.tokens before
  | .object before key =>
    .leftBrace :: (tokensBefore memberTokens before ++
      [.string (key.map String.toList), .colon])

/-- The bracket that the array or object ends with. -/
def Frame.ending : Frame → Token
  | .array _ => .rightBracket
  | .object _ _ => .rightBrace

def stackTokens : List Frame → List Token
  | [] => []
  | frame :: stack => stackTokens stack ++ frame.tokens

/-- A comma before each part and a comma after each part but the last are the same. -/
theorem flatMap_comma {α : Type} (write : α → List Token) (parts : List α) (last : α) :
    (parts ++ [last]).flatMap (fun part => .comma :: write part) =
      .comma :: (parts.flatMap (fun part => write part ++ [.comma]) ++ write last) := by
  induction parts with
  | nil => simp
  | cons part parts ih =>
    rw [List.cons_append, List.flatMap_cons, ih]
    simp

theorem itemTokens_eq_flatMap (items : List Node) :
    itemTokens items = items.flatMap (fun item => .comma :: item.tokens) := by
  induction items with
  | nil => rfl
  | cons item items ih => rw [itemTokens, ih, List.flatMap_cons, List.cons_append]

theorem membersTokens_eq_flatMap (members : List (Option String × Node)) :
    membersTokens members = members.flatMap (fun member => .comma :: memberTokens member) := by
  induction members with
  | nil => rfl
  | cons member members ih => rw [membersTokens, ih, List.flatMap_cons, List.cons_append]

theorem tokens_array {items : List Node} {inner : List Token}
    (h : itemTokens items = .comma :: inner) :
    (Node.array items).tokens = .leftBracket :: (inner ++ [.rightBracket]) := by
  cases items with
  | nil => cases h
  | cons item items =>
    rw [itemTokens] at h
    rw [Node.tokens, (List.cons.inj h).2]

theorem tokens_object {members : List (Option String × Node)} {inner : List Token}
    (h : membersTokens members = .comma :: inner) :
    (Node.object members).tokens = .leftBrace :: (inner ++ [.rightBrace]) := by
  cases members with
  | nil => cases h
  | cons member members =>
    rw [membersTokens] at h
    rw [Node.tokens, (List.cons.inj h).2]

/-- Closing an array or object ends its tokens. -/
theorem Frame.tokens_close (frame : Frame) (node : Node) :
    (frame.close node).tokens = frame.tokens ++ node.tokens ++ [frame.ending] := by
  cases frame with
  | array before =>
    have hitems : itemTokens (node :: before).reverse =
        .comma :: (tokensBefore Node.tokens before ++ node.tokens) := by
      rw [itemTokens_eq_flatMap, List.reverse_cons, flatMap_comma]
      rfl
    rw [Frame.close, tokens_array hitems]
    rfl
  | object before key =>
    have hmembers : membersTokens ((key, node) :: before).reverse =
        .comma :: (tokensBefore memberTokens before ++ memberTokens (key, node)) := by
      rw [membersTokens_eq_flatMap, List.reverse_cons, flatMap_comma]
      rfl
    rw [Frame.close, tokens_object hmembers, memberTokens]
    simp [Frame.tokens, Frame.ending]

/-- The text is not JSON to its end, or something follows the value. -/
def Document.IsFaulty (document : Document) : Prop :=
  document.root.isIntact = false ∨ document.trailing = true

theorem intactItems_eq_all (items : List Node) : intactItems items = items.all Node.isIntact := by
  induction items with
  | nil => rfl
  | cons item items ih => rw [intactItems, ih, List.all_cons]

theorem intactMembers_eq_all (members : List (Option String × Node)) :
    intactMembers members = members.all intactMember := by
  induction members with
  | nil => rfl
  | cons member members ih => rw [intactMembers, ih, List.all_cons]

theorem isIntact_close {node : Node} (h : node.isIntact = false) (frame : Frame) :
    (frame.close node).isIntact = false := by
  cases frame with
  | array before =>
    rw [Frame.close, Node.isIntact, intactItems_eq_all, List.all_reverse, List.all_cons, h]
    rfl
  | object before key =>
    rw [Frame.close, Node.isIntact, intactMembers_eq_all, List.all_reverse, List.all_cons,
      intactMember, h]
    rfl

theorem isIntact_closeAll {node : Node} (h : node.isIntact = false) (stack : List Frame) :
    (closeAll stack node).isIntact = false := by
  induction stack generalizing node with
  | nil => exact h
  | cons frame stack ih => exact ih (isIntact_close h frame)

theorem isIntact_tornObject (before : List (Option String × Node)) :
    (tornObject before).isIntact = false :=
  isIntact_close rfl (.object before none)

/-- The tokens that have led to a state.  A fault leaves nothing to say but that there was one. -/
def State.Took : State → List Token → Prop
  | .value stack, tokens => tokens = stackTokens stack
  | .firstItem stack, tokens => tokens = stackTokens stack ++ [.leftBracket]
  | .firstMember stack, tokens => tokens = stackTokens stack ++ [.leftBrace]
  | .member stack before, tokens =>
    tokens = stackTokens stack ++ .leftBrace :: tokensBefore memberTokens before
  | .colon stack, tokens => tokens ++ [.colon] = stackTokens stack
  | .complete stack node, tokens => tokens = stackTokens stack ++ node.tokens
  | .stopped document, _ => document.IsFaulty

theorem took_stopIn {node : Node} (h : node.isIntact = false) (stack : List Frame)
    (tokens : List Token) : (stopIn stack node).Took tokens :=
  .inl (isIntact_closeAll h stack)

theorem took_stepValue (stack : List Frame) (token : Token) :
    (stepValue stack token).Took (stackTokens stack ++ [token]) := by
  cases token with
  | string text =>
    show _ = stackTokens stack ++ [Token.string ((text.map String.ofList).map String.toList)]
    simp
  | null | boolean | natural | number | leftBracket | leftBrace => exact rfl
  | rightBracket | rightBrace | comma | colon | bad => exact took_stopIn rfl stack _

theorem took_stepMember (stack : List Frame) (before : List (Option String × Node))
    (token : Token) :
    (stepMember stack before token).Took
      (stackTokens stack ++ .leftBrace :: tokensBefore memberTokens before ++ [token]) := by
  cases token with
  | string key =>
    show _ ++ [Token.colon] =
      stackTokens stack ++ Frame.tokens (.object before (key.map String.ofList))
    simp [Frame.tokens]
  | _ => exact took_stopIn (isIntact_tornObject before) stack _

theorem took_stepComplete (node : Node) (stack : List Frame) (token : Token) :
    (stepComplete node stack token).Took (stackTokens stack ++ node.tokens ++ [token]) := by
  cases stack with
  | nil => exact .inr rfl
  | cons frame stack =>
    have hclose : stackTokens (frame :: stack) ++ node.tokens ++ [frame.ending] =
        stackTokens stack ++ (frame.close node).tokens := by
      rw [frame.tokens_close, stackTokens]
      simp only [List.append_assoc]
    cases frame with
    | array before =>
      cases token with
      | comma =>
        show _ = stackTokens stack ++ Frame.tokens (.array (node :: before))
        simp [stackTokens, Frame.tokens, tokensBefore]
      | rightBracket => exact hclose
      | _ => exact took_stopIn rfl (.array (node :: before) :: stack) _
    | object before key =>
      cases token with
      | comma =>
        show _ = stackTokens stack ++
          .leftBrace :: tokensBefore memberTokens ((key, node) :: before)
        simp [stackTokens, Frame.tokens, tokensBefore, memberTokens]
      | rightBrace => exact hclose
      | _ => exact took_stopIn (isIntact_tornObject ((key, node) :: before)) stack _

/-- Each step takes one token more. -/
theorem State.Took.step {state : State} {tokens : List Token} (h : state.Took tokens)
    (token : Token) : (step state token).Took (tokens ++ [token]) := by
  cases state with
  | value stack =>
    rw [show tokens = _ from h]
    exact took_stepValue stack token
  | firstItem stack =>
    rw [show tokens = _ from h]
    have hvalue := took_stepValue (.array [] :: stack) token
    cases token with
    | rightBracket => exact List.append_assoc ..
    | _ => exact hvalue
  | firstMember stack =>
    rw [show tokens = _ from h]
    have hmember := took_stepMember stack [] token
    cases token with
    | rightBrace => exact List.append_assoc ..
    | _ => exact hmember
  | member stack before =>
    rw [show tokens = _ from h]
    exact took_stepMember stack before token
  | colon stack =>
    cases token with
    | colon => exact h
    | _ => exact took_stopIn rfl stack _
  | complete stack node =>
    rw [show tokens = _ from h]
    exact took_stepComplete node stack token
  | stopped document => exact h

theorem State.Took.foldl {state : State} {before : List Token} (h : state.Took before)
    (tokens : List Token) : (tokens.foldl Json.step state).Took (before ++ tokens) := by
  induction tokens generalizing state before with
  | nil => rwa [List.append_nil]
  | cons token tokens ih =>
    rw [List.append_cons]
    exact ih (h.step token)

/-- A run that ends with a value has taken the tokens of the value, unless there was a fault. -/
theorem State.Took.finish {state : State} {tokens : List Token} (h : state.Took tokens) :
    state.finish.IsFaulty ∨ tokens = state.finish.root.tokens := by
  cases state with
  | value stack => exact .inl (.inl (isIntact_closeAll rfl stack))
  | firstItem stack => exact .inl (.inl (isIntact_closeAll rfl (.array [] :: stack)))
  | firstMember stack => exact .inl (.inl (isIntact_closeAll (isIntact_tornObject []) stack))
  | member stack before =>
    exact .inl (.inl (isIntact_closeAll (isIntact_tornObject before) stack))
  | colon stack => exact .inl (.inl (isIntact_closeAll rfl stack))
  | complete stack node =>
    match stack with
    | [] => exact .inr h
    | .array before :: stack =>
      exact .inl (.inl (isIntact_closeAll rfl (.array (node :: before) :: stack)))
    | .object before key :: stack =>
      exact .inl (.inl (isIntact_closeAll (isIntact_tornObject ((key, node) :: before)) stack))
  | stopped document => exact .inl h

/-! ## Texts -/

theorem tokens_of_ofTokens {tokens : List Token} {node : Node}
    (h : Document.ofTokens tokens = ⟨node, false⟩) (hintact : node.isIntact = true) :
    tokens = node.tokens := by
  have htook : (State.value []).Took [] := rfl
  have hfinish := (htook.foldl tokens).finish
  rw [← Document.ofTokens, h] at hfinish
  obtain (hnode | htrailing) | htokens := hfinish
  · exact absurd (hnode.symm.trans hintact) (by decide)
  · cases htrailing
  · exact htokens

mutual

theorem bad_not_mem_tokens : ∀ {node : Node}, node.isIntact = true → Token.bad ∉ node.tokens
  | .null, _ | .boolean _, _ | .natural _, _ | .number, _ | .string _, _ => by simp [Node.tokens]
  | .array [], _ | .object [], _ => by simp [Node.tokens]
  | .array (item :: items), h => by
    rw [Node.isIntact, intactItems, Bool.and_eq_true] at h
    simp [Node.tokens, bad_not_mem_tokens h.1, bad_not_mem_itemTokens h.2]
  | .object ((key, value) :: members), h => by
    rw [Node.isIntact, intactMembers, Bool.and_eq_true] at h
    simp [Node.tokens, memberTokens, bad_not_mem_tokens h.1, bad_not_mem_membersTokens h.2]
  | .broken, h => by cases h

theorem bad_not_mem_itemTokens : ∀ {items : List Node}, intactItems items = true →
    Token.bad ∉ itemTokens items
  | [], _ => nofun
  | item :: items, h => by
    rw [intactItems, Bool.and_eq_true] at h
    simp [itemTokens, bad_not_mem_tokens h.1, bad_not_mem_itemTokens h.2]

theorem bad_not_mem_membersTokens : ∀ {members : List (Option String × Node)},
    intactMembers members = true → Token.bad ∉ membersTokens members
  | [], _ => nofun
  | (key, value) :: members, h => by
    rw [intactMembers, Bool.and_eq_true] at h
    simp [membersTokens, memberTokens, bad_not_mem_tokens h.1, bad_not_mem_membersTokens h.2]

end

/-- A text is read whole as a value exactly if it is a text of the value. -/
theorem isTextOf_iff {text : String} {node : Node} :
    IsTextOf text node ↔ Document.read text = ⟨node, false⟩ ∧ node.isIntact = true := by
  constructor
  · intro h
    exact ⟨read_of_isTextOf h, h.intact⟩
  · rintro ⟨hread, hintact⟩
    have htokens := tokens_of_ofTokens hread hintact
    refine ⟨hintact, ?_⟩
    rw [← htokens]
    exact spells_scan (htokens ▸ bad_not_mem_tokens hintact)

end AppRoutes.Json
