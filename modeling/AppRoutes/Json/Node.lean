/-
JSON texts as they are read.

A decoder reports the first fault of a text, and a fault of meaning can stand before a fault
of syntax.  So reading never fails: `Document.read` gives the value of the text up to the
place where it stops being JSON, marks that place with `Node.broken` and closes every array
and object around it.  Walking its nodes in order meets the faults in the order of the
text.

The nodes are built by a machine that takes one token at a time, so deep nesting costs no
stack and what it has read of a text does not depend on what follows.
-/
import AppRoutes.Json.Token

namespace AppRoutes.Json

inductive Node where
  | null
  | boolean (value : Bool)
  /-- A number with neither sign, fraction nor exponent. -/
  | natural (value : Nat)
  | number
  /-- A string, without a text if a surrogate stands alone in it. -/
  | string (text : Option String)
  | array (items : List Node)
  /-- An object with its members in the order of the text, repeated keys included. -/
  | object (members : List (Option String × Node))
  /-- The place where the text stops being JSON. -/
  | broken
  deriving Inhabited

mutual

/-- Whether the text of the node is JSON to its end. -/
def Node.isIntact : Node → Bool
  | .array items => intactItems items
  | .object members => intactMembers members
  | .broken => false
  | _ => true

def intactItems : List Node → Bool
  | [] => true
  | item :: rest => item.isIntact && intactItems rest

def intactMember : Option String × Node → Bool
  | (_, value) => value.isIntact

def intactMembers : List (Option String × Node) → Bool
  | [] => true
  | member :: rest => intactMember member && intactMembers rest

end

/-- The value of a text, and whether anything but white space follows the value. -/
structure Document where
  root : Node
  trailing : Bool

/-- An array or object that is being read; the part before the current value stands in
reverse order. -/
inductive Frame where
  | array (before : List Node)
  | object (before : List (Option String × Node)) (key : Option String)

/-- What the machine expects next. -/
inductive State where
  | value (stack : List Frame)
  /-- The first item of an array, or its end. -/
  | firstItem (stack : List Frame)
  /-- The first member of an object, or its end. -/
  | firstMember (stack : List Frame)
  | member (stack : List Frame) (before : List (Option String × Node))
  | colon (stack : List Frame)
  /-- The comma or bracket after a value, or the end of the text. -/
  | complete (stack : List Frame) (node : Node)
  /-- Nothing: the text is at fault. -/
  | stopped (document : Document)

/-- Put a value into the frame around it. -/
def Frame.close (node : Node) : Frame → Node
  | .array before => .array (node :: before).reverse
  | .object before key => .object ((key, node) :: before).reverse

def closeAll (stack : List Frame) (node : Node) : Node :=
  stack.foldl Frame.close node

def stopIn (stack : List Frame) (node : Node) : State :=
  .stopped ⟨closeAll stack node, false⟩

/-- An object whose next member cannot be read. -/
def tornObject (before : List (Option String × Node)) : Node :=
  .object ((none, .broken) :: before).reverse

def stepValue (stack : List Frame) : Token → State
  | .null => .complete stack .null
  | .boolean b => .complete stack (.boolean b)
  | .natural n => .complete stack (.natural n)
  | .number => .complete stack .number
  | .string text => .complete stack (.string (text.map String.ofList))
  | .leftBracket => .firstItem stack
  | .leftBrace => .firstMember stack
  | _ => stopIn stack .broken

def stepMember (stack : List Frame) (before : List (Option String × Node)) : Token → State
  | .string key => .colon (.object before (key.map String.ofList) :: stack)
  | _ => stopIn stack (tornObject before)

def stepComplete (node : Node) : List Frame → Token → State
  | [], _ => .stopped ⟨node, true⟩
  | .array before :: stack, .comma => .value (.array (node :: before) :: stack)
  | .array before :: stack, .rightBracket => .complete stack (.array (node :: before).reverse)
  | .array before :: stack, _ => stopIn (.array (node :: before) :: stack) .broken
  | .object before key :: stack, .comma => .member stack ((key, node) :: before)
  | .object before key :: stack, .rightBrace =>
    .complete stack (.object ((key, node) :: before).reverse)
  | .object before key :: stack, _ => stopIn stack (tornObject ((key, node) :: before))

def step : State → Token → State
  | .value stack, token => stepValue stack token
  | .firstItem stack, .rightBracket => .complete stack (.array [])
  | .firstItem stack, token => stepValue (.array [] :: stack) token
  | .firstMember stack, .rightBrace => .complete stack (.object [])
  | .firstMember stack, token => stepMember stack [] token
  | .member stack before, token => stepMember stack before token
  | .colon stack, .colon => .value stack
  | .colon stack, _ => stopIn stack .broken
  | .complete stack node, token => stepComplete node stack token
  | .stopped document, _ => .stopped document

def State.finish : State → Document
  | .value stack => ⟨closeAll stack .broken, false⟩
  | .firstItem stack => ⟨closeAll (.array [] :: stack) .broken, false⟩
  | .firstMember stack => ⟨closeAll stack (tornObject []), false⟩
  | .member stack before => ⟨closeAll stack (tornObject before), false⟩
  | .colon stack => ⟨closeAll stack .broken, false⟩
  | .complete [] node => ⟨node, false⟩
  | .complete (.array before :: stack) node =>
    ⟨closeAll (.array (node :: before) :: stack) .broken, false⟩
  | .complete (.object before key :: stack) node =>
    ⟨closeAll stack (tornObject ((key, node) :: before)), false⟩
  | .stopped document => document

def Document.ofTokens (tokens : List Token) : Document :=
  (tokens.foldl step (.value [])).finish

def Document.read (text : String) : Document :=
  Document.ofTokens (Token.scan text.toList)

end AppRoutes.Json
