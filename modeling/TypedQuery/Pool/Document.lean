import TypedQuery.Pool.Token

/-! # Documents

    What a settings document says. A document is an object or a list, and
    in each place of it stands text, a whole number, or something that no
    setting can hold. Nested objects and lists are of the last sort; only
    their form matters, and it is checked by a stack of open brackets.

    * **`read`**: the document that a text spells, if it spells one.
-/

namespace TypedQuery.Pool

/-! ## Contents -/

/-- What a document says in one place. -/
inductive Content where
  | text (s : String)
  | whole (n : Int)
  | other
  deriving DecidableEq, Repr

/-- A document. The members of an object are in their order, and a name may
    come more than once. -/
inductive Document where
  | object (members : List (String × Content))
  | list (items : List Content)
  deriving DecidableEq, Repr

/-! ## Nesting -/

/-- The two sorts of brackets. -/
inductive Bracket where
  | object
  | list
  deriving DecidableEq, Repr

/-- What may come next behind an open bracket. -/
inductive Expected where
  | memberOrEnd
  | member
  | colon
  | value
  | valueOrEnd
  | commaOrEnd
  deriving DecidableEq, Repr

/-- The open brackets, innermost first, and what may come next. -/
structure Nesting where
  brackets : List Bracket
  expected : Expected
  deriving DecidableEq, Repr

namespace Nesting

/-- Behind a new open bracket. -/
def opened (brackets : List Bracket) : Bracket → Nesting
  | .object => ⟨.object :: brackets, .memberOrEnd⟩
  | .list => ⟨.list :: brackets, .valueOrEnd⟩

/-- Behind a value that starts with a token, or behind that token if the
    value goes on. -/
def afterValue (brackets : List Bracket) : Token → Option Nesting
  | .openObject => some (opened brackets .object)
  | .openList => some (opened brackets .list)
  | .text _ | .whole _ | .fraction | .word => some ⟨brackets, .commaOrEnd⟩
  | .closeObject | .closeList | .colon | .comma => none

/-- Behind a token, if it may come there. -/
def next (n : Nesting) (t : Token) : Option Nesting :=
  match n.expected, n.brackets, t with
  | .memberOrEnd, _ :: outer, .closeObject => some ⟨outer, .commaOrEnd⟩
  | .memberOrEnd, brackets, .text _ => some ⟨brackets, .colon⟩
  | .member, brackets, .text _ => some ⟨brackets, .colon⟩
  | .colon, brackets, .colon => some ⟨brackets, .value⟩
  | .valueOrEnd, _ :: outer, .closeList => some ⟨outer, .commaOrEnd⟩
  | .valueOrEnd, brackets, t => afterValue brackets t
  | .value, brackets, t => afterValue brackets t
  | .commaOrEnd, .object :: outer, .closeObject => some ⟨outer, .commaOrEnd⟩
  | .commaOrEnd, .list :: outer, .closeList => some ⟨outer, .commaOrEnd⟩
  | .commaOrEnd, .object :: outer, .comma => some ⟨.object :: outer, .member⟩
  | .commaOrEnd, .list :: outer, .comma => some ⟨.list :: outer, .value⟩
  | _, _, _ => none

end Nesting

/-- The tokens with every nested object or list replaced by one word, if all
    brackets that open are closed. -/
def flatten (n : Nesting) : List Token → Option (List Token)
  | [] => if n.brackets = [] then some [] else none
  | t :: rest =>
    if n.brackets = [] then
      match t with
      | .openObject => flatten (.opened [] .object) rest
      | .openList => flatten (.opened [] .list) rest
      | t => (flatten n rest).map (t :: ·)
    else
      match n.next t with
      | none => none
      | some n =>
        if n.brackets = [] then (flatten n rest).map (.word :: ·) else flatten n rest

/-! ## Reading -/

/-- What a token says, if it is a value. -/
def Token.content? : Token → Option Content
  | .text (some s) => some (.text s)
  | .whole n => some (.whole n)
  | .text none | .fraction | .word => some .other
  | .openObject | .closeObject | .openList | .closeList | .colon | .comma => none

/-- Reads the members of an object up to its end. -/
def readMembers : List Token → Option (List (String × Content))
  | [.text (some name), .colon, v, .closeObject] => v.content?.map fun c => [(name, c)]
  | .text (some name) :: .colon :: v :: .comma :: rest =>
    match v.content?, readMembers rest with
    | some c, some members => some ((name, c) :: members)
    | _, _ => none
  | _ => none

/-- Reads the items of a list up to its end. -/
def readItems : List Token → Option (List Content)
  | [v, .closeList] => v.content?.map fun c => [c]
  | v :: .comma :: rest =>
    match v.content?, readItems rest with
    | some c, some items => some (c :: items)
    | _, _ => none
  | _ => none

/-- Reads a document whose nested values are single tokens. -/
def readFlat : Bracket → List Token → Option Document
  | .object, [.closeObject] => some (.object [])
  | .object, ts => (readMembers ts).map .object
  | .list, [.closeList] => some (.list [])
  | .list, ts => (readItems ts).map .list

/-- Reads the document that a text spells. -/
def Document.read (s : String) : Option Document :=
  match tokens s.toList with
  | some (.openObject :: rest) => (flatten ⟨[], .commaOrEnd⟩ rest).bind (readFlat .object)
  | some (.openList :: rest) => (flatten ⟨[], .commaOrEnd⟩ rest).bind (readFlat .list)
  | _ => none

end TypedQuery.Pool
