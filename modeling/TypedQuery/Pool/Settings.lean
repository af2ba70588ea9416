import TypedQuery.Pool.Document
import TypedQuery.Text.Blank

/-! # Pool settings

    Where the database is, how many connections may be open at once, and
    for how many seconds a caller waits for one. Settings come from a URL,
    from the environment or from a document, and are checked before a pool
    is opened.

    * **Defaults**: 5 connections and 30 seconds.
    * **Documents** name each setting at most once and say no more than the
      width of a number allows; other members of an object are passed over.
    * **Validity**: a URL that is not blank, then at least one connection.
-/

namespace TypedQuery.Pool

/-- The settings of a pool. -/
structure Settings where
  url : String
  maxConnections : UInt32
  /-- In seconds. -/
  acquireTimeout : UInt64
  deriving DecidableEq, Repr

/-- What is wrong with settings. -/
inductive Fault where
  /-- The environment variable that holds the URL is not set. -/
  | unset (name : String)
  | emptyUrl
  | noConnections
  deriving DecidableEq, Repr

/-- The wording of a fault. -/
def Fault.message : Fault → String
  | .unset name => name ++ " is not set"
  | .emptyUrl => "url is empty"
  | .noConnections => "max_connections must be positive"

namespace Settings

/-! ## Origins -/

/-- The number of connections unless something else is said. -/
def defaultMaxConnections : UInt32 := 5

/-- The seconds of waiting unless something else is said. -/
def defaultAcquireTimeout : UInt64 := 30

/-- The settings for a URL, with the defaults. -/
def ofUrl (url : String) : Settings := ⟨url, defaultMaxConnections, defaultAcquireTimeout⟩

/-- The environment variable that holds the URL. -/
def urlVariable : String := "DATABASE_URL"

/-- The settings for the value of the environment variable. A value that is no
    text counts as none. -/
def ofEnvironment : Option String → Except Fault Settings
  | some url => .ok (.ofUrl url)
  | none => .error (.unset urlVariable)

/-! ## Documents -/

/-- The number of a content, if it is whole and below a bound. -/
def below? (bound : Nat) : Content → Option Nat
  | .whole n => if 0 ≤ n ∧ n < bound then some n.toNat else none
  | .text _ | .other => none

/-- The number of connections that a place in a document says. -/
def maxConnections? (c : Content) : Option UInt32 := (below? UInt32.size c).map UInt32.ofNat

/-- The seconds of waiting that a place in a document says. -/
def acquireTimeout? (c : Content) : Option UInt64 := (below? UInt64.size c).map UInt64.ofNat

/-- The text that a place in a document says. -/
def text? : Content → Option String
  | .text s => some s
  | .whole _ | .other => none

/-- The setting of a name among the members of an object: the default if
    there is no such member, and nothing if there are several or the one
    does not say such a setting. -/
def setting? {α : Type} (name : String) (default : Option α) (read : Content → Option α)
    (members : List (String × Content)) : Option α :=
  match members.filter (·.1 == name) with
  | [] => default
  | [(_, c)] => read c
  | _ => none

/-- The settings that an object says. -/
def ofMembers (members : List (String × Content)) : Option Settings := do
  let url ← setting? "url" none text? members
  let maxConnections ←
    setting? "max_connections" (some defaultMaxConnections) maxConnections? members
  let acquireTimeout ←
    setting? "acquire_timeout_secs" (some defaultAcquireTimeout) acquireTimeout? members
  return ⟨url, maxConnections, acquireTimeout⟩

/-- The settings that a list says: the URL, the number of connections and
    the seconds of waiting, of which the last may be left out. -/
def ofItems : List Content → Option Settings
  | [url] => do return .ofUrl (← text? url)
  | [url, connections] => do
    return ⟨← text? url, ← maxConnections? connections, defaultAcquireTimeout⟩
  | [url, connections, timeout] => do
    return ⟨← text? url, ← maxConnections? connections, ← acquireTimeout? timeout⟩
  | _ => none

/-- The settings that a document says. -/
def ofDocument : Document → Option Settings
  | .object members => ofMembers members
  | .list items => ofItems items

/-! ## Changes -/

/-- A setting that is given after the start. -/
inductive Change where
  | maxConnections (n : UInt32)
  | acquireTimeout (seconds : UInt64)
  deriving DecidableEq, Repr

/-- The settings with a change. -/
def change (c : Settings) : Change → Settings
  | .maxConnections n => { c with maxConnections := n }
  | .acquireTimeout seconds => { c with acquireTimeout := seconds }

/-! ## Validity -/

/-- What is wrong with the settings, if anything. -/
def fault? (c : Settings) : Option Fault :=
  if c.url.toList.all Text.isBlank then some .emptyUrl
  else if c.maxConnections = 0 then some .noConnections
  else none

end Settings

end TypedQuery.Pool
