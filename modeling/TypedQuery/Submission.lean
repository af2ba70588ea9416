import TypedQuery.Select.Rendering

/-! # Submission

    A finished statement is handed to a connection, which keeps a log of
    what it was given and then replies. A statement that is rejected never
    reaches the connection; a failure of the connection is passed on as it
    is.

    * **`run_of_rejected`**, **`run_of_built`**: a statement is logged
      exactly if it can be rendered.
-/

namespace TypedQuery

variable {ρ ε : Type}

/-- What a connection was given, first to last. -/
abbrev Log := List Statement

/-- How a connection replies, once a statement is logged. -/
abbrev Reply (ρ ε : Type) := Log → Except ε ρ

/-- Hands a statement to a connection. -/
def Statement.submit (s : Statement) (reply : Reply ρ ε) (log : Log) : Except ε ρ × Log :=
  let log := log ++ [s]
  (reply log, log)

/-- Why a SELECT statement was not run. -/
inductive RunError (ε : Type) where
  /-- It was rejected before it was handed over. -/
  | invalid (r : Select.Rejection)
  /-- The connection failed. -/
  | connection (e : ε)
  deriving Repr

namespace RunError

/-- The wording of an error: that of the connection is left as it is. -/
def message (wording : ε → String) : RunError ε → String
  | .invalid r => "invalid query: " ++ r.message
  | .connection e => wording e

/-- The failure of the connection, if that is what it was. -/
def connection? : RunError ε → Option ε
  | .invalid _ => none
  | .connection e => some e

end RunError

/-- Renders a statement and hands it to a connection. -/
def Select.run (q : Select) (reply : Reply ρ ε) (log : Log) : Except (RunError ε) ρ × Log :=
  match q.build with
  | .error r => (.error (.invalid r), log)
  | .ok s =>
    let (result, log) := s.submit reply log
    (result.mapError .connection, log)

theorem Select.run_of_rejected {q : Select} {r : Select.Rejection} (h : q.build = .error r)
    (reply : Reply ρ ε) (log : Log) : q.run reply log = (.error (.invalid r), log) := by
  simp [Select.run, h]

theorem Select.run_of_built {q : Select} {s : Statement} (h : q.build = .ok s)
    (reply : Reply ρ ε) (log : Log) :
    q.run reply log = ((reply (log ++ [s])).mapError .connection, log ++ [s]) := by
  simp [Select.run, h, Statement.submit]

/-! ## A recording connection -/

/-- The failure of a recording connection. -/
inductive Refusal where
  | refused
  deriving DecidableEq, Repr

/-- The wording of the failure. -/
def Refusal.message : Refusal → String
  | .refused => "connection refused"

/-- A connection that counts what it was given, or refuses. -/
def countOrRefuse (refuses : Bool) : Reply Nat Refusal := fun log =>
  if refuses then .error .refused else .ok log.length

end TypedQuery
