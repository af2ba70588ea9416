import TypedQuery.Pool.Settings
import TypedQuery.Submission

/-! # Opening a pool

    A pool is opened from settings that were found valid, and from no
    others: what is wrong with settings is reported before the database is
    asked, whether the pool connects at once or on first use. The database
    itself may answer anything: what its pools and its errors are is left
    open, and it may keep a state.

    * **`connect_of_invalid`**: what is wrong with settings is reported, and
      the database stays as it was.
    * **`connect_of_opened`** and **`connect_of_failed`**: of valid settings
      the database has its say.
-/

namespace TypedQuery.Pool

variable {π ρ ε σ : Type}

/-- Why a pool is not opened or does not answer. -/
inductive PoolError (ε : Type) where
  /-- The settings are at fault. -/
  | config (f : Fault)
  /-- The database fails. -/
  | database (e : ε)
  deriving DecidableEq, Repr

/-- The wording of an error: that of the database stands as it is. -/
def PoolError.message (wording : ε → String) : PoolError ε → String
  | .config f => "invalid configuration: " ++ f.message
  | .database e => "database error: " ++ wording e

/-! ## Opening -/

/-- When a pool makes its first connection. -/
inductive Start where
  /-- As soon as it is opened. -/
  | atOnce
  /-- When it is first used. -/
  | onFirstUse
  deriving DecidableEq, Repr

/-- A database as it is asked for a pool: what it answers, and what has become
    of it then. -/
abbrev Dial (π ε σ : Type) := Start → Settings → σ → Except ε π × σ

/-- Checks that settings can make a pool. -/
def validate (c : Settings) : Except (PoolError ε) Unit :=
  match c.fault? with
  | some f => .error (.config f)
  | none => .ok ()

/-- Opens a pool from valid settings, by asking a database. -/
def connect (dial : Dial π ε σ) (start : Start) (c : Settings) (s : σ) :
    Except (PoolError ε) π × σ :=
  match validate c with
  | .error e => (.error e, s)
  | .ok () =>
    let (answer, s) := dial start c s
    (answer.mapError .database, s)

section

variable {dial : Dial π ε σ} {start : Start} {c : Settings} {s s' : σ}

theorem connect_of_invalid {e : PoolError ε} (h : validate c = .error e) :
    connect dial start c s = (.error e, s) := by
  rw [connect, h]

theorem connect_of_opened {p : π} (h : validate c = (.ok () : Except (PoolError ε) Unit))
    (answered : dial start c s = (.ok p, s')) : connect dial start c s = (.ok p, s') := by
  rw [connect, h, answered]
  rfl

theorem connect_of_failed {e : ε} (h : validate c = (.ok () : Except (PoolError ε) Unit))
    (answered : dial start c s = (.error e, s')) :
    connect dial start c s = (.error (.database e), s') := by
  rw [connect, h, answered]
  rfl

end

/-! ## Submission -/

/-- A pool as a connection: what fails is the database. -/
def connection (reply : Reply ρ ε) : Reply ρ (PoolError ε) := fun log =>
  (reply log).mapError .database

end TypedQuery.Pool
