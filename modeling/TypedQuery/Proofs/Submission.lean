import TypedQuery.Submission

/-! # Runs of submissions

    A program hands one statement after the other to a connection, which
    keeps a log. Some of them are rejected before that, and the connection
    may fail at any call:

    * **`Settles`**: all that a call may come to.
    * **`run_eq_iff`**: a call comes to one of these, and to no other.
    * **`SettlesAll.log_eq`**: what a run adds to the log.
    * **`submitted_exactly_once`**: both, for a run of any calls.
-/

namespace TypedQuery

variable {ρ ε : Type}

/-! ## Section 1: Calls -/

/-- A call on a connection, with the reply that the connection has ready for
    it. The reply may differ from call to call. -/
inductive Call (ρ ε : Type) where
  /-- A SELECT statement, which is rendered first. -/
  | select (q : Select) (reply : Reply ρ ε)
  /-- A finished statement. -/
  | statement (s : Statement) (reply : Reply ρ ε)

/-- What a call returns. -/
inductive Answer (ρ ε : Type) where
  | select (result : Except (RunError ε) ρ)
  | statement (result : Except ε ρ)

namespace Call

/-- What a call returns, and the log after it. -/
def run : Call ρ ε → Log → Answer ρ ε × Log
  | .select q reply, log =>
    let (result, log) := q.run reply log
    (.select result, log)
  | .statement s reply, log =>
    let (result, log) := s.submit reply log
    (.statement result, log)

theorem run_select (q : Select) (reply : Reply ρ ε) (log : Log) :
    (select q reply).run log = (.select (q.run reply log).1, (q.run reply log).2) := rfl

/-- What calls return one after the other, and the log after them. -/
def runAll : List (Call ρ ε) → Log → List (Answer ρ ε) × Log
  | [], log => ([], log)
  | c :: cs, log =>
    let (answer, log) := c.run log
    let (answers, log) := runAll cs log
    (answer :: answers, log)

/-- The statement that a call is about, if it can be rendered. -/
def submitted? : Call ρ ε → Option Statement
  | .select q _ => q.build.toOption
  | .statement s _ => some s

/-! ## Section 2: One call -/

/-- What a call on a log comes to: what it returns, and the log after it. -/
inductive Settles : Call ρ ε → Log → Answer ρ ε → Log → Prop where
  /-- A statement that is not valid never reaches the connection. -/
  | rejected {q : Select} {r : Select.Rejection} (invalid : q.validate = .error r)
    (reply : Reply ρ ε) (log : Log) :
    Settles (.select q reply) log (.select (.error (.invalid r))) log
  /-- The failure of the connection is marked as such. -/
  | failed {q : Select} {s : Statement} {reply : Reply ρ ε} {log : Log} {e : ε}
    (valid : q.validate = .ok ()) (built : q.build = .ok s)
    (replied : reply (log ++ [s]) = .error e) :
    Settles (.select q reply) log (.select (.error (.connection e))) (log ++ [s])
  | succeeded {q : Select} {s : Statement} {reply : Reply ρ ε} {log : Log} {x : ρ}
    (valid : q.validate = .ok ()) (built : q.build = .ok s)
    (replied : reply (log ++ [s]) = .ok x) :
    Settles (.select q reply) log (.select (.ok x)) (log ++ [s])
  /-- Of a finished statement the connection's answer is all there is. -/
  | replied (s : Statement) (reply : Reply ρ ε) (log : Log) :
    Settles (.statement s reply) log (.statement (reply (log ++ [s]))) (log ++ [s])

end Call

theorem Select.build_of_invalid {q : Select} {r : Select.Rejection}
    (h : q.validate = .error r) : q.build = .error r := by
  rw [Select.build, Select.write_eq_map, h]
  rfl

theorem Select.exists_build_iff (q : Select) :
    (∃ s, q.build = .ok s) ↔ q.validate = .ok () := by
  rw [Select.build, Select.write_eq_map]
  constructor
  · intro ⟨s, h⟩
    cases hv : q.validate with
    | error r =>
      rw [hv] at h
      cases h
    | ok u => rfl
  · intro h
    rw [h]
    exact ⟨_, rfl⟩

namespace Call

variable {c : Call ρ ε} {cs : List (Call ρ ε)} {log log' : Log} {a : Answer ρ ε}
  {as : List (Answer ρ ε)}

theorem settles_run (c : Call ρ ε) (log : Log) : c.Settles log (c.run log).1 (c.run log).2 := by
  cases c with
  | statement s reply => exact .replied s reply log
  | select q reply =>
    rw [run_select]
    cases valid : q.validate with
    | error r =>
      rw [Select.run_of_rejected (Select.build_of_invalid valid)]
      exact .rejected valid reply log
    | ok u =>
      obtain ⟨s, built⟩ := q.exists_build_iff.mpr valid
      rw [Select.run_of_built built]
      -- the log is the same whether the connection fails or not
      cases replied : reply (log ++ [s]) with
      | error e => exact .failed valid built replied
      | ok x => exact .succeeded valid built replied

theorem Settles.run_eq (h : c.Settles log a log') : c.run log = (a, log') := by
  cases h with
  | rejected invalid reply =>
    rw [run_select, Select.run_of_rejected (Select.build_of_invalid invalid)]
  | failed _ built replied | succeeded _ built replied =>
    rw [run_select, Select.run_of_built built, replied]
    rfl
  | replied s reply => rfl

/-- **Step**: a call comes to what is said above, and to nothing else. -/
theorem run_eq_iff : c.run log = (a, log') ↔ c.Settles log a log' := by
  constructor
  · intro h
    have settled := settles_run c log
    rwa [h] at settled
  · exact Settles.run_eq

/-- A call adds its statement to the log, and nothing if it has none. -/
theorem Settles.log_eq (h : c.Settles log a log') : log' = log ++ c.submitted?.toList := by
  cases h with
  | rejected invalid => simp [submitted?, Select.build_of_invalid invalid, Except.toOption]
  | failed _ built | succeeded _ built => simp [submitted?, built, Except.toOption]
  | replied s => rfl

/-! ## Section 3: Runs -/

/-- What calls come to one after the other. -/
inductive SettlesAll : List (Call ρ ε) → Log → List (Answer ρ ε) → Log → Prop where
  | nil (log : Log) : SettlesAll [] log [] log
  | cons {c : Call ρ ε} {cs : List (Call ρ ε)} {log log' log'' : Log} {a : Answer ρ ε}
    {as : List (Answer ρ ε)} (first : c.Settles log a log') (rest : SettlesAll cs log' as log'') :
    SettlesAll (c :: cs) log (a :: as) log''

/-- **Run**: the calls come to that, each on the log that the ones before it
    have left. -/
theorem runAll_eq_iff : runAll cs log = (as, log') ↔ SettlesAll cs log as log' := by
  constructor
  · intro h
    induction cs generalizing log as with
    | nil =>
      cases h
      exact .nil _
    | cons c cs ih =>
      cases h
      exact .cons (settles_run c log) (ih rfl)
  · intro h
    induction h with
    | nil log => rfl
    | cons first rest ih =>
      unfold runAll
      simp only [first.run_eq, ih]

theorem SettlesAll.log_eq (h : SettlesAll cs log as log') :
    log' = log ++ cs.filterMap submitted? := by
  induction h with
  | nil log => exact (List.append_nil log).symm
  | @cons c cs log log' log'' a as first rest ih =>
    have added :
        (c :: cs).filterMap submitted? = c.submitted?.toList ++ cs.filterMap submitted? := by
      cases h : c.submitted? <;> simp [h]
    calc log''
        = log' ++ cs.filterMap submitted? := ih
      _ = log ++ c.submitted?.toList ++ cs.filterMap submitted? := by rw [first.log_eq]
      _ = log ++ (c :: cs).filterMap submitted? := by rw [added, List.append_assoc]

/-- **Exactly once**: a run of calls adds to the log the statements of the
    valid ones, in their order, as they are built; each call returns what is
    said of it; and only a failure of the connection is told as one. -/
theorem submitted_exactly_once (cs : List (Call ρ ε)) (log : Log) :
    (runAll cs log).2 = log ++ cs.filterMap submitted? ∧
    SettlesAll cs log (runAll cs log).1 (runAll cs log).2 ∧
    (∀ (q : Select) (reply : Reply ρ ε),
      (q.validate = .ok () ↔ ∃ s, (select q reply).submitted? = some s) ∧
      ∀ s, (select q reply).submitted? = some s ↔ q.build = .ok s) ∧
    (∀ (s : Statement) (reply : Reply ρ ε), (statement s reply).submitted? = some s) ∧
    (∀ r, (RunError.invalid r : RunError ε).connection? = none) ∧
    ∀ e : ε, (RunError.connection e).connection? = some e := by
  have settled : SettlesAll cs log (runAll cs log).1 (runAll cs log).2 := runAll_eq_iff.mp rfl
  have built (q : Select) (reply : Reply ρ ε) (s : Statement) :
      (select q reply).submitted? = some s ↔ q.build = .ok s := by
    cases h : q.build <;> simp [submitted?, h, Except.toOption]
  refine ⟨settled.log_eq, settled, ?_, fun s reply => rfl, fun r => rfl, fun e => rfl⟩
  intro q reply
  refine ⟨?_, built q reply⟩
  rw [← q.exists_build_iff]
  exact exists_congr fun s => (built q reply s).symm

/-- A statement without fields between two others, of which the first is
    refused: the log has both, and the second reply counts them. -/
example :
    let named : Select := .ofSlice ⟨⟨"t"⟩, [⟨.column "a", .integer, false⟩]⟩ none
    runAll [.select named (countOrRefuse true),
        .select (.ofSlice ⟨⟨"t"⟩, []⟩ none) (countOrRefuse false),
        .statement (Statement.empty.text "SELECT 1") (countOrRefuse false)] [] =
      ([.select (.error (.connection .refused)), .select (.error (.invalid (.noFields "t"))),
        .statement (.ok 2)], [named.writeClauses .empty, Statement.empty.text "SELECT 1"]) := rfl

end Call

end TypedQuery
