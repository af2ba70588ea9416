import TypedQuery.Pool.Opening
import TypedQuery.Proofs.Pool.Acceptance

/-! # Only valid settings open a pool

    Settings come from a URL, from the environment or from a document, and
    may be changed after that. Wherever they come from and whatever was
    changed, a pool is opened from valid ones only:

    * **`holds_of_settings?`**: the three origins say settings alike, as the
      members of an object.
    * **`changeAll_eq`**: of each number the last that was set counts.
    * **`validate_iff`**: what is wrong with settings, the URL first.
    * **`ends_connect`**, **`connect_eq_iff`**: how an opening ends, for a
      database that may say anything, and what becomes of the database.
    * **`opened_only_if_valid`**: all of this for settings of any origin.
-/

namespace TypedQuery.Pool

open Settings

/-! ## Section 1: Origins -/

/-- Where settings come from: a URL, the value of the environment variable if
    it is set, or a document. -/
inductive Origin where
  | url (s : String)
  | environment (value : Option String)
  | document (d : Document)

namespace Origin

/-- The settings of an origin, if it has any. -/
def settings? : Origin → Option Settings
  | .url s => some (.ofUrl s)
  | .environment value => (Settings.ofEnvironment value).toOption
  | .document d => Settings.ofDocument d

/-- What an origin says, as the members of an object. -/
def members : Origin → List (String × Content)
  | .url s | .environment (some s) => [("url", .text s)]
  | .environment none => []
  | .document (.object members) => members
  | .document (.list items) => settingNames.zip items

theorem ofMembers_of_settings? {o : Origin} {c : Settings} (h : o.settings? = some c) :
    ofMembers o.members = some c := by
  cases o with
  | url s => exact h
  | environment value =>
    cases value with
    | none => cases h
    | some s => exact h
  | document d =>
    cases d with
    | object members => exact h
    | list items =>
      rw [settings?, ofDocument_list, Option.ite_none_right_eq_some] at h
      exact h.2

/-- The settings of an origin are those that it says, and it says them once. -/
theorem holds_of_settings? {o : Origin} {c : Settings} (h : o.settings? = some c) :
    Acceptable o.members ∧ Holds o.members c :=
  have said := ofMembers_of_settings? h
  ⟨acceptable_of_ofMembers said, (ofMembers_eq_some_iff.mp said).2⟩

end Origin

/-! ## Section 2: Changes -/

namespace Settings

/-- The number of connections that a change sets. -/
def Change.connections? : Change → Option UInt32
  | .maxConnections n => some n
  | .acquireTimeout _ => none

/-- The seconds of waiting that a change sets. -/
def Change.seconds? : Change → Option UInt64
  | .maxConnections _ => none
  | .acquireTimeout seconds => some seconds

/-- The settings after several changes. -/
def changeAll (c : Settings) (chs : List Change) : Settings := chs.foldl change c

/-- The number of connections that was set last. -/
def lastConnections? (chs : List Change) : Option UInt32 :=
  (chs.filterMap Change.connections?).getLast?

/-- The seconds of waiting that were set last. -/
def lastSeconds? (chs : List Change) : Option UInt64 :=
  (chs.filterMap Change.seconds?).getLast?

/-- **Run**: changes leave the URL, and of each number the last that was
    set. -/
theorem changeAll_eq (c : Settings) (chs : List Change) :
    c.changeAll chs =
      ⟨c.url, (lastConnections? chs).getD c.maxConnections,
        (lastSeconds? chs).getD c.acquireTimeout⟩ := by
  induction chs generalizing c with
  | nil => rfl
  | cons ch chs ih =>
    have step : c.changeAll (ch :: chs) = (c.change ch).changeAll chs := rfl
    rw [step, ih]
    -- a number that the first change sets counts if no later one does
    cases ch <;>
      simp [change, lastConnections?, lastSeconds?, Change.connections?, Change.seconds?,
        List.getLast?_cons]

end Settings

/-! ## Section 3: Validity -/

/-- A URL that says nothing: all of its characters are blanks. -/
def IsBlankUrl (url : String) : Prop := ∀ x ∈ url.toList, Text.isBlank x = true

instance (url : String) : Decidable (IsBlankUrl url) :=
  decidable_of_iff (url.toList.all Text.isBlank = true) List.all_eq_true

section

variable {ε : Type} {c : Settings}

theorem validate_of_blank (blank : IsBlankUrl c.url) :
    validate c = (.error (.config .emptyUrl) : Except (PoolError ε) Unit) := by
  rw [validate, fault?, if_pos (List.all_eq_true.mpr blank)]

theorem validate_of_no_connections (named : ¬ IsBlankUrl c.url) (none : c.maxConnections = 0) :
    validate c = (.error (.config .noConnections) : Except (PoolError ε) Unit) := by
  rw [validate, fault?, if_neg (mt List.all_eq_true.mp named), if_pos none]

theorem validate_of_named (named : ¬ IsBlankUrl c.url) (some : c.maxConnections ≠ 0) :
    validate c = (.ok () : Except (PoolError ε) Unit) := by
  rw [validate, fault?, if_neg (mt List.all_eq_true.mp named), if_neg some]

/-- **Validity**: settings are at fault for a blank URL, else for having no
    connections, and for nothing else. -/
theorem validate_iff (ε : Type) (c : Settings) :
    let judged : Except (PoolError ε) Unit := validate c
    (judged = .error (.config .emptyUrl) ↔ IsBlankUrl c.url) ∧
    (judged = .error (.config .noConnections) ↔ ¬ IsBlankUrl c.url ∧ c.maxConnections = 0) ∧
    (judged = .ok () ↔ ¬ IsBlankUrl c.url ∧ c.maxConnections ≠ 0) := by
  by_cases blank : IsBlankUrl c.url
  · simp [validate_of_blank, blank]
  · by_cases none : c.maxConnections = 0
    · simp [validate_of_no_connections, blank, none]
    · simp [validate_of_named, blank, none]

/-- Only what is wrong with settings is wrong with them: validation fails with
    a fault of theirs or not at all. -/
theorem validate_eq_error {e : PoolError ε} (h : validate c = .error e) :
    ∃ f, e = .config f := by
  unfold validate at h
  split at h
  · cases h
    exact ⟨_, rfl⟩
  · cases h

end

/-! ## Section 4: Opening -/

section

variable {π ε σ : Type} {dial : Dial π ε σ} {start : Start} {c : Settings} {s s' : σ}

/-- How an opening may end, and what has become of the database then. -/
inductive Ends (dial : Dial π ε σ) (start : Start) (c : Settings) (s : σ) :
    Except (PoolError ε) π × σ → Prop where
  /-- The settings are at fault, and the database was not asked. -/
  | refused {f : Fault} (invalid : validate c = (.error (.config f) : Except (PoolError ε) Unit)) :
    Ends dial start c s (.error (.config f), s)
  | failed {e : ε} {s' : σ} (valid : validate c = (.ok () : Except (PoolError ε) Unit))
    (answered : dial start c s = (.error e, s')) :
    Ends dial start c s (.error (.database e), s')
  | opened {p : π} {s' : σ} (valid : validate c = (.ok () : Except (PoolError ε) Unit))
    (answered : dial start c s = (.ok p, s')) : Ends dial start c s (.ok p, s')

/-- Every opening ends in one of the three ways. -/
theorem ends_connect (dial : Dial π ε σ) (start : Start) (c : Settings) (s : σ) :
    Ends dial start c s (connect dial start c s) := by
  cases judged : (validate c : Except (PoolError ε) Unit) with
  | error e =>
    obtain ⟨f, rfl⟩ := validate_eq_error judged
    rw [connect_of_invalid judged]
    exact .refused judged
  | ok u =>
    rcases answered : dial start c s with ⟨e | p, s'⟩
    · rw [connect_of_failed judged answered]
      exact .failed judged answered
    · rw [connect_of_opened judged answered]
      exact .opened judged answered

/-- An opening comes to exactly what the three ways allow. -/
theorem connect_eq_iff {outcome : Except (PoolError ε) π × σ} :
    connect dial start c s = outcome ↔ Ends dial start c s outcome := by
  constructor
  · intro h
    rw [← h]
    exact ends_connect dial start c s
  · intro ended
    cases ended with
    | refused invalid => exact connect_of_invalid invalid
    | failed valid answered => exact connect_of_failed valid answered
    | opened valid answered => exact connect_of_opened valid answered

/-- A pool is opened for settings that are valid, and is what the database
    gives for them. -/
theorem connect_eq_ok_iff {p : π} :
    connect dial start c s = (.ok p, s') ↔
      validate c = (.ok () : Except (PoolError ε) Unit) ∧ dial start c s = (.ok p, s') := by
  rw [connect_eq_iff]
  constructor
  · intro ended
    cases ended with
    | opened valid answered => exact ⟨valid, answered⟩
  · intro ⟨valid, answered⟩
    exact .opened valid answered

/-- A fault of the database is what it says of valid settings. -/
theorem connect_eq_database_iff {e : ε} :
    connect dial start c s = (.error (.database e), s') ↔
      validate c = (.ok () : Except (PoolError ε) Unit) ∧ dial start c s = (.error e, s') := by
  rw [connect_eq_iff]
  constructor
  · intro ended
    cases ended with
    | failed valid answered => exact ⟨valid, answered⟩
  · intro ⟨valid, answered⟩
    exact .failed valid answered

/-- A fault of the settings is what validation finds, and the database has not
    been asked then. -/
theorem connect_eq_config_iff {f : Fault} :
    connect dial start c s = (.error (.config f), s') ↔
      validate c = (.error (.config f) : Except (PoolError ε) Unit) ∧ s' = s := by
  rw [connect_eq_iff]
  constructor
  · intro ended
    cases ended with
    | refused invalid => exact ⟨invalid, rfl⟩
  · intro ⟨invalid, untouched⟩
    rw [untouched]
    exact .refused invalid

/-- Valid settings open a pool, or the database fails. -/
theorem connect_of_valid (h : validate c = (.ok () : Except (PoolError ε) Unit))
    (dial : Dial π ε σ) (start : Start) (s : σ) :
    (∃ p, (connect dial start c s).1 = .ok p) ∨
      ∃ e, (connect dial start c s).1 = .error (.database e) := by
  rcases answered : dial start c s with ⟨e | p, s'⟩
  · exact .inr ⟨e, by rw [connect_of_failed h answered]⟩
  · exact .inl ⟨p, by rw [connect_of_opened h answered]⟩

end

/-- **No pool from invalid settings**: settings have the URL of their origin,
    and each number as it was set last, or as the origin has it. They are at
    fault for a blank URL, else for having no connections, whatever the time
    of waiting. If they are, every opening fails with that fault, at once or
    on first use, and leaves the database as it was; if not, none fails with
    a fault of theirs, and all is as the database says. -/
theorem opened_only_if_valid {o : Origin} {c₀ : Settings} (h : o.settings? = some c₀)
    (chs : List Settings.Change) (ε : Type) :
    let c := c₀.changeAll chs
    let judged : Except (PoolError ε) Unit := validate c
    (Acceptable o.members ∧ Holds o.members c₀ ∧ c.url = c₀.url ∧
      c.maxConnections = (lastConnections? chs).getD c₀.maxConnections ∧
      c.acquireTimeout = (lastSeconds? chs).getD c₀.acquireTimeout) ∧
    ((judged = .error (.config .emptyUrl) ↔ IsBlankUrl c.url) ∧
      (judged = .error (.config .noConnections) ↔ ¬ IsBlankUrl c.url ∧ c.maxConnections = 0) ∧
      (judged = .ok () ↔ ¬ IsBlankUrl c.url ∧ c.maxConnections ≠ 0) ∧
      (∀ seconds, validate (c.change (.acquireTimeout seconds)) = judged) ∧
      Fault.emptyUrl.message = "url is empty" ∧
      Fault.noConnections.message = "max_connections must be positive") ∧
    (∀ (π σ : Type) (dial : Dial π ε σ) (start : Start) (s s' : σ),
      (∀ p, connect dial start c s = (.ok p, s') ↔
        judged = .ok () ∧ dial start c s = (.ok p, s')) ∧
      (∀ e, connect dial start c s = (.error (.database e), s') ↔
        judged = .ok () ∧ dial start c s = (.error e, s')) ∧
      ∀ f, connect dial start c s = (.error (.config f), s') ↔
        judged = .error (.config f) ∧ s' = s) ∧
    (∀ e, judged = .error e → (∃ f, e = .config f) ∧
      ∀ (π σ : Type) (dial : Dial π ε σ) (start : Start) (s : σ),
        connect dial start c s = (.error e, s)) ∧
    (judged = .ok () → ∀ (π σ : Type) (dial : Dial π ε σ) (start : Start) (s : σ),
      (∃ p, (connect dial start c s).1 = .ok p) ∨
        ∃ e, (connect dial start c s).1 = .error (.database e)) := by
  intro c judged
  obtain ⟨acceptable, holds⟩ := Origin.holds_of_settings? h
  have changed : c = _ := c₀.changeAll_eq chs
  obtain ⟨blank, none, valid⟩ := validate_iff ε c
  refine ⟨⟨acceptable, holds, ?_, ?_, ?_⟩, ⟨blank, none, valid, ?_, rfl, rfl⟩, ?_, ?_, ?_⟩
  · rw [changed]
  · rw [changed]
  · rw [changed]
  · -- the time of waiting is not looked at
    intro seconds
    rfl
  · intro π σ dial start s s'
    exact ⟨fun p => connect_eq_ok_iff, fun e => connect_eq_database_iff,
      fun f => connect_eq_config_iff⟩
  · intro e invalid
    exact ⟨validate_eq_error invalid, fun π σ dial start s => connect_of_invalid invalid⟩
  · intro valid π σ dial start s
    exact connect_of_valid valid dial start s

/-- A document with a blank URL, of which the connections are set to none and
    then to some. A database that counts how often it is asked is not asked,
    at once or on first use. -/
theorem opened_only_if_valid_blank :
    let o : Origin := .document (.list [.text "\u00a0 ", .whole 3])
    let chs : List Settings.Change := [.maxConnections 0, .acquireTimeout 7, .maxConnections 9]
    let c₀ : Settings := ⟨"\u00a0 ", 3, 30⟩
    let dial : Dial Unit String Nat := fun _ _ asked =>
      (.error "error with configuration: relative URL without a base", asked + 1)
    o.settings? = some c₀ ∧ (c₀.changeAll chs).url = "\u00a0 " ∧
    (c₀.changeAll chs).maxConnections = 9 ∧ (c₀.changeAll chs).acquireTimeout = 7 ∧
    connect dial .atOnce (c₀.changeAll chs) 0 = (.error (.config .emptyUrl), 0) ∧
    connect dial .onFirstUse (c₀.changeAll chs) 0 = (.error (.config .emptyUrl), 0) := by
  intro o chs c₀ dial
  have said : o.settings? = some c₀ := rfl
  obtain ⟨⟨-, -, url, connections, timeout⟩, ⟨fault, -⟩, -, fails, -⟩ :=
    opened_only_if_valid said chs String
  have blank : IsBlankUrl (c₀.changeAll chs).url := by
    rw [url]
    decide
  obtain ⟨-, refused⟩ := fails _ (fault.mpr blank)
  exact ⟨said, url, connections, timeout, refused Unit Nat dial .atOnce 0,
    refused Unit Nat dial .onFirstUse 0⟩

end TypedQuery.Pool
