import GraphQL.Proofs.Registry.Flattening

/-!
# Navigation follows the embeddings

The path of a promoted field stands for a chain of embeddings, from the type that has the field to the one that
declares it. `EmbedStep.followAll` follows such a chain; walking the path does the same. In a value of a type, every
step of a chain leads to a value of the embedded type or to a pointer that is missing, so that navigating either
reaches what the value holds at the end of the chain or fails at the first missing pointer. What the value embeds
elsewhere makes no difference.
-/

namespace GraphQL

/-! ## Chains -/

/-- Follows the steps of a chain; the failure is about a field. -/
def EmbedStep.followAll (field : String) : List EmbedStep → HostValue → Except NavigationError HostValue
  | [], value => .ok value
  | step :: chain, value =>
    match step.follow value with
    | some inner => followAll field chain inner
    | none =>
      match step.kind with
      | .pointer => .error (.nilEmbeddedPointer field step.typeName)
      | .value => .error (.unexpectedValue field step.typeName)

/-- Walking a path is following the steps at its places. -/
theorem ObjectFields.walk_eq {object : ObjectFields} {name : String} {path : List Nat} {chain : List EmbedStep}
    (located : path.map (object.steps[·]?) = chain.map some) (value : HostValue) :
    object.walk name path value = EmbedStep.followAll name chain value := by
  induction path generalizing chain value with
  | nil =>
    cases chain with
    | nil => rfl
    | cons step chain => cases located
  | cons place path ih =>
    cases chain with
    | nil => cases located
    | cons step chain =>
      simp only [List.map_cons, List.cons.injEq] at located
      obtain ⟨found, located⟩ := located
      simp only [ObjectFields.walk, EmbedStep.followAll, found]
      cases step.follow value with
      | none => rfl
      | some inner => exact ih located inner

/-- The value holds another one at the end of a chain: at each step there is one at the index of the step. -/
inductive HostValue.Holds : List EmbedStep → HostValue → HostValue → Prop
  | here (value : HostValue) : Holds [] value value
  | step {step : EmbedStep} {chain : List EmbedStep} {value next inner : HostValue}
    (held : value.embedded[step.index]? = some (some next)) (rest : Holds chain next inner) :
    Holds (step :: chain) value inner

namespace Host

/-- A chain of declared embeddings leads from one type to another. -/
inductive Leads (host : Host) : HostId → List EmbedStep → HostId → Prop
  | here (id : HostId) : Leads host id [] id
  | step {id target : HostId} {step : EmbedStep} {chain : List EmbedStep} (declared : step ∈ host.steps id)
    (rest : Leads host step.target chain target) : Leads host id (step :: chain) target

/-- A value has what its type declares: for each embedding a value of the embedded type, which only a pointer may lack. -/
inductive Instance (host : Host) : HostValue → Prop
  | intro {value : HostValue} {type : HostType} (known : host.types[value.type]? = some type)
    (count : value.embedded.length = type.description.embeds.length)
    (present : ∀ (i : Nat) (embed : EmbedDeclaration), type.description.embeds[i]? = some embed → embed.kind = .value →
      value.embedded[i]? ≠ some none)
    (typed : ∀ (i : Nat) (embed : EmbedDeclaration) (inner : HostValue), type.description.embeds[i]? = some embed →
      value.embedded[i]? = some (some inner) → inner.type = embed.target)
    (inside : ∀ (i : Nat) (inner : HostValue), value.embedded[i]? = some (some inner) → Instance host inner) :
    Instance host value

variable {host : Host}

theorem owner_path_of_declared {id : HostId} {field : FieldDescriptor} (declared : field ∈ host.declared id) :
    field.owner = id ∧ field.path = [] := by
  unfold Host.declared at declared
  split at declared
  · obtain ⟨_, -, rfl⟩ := List.mem_map.1 declared
    exact ⟨rfl, rfl⟩
  · cases declared

/-- Fields in the tree of a type are declared where their chains lead. -/
theorem leads_of_mem_level {id : HostId} {depth : Nat} {o : EmbeddedField} (mem : o ∈ host.level id depth) :
    host.Leads id o.chain o.field.owner ∧ o.field ∈ host.declared o.field.owner := by
  induction depth generalizing id o with
  | zero =>
    obtain ⟨field, declared, rfl⟩ := List.mem_map.1 mem
    rw [(owner_path_of_declared declared).1]
    exact ⟨.here id, declared⟩
  | succ depth ih =>
    obtain ⟨step, declared, inner, there, rfl⟩ := mem_level_succ.1 mem
    obtain ⟨leads, own⟩ := ih there
    exact ⟨.step declared leads, own⟩

theorem Leads.typeName {id target : HostId} {chain : List EmbedStep} (leads : host.Leads id chain target) :
    ∀ step ∈ chain, step.typeName = host.declaredName step.target := by
  induction leads with
  | here => exact List.forall_mem_nil _
  | step declared _ ih =>
    refine List.forall_mem_cons.2 ⟨?_, ih⟩
    unfold Host.steps at declared
    split at declared
    · obtain ⟨i, less, rfl⟩ := List.mem_mapIdx.1 declared
      rfl
    · cases declared

/-- One step inside a value of the type that declares it. -/
theorem Instance.follow {value : HostValue} {step : EmbedStep} (instance' : host.Instance value)
    (declared : step ∈ host.steps value.type) :
    (∃ next, value.embedded[step.index]? = some (some next) ∧ step.follow value = some next ∧ next.type = step.target ∧
      host.Instance next) ∨
    value.embedded[step.index]? = some none ∧ step.follow value = none ∧ step.kind = .pointer := by
  cases instance' with
  | @intro _ type known count present typed inside =>
    rw [steps_eq known] at declared
    obtain ⟨i, less, rfl⟩ := List.mem_mapIdx.1 declared
    have embed := List.getElem?_eq_getElem less
    have there : i < value.embedded.length := by omega
    simp only [stepTo, EmbedStep.follow, if_true]
    cases held : value.embedded[i] with
    | some next =>
      have found : value.embedded[i]? = some (some next) := by rw [List.getElem?_eq_getElem there, held]
      have of := typed i _ next embed found
      exact Or.inl ⟨next, found, by simp only [found, of, if_true], of, inside i next found⟩
    | none =>
      have found : value.embedded[i]? = some none := by rw [List.getElem?_eq_getElem there, held]
      refine Or.inr ⟨found, by simp only [found], ?_⟩
      cases kind : type.description.embeds[i].kind with
      | pointer => rfl
      | value => exact absurd found (present i _ embed kind)

/-- In a value of a type every chain of its embeddings is held to the end or is missing a pointer, and following the
chain comes to the value at the end or fails at the first pointer that is missing. -/
theorem Leads.followAll {id target : HostId} {chain : List EmbedStep} (leads : host.Leads id chain target)
    {value : HostValue} (of : value.type = id) (instance' : host.Instance value) (field : String) :
    (∃ inner, HostValue.Holds chain value inner ∧ EmbedStep.followAll field chain value = .ok inner ∧
      inner.type = target) ∨
    ∃ before step after inner, chain = before ++ step :: after ∧ HostValue.Holds before value inner ∧
      inner.embedded[step.index]? = some none ∧
      EmbedStep.followAll field chain value = .error (.nilEmbeddedPointer field step.typeName) := by
  induction leads generalizing value with
  | here id => exact Or.inl ⟨value, .here value, rfl, of⟩
  | step declared rest ih =>
    rw [← of] at declared
    obtain ⟨next, held, follows, of', instance'⟩ | ⟨missing, stops, pointer⟩ := instance'.follow declared
    · simp only [EmbedStep.followAll, follows]
      obtain ⟨inner, holds, reached, of⟩ | ⟨before, step, after, inner, rfl, holds, missing, failed⟩ := ih of' instance'
      · exact Or.inl ⟨inner, .step held holds, reached, of⟩
      · exact Or.inr ⟨_ :: before, step, after, inner, rfl, .step held holds, missing, failed⟩
    · refine Or.inr ⟨[], _, _, value, rfl, .here value, missing, ?_⟩
      simp only [EmbedStep.followAll, stops, pointer]

end Host

/-! ## What is embedded elsewhere -/

namespace HostValue

/-- The value with something else, or nothing, embedded at a place inside it. -/
def withEmbedded (other : Option HostValue) : List Nat → HostValue → HostValue
  | [], value => value
  | [i], .mk type content fields embedded => .mk type content fields (embedded.set i other)
  | i :: place, .mk type content fields embedded =>
    .mk type content fields (embedded.modify i fun inner => inner.map (withEmbedded other place))

variable (other : Option HostValue)

@[simp] theorem type_withEmbedded (place : List Nat) (value : HostValue) :
    (value.withEmbedded other place).type = value.type := by
  unfold withEmbedded
  split <;> rfl

@[simp] theorem read_withEmbedded (place : List Nat) (value : HostValue) (name : String) :
    (value.withEmbedded other place).read name = value.read name := by
  unfold withEmbedded
  split <;> rfl

@[simp] theorem withEmbedded_nil (value : HostValue) : value.withEmbedded other [] = value := by
  simp only [withEmbedded]

/-- Another place: what is embedded at an index has changed inside at most. -/
theorem embedded_withEmbedded {place : List Nat} {i : Nat} (elsewhere : place ≠ [i]) (value : HostValue) :
    ∃ rest, (place = i :: rest ∨ rest = []) ∧
      (value.withEmbedded other place).embedded[i]? = value.embedded[i]?.map (Option.map (withEmbedded other rest)) := by
  obtain ⟨type, content, fields, embedded⟩ := value
  have unchanged : embedded[i]?.map (Option.map (withEmbedded other [])) = embedded[i]? := by
    rw [funext (withEmbedded_nil other)]
    simp
  cases place with
  | nil => exact ⟨[], Or.inr rfl, by rw [withEmbedded_nil]; exact unchanged.symm⟩
  | cons j place =>
    cases place with
    | nil =>
      have ne : j ≠ i := fun same => elsewhere (by rw [same])
      refine ⟨[], Or.inr rfl, Eq.trans ?_ unchanged.symm⟩
      simp only [withEmbedded, HostValue.embedded, List.getElem?_set_ne ne]
    | cons k place =>
      by_cases same : j = i
      · subst same
        refine ⟨k :: place, Or.inl rfl, ?_⟩
        simp only [withEmbedded, HostValue.embedded, List.getElem?_modify_eq]
        rfl
      · refine ⟨[], Or.inr rfl, Eq.trans ?_ unchanged.symm⟩
        simp only [withEmbedded, HostValue.embedded]
        exact List.getElem?_modify_ne _ _ same

theorem follow_withEmbedded {place : List Nat} {step : EmbedStep} (elsewhere : place ≠ [step.index])
    (value : HostValue) :
    ∃ rest, (place = step.index :: rest ∨ rest = []) ∧
      step.follow (value.withEmbedded other place) = (step.follow value).map (withEmbedded other rest) := by
  obtain ⟨rest, inside, eq⟩ := embedded_withEmbedded other elsewhere value
  refine ⟨rest, inside, ?_⟩
  simp only [EmbedStep.follow, type_withEmbedded, eq]
  split
  · cases value.embedded[step.index]? with
    | none => rfl
    | some held =>
      cases held with
      | none => rfl
      | some next =>
        simp only [Option.map_some, type_withEmbedded]
        split <;> rfl
  · rfl

/-- A chain that does not go through the place leads to the same value, but for what has changed inside that one. -/
theorem followAll_withEmbedded {chain : List EmbedStep} {place : List Nat}
    (elsewhere : ¬place <+: chain.map (·.index)) (field : String) (value : HostValue) :
    ∃ rest, EmbedStep.followAll field chain (value.withEmbedded other place) =
      (EmbedStep.followAll field chain value).map (withEmbedded other rest) := by
  induction chain generalizing place value with
  | nil => exact ⟨place, rfl⟩
  | cons step chain ih =>
    have ne : place ≠ [step.index] := by
      rintro rfl
      exact elsewhere (by simp)
    obtain ⟨rest, inside, follows⟩ := follow_withEmbedded other ne value
    simp only [EmbedStep.followAll, follows]
    cases step.follow value with
    | none =>
      refine ⟨[], ?_⟩
      cases step.kind <;> rfl
    | some next =>
      rcases inside with rfl | rfl
      · exact ih (fun through => elsewhere (List.cons_prefix_cons.2 ⟨rfl, through⟩)) next
      · refine ⟨[], ?_⟩
        simp only [Option.map_some, withEmbedded_nil]
        cases EmbedStep.followAll field chain next with
        | error e => rfl
        | ok inner => simp [Except.map]

end HostValue

namespace Host

variable {host : Host} {r : Registry} {id : HostId}

/-- Navigation follows the chain of embeddings that leads to the type that declares a field, the shallowest one of
its name. In a value of the type it reaches what the value holds at the end of the chain, and reading the field is
reading it there; or a pointer of the chain is missing, and the failure names the type of the first one. What is
embedded at a place that the chain does not go through has no influence on what is read. -/
theorem navigate_follows {d : TypeDescriptor} {object : ObjectFields} {field : FieldDescriptor}
    (reachable : host.Reachable r) (cached : r.find? (.host id) = some d) (table : d.objectFields? = some object)
    (mem : field ∈ object.fields) :
    (∀ place ∈ field.path, place < object.steps.length) ∧
    ∃ chain, host.Leads id chain field.owner ∧ host.Shallowest id field.depth ⟨chain, { field with path := [] }⟩ ∧
      (∀ value : HostValue, value.type = id → host.Instance value →
        (∃ inner, HostValue.Holds chain value inner ∧ object.navigate field value = .ok inner ∧
          field.read inner = inner.read field.name) ∨
        ∃ before step after inner, chain = before ++ step :: after ∧ HostValue.Holds before value inner ∧
          inner.embedded[step.index]? = some none ∧
          object.navigate field value = .error (.nilEmbeddedPointer field.name (host.declaredName step.target))) ∧
      ∀ (value : HostValue) (other : Option HostValue) (place : List Nat), ¬place <+: chain.map (·.index) →
        (object.navigate field (value.withEmbedded other place)).map field.read =
          (object.navigate field value).map field.read := by
  obtain ⟨-, flat⟩ := reachable.flattens _ (Entries.mem_of_find? cached) _ _ rfl table
  obtain ⟨o, seen, locates⟩ := flat.exists_occurrence mem
  obtain ⟨leads, own⟩ := leads_of_mem_level (mem_visible.1 seen).1
  have owner : field.owner = o.field.owner := by rw [locates.declared]
  have plain : { field with path := [] } = o.field := by
    rw [locates.declared, ← (owner_path_of_declared own).2]
  have walks (value : HostValue) : object.navigate field value = EmbedStep.followAll field.name o.chain value :=
    ObjectFields.walk_eq locates.chain value
  rw [← owner] at leads
  refine ⟨locates.inRange, o.chain, leads, ?_, ?_, ?_⟩
  · rw [plain]
    exact shallowest_of_visible seen (flat.not_ambiguous _ _)
  · intro value of instance'
    rw [walks]
    obtain ⟨inner, holds, reached, of⟩ | ⟨before, step, after, inner, split', holds, missing, failed⟩ :=
      leads.followAll of instance' field.name
    · exact Or.inl ⟨inner, holds, reached, by rw [FieldDescriptor.read, if_pos of]⟩
    · refine Or.inr ⟨before, step, after, inner, split', holds, missing, ?_⟩
      rw [failed, leads.typeName step (by simp [split'])]
  · intro value other place elsewhere
    obtain ⟨rest, follows⟩ := HostValue.followAll_withEmbedded other elsewhere field.name value
    rw [walks, walks, follows]
    cases EmbedStep.followAll field.name o.chain value with
    | error e => rfl
    | ok inner => simp [Except.map, FieldDescriptor.read]

end Host

/-! ## A chain of two pointers -/

namespace Profile

def memberFields : ObjectFields := ⟨[⟨.pointer, 4, 0, 1, "Account"⟩, ⟨.pointer, 1, 0, 0, "Audit"⟩], [noted [0, 1]]⟩

theorem member_cached : registry.find? (.host 4) = some ⟨.host 4, "Member", none, .object memberFields⟩ := by
  with_unfolding_all rfl

def audited : HostValue := .mk 0 .none [("note", .ok (.string "seen"))] []

/-- A member whose account may have an audit. -/
def memberWith (audit : Option HostValue) : HostValue := .mk 4 .none [] [some (.mk 1 .none [] [audit])]

theorem audited_instance : host.Instance audited := by
  have known : host.types[audited.type]? = some audit := rfl
  refine .intro known rfl ?_ ?_ ?_ <;> intro i <;> simp [audit, audited, HostValue.embedded]

/-- Values of a type that embeds one pointer. -/
theorem instance_of_pointer {id target : HostId} {hostName : String} {inner : Option HostValue}
    (known : host.types[id]? = some { hostName, description := { embeds := [⟨target, .pointer⟩] } })
    (each : ∀ value, inner = some value → value.type = target ∧ host.Instance value) :
    host.Instance (.mk id .none [] [inner]) := by
  refine .intro known rfl ?_ ?_ ?_
  · intro i embed there kind
    cases i with
    | zero =>
      cases there
      cases kind
    | succ i => cases there
  · intro i embed value there held
    cases i with
    | zero =>
      cases there
      exact (each value (Option.some.inj held)).1
    | succ i => cases there
  · intro i value held
    cases i with
    | zero => exact (each value (Option.some.inj held)).2
    | succ i => cases held

theorem memberWith_instance {audit : Option HostValue}
    (each : ∀ value, audit = some value → value.type = 0 ∧ host.Instance value) : host.Instance (memberWith audit) := by
  have account : host.Instance (.mk 1 .none [] [audit]) := instance_of_pointer rfl each
  refine instance_of_pointer (by with_unfolding_all rfl) fun value eq => ?_
  cases eq
  exact ⟨rfl, account⟩

/-- The note of the audit is read, and without an audit the failure says so. -/
theorem note_followed :
    ∃ chain, host.Leads 4 chain 0 ∧ chain.length = 2 ∧
      (∃ inner, HostValue.Holds chain (memberWith (some audited)) inner ∧
        memberFields.navigate (noted [0, 1]) (memberWith (some audited)) = .ok inner ∧
        (noted [0, 1]).read inner = .ok (.string "seen")) ∧
      ∃ before step after inner, chain = before ++ step :: after ∧ HostValue.Holds before (memberWith none) inner ∧
        inner.embedded[step.index]? = some none ∧
        memberFields.navigate (noted [0, 1]) (memberWith none) = .error (.nilEmbeddedPointer "note" "Audit") := by
  have mem : noted [0, 1] ∈ memberFields.fields := List.mem_singleton.2 rfl
  obtain ⟨-, chain, leads, shallowest, follows, -⟩ :=
    Host.navigate_follows registry_reachable member_cached rfl mem
  have inTree : (⟨chain, noted []⟩ : EmbeddedField) ∈ host.level 4 2 :=
    (List.mem_filter.1 (shallowest.1 ▸ List.mem_singleton.2 rfl)).1
  refine ⟨chain, leads, Host.length_chain inTree, ?_, ?_⟩
  · have reached : memberFields.navigate (noted [0, 1]) (memberWith (some audited)) = .ok audited := rfl
    have instance' : host.Instance (memberWith (some audited)) := by
      apply memberWith_instance
      rintro _ ⟨⟩
      exact ⟨rfl, audited_instance⟩
    obtain ⟨inner, holds, ok, -⟩ | ⟨_, _, _, _, _, _, _, failed⟩ := follows _ rfl instance'
    · cases reached.symm.trans ok
      exact ⟨audited, holds, reached, by with_unfolding_all rfl⟩
    · cases reached.symm.trans failed
  · have failed : memberFields.navigate (noted [0, 1]) (memberWith none) =
        .error (.nilEmbeddedPointer "note" "Audit") := rfl
    have instance' : host.Instance (memberWith none) := by
      apply memberWith_instance
      intro _ absent
      cases absent
    obtain ⟨_, _, ok, -⟩ | ⟨before, step, after, inner, split', holds, missing, -⟩ := follows _ rfl instance'
    · cases failed.symm.trans ok
    · exact ⟨before, step, after, inner, split', holds, missing, failed⟩

end Profile

end GraphQL
