import GraphQL.Proofs.Sequencing

/-!
# What building keeps

A descriptor is built by asking for the descriptors of other types, by checks, and by failing where a check does.
So what relates computations and is kept by these steps relates building with building, if it relates how the
types that a type needs are described: `Relates.build` is the walk through `build` that every such relation takes.
No check fails with the error that a type embeds itself, which only a description reports.
-/

namespace GraphQL

namespace HostType

/-- The types that a type embeds or that implement it. -/
def buildsOn (type : HostType) : List HostId :=
  type.description.embeds.map (·.target) ++ type.description.implementors

/-- The types that a type embeds, and if it is declared as an interface those that implement it. -/
def needs (type : HostType) : List HostId :=
  type.description.embeds.map (·.target) ++
    if type.description.interfaceFields.isEmpty then [] else type.description.implementors

variable {type : HostType} {id : HostId}

theorem mem_needs : id ∈ type.needs ↔ id ∈ type.description.embeds.map (·.target) ∨
    type.description.interfaceFields.isEmpty = false ∧ id ∈ type.description.implementors := by
  unfold needs
  rw [List.mem_append]
  split
  · next none =>
    rw [none]
    simp
  · next some =>
    rw [eq_false_of_ne_true some]
    simp

theorem buildsOn_of_needs (mem : id ∈ type.needs) : id ∈ type.buildsOn :=
  (mem_needs.1 mem).elim (List.mem_append_left _) fun listed => List.mem_append_right _ listed.2

end HostType

namespace Host

/-- A type is declared as an object also by what it embeds. -/
theorem object_mem_declaredKinds {d : TypeDescription} : "object" ∈ declaredKinds d ↔
    d.isUnion = true ∨ d.fields ≠ [] ∨ d.embeds ≠ [] := by
  unfold declaredKinds
  simp [or_assoc]

theorem interface_mem_declaredKinds {d : TypeDescription} :
    "interface" ∈ declaredKinds d ↔ d.interfaceFields.isEmpty = false := by
  unfold declaredKinds
  simp

/-! ## Checks -/

section

variable {typeName name : String}

theorem checkNames_ne (kind : String) (seen names : List String) :
    checkNames typeName kind seen names ≠ .error (.recursiveEmbedding name) := by
  induction names generalizing seen with
  | nil => rintro ⟨⟩
  | cons first rest ih =>
    rw [checkNames]
    split
    · rintro ⟨⟩
    · split
      · rintro ⟨⟩
      · exact ih _

theorem objectEmbeddings_ne (embedded : List (EmbedStep × TypeDescriptor)) :
    objectEmbeddings typeName embedded ≠ .error (.recursiveEmbedding name) := by
  induction embedded with
  | nil => rintro ⟨⟩
  | cons first rest ih =>
    rw [objectEmbeddings]
    split
    · cases others : objectEmbeddings typeName rest with
      | error e =>
        intro failed
        rw [others] at ih
        exact ih (by simpa [Except.map] using failed)
      | ok all => rintro ⟨⟩
    · rintro ⟨⟩

theorem keepShallowest_ne (kept fields : List FieldDescriptor) :
    keepShallowest typeName kept fields ≠ .error (.recursiveEmbedding name) := by
  induction fields generalizing kept with
  | nil => rintro ⟨⟩
  | cons first rest ih =>
    rw [keepShallowest]
    split
    · exact ih _
    · split
      · split <;> rintro ⟨⟩
      · exact ih _

theorem promote_ne (direct : List FieldDescriptor) (embeddings : List Embedding) :
    promote typeName direct embeddings ≠ .error (.recursiveEmbedding name) := by
  unfold promote
  intro failed
  rcases except_bind_eq_error.1 failed with clash | ⟨_, _, made⟩
  · exact keepShallowest_ne _ _ clash
  · cases made

theorem checkMembers_ne (fields : List FieldDescriptor) :
    checkMembers typeName fields ≠ .error (.recursiveEmbedding name) := by
  induction fields with
  | nil => rintro ⟨⟩
  | cons first rest ih =>
    rw [checkMembers]
    split
    · rintro ⟨⟩
    · exact ih

theorem checkImplementor_ne (fields : List TypedItem) (d : TypeDescriptor) :
    checkImplementor typeName fields d ≠ .error (.recursiveEmbedding name) := by
  unfold checkImplementor
  split
  · split <;> rintro ⟨⟩
  · rintro ⟨⟩

end

/-! ## Relations -/

section

variable {m m' : Type → Type} [Monad m] [MonadExceptOf RegistrationError m] [MonadLiftT (Except RegistrationError) m]
  [Monad m'] [MonadExceptOf RegistrationError m'] [MonadLiftT (Except RegistrationError) m']

/-- A relation of computations that the steps of building a descriptor keep. -/
structure Relates (R : ∀ α : Type, m α → m' α → Prop) : Prop where
  pure {α : Type} (a : α) : R α (pure a) (pure a)
  fail {α β : Type} (e : RegistrationError) (other : ∀ name, e ≠ .recursiveEmbedding name) (f : α → m β)
    (f' : α → m' β) : R β (throw e >>= f) (throw e >>= f')
  lift {α : Type} (result : Except RegistrationError α) (other : ∀ name, result ≠ .error (.recursiveEmbedding name)) :
    R α (liftM result) (liftM result)
  bind {α β : Type} {x : m α} {x' : m' α} {f : α → m β} {f' : α → m' β} (first : R α x x')
    (next : ∀ a, R β (f a) (f' a)) : R β (x >>= f) (x' >>= f')

variable {R : ∀ α : Type, m α → m' α → Prop} {describe : HostId → m TypeDescriptor}
  {describe' : HostId → m' TypeDescriptor}

namespace Relates

theorem forM {κ : Type} (relates : Relates R) {f : κ → m PUnit} {f' : κ → m' PUnit} {items : List κ}
    (each : ∀ a ∈ items, R PUnit (f a) (f' a)) : R PUnit (items.forM f) (items.forM f') := by
  induction items with
  | nil => exact relates.pure _
  | cons a rest ih =>
    obtain ⟨first, others⟩ := List.forall_mem_cons.1 each
    exact relates.bind first fun _ => ih others

theorem embeddings (relates : Relates R) (id : HostId) (index : Nat) {embeds : List EmbedDeclaration}
    (each : ∀ embed ∈ embeds, R _ (describe embed.target) (describe' embed.target)) :
    R _ (embeddings describe id index embeds) (embeddings describe' id index embeds) := by
  induction embeds generalizing index with
  | nil => exact relates.pure _
  | cons embed rest ih =>
    obtain ⟨first, others⟩ := List.forall_mem_cons.1 each
    exact relates.bind first fun _ => relates.bind (ih (index + 1) others) fun _ => relates.pure _

theorem objectKind (relates : Relates R) (id : HostId) (hostName name : String) {d : TypeDescription}
    (each : ∀ embed ∈ d.embeds, R _ (describe embed.target) (describe' embed.target)) :
    R _ (objectKind describe id hostName name d) (objectKind describe' id hostName name d) := by
  unfold Host.objectKind
  refine relates.bind (relates.lift _ fun _ => checkNames_ne _ _ _) fun _ => ?_
  refine relates.bind (relates.embeddings id 0 each) fun embedded => ?_
  refine relates.bind (relates.lift _ fun _ => objectEmbeddings_ne _) fun embeddings => ?_
  refine relates.bind (relates.lift _ fun _ => promote_ne _ _) fun object => ?_
  split
  · exact relates.bind (relates.lift _ fun _ => checkMembers_ne _) fun _ => relates.pure _
  · exact relates.pure _

theorem interfaceKind (relates : Relates R) (name : String) {d : TypeDescription}
    (each : ∀ implementor ∈ d.implementors, R _ (describe implementor) (describe' implementor)) :
    R _ (interfaceKind describe name d) (interfaceKind describe' name d) := by
  unfold Host.interfaceKind
  refine relates.bind (relates.lift _ fun _ => checkNames_ne _ _ _) fun _ => ?_
  refine relates.bind (relates.forM fun implementor mem => ?_) fun _ => relates.pure _
  exact relates.bind (each implementor mem) fun _ => relates.lift _ fun _ => checkImplementor_ne _ _

end Relates

/-- Building is related with building if the descriptions of the types that are needed are. -/
theorem Relates.build (relates : Relates R) (describe : HostId → m TypeDescriptor)
    (describe' : HostId → m' TypeDescriptor) (id : HostId) (type : HostType)
    (each : ∀ part ∈ type.needs, R _ (describe part) (describe' part)) :
    R _ (build describe id type) (build describe' id type) := by
  have embedded : ∀ embed ∈ type.description.embeds, R _ (describe embed.target) (describe' embed.target) :=
    fun embed mem => each _ (HostType.mem_needs.2 (Or.inl (List.mem_map_of_mem mem)))
  have made (kind : TypeKind) := relates.pure (TypeDescriptor.mk (.host id)
    (type.description.name.getD (defaultTypeName type.hostName)) type.description.description kind)
  unfold Host.build
  simp only
  split
  · exact relates.fail _ (by rintro _ ⟨⟩) _ _
  · split
    · exact relates.fail _ (by rintro _ ⟨⟩) _ _
    · exact relates.bind (relates.objectKind id _ _ embedded) made
    · exact relates.bind (relates.lift _ fun _ => checkNames_ne _ _ _) fun _ => relates.bind (relates.pure _) made
    · exact relates.bind (relates.lift _ fun _ => checkNames_ne _ _ _) fun _ => relates.bind (relates.pure _) made
    · next _ declared =>
      refine relates.bind (relates.interfaceKind _ fun implementor mem => ?_) made
      have some : type.description.interfaceFields.isEmpty = false :=
        interface_mem_declaredKinds.1 (declared ▸ List.mem_singleton_self _)
      exact each implementor (HostType.mem_needs.2 (Or.inr ⟨some, mem⟩))
    · exact relates.bind (relates.pure _) made
    · exact relates.fail _ (by rintro _ ⟨⟩) _ _

end

end Host

end GraphQL
