import GraphQL.Registry.Descriptor
import GraphQL.Registry.Error

/-!
# Unions

A union is an object of which exactly one field is not nil. Its fields must be direct, plain data, and
of a shape that can be nil. `dereference` replaces a value of a union by its only member.
-/

namespace GraphQL

/-- Why a field cannot be a member of a union, if it cannot. -/
def FieldDescriptor.memberFault (field : FieldDescriptor) : Option String :=
  if field.depth > 0 then some "embedded field"
  else if field.source = .method then some "method"
  else if field.shape = .value then some "plain value"
  else none

/-- Checks that every field of a union can be nil. -/
def checkMembers (typeName : String) : List FieldDescriptor → Except RegistrationError Unit
  | [] => .ok ()
  | field :: rest =>
    match field.memberFault with
    | some kind => .error (.invalidUnionFieldKind typeName field.name kind)
    | none => checkMembers typeName rest

inductive UnionError where
  | allNil (typeName : String)
  | severalSet (typeName : String) (fields : List String)
  /-- The getter of a member failed. -/
  | member (typeName message : String)
  /-- The getter of a member panicked, which nothing between it and the caller catches. -/
  | panic (message : String)
deriving Repr

def UnionError.message : UnionError → String
  | allNil typeName => s!"union {typeName}: all fields nil"
  | severalSet typeName fields =>
    s!"union {typeName}: more than one field is not nil (" ++ ", ".intercalate fields ++ ")"
  | member typeName message => s!"union {typeName}: {message}"
  | panic message => message

/-- A value without the union around it. -/
inductive Dereferenced where
  /-- The value of a type that is no union. -/
  | unchanged (value : HostValue)
  | member (field : String) (type : TypeRef) (value : Resolved)

/-- The fields that are not nil, with what they resolve to. -/
def setMembers (typeName : String) (value : HostValue) :
    List FieldDescriptor → Except UnionError (List (FieldDescriptor × Resolved))
  | [] => .ok []
  | field :: rest =>
    match field.read value with
    | .error (.error e) => .error (.member typeName e.message)
    | .error (.panic message) => .error (.panic message)
    | .ok resolved =>
      (setMembers typeName value rest).map fun set => if resolved.isNil then set else (field, resolved) :: set

/-- Replaces a value of a union by its only member that is not nil. -/
def dereference (descriptor : TypeDescriptor) (value : HostValue) : Except UnionError Dereferenced :=
  match descriptor.kind with
  | .union object =>
    match setMembers descriptor.name value object.fields with
    | .error e => .error e
    | .ok [] => .error (.allNil descriptor.name)
    | .ok [(field, resolved)] => .ok (.member field.name field.type resolved)
    | .ok several => .error (.severalSet descriptor.name (several.map (·.1.name)))
  | _ => .ok (.unchanged value)

theorem sizeOf_setMembers_lt {typeName : String} {value : HostValue} {fields : List FieldDescriptor}
    {set : List (FieldDescriptor × Resolved)} (h : setMembers typeName value fields = .ok set) :
    ∀ member ∈ set, sizeOf member.2 < sizeOf value := by
  induction fields generalizing set with
  | nil =>
    cases h
    simp
  | cons field rest ih =>
    rw [setMembers] at h
    split at h
    · cases h
    · cases h
    · next resolved reads =>
      cases hs : setMembers typeName value rest with
      | error e => simp [hs, Except.map] at h
      | ok others =>
        simp only [hs, Except.map, Except.ok.injEq] at h
        subst h
        split
        · exact ih hs
        · intro member hm
          rcases List.mem_cons.1 hm with rfl | hm
          · exact FieldDescriptor.sizeOf_read_lt reads
          · exact ih hs member hm

/-- A member of a union is smaller than the value of the union. -/
theorem sizeOf_dereference_lt {descriptor : TypeDescriptor} {value : HostValue} {name : String} {type : TypeRef}
    {r : Resolved} (h : dereference descriptor value = .ok (.member name type r)) : sizeOf r < sizeOf value := by
  unfold dereference at h
  split at h
  · split at h
    · cases h
    · cases h
    · next sets =>
      cases h
      exact sizeOf_setMembers_lt sets _ List.mem_cons_self
    · cases h
  · cases h

end GraphQL
